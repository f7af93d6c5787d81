import Alerting.Dispatch.Report

/-!
# Recovery

After every tick, the stored events of a rule are reconciled with the fingerprints that matched
(`Engine.reconcile`):

* an unconfirmed alert that no longer matches is discarded;
* an alert that was missing and matches again is active again;
* an active alert that stopped matching is pending, and recovers when it has been missing for its grace period;
* a suppressed alert still matches and is left alone.

The three reads come first, and if one of them fails nothing is written. Afterwards every fingerprint is dealt
with by itself: a move that the states do not allow and a write that fails are noted, and the fingerprint is
skipped.
-/

namespace Alerting

/-- What a recovery pass changed. -/
structure RecoveryReport where
  /-- Unconfirmed alerts that were discarded. -/
  deleted : List String
  /-- Alerts that are active again. -/
  reactivated : List String
  /-- Alerts that have gone missing. -/
  pending : List String
  /-- Alerts that have recovered. -/
  recovered : List String
  /-- Alerts that were skipped because of a move that is not allowed or a write that failed. -/
  skipped : List String
  deriving DecidableEq

namespace RecoveryReport

def empty : RecoveryReport := ⟨[], [], [], [], []⟩

instance : Inhabited RecoveryReport := ⟨empty⟩

def isEmpty (r : RecoveryReport) : Bool :=
  r.deleted.isEmpty && r.reactivated.isEmpty && r.pending.isEmpty && r.recovered.isEmpty

def skip (r : RecoveryReport) (fingerprint : String) : RecoveryReport :=
  { r with skipped := r.skipped ++ [fingerprint] }

end RecoveryReport

/-- What a recovery pass is about. -/
structure Scope where
  tenant : String
  rule : String
  eventsKey : String
  infoKey : String
  deriving DecidableEq

/-- The scope of a rule. -/
def Rule.scope (r : Rule) : Scope :=
  ⟨r.tenantId, r.id, eventsKey r.tenantId r.faultCenterId, infoKey r.tenantId r.faultCenterId⟩

/-- The grace period of an event: its own, else that of the fault center, else the configured one. -/
def Config.graceOf (c : Config) (event : Event) (info : Option FaultCenter) : Duration :=
  match event.recoverWaitSecs.filter (0 < ·) with
  | some secs => .ofSecs secs
  | none => c.recoverWait ((info.map (·.recoverWaitSecs)).getD 0)

namespace Engine

/-! ## Steps on one fingerprint -/

def discard (e : Engine) (r : RecoveryReport) (fingerprint : String) (event : Event) : Result RecoveryReport :=
  match e.remove event.tenantId event.faultCenterId fingerprint with
  | (.ok (), e) => ({ r with deleted := r.deleted ++ [fingerprint] }, e)
  | (.error error, e) => (r.skip fingerprint, e.note (.discardFailed fingerprint error))

/-- Forgets that a fingerprint is missing; a failure is only noted. -/
def clearPending (e : Engine) (scope : Scope) (fingerprint : String) : Engine :=
  match e.pendingDelete scope.tenant scope.rule fingerprint with
  | (.ok (), e) => e
  | (.error error, e) => e.note (.pendingNotCleared fingerprint error)

/-- Makes an alert active again, if there still is one, and forgets that it was missing. -/
def reactivate (e : Engine) (scope : Scope) (now : Instant) (owned : Table Event) (r : RecoveryReport)
    (fingerprint : String) : Result (Table Event × RecoveryReport) :=
  match owned.get? fingerprint with
  | none => ((owned, r), e.clearPending scope fingerprint)
  | some event =>
    match event.transition .alerting now with
    | .error error => ((owned, r.skip fingerprint), e.note (.moveRefused scope.rule error))
    | .ok next =>
      match e.push next with
      | (.error error, e) => ((owned, r.skip fingerprint), e.note (.reactivationNotStored fingerprint error))
      | (.ok (), e) =>
        ((owned.insert fingerprint next, { r with reactivated := r.reactivated ++ [fingerprint] }),
          e.clearPending scope fingerprint)

/-- Records that an alert has gone missing: first the time, then the new state. -/
def beginPending (e : Engine) (scope : Scope) (now : Instant) (r : RecoveryReport) (event : Event) :
    Result RecoveryReport :=
  match event.transition .pendingRecovery now with
  | .error error => (r.skip event.fingerprint, e.note (.moveRefused scope.rule error))
  | .ok next =>
    match e.pendingSet scope.tenant scope.rule event.fingerprint now with
    | (.error error, e) => (r.skip event.fingerprint, e.note (.pendingNotStored event.fingerprint error))
    | (.ok (), e) =>
      match e.push next with
      | (.error error, e) => (r.skip event.fingerprint, e.note (.pendingNotStored event.fingerprint error))
      | (.ok (), e) => ({ r with pending := r.pending ++ [event.fingerprint] }, e)

/-- Ends an alert: first the new state, then the time is forgotten. -/
def completeRecovery (e : Engine) (scope : Scope) (now : Instant) (r : RecoveryReport) (event : Event) :
    Result RecoveryReport :=
  match event.transition .recovered now with
  | .error error => (r.skip event.fingerprint, e.note (.moveRefused scope.rule error))
  | .ok next =>
    match e.push next with
    | (.error error, e) => (r.skip event.fingerprint, e.note (.recoveryNotStored event.fingerprint error))
    | (.ok (), e) =>
      ({ r with recovered := r.recovered ++ [event.fingerprint] }, e.clearPending scope event.fingerprint)

/-- Deals with an alert that may be missing: it goes missing, or it recovers once its grace period is over. -/
def settle (e : Engine) (config : Config) (scope : Scope) (info : Option FaultCenter) (pending : Table Instant)
    (now : Instant) (r : RecoveryReport) (fingerprint : String) (event : Event) : Result RecoveryReport :=
  match pending.get? fingerprint with
  | none => e.beginPending scope now r event
  | some since =>
    if event.status = .pendingRecovery ∧ config.graceOf event info ≤ now.elapsedSince since then
      e.completeRecovery scope now r event
    else (r, e)

/-! ## Steps on all fingerprints -/

def discardAll : Engine → RecoveryReport → List (String × Event) → Result RecoveryReport
  | e, r, [] => (r, e)
  | e, r, (fingerprint, event) :: rest =>
    let (r, e) := e.discard r fingerprint event
    discardAll e r rest

def reactivateAll (scope : Scope) (now : Instant) :
    Engine → Table Event → RecoveryReport → List String → Result (Table Event × RecoveryReport)
  | e, owned, r, [] => ((owned, r), e)
  | e, owned, r, fingerprint :: rest =>
    let ((owned, r), e) := e.reactivate scope now owned r fingerprint
    reactivateAll scope now e owned r rest

def settleAll (config : Config) (scope : Scope) (info : Option FaultCenter) (pending : Table Instant) (now : Instant) :
    Engine → RecoveryReport → List (String × Event) → Result RecoveryReport
  | e, r, [] => (r, e)
  | e, r, (fingerprint, event) :: rest =>
    let (r, e) := e.settle config scope info pending now r fingerprint event
    settleAll config scope info pending now e r rest

/-! ## The pass -/

/-- The events that a pass deals with: those of the rule that are current or not suppressed. -/
def owned (scope : Scope) (current suppressed : List String) (all : Table Event) : Table Event :=
  all.filter fun fingerprint event =>
    event.ruleId == scope.rule && event.tenantId == scope.tenant &&
      (current.contains fingerprint || !suppressed.contains fingerprint)

/-- A recovery pass over what was read. -/
def reconcileRead (e : Engine) (config : Config) (scope : Scope) (current suppressed : List String) (now : Instant)
    (all : Table Event) (pending : Table Instant) (info : Option FaultCenter) : Result RecoveryReport :=
  let isStale (fingerprint : String) (event : Event) : Bool :=
    event.status == .preAlert && !current.contains fingerprint
  let mine := owned scope current suppressed all
  let (r, e) := discardAll e .empty (mine.filter isStale).toList
  let kept := mine.filter fun fingerprint event => !isStale fingerprint event
  let ((kept, r), e) := reactivateAll scope now e kept r (pending.filter fun fingerprint _ =>
    current.contains fingerprint).keys
  let missing := kept.filter fun fingerprint event => !event.status.isTerminal && !current.contains fingerprint
  settleAll config scope info pending now e r missing.toList

/-- Reconciles the stored events of a rule with the current and the suppressed fingerprints. An empty fingerprint
is never current. -/
def reconcile (e : Engine) (config : Config) (scope : Scope) (current suppressed : List String) (now : Instant) :
    Result (Except EngineError RecoveryReport) :=
  if scope.eventsKey.isEmpty || scope.infoKey.isEmpty then
    (.ok .empty, e.note (.emptyKey scope.tenant scope.rule))
  else
    match e.getAll scope.eventsKey with
    | (.error error, e) => (.error error, e)
    | (.ok all, e) =>
      match e.pendingList scope.tenant scope.rule with
      | (.error error, e) => (.error error, e)
      | (.ok pending, e) =>
        match e.info scope.infoKey with
        | (.error error, e) => (.error error, e)
        | (.ok info, e) =>
          let current := current.filter fun fingerprint => !fingerprint.isEmpty
          let (r, e) := e.reconcileRead config scope current suppressed now all pending info
          (.ok r, e)

/-- Reconciles the stored events of a rule with the report of a dispatch. -/
def recoverTick (e : Engine) (config : Config) (scope : Scope) (report : Report) (now : Instant) :
    Result (Except EngineError RecoveryReport) :=
  e.reconcile config scope report.fingerprints report.suppressed now

/-- Dispatches a rule and, unless that panics, reconciles its events. -/
def tick (e : Engine) (config : Config) (rule : Rule) (readings : List Reading) (now : Instant) :
    Result (Except Panic (Report × Except EngineError RecoveryReport)) :=
  match e.dispatch rule readings with
  | (.error p, e) => (.error p, e)
  | (.ok report, e) =>
    let (r, e) := e.recoverTick config rule.scope report now
    (.ok (report, r), e)

end Engine

end Alerting
