import Alerting.Proofs.Recovery.Jobs

/-!
# What a recovery pass does to a fingerprint

A pass is a chain of changes, each of them made for one fingerprint (`reconcile_keeps`). When no call fails, the pass
ends well, and what becomes of a fingerprint depends only on what was kept about it, on whether it is current or
suppressed, and on the time (`Cell.pass`, `reconcile_of_healthy`).
-/

namespace Alerting

/-! ## Reports -/

/-- What a pass reports about a fingerprint. -/
inductive Verdict
  | deleted
  | reactivated
  | pending
  | recovered
  | skipped
  deriving DecidableEq

namespace RecoveryReport

/-- The fingerprints with a verdict. -/
def list (r : RecoveryReport) : Verdict → List String
  | .deleted => r.deleted
  | .reactivated => r.reactivated
  | .pending => r.pending
  | .recovered => r.recovered
  | .skipped => r.skipped

/-- The report with a verdict more. -/
def add (r : RecoveryReport) (fingerprint : String) : Verdict → RecoveryReport
  | .deleted => { r with deleted := r.deleted ++ [fingerprint] }
  | .reactivated => { r with reactivated := r.reactivated ++ [fingerprint] }
  | .pending => { r with pending := r.pending ++ [fingerprint] }
  | .recovered => { r with recovered := r.recovered ++ [fingerprint] }
  | .skipped => r.skip fingerprint

theorem mem_list_empty (k : String) (v : Verdict) : k ∉ empty.list v := by
  cases v <;> simp [empty, list]

theorem mem_list_add {r : RecoveryReport} {fingerprint k : String} {v w : Verdict} :
    k ∈ (r.add fingerprint v).list w ↔ k ∈ r.list w ∨ k = fingerprint ∧ v = w := by
  cases v <;> cases w <;> simp [add, list, skip]

end RecoveryReport

/-! ## One fingerprint -/

/-- Whether an event belongs to the rule of a pass. -/
def Scope.owns (scope : Scope) (event : Event) : Bool :=
  event.ruleId == scope.rule && event.tenantId == scope.tenant

/-- The status of the event that the rule of a pass has. -/
def Cell.status (c : Cell) (scope : Scope) : Option Status := (c.record.filter scope.owns).map (·.status)

/-- What comes of a job when no call fails. -/
def Job.result (config : Config) (info : Option FaultCenter) (now : Instant) (c : Cell) :
    Job → Option Verdict × Cell
  | discard _ => (some .deleted, { c with record := none })
  | reactivate none => (none, { c with since := none })
  | reactivate (some event) =>
    if event.status.allows .alerting then (some .reactivated, ⟨some (event.moved .alerting now), none⟩)
    else (some .skipped, c)
  | settle event =>
    match c.since with
    | none =>
      if event.status.allows .pendingRecovery then
        (some .pending, ⟨some (event.moved .pendingRecovery now), some now⟩)
      else (some .skipped, c)
    | some since =>
      if event.status = .pendingRecovery ∧ config.graceOf event info ≤ now.elapsedSince since then
        (some .recovered, ⟨some (event.moved .recovered now), none⟩)
      else (none, c)

/-- Whether a call of a pass is about a fingerprint. -/
def Call.isAbout (fingerprint : String) : Call → Bool
  | push k | remove k | pendingSet k | pendingDelete k => k == fingerprint
  | _ => false

/-- What the removal of the entry leaves, whether it fails or not. -/
def Cell.cleared (c : Cell) (fails : Bool) : Cell := if fails then c else { c with since := none }

/-- What comes of a job when the calls about its fingerprint fail as told. -/
def Job.fatedResult (config : Config) (info : Option FaultCenter) (now : Instant) (fingerprint : String)
    (fate : Call → Bool) (c : Cell) : Job → Option Verdict × Cell
  | discard _ =>
    if fate (.remove fingerprint) then (some .skipped, c) else (some .deleted, { c with record := none })
  | reactivate none => (none, c.cleared (fate (.pendingDelete fingerprint)))
  | reactivate (some event) =>
    if event.status.allows .alerting then
      if fate (.push fingerprint) then (some .skipped, c)
      else (some .reactivated, Cell.cleared { c with record := some (event.moved .alerting now) }
        (fate (.pendingDelete fingerprint)))
    else (some .skipped, c)
  | settle event =>
    match c.since with
    | none =>
      if event.status.allows .pendingRecovery then
        if fate (.pendingSet fingerprint) then (some .skipped, c)
        else if fate (.push fingerprint) then (some .skipped, { c with since := some now })
        else (some .pending, ⟨some (event.moved .pendingRecovery now), some now⟩)
      else (some .skipped, c)
    | some since =>
      if event.status = .pendingRecovery ∧ config.graceOf event info ≤ now.elapsedSince since then
        if fate (.push fingerprint) then (some .skipped, c)
        else (some .recovered, Cell.cleared { c with record := some (event.moved .recovered now) }
          (fate (.pendingDelete fingerprint)))
      else (none, c)

/-- What comes of a pass for a fingerprint when no call fails. -/
def Cell.pass (c : Cell) (config : Config) (scope : Scope) (info : Option FaultCenter) (now : Instant)
    (isCurrent isSuppressed : Bool) : Option Verdict × Cell :=
  match c.job scope isCurrent isSuppressed with
  | none => (none, c)
  | some job => job.result config info now c

/-- What comes of a pass for a fingerprint when the calls about it fail as told. -/
def Cell.fatedPass (c : Cell) (config : Config) (scope : Scope) (info : Option FaultCenter) (now : Instant)
    (fingerprint : String) (fate : Call → Bool) (isCurrent isSuppressed : Bool) : Option Verdict × Cell :=
  match c.job scope isCurrent isSuppressed with
  | none => (none, c)
  | some job => job.fatedResult config info now fingerprint fate c

/-- A job comes to its result when none of the calls about its fingerprint fails. -/
theorem Job.fatedResult_false (config : Config) (info : Option FaultCenter) (now : Instant) (fingerprint : String)
    (c : Cell) (job : Job) :
    job.fatedResult config info now fingerprint (fun _ => false) c = job.result config info now c := by
  rcases job with event | (_ | event) | event
  · rfl
  · rfl
  · simp only [fatedResult, result, Cell.cleared, Bool.false_eq_true, if_false]
  · simp only [fatedResult, result, Cell.cleared, Bool.false_eq_true, if_false]

theorem Cell.fatedPass_false (c : Cell) (config : Config) (scope : Scope) (info : Option FaultCenter) (now : Instant)
    (fingerprint : String) (isCurrent isSuppressed : Bool) :
    c.fatedPass config scope info now fingerprint (fun _ => false) isCurrent isSuppressed =
      c.pass config scope info now isCurrent isSuppressed := by
  unfold fatedPass pass
  cases c.job scope isCurrent isSuppressed with
  | none => rfl
  | some job => exact job.fatedResult_false config info now fingerprint c

namespace Cell

variable (c : Cell) (config : Config) (scope : Scope) (info : Option FaultCenter) (now : Instant)

theorem job_current (isSuppressed : Bool) :
    c.job scope true isSuppressed =
      if c.since.isSome then some (.reactivate (c.record.filter scope.owns)) else none := by
  simp only [job, Bool.true_or, Bool.and_true, if_true]
  rfl

theorem job_suppressed : c.job scope false true = none := by
  have hmine : (c.record.filter fun event => event.ruleId == scope.rule && event.tenantId == scope.tenant &&
      (false || !true)) = none := by
    cases c.record <;> simp
  simp only [job, hmine, Bool.false_eq_true, if_false]

theorem job_foreign (h : c.record.filter scope.owns = none) : c.job scope false false = none := by
  have hmine : (c.record.filter fun event => event.ruleId == scope.rule && event.tenantId == scope.tenant &&
      (false || !false)) = none := by
    simp only [Bool.not_false, Bool.or_true, Bool.and_true]
    exact h
  simp only [job, hmine, Bool.false_eq_true, if_false]

theorem job_missed {event : Event} (h : c.record.filter scope.owns = some event) :
    c.job scope false false =
      match event.status with
      | .preAlert => some (.discard event)
      | .recovered => none
      | .alerting | .pendingRecovery => some (.settle event) := by
  have hmine : (c.record.filter fun event => event.ruleId == scope.rule && event.tenantId == scope.tenant &&
      (false || !false)) = some event := by
    simp only [Bool.not_false, Bool.or_true, Bool.and_true]
    exact h
  simp only [job, hmine, Bool.false_eq_true, if_false]
  cases event.status <;> rfl

/-- What is current is made active again if it was listed as missing, and else is left alone. -/
theorem pass_current (isSuppressed : Bool) :
    c.pass config scope info now true isSuppressed =
      if c.since.isSome then (Job.reactivate (c.record.filter scope.owns)).result config info now c
      else (none, c) := by
  rw [pass, job_current]
  cases c.since.isSome <;> rfl

/-- What is only suppressed is left alone. -/
theorem pass_suppressed : c.pass config scope info now false true = (none, c) := by
  rw [pass, job_suppressed]

/-- What belongs to another rule is left alone when it is missed. -/
theorem pass_foreign (h : c.record.filter scope.owns = none) :
    c.pass config scope info now false false = (none, c) := by
  rw [pass, job_foreign c scope h]

/-- What becomes of a missed event of the rule depends on its status. -/
theorem pass_missed {event : Event} (h : c.record.filter scope.owns = some event) :
    c.pass config scope info now false false =
      match event.status with
      | .preAlert => (some .deleted, { c with record := none })
      | .recovered => (none, c)
      | .alerting | .pendingRecovery => (Job.settle event).result config info now c := by
  rw [pass, job_missed c scope h]
  cases event.status <;> rfl

end Cell

/-- A job that a pass has nothing to write for: the event must not become active again, or it is listed as missing and
has nothing to recover from yet. -/
def Job.Idle (config : Config) (info : Option FaultCenter) (now : Instant) (since : Option Instant) : Job → Prop
  | discard _ => False
  | reactivate event => ∃ old, event = some old ∧ old.status.allows .alerting = false
  | settle event => ∃ time, since = some time ∧
      ¬(event.status = .pendingRecovery ∧ config.graceOf event info ≤ now.elapsedSince time)

/-! ## What a cell gives rise to -/

namespace Cell

variable {c : Cell} {scope : Scope} {event : Event}

/-- The record of an event that the rule has. -/
theorem record_of_owned (h : c.record.filter scope.owns = some event) :
    c.record = some event := (Option.filter_eq_some_iff.mp h).1

/-- A moved event is in the state that it was moved to. -/
theorem status_moved (h : c.record.filter scope.owns = some event) (target : Status) (time : Instant)
    (entry : Option Instant) :
    (⟨some (event.moved target time), entry⟩ : Cell).status scope = some target := by
  have hm : (some (event.moved target time)).filter scope.owns = some (event.moved target time) :=
    Option.filter_eq_some_iff.mpr ⟨rfl, (Option.filter_eq_some_iff.mp h).2⟩
  rw [status, hm]
  rfl

/-- The jobs that a cell can give rise to. -/
def Gives (c : Cell) (scope : Scope) : Job → Prop
  | .discard event => c.record.filter scope.owns = some event ∧ event.status = .preAlert
  | .reactivate event => c.record.filter scope.owns = event ∧ c.since.isSome = true
  | .settle event => c.record.filter scope.owns = some event

theorem gives_of_job {isCurrent isSuppressed : Bool} {job : Job}
    (h : c.job scope isCurrent isSuppressed = some job) : c.Gives scope job := by
  have howned : ∀ {event : Event}, (c.record.filter fun event => event.ruleId == scope.rule &&
      event.tenantId == scope.tenant && (isCurrent || !isSuppressed)) = some event →
      c.record.filter scope.owns = some event := fun hm => by
    obtain ⟨hr, ho⟩ := Option.filter_eq_some_iff.mp hm
    exact Option.filter_eq_some_iff.mpr ⟨hr, (Bool.and_eq_true_iff.mp ho).1⟩
  unfold Cell.job at h
  dsimp only at h
  split at h
  · next hcur =>
    split at h
    · next hsince =>
      cases h
      refine ⟨?_, hsince⟩
      simp only [hcur, Bool.true_or, Bool.and_true]
      rfl
    · cases h
  · split at h
    · cases h
    · next hm =>
      split at h
      · next hs =>
        cases h
        exact ⟨howned hm, hs⟩
      · split at h
        · cases h
        · cases h
          exact howned hm

end Cell

namespace Engine

/-- What the caches keep about a fingerprint. -/
def cell (e : Engine) (scope : Scope) (fingerprint : String) : Cell :=
  ⟨e.events.find? scope.eventsKey fingerprint, e.pending.get? scope.tenant scope.rule fingerprint⟩

/-- No call fails. -/
def Healthy (e : Engine) : Prop := ∀ n c, e.faults n c = false

/-- The same engine when no call fails any more. -/
def healthy (e : Engine) : Engine := { e with faults := fun _ _ => false }

theorem healthy_healthy (e : Engine) : e.healthy.Healthy := fun _ _ => rfl

theorem Healthy.fails {e : Engine} (h : e.Healthy) (c : Call) : e.fails c = false := h e.calls c

theorem Healthy.quiet {e e' : Engine} (hq : Quiet e e') (h : e.Healthy) : e'.Healthy := by
  cases hq <;> exact h

/-- The changes of a pass make no call fail, and leave the settings alone. -/
theorem Deal.faults_eq {scope : Scope} {fingerprint : String} {e e' : Engine} (hd : Deal scope fingerprint e e') :
    e'.faults = e.faults ∧ e'.infos = e.infos := by
  cases hd with
  | quiet hq => cases hq <;> exact ⟨rfl, rfl⟩
  | moved | removed | missed | found => exact ⟨rfl, rfl⟩

/-! ## Cells -/

section Cell

variable {scope : Scope} {e : Engine} {fingerprint k : String}

theorem cell_stored {event : Event} (h : event.LiesAt scope.eventsKey fingerprint) :
    (e.stored event).cell scope k =
      if k = fingerprint then { e.cell scope k with record := some event } else e.cell scope k := by
  obtain ⟨hkey, hf⟩ := h
  by_cases hk : k = fingerprint
  · simp [cell, stored, EventCache.find?_push, hkey, hf, hk]
  · simp [cell, stored, EventCache.find?_push, hkey, hf, hk]

theorem cell_removed {tenant center : String} (h : Alerting.eventsKey tenant center = scope.eventsKey) :
    (e.removed tenant center fingerprint).cell scope k =
      if k = fingerprint then { e.cell scope k with record := none } else e.cell scope k := by
  by_cases hk : k = fingerprint <;> simp [cell, removed, EventCache.find?_remove, h, hk]

theorem cell_missed (time : Instant) :
    (e.missed scope.tenant scope.rule fingerprint time).cell scope k =
      if k = fingerprint then { e.cell scope k with since := some time } else e.cell scope k := by
  by_cases hk : k = fingerprint <;> simp [cell, missed, PendingCache.get?_set, hk]

theorem cell_found :
    (e.found scope.tenant scope.rule fingerprint).cell scope k =
      if k = fingerprint then { e.cell scope k with since := none } else e.cell scope k := by
  by_cases hk : k = fingerprint <;> simp [cell, found, PendingCache.get?_delete, hk]

theorem cell_quiet {e' : Engine} (hq : Quiet e e') : e'.cell scope k = e.cell scope k := by
  cases hq <;> rfl

/-- A stored move leaves the rule's event in the state that it was moved to. -/
theorem status_stored_moved {c : Cell} {old : Event} (hl : old.LiesAt scope.eventsKey fingerprint)
    (ho : c.record.filter scope.owns = some old) (hc : e.cell scope fingerprint = c) {target : Status}
    {time : Instant} : ((e.stored (old.moved target time)).cell scope fingerprint).status scope = some target := by
  have hl' : (old.moved target time).LiesAt scope.eventsKey fingerprint := hl
  rw [cell_stored hl', if_pos rfl, hc]
  exact Cell.status_moved ho target time c.since

/-- A change for one fingerprint touches nothing that is kept about another. -/
theorem Deal.cell_of_ne {e' : Engine} (hd : Deal scope fingerprint e e') (hk : k ≠ fingerprint) :
    e'.cell scope k = e.cell scope k := by
  cases hd with
  | quiet hq => exact cell_quiet hq
  | moved old target time _ hl _ =>
    have hl' : (old.moved target time).LiesAt scope.eventsKey fingerprint := hl
    rw [cell_stored hl', if_neg hk]
  | removed tenant center h => rw [cell_removed h, if_neg hk]
  | missed time => rw [cell_missed, if_neg hk]
  | found => rw [cell_found, if_neg hk]

end Cell

/-! ## One job -/

section Jobs

variable (config : Config) (scope : Scope) (now : Instant) (pending : Table Instant) (info : Option FaultCenter)

/-- A job has the event that stands in its place, and that belongs there. -/
def Fits (e : Engine) (fingerprint : String) (job : Job) : Prop :=
  ∀ event, job.event? = some event →
    e.events.find? scope.eventsKey fingerprint = some event ∧ event.LiesAt scope.eventsKey fingerprint

/-- A change that a pass makes for a fingerprint of which `c` was read. What it does to the event of the rule, it does
while the cell is still as it was read, apart from an entry of its own. -/
inductive Turn (c : Cell) (fingerprint : String) : Engine → Engine → Prop
  | quiet {e e' : Engine} : Quiet e e' → Turn c fingerprint e e'
  | discarded (e : Engine) (old : Event) : e.cell scope fingerprint = c → c.record.filter scope.owns = some old →
      old.LiesAt scope.eventsKey fingerprint → old.status = .preAlert →
      Turn c fingerprint e (e.removed old.tenantId old.faultCenterId fingerprint)
  | reactivated (e : Engine) (old : Event) : e.cell scope fingerprint = c → c.record.filter scope.owns = some old →
      old.LiesAt scope.eventsKey fingerprint → c.since.isSome = true → old.status.allows .alerting = true →
      Turn c fingerprint e (e.stored (old.moved .alerting now))
  | listed (e : Engine) (old : Event) : e.cell scope fingerprint = c → c.record.filter scope.owns = some old →
      c.since = none → old.status.allows .pendingRecovery = true →
      Turn c fingerprint e (e.missed scope.tenant scope.rule fingerprint now)
  | wentMissing (e : Engine) (old : Event) : e.cell scope fingerprint = { c with since := some now } →
      c.record.filter scope.owns = some old → old.LiesAt scope.eventsKey fingerprint →
      old.status.allows .pendingRecovery = true →
      Turn c fingerprint e (e.stored (old.moved .pendingRecovery now))
  | recovered (e : Engine) (old : Event) (since : Instant) : e.cell scope fingerprint = c →
      c.record.filter scope.owns = some old → old.LiesAt scope.eventsKey fingerprint → old.status = .pendingRecovery →
      c.since = some since → config.graceOf old info ≤ now.elapsedSince since →
      Turn c fingerprint e (e.stored (old.moved .recovered now))
  | unlisted (e : Engine) : (e.cell scope fingerprint).status scope ≠ some .pendingRecovery →
      Turn c fingerprint e (e.found scope.tenant scope.rule fingerprint)

section Turns

variable {config scope now info} {c : Cell} {fingerprint : String}

theorem find?_of_cell_eq {e : Engine} {old : Event} (hc : e.cell scope fingerprint = c)
    (h : c.record.filter scope.owns = some old) : e.events.find? scope.eventsKey fingerprint = some old :=
  (congrArg Cell.record hc).trans (Option.filter_eq_some_iff.mp h).1

theorem Turn.deal {e e' : Engine} (ht : Turn config scope now info c fingerprint e e') :
    Deal scope fingerprint e e' := by
  cases ht with
  | quiet hq => exact .quiet hq
  | discarded old hc ho hl hs => exact .removed _ _ _ hl.1
  | reactivated old hc ho hl _ ha => exact .moved _ _ _ _ (find?_of_cell_eq hc ho) hl ha
  | listed => exact .missed _ _
  | wentMissing old hc ho hl ha =>
    exact .moved _ _ _ _ (find?_of_cell_eq (c := { c with since := some now }) hc ho) hl ha
  | recovered old since hc ho hl hs => exact .moved _ _ _ _ (find?_of_cell_eq hc ho) hl (by rw [hs]; rfl)
  | unlisted => exact .found _

end Turns

section Keeps

variable {c : Cell} {P : Result RecoveryReport → Prop} {fingerprint : String}
  (turns : ∀ {r : RecoveryReport} {e e' : Engine}, Turn config scope now info c fingerprint e e' →
    P (r, e) → P (r, e'))
include turns

theorem clearPending_keeps {r : RecoveryReport} {e : Engine}
    (hs : (e.cell scope fingerprint).status scope ≠ some .pendingRecovery) (h : P (r, e)) :
    P (r, e.clearPending scope fingerprint) := by
  have hcounted := turns (.quiet (.counted e)) h
  unfold clearPending
  rcases e.pendingDelete_cases scope.tenant scope.rule fingerprint with ⟨-, hp⟩ | ⟨-, hp⟩ <;> rw [hp]
  · exact turns (.quiet (.noted _ _)) hcounted
  · exact turns (.unlisted e.counted hs) hcounted

variable (hl : ∀ event, c.record = some event → event.LiesAt scope.eventsKey fingerprint)
  (reports : ∀ {r : RecoveryReport} {e : Engine} (v : Verdict), P (r, e) → P (r.add fingerprint v, e))
include hl reports

theorem discard_keeps {r : RecoveryReport} {e : Engine} {event : Event} (hg : c.Gives scope (.discard event))
    (hc : e.cell scope fingerprint = c) (h : P (r, e)) : P (e.discard r fingerprint event) := by
  have hcounted := turns (.quiet (.counted e)) h
  unfold discard
  rcases e.remove_cases event.tenantId event.faultCenterId fingerprint with ⟨-, hr⟩ | ⟨-, hr⟩ <;> rw [hr]
  · exact reports .skipped (turns (.quiet (.noted _ _)) hcounted)
  · exact reports .deleted (turns (.discarded e.counted event hc hg.1 (hl event (Cell.record_of_owned hg.1)) hg.2)
      hcounted)

theorem activate_keeps {r : RecoveryReport} {e : Engine} {event : Option Event}
    (hg : c.Gives scope (.reactivate event)) (hc : e.cell scope fingerprint = c) (h : P (r, e)) :
    P (e.activate scope now r fingerprint event) := by
  obtain ⟨ho, hsince⟩ := hg
  cases event with
  | none =>
    refine clearPending_keeps config scope now info turns ?_ h
    rw [hc, Cell.status, ho]
    exact nofun
  | some event =>
    have hlies := hl event (Cell.record_of_owned ho)
    have hcounted := turns (.quiet (.counted e)) h
    rw [activate]
    split
    · exact reports .skipped (turns (.quiet (.noted _ _)) h)
    · next ht =>
      obtain ⟨ha, rfl⟩ := Event.of_transition_ok ht
      rcases e.push_cases (event.moved .alerting now) with ⟨-, hp⟩ | ⟨-, hp⟩ <;> rw [hp]
      · exact reports .skipped (turns (.quiet (.noted _ _)) hcounted)
      · refine clearPending_keeps config scope now info turns ?_
          (reports .reactivated (turns (.reactivated e.counted event hc ho hlies hsince ha) hcounted))
        rw [status_stored_moved (e := e.counted) hlies ho hc]
        exact nofun

theorem beginPending_keeps {r : RecoveryReport} {e : Engine} {event : Event} (hg : c.Gives scope (.settle event))
    (hc : e.cell scope fingerprint = c) (hsince : c.since = none) (h : P (r, e)) :
    P (e.beginPending scope now r event) := by
  have hlies := hl event (Cell.record_of_owned hg)
  obtain rfl := hlies.2
  have hcounted := turns (.quiet (.counted e)) h
  unfold beginPending
  split
  · exact reports .skipped (turns (.quiet (.noted _ _)) h)
  · next ht =>
    obtain ⟨ha, rfl⟩ := Event.of_transition_ok ht
    rcases e.pendingSet_cases scope.tenant scope.rule event.fingerprint now with ⟨-, hs⟩ | ⟨-, hs⟩ <;> rw [hs]
    · exact reports .skipped (turns (.quiet (.noted _ _)) hcounted)
    · have hset := turns (.quiet (.counted _)) (turns (.listed e.counted event hc hg hsince ha) hcounted)
      have hcell : (e.counted.missed scope.tenant scope.rule event.fingerprint now).counted.cell scope
          event.fingerprint = { c with since := some now } := by
        show (e.counted.missed scope.tenant scope.rule event.fingerprint now).cell scope event.fingerprint = _
        rw [cell_missed, if_pos rfl]
        exact congrArg (fun c : Cell => { c with since := some now }) hc
      dsimp only
      rcases (e.counted.missed scope.tenant scope.rule event.fingerprint now).push_cases
        (event.moved .pendingRecovery now) with ⟨-, hp⟩ | ⟨-, hp⟩ <;> rw [hp]
      · exact reports .skipped (turns (.quiet (.noted _ _)) hset)
      · exact reports .pending (turns (.wentMissing _ event hcell hg hlies ha) hset)

theorem completeRecovery_keeps {r : RecoveryReport} {e : Engine} {event : Event} {since : Instant}
    (hg : c.Gives scope (.settle event)) (hc : e.cell scope fingerprint = c) (hsince : c.since = some since)
    (hstatus : event.status = .pendingRecovery) (hgrace : config.graceOf event info ≤ now.elapsedSince since)
    (h : P (r, e)) : P (e.completeRecovery scope now r event) := by
  have hlies := hl event (Cell.record_of_owned hg)
  obtain rfl := hlies.2
  have hcounted := turns (.quiet (.counted e)) h
  unfold completeRecovery
  split
  · exact reports .skipped (turns (.quiet (.noted _ _)) h)
  · next ht =>
    obtain ⟨-, rfl⟩ := Event.of_transition_ok ht
    rcases e.push_cases (event.moved .recovered now) with ⟨-, hp⟩ | ⟨-, hp⟩ <;> rw [hp]
    · exact reports .skipped (turns (.quiet (.noted _ _)) hcounted)
    · refine clearPending_keeps config scope now info turns ?_
        (reports .recovered (turns (.recovered e.counted event since hc hg hlies hstatus hsince hgrace) hcounted))
      rw [status_stored_moved (e := e.counted) hlies hg hc]
      exact nofun

/-- **A job is a chain of changes for its fingerprint, and of verdicts about it.** -/
theorem doJob_keeps {s : Result RecoveryReport} {job : Job} (hg : c.Gives scope job)
    (hc : s.2.cell scope fingerprint = c) (hp : pending.get? fingerprint = c.since) (h : P s) :
    P (doJob config scope now pending info s (fingerprint, job)) := by
  cases job with
  | discard event => exact discard_keeps config scope now info turns hl reports hg hc h
  | reactivate event => exact activate_keeps config scope now info turns hl reports hg hc h
  | settle event =>
    simp only [doJob, settle, hp]
    split
    · next hsince => exact beginPending_keeps config scope now info turns hl reports hg hc hsince h
    · next since hsince =>
      split
      · next hdue =>
        exact completeRecovery_keeps config scope now info turns hl reports hg hc hsince hdue.1 hdue.2 h
      · exact h

end Keeps

/-- A change for one fingerprint leaves fitting jobs of the others fitting. -/
theorem Fits.of_cell_eq {e e' : Engine} {fingerprint : String} {job : Job} (h : e.Fits scope fingerprint job)
    (he : e'.cell scope fingerprint = e.cell scope fingerprint) : e'.Fits scope fingerprint job := by
  intro event hev
  obtain ⟨hf, hl⟩ := h event hev
  exact ⟨(congrArg Cell.record he).trans hf, hl⟩

/-! ### When the calls about the fingerprint fail as told -/

variable {fingerprint : String} {e : Engine} {r : RecoveryReport} {fate : Call → Bool}

/-- The calls about a fingerprint fail as told. -/
def Fated (e : Engine) (fingerprint : String) (fate : Call → Bool) : Prop :=
  ∀ n c, c.isAbout fingerprint = true → e.faults n c = fate c

/-- A step on one fingerprint leaves it with this cell, and adds this verdict about it. -/
def ComesTo (s : Result RecoveryReport) (scope : Scope) (fingerprint : String) (r : RecoveryReport)
    (o : Option Verdict × Cell) : Prop :=
  s.2.cell scope fingerprint = o.2 ∧ ∀ v, fingerprint ∈ s.1.list v ↔ fingerprint ∈ r.list v ∨ o.1 = some v

theorem perform_of_fated {α : Type} (h : e.Fated fingerprint fate) {c : Call} (hc : c.isAbout fingerprint = true)
    (act : Engine → α × Engine) :
    e.perform c act = if fate c then (.error c.error, e.counted) else (.ok (act e.counted).1, (act e.counted).2) := by
  have hf : e.fails c = fate c := h e.calls c hc
  rw [perform, hf]

theorem push_of_fated (event : Event) (h : e.Fated event.fingerprint fate) :
    e.push event = if fate (.push event.fingerprint) then
      (.error (Call.push event.fingerprint).error, e.counted) else (.ok (), e.counted.stored event) :=
  perform_of_fated h (by simp [Call.isAbout]) _

theorem remove_of_fated (h : e.Fated fingerprint fate) (tenant center : String) :
    e.remove tenant center fingerprint = if fate (.remove fingerprint) then
      (.error (Call.remove fingerprint).error, e.counted)
      else (.ok (), e.counted.removed tenant center fingerprint) :=
  perform_of_fated h (by simp [Call.isAbout]) _

theorem pendingSet_of_fated (h : e.Fated fingerprint fate) (tenant rule : String) (time : Instant) :
    e.pendingSet tenant rule fingerprint time = if fate (.pendingSet fingerprint) then
      (.error (Call.pendingSet fingerprint).error, e.counted)
      else (.ok (), e.counted.missed tenant rule fingerprint time) :=
  perform_of_fated h (by simp [Call.isAbout]) _

theorem pendingDelete_of_fated (h : e.Fated fingerprint fate) (tenant rule : String) :
    e.pendingDelete tenant rule fingerprint = if fate (.pendingDelete fingerprint) then
      (.error (Call.pendingDelete fingerprint).error, e.counted)
      else (.ok (), e.counted.found tenant rule fingerprint) :=
  perform_of_fated h (by simp [Call.isAbout]) _

theorem cell_clearPending (h : e.Fated fingerprint fate) :
    (e.clearPending scope fingerprint).cell scope fingerprint =
      (e.cell scope fingerprint).cleared (fate (.pendingDelete fingerprint)) := by
  rw [clearPending, pendingDelete_of_fated h]
  cases fate (.pendingDelete fingerprint) with
  | true => rfl
  | false =>
    show (e.counted.found scope.tenant scope.rule fingerprint).cell scope fingerprint = _
    rw [cell_found, if_pos rfl]
    rfl

variable {scope} in
theorem ComesTo.of_eq {s : Result RecoveryReport} {c : Cell} {v : Option Verdict} {e' : Engine}
    (hs : s = (v.elim r (r.add fingerprint), e')) (hc : e'.cell scope fingerprint = c) :
    ComesTo s scope fingerprint r (v, c) := by
  subst hs
  refine ⟨hc, fun w => ?_⟩
  cases v with
  | none => simp
  | some v => simp [RecoveryReport.mem_list_add]

/-- A move that the states do not allow is noted and skipped. -/
theorem ComesTo.refused (notice : Notice) :
    ComesTo (r.add fingerprint .skipped, e.note notice) scope fingerprint r (some .skipped, e.cell scope fingerprint) :=
  ComesTo.of_eq (v := some .skipped) rfl rfl

theorem discard_of_fated {event : Event} (h : e.Fated fingerprint fate)
    (hl : event.LiesAt scope.eventsKey fingerprint) :
    ComesTo (e.discard r fingerprint event) scope fingerprint r
      ((Job.discard event).fatedResult config info now fingerprint fate (e.cell scope fingerprint)) := by
  rw [discard, remove_of_fated h, Job.fatedResult]
  cases fate (.remove fingerprint) with
  | true => exact ComesTo.of_eq (v := some .skipped) rfl rfl
  | false =>
    refine ComesTo.of_eq (v := some .deleted) rfl ?_
    rw [cell_removed hl.1, if_pos rfl]
    rfl

theorem activate_of_fated {event : Option Event} (h : e.Fated fingerprint fate)
    (hl : ∀ a, event = some a → a.LiesAt scope.eventsKey fingerprint) :
    ComesTo (e.activate scope now r fingerprint event) scope fingerprint r
      ((Job.reactivate event).fatedResult config info now fingerprint fate (e.cell scope fingerprint)) := by
  cases event with
  | none => exact ComesTo.of_eq (v := none) rfl (cell_clearPending scope h)
  | some event =>
    have hl := hl event rfl
    have hl' : (event.moved .alerting now).LiesAt scope.eventsKey fingerprint := hl
    obtain rfl := hl.2
    have hmoved : (event.moved .alerting now).fingerprint = event.fingerprint := rfl
    rw [activate, Job.fatedResult]
    cases ha : event.status.allows .alerting with
    | false =>
      rw [Event.transition, ha]
      exact ComesTo.refused scope _
    | true =>
      rw [Event.transition_of_allows ha]
      dsimp only
      rw [push_of_fated (event.moved .alerting now) h, hmoved]
      cases fate (.push event.fingerprint) with
      | true => exact ComesTo.of_eq (v := some .skipped) rfl rfl
      | false =>
        have hstored : (e.counted.stored (event.moved .alerting now)).Fated event.fingerprint fate := h
        refine ComesTo.of_eq (v := some .reactivated) rfl ?_
        rw [cell_clearPending scope hstored, cell_stored hl', if_pos rfl]
        rfl

theorem beginPending_of_fated {event : Event} (h : e.Fated fingerprint fate)
    (hl : event.LiesAt scope.eventsKey fingerprint) (hs : (e.cell scope fingerprint).since = none) :
    ComesTo (e.beginPending scope now r event) scope fingerprint r
      ((Job.settle event).fatedResult config info now fingerprint fate (e.cell scope fingerprint)) := by
  have hl' : (event.moved .pendingRecovery now).LiesAt scope.eventsKey fingerprint := hl
  obtain rfl := hl.2
  have hmoved : (event.moved .pendingRecovery now).fingerprint = event.fingerprint := rfl
  simp only [beginPending, Job.fatedResult, hs]
  cases ha : event.status.allows .pendingRecovery with
  | false =>
    rw [Event.transition, ha]
    exact ComesTo.refused scope _
  | true =>
    rw [Event.transition_of_allows ha]
    dsimp only
    rw [pendingSet_of_fated h]
    cases fate (.pendingSet event.fingerprint) with
    | true => exact ComesTo.of_eq (v := some .skipped) rfl rfl
    | false =>
      have hset : (e.counted.missed scope.tenant scope.rule event.fingerprint now).Fated event.fingerprint fate := h
      have hcell : (e.counted.missed scope.tenant scope.rule event.fingerprint now).cell scope event.fingerprint =
          { e.cell scope event.fingerprint with since := some now } := by
        rw [cell_missed, if_pos rfl]
        rfl
      simp only [Bool.false_eq_true, if_false]
      rw [push_of_fated (event.moved .pendingRecovery now) hset, hmoved]
      cases fate (.push event.fingerprint) with
      | true => exact ComesTo.of_eq (v := some .skipped) rfl hcell
      | false =>
        refine ComesTo.of_eq (v := some .pending) rfl ?_
        rw [cell_stored hl', if_pos rfl]
        show { (e.counted.missed scope.tenant scope.rule event.fingerprint now).cell scope event.fingerprint with
          record := some (event.moved .pendingRecovery now) } = _
        rw [hcell]

theorem completeRecovery_of_fated {event : Event} (h : e.Fated fingerprint fate)
    (hl : event.LiesAt scope.eventsKey fingerprint) (ha : event.status.allows .recovered = true) :
    ComesTo (e.completeRecovery scope now r event) scope fingerprint r
      (if fate (.push fingerprint) then (some .skipped, e.cell scope fingerprint)
        else (some .recovered, Cell.cleared
          { e.cell scope fingerprint with record := some (event.moved .recovered now) }
          (fate (.pendingDelete fingerprint)))) := by
  have hl' : (event.moved .recovered now).LiesAt scope.eventsKey fingerprint := hl
  obtain rfl := hl.2
  have hmoved : (event.moved .recovered now).fingerprint = event.fingerprint := rfl
  rw [completeRecovery, Event.transition_of_allows ha]
  dsimp only
  rw [push_of_fated (event.moved .recovered now) h, hmoved]
  cases fate (.push event.fingerprint) with
  | true => exact ComesTo.of_eq (v := some .skipped) rfl rfl
  | false =>
    have hstored : (e.counted.stored (event.moved .recovered now)).Fated event.fingerprint fate := h
    refine ComesTo.of_eq (v := some .recovered) rfl ?_
    rw [cell_clearPending scope hstored, cell_stored hl', if_pos rfl]
    rfl

theorem settle_of_fated {event : Event} (h : e.Fated fingerprint fate)
    (hl : event.LiesAt scope.eventsKey fingerprint)
    (hp : pending.get? fingerprint = (e.cell scope fingerprint).since) :
    ComesTo (e.settle config scope info pending now r fingerprint event) scope fingerprint r
      ((Job.settle event).fatedResult config info now fingerprint fate (e.cell scope fingerprint)) := by
  rw [settle, hp]
  cases hs : (e.cell scope fingerprint).since with
  | none => exact beginPending_of_fated config scope now info h hl hs
  | some since =>
    simp only [Job.fatedResult, hs]
    by_cases hdue : event.status = .pendingRecovery ∧ config.graceOf event info ≤ now.elapsedSince since
    · simp only [if_pos hdue]
      have hdone := completeRecovery_of_fated scope now (r := r) h hl (by rw [hdue.1]; rfl)
      simp only [hs] at hdone
      exact hdone
    · simp only [if_neg hdue]
      exact ComesTo.of_eq (v := none) rfl rfl

/-- **When the calls about its fingerprint fail as told, a job comes to its result.** -/
theorem doJob_of_fated {job : Job} (h : e.Fated fingerprint fate) (hj : e.Fits scope fingerprint job)
    (hp : pending.get? fingerprint = (e.cell scope fingerprint).since) :
    ComesTo (doJob config scope now pending info (r, e) (fingerprint, job)) scope fingerprint r
      (job.fatedResult config info now fingerprint fate (e.cell scope fingerprint)) := by
  cases job with
  | discard event => exact discard_of_fated config scope now info h (hj event rfl).2
  | reactivate event => exact activate_of_fated config scope now info h fun a ha => (hj a ha).2
  | settle event => exact settle_of_fated config scope now pending info h (hj event rfl).2 hp

/-! ### When there is nothing to write -/

variable {config now pending info} in
/-- **Idle jobs touch no cache**, whichever calls fail. -/
theorem foldl_of_idle {l : List (String × Job)} (h : ∀ x ∈ l, x.2.Idle config info now (pending.get? x.1))
    (s : Result RecoveryReport) :
    (l.foldl (doJob config scope now pending info) s).2.events = s.2.events ∧
      (l.foldl (doJob config scope now pending info) s).2.pending = s.2.pending := by
  induction l generalizing s with
  | nil => exact ⟨rfl, rfl⟩
  | cons x l ih =>
    have hone : (doJob config scope now pending info s x).2.events = s.2.events ∧
        (doJob config scope now pending info s x).2.pending = s.2.pending := by
      obtain ⟨k, job⟩ := x
      cases job with
      | discard event => exact (h _ List.mem_cons_self).elim
      | reactivate event =>
        obtain ⟨old, rfl, hrefused⟩ := h _ List.mem_cons_self
        simp only [doJob, activate, Event.transition, hrefused]
        exact ⟨rfl, rfl⟩
      | settle event =>
        obtain ⟨time, hs, hdue⟩ := h _ List.mem_cons_self
        simp only [doJob, settle, hs, if_neg hdue, and_self]
    obtain ⟨he, hp⟩ := ih (fun y hy => h y (List.mem_cons_of_mem x hy)) (doJob config scope now pending info s x)
    exact ⟨he.trans hone.1, hp.trans hone.2⟩

/-! ### When no call fails -/

theorem Healthy.fated (h : e.Healthy) (fingerprint : String) : e.Fated fingerprint fun _ => false :=
  fun n c _ => h n c

theorem perform_of_healthy {α : Type} (h : e.Healthy) (c : Call) (act : Engine → α × Engine) :
    e.perform c act = (.ok (act e.counted).1, (act e.counted).2) := by
  simp [perform, h.fails c]

theorem push_of_healthy (h : e.Healthy) (event : Event) : e.push event = (.ok (), e.counted.stored event) :=
  perform_of_healthy h _ _

end Jobs

/-! ## The whole pass -/

section Pass

variable (config : Config) (scope : Scope) (current suppressed : List String) (now : Instant) {e : Engine}

/-- What the jobs of a pass are about is what is kept when it begins. -/
theorem gives_of_mem_jobs {fingerprint : String} {job : Job}
    (h : (fingerprint, job) ∈ jobs scope current suppressed (e.events.all scope.eventsKey)
      (e.pending.list scope.tenant scope.rule)) : (e.cell scope fingerprint).Gives scope job :=
  Cell.gives_of_job ((mem_jobs ..).mp h)

/-- A job of a cell fits what is stored while the cell is as it was. -/
theorem fits_of_gives (hc : e.Coherent) {fingerprint : String} {job : Job}
    (h : (e.cell scope fingerprint).Gives scope job) : e.Fits scope fingerprint job := by
  have hfind : ∀ {event : Event}, (e.cell scope fingerprint).record.filter scope.owns = some event →
      e.events.find? scope.eventsKey fingerprint = some event ∧ event.LiesAt scope.eventsKey fingerprint :=
    fun ho => ⟨Cell.record_of_owned ho, hc _ _ _ (Cell.record_of_owned ho)⟩
  intro event hev
  cases job with
  | discard old =>
    cases hev
    exact hfind h.1
  | reactivate old =>
    cases hev
    exact hfind h.1
  | settle old =>
    cases hev
    exact hfind h

/-- The place of a fingerprint in a pass: what is reported and what is kept. -/
def view (s : Result RecoveryReport) (fingerprint : String) : (Verdict → Prop) × Cell :=
  (fun v => fingerprint ∈ s.1.list v, s.2.cell scope fingerprint)

/-- **A pass over what was read goes through the fingerprints one by one.** What every change of the pass keeps holds
at its end, a fingerprint without a job is left alone, and one with a job is left as its job leaves it. -/
theorem reconcileRead_local (hc : e.Coherent) (info : Option FaultCenter) {P : Engine → Prop}
    (keeps : ∀ fingerprint {e₁ e₂ : Engine},
      Turn config scope now info (e.cell scope fingerprint) fingerprint e₁ e₂ → P e₁ → P e₂) (h : P e) :
    let pending := e.pending.list scope.tenant scope.rule
    let jobs := jobs scope current suppressed (e.events.all scope.eventsKey) pending
    let s := e.reconcileRead config scope current suppressed now (e.events.all scope.eventsKey) pending info
    P s.2 ∧ (∀ k, (∀ x ∈ jobs, k ≠ x.1) → view scope s k = view scope (.empty, e) k) ∧
      ∀ x ∈ jobs, ∃ s', P s'.2 ∧ view scope s' x.1 = view scope (.empty, e) x.1 ∧
        view scope s x.1 = view scope (doJob config scope now pending info s' x) x.1 := by
  intro pending jobs s
  have hs : s = _ := reconcileRead_eq_jobs config scope current suppressed now _ pending info e
  rw [hs]
  refine foldl_local (P := fun s : Result RecoveryReport => P s.2) (pairwise_jobs ..) (fun s' x hx hv hP => ?_) h
  obtain ⟨fingerprint, job⟩ := x
  have hg := gives_of_mem_jobs scope current suppressed hx
  have hcell : s'.2.cell scope fingerprint = e.cell scope fingerprint := congrArg Prod.snd hv
  have hl : ∀ event, (e.cell scope fingerprint).record = some event → event.LiesAt scope.eventsKey fingerprint :=
    fun event hr => hc _ _ _ hr
  refine ⟨doJob_keeps config scope now pending info (P := fun s => P s.2) (keeps fingerprint) hl (fun _ h => h)
    hg hcell rfl hP, fun k hk => ?_⟩
  refine doJob_keeps config scope now pending info (P := fun s => view scope s k = view scope s' k)
    (fun ht h => ?_) hl (fun v h => ?_) hg hcell rfl rfl
  · rw [← h]
    exact Prod.ext rfl (ht.deal.cell_of_ne hk)
  · rw [← h]
    refine Prod.ext (funext fun w => propext ?_) rfl
    simp [view, RecoveryReport.mem_list_add, hk]

/-- **A fingerprint comes to what its cell says, given how the calls about it fail.** -/
theorem reconcileRead_of_fated (hc : e.Coherent) (info : Option FaultCenter) {k : String} {fate : Call → Bool}
    (h : e.Fated k fate) :
    let s := e.reconcileRead config scope current suppressed now (e.events.all scope.eventsKey)
      (e.pending.list scope.tenant scope.rule) info
    let result := (e.cell scope k).fatedPass config scope info now k fate (current.contains k) (suppressed.contains k)
    s.2.cell scope k = result.2 ∧ ∀ v, k ∈ s.1.list v ↔ result.1 = some v := by
  intro s
  obtain ⟨-, hout, hin⟩ := reconcileRead_local config scope current suppressed now hc info
    (P := fun e' => e'.Fated k fate) (fun _ _ _ ht hf n c ha => by rw [ht.deal.faults_eq.1]; exact hf n c ha) h
  cases hjob : (e.cell scope k).job scope (current.contains k) (suppressed.contains k) with
  | none =>
    have hno : view scope s k = view scope (.empty, e) k := by
      refine hout k fun x hx he => ?_
      have hj := (mem_jobs ..).mp (show (x.1, x.2) ∈ _ from hx)
      rw [← he] at hj
      exact absurd (hjob.symm.trans hj) (by simp)
    simp only [Cell.fatedPass, hjob]
    refine ⟨congrArg Prod.snd hno, fun v => ?_⟩
    have hv : (k ∈ s.1.list v) = (k ∈ RecoveryReport.empty.list v) := congrFun (congrArg Prod.fst hno) v
    rw [hv]
    simp [RecoveryReport.mem_list_empty]
  | some job =>
    have hx : (k, job) ∈ jobs scope current suppressed (e.events.all scope.eventsKey)
        (e.pending.list scope.tenant scope.rule) := (mem_jobs ..).mpr hjob
    obtain ⟨s', hf, hv, hr⟩ := hin (k, job) hx
    -- When its turn comes, nothing has touched the fingerprint yet, so the job fits.
    have hcell : s'.2.cell scope k = e.cell scope k := congrArg Prod.snd hv
    have hj : s'.2.Fits scope k job :=
      (fits_of_gives scope hc (gives_of_mem_jobs scope current suppressed hx)).of_cell_eq scope hcell
    obtain ⟨hrc, hrv⟩ := doJob_of_fated config scope now (e.pending.list scope.tenant scope.rule) info (r := s'.1)
      hf hj (by rw [hcell]; rfl)
    simp only [Cell.fatedPass, hjob]
    rw [hcell] at hrc hrv
    refine ⟨(congrArg Prod.snd hr).trans hrc, fun v => ?_⟩
    have hlist : (k ∈ s.1.list v) = _ := congrFun (congrArg Prod.fst hr) v
    have hempty : (k ∈ s'.1.list v) = (k ∈ RecoveryReport.empty.list v) := congrFun (congrArg Prod.fst hv) v
    rw [hlist]
    refine (hrv v).trans ?_
    rw [hempty]
    simp [RecoveryReport.mem_list_empty]

/-- When no call fails, every fingerprint comes to what its cell says. -/
theorem reconcileRead_of_healthy (h : e.Healthy) (hc : e.Coherent) (info : Option FaultCenter) :
    let s := e.reconcileRead config scope current suppressed now (e.events.all scope.eventsKey)
      (e.pending.list scope.tenant scope.rule) info
    s.2.Healthy ∧ s.2.Coherent ∧ s.2.infos = e.infos ∧ ∀ k,
      let result := (e.cell scope k).pass config scope info now (current.contains k) (suppressed.contains k)
      s.2.cell scope k = result.2 ∧ ∀ v, k ∈ s.1.list v ↔ result.1 = some v := by
  intro s
  obtain ⟨⟨hh', hc', hi'⟩, -, -⟩ := reconcileRead_local config scope current suppressed now hc info
    (P := fun e' => e'.Healthy ∧ e'.Coherent ∧ e'.infos = e.infos)
    (fun _ _ _ ht ⟨hh, hc, hi⟩ => ⟨fun n c => by rw [ht.deal.faults_eq.1]; exact hh n c, hc.deal ht.deal,
      ht.deal.faults_eq.2.trans hi⟩) ⟨h, hc, rfl⟩
  refine ⟨hh', hc', hi', fun k => ?_⟩
  rw [← Cell.fatedPass_false _ config scope info now k]
  exact reconcileRead_of_fated config scope current suppressed now hc info (h.fated k)

/-! ### The reads -/

/-- The error of the first read of a pass that fails. -/
def readError (e : Engine) : Option EngineError :=
  if e.fails (.getAll scope.eventsKey) then some (Call.getAll scope.eventsKey).error
  else if e.counted.fails (.pendingList scope.rule) then some (Call.pendingList scope.rule).error
  else if e.counted.counted.fails (.info scope.infoKey) then some (Call.info scope.infoKey).error
  else none

theorem readError_of_healthy (h : e.Healthy) : e.readError scope = none := by
  have hc : e.counted.Healthy := h
  have hcc : e.counted.counted.Healthy := h
  simp [readError, h.fails, hc.fails, hcc.fails]

section Reads

variable (hk : scope.eventsKey.isEmpty = false) (hi : scope.infoKey.isEmpty = false)
include hk hi

/-- A pass whose reads succeed goes over what was read; empty fingerprints are not current. -/
theorem reconcile_of_reads (h : e.readError scope = none) :
    let s := e.counted.counted.counted.reconcileRead config scope
      (current.filter fun fingerprint => !fingerprint.isEmpty) suppressed now (e.events.all scope.eventsKey)
      (e.pending.list scope.tenant scope.rule) (e.infos.get? scope.infoKey)
    e.reconcile config scope current suppressed now = (.ok s.1, s.2) := by
  rcases e.getAll_cases scope.eventsKey with ⟨hf, ha⟩ | ⟨hf, ha⟩ <;>
    rcases e.counted.pendingList_cases scope.tenant scope.rule with ⟨hf', hl⟩ | ⟨hf', hl⟩ <;>
    rcases e.counted.counted.info_cases scope.infoKey with ⟨hf'', hinfo⟩ | ⟨hf'', hinfo⟩ <;>
    simp only [readError, hf, hf', hf'', if_true, Bool.false_eq_true, if_false, reduceCtorEq] at h
  simp only [reconcile, hk, hi, Bool.or_self, Bool.false_eq_true, if_false, ha, hl, hinfo]
  rfl

/-- **A pass with a read that fails ends with its error, and has only counted its reads.** -/
theorem reconcile_of_readError {error : EngineError} (h : e.readError scope = some error) :
    ∃ n, e.reconcile config scope current suppressed now = (.error error, { e with calls := e.calls + n }) := by
  rcases e.getAll_cases scope.eventsKey with ⟨hf, ha⟩ | ⟨hf, ha⟩ <;>
    rcases e.counted.pendingList_cases scope.tenant scope.rule with ⟨hf', hl⟩ | ⟨hf', hl⟩ <;>
    rcases e.counted.counted.info_cases scope.infoKey with ⟨hf'', hinfo⟩ | ⟨hf'', hinfo⟩ <;>
    simp only [readError, hf, hf', hf'', if_true, Bool.false_eq_true, if_false, reduceCtorEq, Option.some.injEq] at h
  all_goals
    subst h
    simp only [reconcile, hk, hi, Bool.or_self, Bool.false_eq_true, if_false, ha]
  · exact ⟨1, rfl⟩
  · exact ⟨1, rfl⟩
  · exact ⟨1, rfl⟩
  · exact ⟨1, rfl⟩
  · exact ⟨2, by simp only [hl]; rfl⟩
  · exact ⟨2, by simp only [hl]; rfl⟩
  · exact ⟨3, by simp only [hl, hinfo]; rfl⟩

end Reads

/-- **What every change of a pass keeps, the pass keeps.** The changes for a fingerprint go by what was kept about it
when the pass began. -/
theorem reconcile_keeps_turns (hc : e.Coherent) {P : Engine → Prop}
    (keeps : ∀ fingerprint {e₁ e₂ : Engine}, Turn config scope now (e.infos.get? scope.infoKey)
      (e.cell scope fingerprint) fingerprint e₁ e₂ → P e₁ → P e₂) (h : P e) :
    P (e.reconcile config scope current suppressed now).2 := by
  have quiet : ∀ {e₁ e₂ : Engine}, Quiet e₁ e₂ → P e₁ → P e₂ := fun hq h => keeps "" (.quiet hq) h
  unfold reconcile
  split
  · exact quiet (.noted e _) h
  · rcases e.getAll_cases scope.eventsKey with ⟨-, ha⟩ | ⟨-, ha⟩ <;> rw [ha]
    · exact quiet (.counted e) h
    · dsimp only
      rcases e.counted.pendingList_cases scope.tenant scope.rule with ⟨-, hl⟩ | ⟨-, hl⟩ <;> rw [hl]
      · exact quiet (.counted _) (quiet (.counted e) h)
      · dsimp only
        rcases e.counted.counted.info_cases scope.infoKey with ⟨-, hi⟩ | ⟨-, hi⟩ <;> rw [hi]
        · exact quiet (.counted _) (quiet (.counted _) (quiet (.counted e) h))
        · exact (reconcileRead_local config scope _ suppressed now (e := e.counted.counted.counted) hc _ keeps
            (quiet (.counted _) (quiet (.counted _) (quiet (.counted e) h)))).1

theorem reconcile_keeps (hc : e.Coherent) {P : Engine → Prop}
    (keeps : ∀ fingerprint {e e' : Engine}, Deal scope fingerprint e e' → P e → P e') (h : P e) :
    P (e.reconcile config scope current suppressed now).2 :=
  reconcile_keeps_turns config scope current suppressed now hc
    (fun fingerprint _ _ ht h => keeps fingerprint ht.deal h) h

/-- Whether a fingerprint counts as current; an empty one never does. -/
def isCurrent (fingerprint : String) : Bool := !fingerprint.isEmpty && current.contains fingerprint

theorem contains_filter_eq_isCurrent (k : String) :
    (current.filter fun fingerprint => !fingerprint.isEmpty).contains k = isCurrent current k := by
  rw [isCurrent, Bool.eq_iff_iff]
  simp [List.mem_filter, and_comm]

/-- **When no call fails, a pass ends well, and every fingerprint comes to what its cell says.** -/
theorem reconcile_of_healthy (h : e.Healthy) (hc : e.Coherent) (hk : scope.eventsKey.isEmpty = false)
    (hi : scope.infoKey.isEmpty = false) :
    ∃ r e', e.reconcile config scope current suppressed now = (.ok r, e') ∧ e'.Healthy ∧ e'.Coherent ∧
      e'.infos = e.infos ∧ ∀ k,
        let result := (e.cell scope k).pass config scope (e.infos.get? scope.infoKey) now (isCurrent current k)
          (suppressed.contains k)
        e'.cell scope k = result.2 ∧ ∀ v, k ∈ r.list v ↔ result.1 = some v := by
  obtain ⟨hh', hc', hi', hcell⟩ := reconcileRead_of_healthy config scope
    (current.filter fun fingerprint => !fingerprint.isEmpty) suppressed now (e := e.counted.counted.counted) h hc
    (e.infos.get? scope.infoKey)
  refine ⟨_, _, reconcile_of_reads config scope current suppressed now hk hi (readError_of_healthy scope h),
    hh', hc', hi', fun k => ?_⟩
  rw [← contains_filter_eq_isCurrent]
  exact hcell k

end Pass

end Engine

end Alerting
