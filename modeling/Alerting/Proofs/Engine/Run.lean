import Alerting.Proofs.Engine.Tasks
import Alerting.Proofs.Recovery.Pass

/-!
# Runs of an engine

A run of an engine is a list of dispatches and recovery passes of any rules, with any answers of the backends, in any
order. The datasources of a dispatch are worked off one after the other, or side by side. A run begins with empty
caches, and any of its calls may fail (`Engine.fresh`).
-/

namespace Alerting

theorem Rule.scope_keys (rule : Rule) : rule.scope.eventsKey.isEmpty = false ∧ rule.scope.infoKey.isEmpty = false := by
  constructor <;> simp [Rule.scope, eventsKey, infoKey]

/-- A piece of work for an engine. -/
inductive Work
  | dispatch (rule : Rule) (readings : List Reading)
  | race (readings : List (Rule × Reading)) (order : List Nat)
  | recover (scope : Scope) (current suppressed : List String) (now : Instant)

namespace Engine

/-- An engine with empty caches, with calls that may fail and fault centers that have settings. -/
def fresh (faults : Nat → Call → Bool) (infos : InfoCache) : Engine :=
  { initial with faults := faults, infos := infos }

/-- The engine after a piece of work. -/
def after (config : Config) (e : Engine) : Work → Engine
  | .dispatch rule readings => (e.dispatch rule readings).2
  | .race readings order => Engine.race e (AnswerTask.ofReadings readings) order
  | .recover scope current suppressed now => (e.reconcile config scope current suppressed now).2

/-- The engine after some pieces of work, the first one first. -/
def run (config : Config) (e : Engine) (works : List Work) : Engine := works.foldl (after config) e

/-- The rule of a scope has an event of this status under a fingerprint. -/
def Shows (e : Engine) (scope : Scope) (fingerprint : String) (status : Status) : Prop :=
  (e.cell scope fingerprint).status scope = some status

instance (e : Engine) (scope : Scope) (fingerprint : String) (status : Status) :
    Decidable (e.Shows scope fingerprint status) := inferInstanceAs (Decidable (_ = _))

/-- The rule of a scope has a fingerprint listed as missing. -/
def Lists (e : Engine) (scope : Scope) (fingerprint : String) : Prop :=
  (e.pending.get? scope.tenant scope.rule fingerprint).isSome = true

instance (e : Engine) (scope : Scope) (fingerprint : String) : Decidable (e.Lists scope fingerprint) :=
  inferInstanceAs (Decidable (_ = _))

theorem coherent_fresh (faults : Nat → Call → Bool) (infos : InfoCache) : (fresh faults infos).Coherent :=
  fun _ _ _ h => nomatch h

theorem Coherent.after {e : Engine} (h : e.Coherent) (config : Config) (w : Work) :
    (e.after config w).Coherent := by
  cases w with
  | dispatch rule readings =>
    exact dispatch_keeps (fun hq h => h.quiet hq) (fun event h => h.stored event) rule readings h
  | race readings order =>
    exact race_keeps (fun hq h => h.quiet hq) (fun event h => h.stored event) order _ h
  | recover scope current suppressed now =>
    exact reconcile_keeps config scope current suppressed now h (fun _ _ _ hd h => h.deal hd) h

/-- **Every run leaves the events where they belong.** -/
theorem Coherent.run (config : Config) (works : List Work) {e : Engine} (h : e.Coherent) :
    (e.run config works).Coherent := by
  induction works generalizing e with
  | nil => exact h
  | cons w works ih => exact ih (h.after config w)

theorem Healthy.after {e : Engine} (h : e.Healthy) (hc : e.Coherent) (config : Config) (w : Work) :
    (e.after config w).Healthy := by
  cases w with
  | dispatch rule readings => exact dispatch_keeps (fun hq h => h.quiet hq) (fun _ h => h) rule readings h
  | race readings order => exact race_keeps (fun hq h => h.quiet hq) (fun _ h => h) order _ h
  | recover scope current suppressed now =>
    refine reconcile_keeps config scope current suppressed now hc (fun _ _ _ hd h n c => ?_) h
    rw [hd.faults_eq.1]
    exact h n c

/-! ## Ticks -/

/-- The engine after some ticks of a rule, the first one first. -/
def ticks (e : Engine) (config : Config) (rule : Rule) (ticks : List (List Reading × Instant)) : Engine :=
  ticks.foldl (fun e t => (e.tick config rule t.1 t.2).2) e

/-- A tick is a dispatch and, unless that panics, a pass. -/
theorem tick_cases (e : Engine) (config : Config) (rule : Rule) (readings : List Reading) (now : Instant) :
    (e.tick config rule readings now).2 = (e.dispatch rule readings).2 ∨
      ∃ current suppressed, (e.tick config rule readings now).2 =
        ((e.dispatch rule readings).2.reconcile config rule.scope current suppressed now).2 := by
  unfold tick
  cases hd : e.dispatch rule readings with
  | mk result e₁ =>
    cases result with
    | error p => exact .inl rfl
    | ok report => exact .inr ⟨report.fingerprints, report.suppressed, rfl⟩

/-- **What a dispatch and a pass of the rule keep, a tick keeps.** -/
theorem tick_keeps {P : Engine → Prop} {config : Config} {rule : Rule} {readings : List Reading} {now : Instant}
    {e : Engine} (dispatches : P (e.after config (.dispatch rule readings)))
    (passes : ∀ current suppressed {e : Engine}, P e → P (e.after config (.recover rule.scope current suppressed now))) :
    P (e.tick config rule readings now).2 := by
  rcases e.tick_cases config rule readings now with ht | ⟨current, suppressed, ht⟩ <;> rw [ht]
  · exact dispatches
  · exact passes current suppressed dispatches

theorem Healthy.tick {e : Engine} (h : e.Healthy) (hc : e.Coherent) (config : Config) (rule : Rule)
    (readings : List Reading) (now : Instant) : (e.tick config rule readings now).2.Healthy := by
  have hboth : (e.tick config rule readings now).2.Healthy ∧ (e.tick config rule readings now).2.Coherent :=
    tick_keeps (P := fun e => e.Healthy ∧ e.Coherent) ⟨h.after hc config _, hc.after config _⟩
      fun _ _ _ h => ⟨h.1.after h.2 config _, h.2.after config _⟩
  exact hboth.1

end Engine

/-! ## A rule -/

/-- A rule on the number of log lines, for runs on fixed inputs. -/
def Rule.errorCount : Rule where
  id := "r1"
  tenantId := "t1"
  faultCenterId := "fc1"
  name := "errors"
  datasourceKind := .loki
  datasourceIds := ["ds1"]
  interval := ⟨10, .seconds⟩
  forDurationSecs := 0
  severityRules := []
  query := .logs "error" 5 .minutes .greater (.ofNat 3) .standard
  externalLabels := .empty
  annotations := ""
  effectiveTime := none
  enabled := true

/-- An engine in which the rule has matched twice, so that its alert is active. -/
def Engine.active : Engine :=
  let hit := Work.dispatch .errorCount [⟨"ds1", .epoch, 0, .ok (.count 5)⟩]
  (fresh (fun _ _ => false) .empty).run .standard [hit, hit]

theorem Engine.coherent_active : Engine.active.Coherent :=
  Coherent.run .standard _ (coherent_fresh (fun _ _ => false) .empty)

end Alerting
