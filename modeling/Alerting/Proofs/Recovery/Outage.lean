import Alerting.Proofs.Dispatch.Flight
import Alerting.Proofs.Engine.Faults

/-!
# Outages

When every datasource of a rule fails, its dispatch reports no fingerprint and stores nothing (`dispatch_of_outage`), and
the pass that follows misses all that the rule has. So a tick in an outage leaves the caches alone exactly if a pass that
misses everything does, that is if all events of the rule are at rest (`Cell.Rests`, `stale_in_outage_iff`). An
unconfirmed alert is never at rest, nor is an active one that is not listed as missing: the first is discarded, and the
second goes missing and recovers (`recovered_in_outage`).
-/

namespace Alerting

/-! ## What a pass leaves alone when it misses everything -/

/-- What is kept about a fingerprint is at rest when it is missed: the event of the rule has recovered, or it is listed
as missing and is active or still has grace. -/
def Cell.Rests (c : Cell) (config : Config) (scope : Scope) (info : Option FaultCenter) (now : Instant) : Prop :=
  ∀ event, c.record.filter scope.owns = some event → event.status = .recovered ∨
    ∃ since, c.since = some since ∧ (event.status = .alerting ∨
      event.status = .pendingRecovery ∧ now.elapsedSince since < config.graceOf event info)

section Rests

variable {c : Cell} {config : Config} {scope : Scope} {info : Option FaultCenter} {now : Instant} {event : Event}

/-- An event that was moved to another state has changed. -/
theorem Cell.ne_of_moved {target : Status} {since : Option Instant} (h : c.record.filter scope.owns = some event)
    (hs : event.status ≠ target) : (⟨some (event.moved target now), since⟩ : Cell) ≠ c := by
  intro he
  have hr : some (event.moved target now) = some event := (congrArg Cell.record he).trans (Cell.record_of_owned h)
  exact hs (congrArg Event.status (Option.some.inj hr)).symm

/-- **A missed fingerprint is left alone exactly if it is at rest.** -/
theorem Cell.rests_iff : c.Rests config scope info now ↔ (c.pass config scope info now false false).2 = c := by
  cases hm : c.record.filter scope.owns with
  | none =>
    rw [pass_foreign c config scope info now hm]
    exact iff_of_true (fun event he => by rw [hm] at he; cases he) rfl
  | some event =>
    have hrests : c.Rests config scope info now ↔ event.status = .recovered ∨ ∃ since, c.since = some since ∧
        (event.status = .alerting ∨
          event.status = .pendingRecovery ∧ now.elapsedSince since < config.graceOf event info) :=
      ⟨fun h => h event hm, fun h event' he => by rw [hm] at he; cases he; exact h⟩
    rw [hrests, pass_missed c config scope info now hm]
    cases hs : event.status with
    | preAlert =>
      refine iff_of_false (by simp) fun he => ?_
      rw [← he] at hm
      cases hm
    | recovered => simp
    | alerting =>
      have ha : Status.allows .alerting .pendingRecovery = true := rfl
      cases hsince : c.since with
      | none =>
        simp only [Job.result, hsince, hs, ha, if_true]
        exact iff_of_false (by simp) (ne_of_moved hm (by rw [hs]; decide))
      | some since => simp [Job.result, hsince, hs]
    | pendingRecovery =>
      have ha : Status.allows .pendingRecovery .pendingRecovery = true := rfl
      cases hsince : c.since with
      | none =>
        simp only [Job.result, hsince, hs, ha, if_true]
        refine iff_of_false (by simp) fun he => ?_
        rw [← he] at hsince
        cases hsince
      | some since =>
        by_cases hdue : config.graceOf event info ≤ now.elapsedSince since
        · simp only [Job.result, hsince, hs, hdue, and_self, if_true]
          refine iff_of_false ?_ (ne_of_moved hm (by rw [hs]; decide))
          simpa [← Duration.not_le] using hdue
        · simp [Job.result, hsince, hs, hdue, ← Duration.not_le]

/-- What is at rest is only looked at again. -/
theorem Cell.Rests.idle (h : c.Rests config scope info now) {job : Job} (hj : c.job scope false false = some job) :
    job.Idle config info now c.since := by
  cases hm : c.record.filter scope.owns with
  | none =>
    rw [job_foreign c scope hm] at hj
    cases hj
  | some event =>
    rw [job_missed c scope hm] at hj
    rcases h event hm with hs | ⟨since, hsince, hs | ⟨hs, hgrace⟩⟩ <;> rw [hs] at hj <;> cases hj
    · exact ⟨since, hsince, by simp [hs]⟩
    · exact ⟨since, hsince, fun hdue => Duration.not_le.mpr hgrace hdue.2⟩

end Rests

namespace Engine

/-! ## A pass that misses everything -/

section Pass

variable {config : Config} {scope : Scope} {now : Instant} {e : Engine}

/-- **A pass that misses everything touches no cache if everything is at rest**, whichever calls fail. -/
theorem reconcile_of_rests (hk : scope.eventsKey.isEmpty = false) (hi : scope.infoKey.isEmpty = false)
    (h : ∀ k, (e.cell scope k).Rests config scope (e.infos.get? scope.infoKey) now) :
    (e.reconcile config scope [] [] now).2.events = e.events ∧
      (e.reconcile config scope [] [] now).2.pending = e.pending := by
  cases hr : e.readError scope with
  | some error =>
    obtain ⟨n, hread⟩ := reconcile_of_readError config scope [] [] now hk hi hr
    rw [hread]
    exact ⟨rfl, rfl⟩
  | none =>
    have hidle : ∀ x ∈ jobs scope [] [] (e.events.all scope.eventsKey) (e.pending.list scope.tenant scope.rule),
        x.2.Idle config (e.infos.get? scope.infoKey) now ((e.pending.list scope.tenant scope.rule).get? x.1) := by
      rintro ⟨k, job⟩ hx
      exact (h k).idle ((mem_jobs ..).mp hx)
    obtain ⟨hevents, hpending⟩ := foldl_of_idle scope hidle (.empty, e.counted.counted.counted)
    rw [reconcile_of_reads config scope [] [] now hk hi hr, reconcileRead_eq_jobs]
    exact ⟨hevents, hpending⟩

/-- If it touches no cache and no call fails, everything is at rest. -/
theorem rests_of_reconcile (hc : e.Coherent) (hk : scope.eventsKey.isEmpty = false)
    (hi : scope.infoKey.isEmpty = false) (hnone : e.NoneFailed (e.reconcile config scope [] [] now).2)
    (hevents : (e.reconcile config scope [] [] now).2.events = e.events)
    (hpending : (e.reconcile config scope [] [] now).2.pending = e.pending) (k : String) :
    (e.cell scope k).Rests config scope (e.infos.get? scope.infoKey) now := by
  have hcell := (reconcile_of_noneFailed config scope [] [] now hc hk hi hnone).2 k
  have hsame : (e.reconcile config scope [] [] now).2.cell scope k = e.cell scope k := by
    rw [cell, hevents, hpending]
    rfl
  simp only [isCurrent, List.contains_nil, Bool.and_false] at hcell
  exact Cell.rests_iff.mpr (hcell.symm.trans hsame)

end Pass

/-! ## A dispatch in an outage -/

end Engine

/-- A datasource gave no answer: it was not to be asked, its query failed, or it took too long. -/
def Reading.Failed (r : Reading) : Prop := ∃ error, r.reply = .error (.error error)

namespace Engine

/-- Failed datasources are noted and counted. -/
theorem gather_of_outage (rule : Rule) (start : Nat) {readings : List Reading} (h : ∀ r ∈ readings, r.Failed)
    (g : Gathering) (hg : g.panic = none) (last : Nat) (e : Engine) : ∃ time notices,
      gather rule start e g last readings =
        ({ g with failed := g.failed + readings.length }, { e with time := time, notices := notices }) := by
  induction readings generalizing g last e with
  | nil => exact ⟨e.time, e.notices, rfl⟩
  | cons r readings ih =>
    obtain ⟨error, hr⟩ := h r List.mem_cons_self
    obtain ⟨time, notices, hrest⟩ := ih (fun x hx => h x (List.mem_cons_of_mem r hx))
      { g with failed := g.failed + 1 } hg r.elapsed
      ((e.atTime (start + r.elapsed)).note (.datasourceFailed rule.id r.datasource error))
    have hstep : gather rule start e g last (r :: readings) =
        gather rule start ((e.atTime (start + r.elapsed)).note (.datasourceFailed rule.id r.datasource error))
          { g with failed := g.failed + 1 } r.elapsed readings := by
      simp only [gather, hg, hr, complete, Gathering.add, Option.isSome_none, Bool.false_and, Bool.false_eq_true,
        if_false]
    refine ⟨time, notices, ?_⟩
    rw [hstep, hrest, List.length_cons, Nat.add_comm readings.length, ← Nat.add_assoc]
    rfl

/-- **A dispatch in an outage reports failures only, and touches no cache.** -/
theorem dispatch_of_outage (rule : Rule) {readings : List Reading} (h : ∀ r ∈ readings, r.Failed) (e : Engine) :
    ∃ time notices, e.dispatch rule readings =
      (.ok ⟨[], [], 0, readings.length, 0⟩, { e with time := time, notices := notices }) := by
  obtain ⟨time, notices, hgather⟩ := gather_of_outage rule e.time h .empty rfl 0 e
  refine ⟨time, notices, ?_⟩
  rw [dispatch, hgather]
  simp [Gathering.report, Gathering.empty, Table.keys, Table.empty]
  rfl

/-- A tick in an outage is a pass that misses everything. -/
theorem tick_of_outage (config : Config) (rule : Rule) {readings : List Reading} (h : ∀ r ∈ readings, r.Failed)
    (now : Instant) (e : Engine) : ∃ time notices,
      let pass := { e with time := time, notices := notices }.reconcile config rule.scope [] [] now
      e.tick config rule readings now = (.ok (⟨[], [], 0, readings.length, 0⟩, pass.1), pass.2) := by
  obtain ⟨time, notices, hd⟩ := dispatch_of_outage rule h e
  exact ⟨time, notices, by rw [tick, hd]; rfl⟩

end Engine

/-- **In an outage, a tick leaves the caches alone exactly if all events of the rule are at rest.** If they are, it does
so whichever calls fail. -/
theorem stale_in_outage_iff (config : Config) (faults : Nat → Call → Bool) (infos : InfoCache) (works : List Work)
    (rule : Rule) (readings : List Reading) (hout : ∀ r ∈ readings, r.Failed) (now : Instant) :
    let e := (Engine.fresh faults infos).run config works
    let tick := e.tick config rule readings now
    (∃ r, tick.1 = .ok (⟨[], [], 0, readings.length, 0⟩, r)) ∧
      ((∀ k, (e.cell rule.scope k).Rests config rule.scope (e.infos.get? rule.scope.infoKey) now) →
        tick.2.events = e.events ∧ tick.2.pending = e.pending) ∧
      (e.NoneFailed tick.2 → tick.2.events = e.events → tick.2.pending = e.pending →
        ∀ k, (e.cell rule.scope k).Rests config rule.scope (e.infos.get? rule.scope.infoKey) now) := by
  intro e tick
  have hc : e.Coherent := Engine.Coherent.run config works (Engine.coherent_fresh faults infos)
  obtain ⟨time, notices, htick⟩ := e.tick_of_outage config rule hout now
  let e₁ : Engine := { e with time := time, notices := notices }
  have htick : tick = _ := htick
  rw [htick]
  refine ⟨⟨_, rfl⟩, fun h => ?_, fun hnone hevents hpending => ?_⟩
  · exact Engine.reconcile_of_rests (e := e₁) rule.scope_keys.1 rule.scope_keys.2 h
  · exact Engine.rests_of_reconcile (e := e₁) hc rule.scope_keys.1 rule.scope_keys.2 hnone hevents hpending

/-! ## An alert that recovers in an outage -/

/-- The only datasource of a rule does not exist. -/
def Reading.outage (now : Instant) : Reading := ⟨"ds1", now, 0, .error (.error (.datasourceNotFound "ds1"))⟩

theorem Reading.failed_outage (now : Instant) : ∀ r ∈ [Reading.outage now], r.Failed := by
  intro r hr
  rw [List.mem_singleton.mp hr]
  exact ⟨_, rfl⟩

/-- The engine after a tick in an outage. -/
def Engine.tickInOutage (e : Engine) (now : Instant) : Engine := (e.tick .standard .errorCount [.outage now] now).2

theorem Engine.not_rests_active : ¬(Engine.active.cell Rule.errorCount.scope (Fingerprint.ofRule "r1")).Rests .standard
    Rule.errorCount.scope (Engine.active.infos.get? Rule.errorCount.scope.infoKey) (Instant.epoch.after (.ofSecs 60)) := by
  rw [Cell.rests_iff]
  decide +kernel

/-- An active alert is not at rest when it is not listed as missing, and a tick in an outage does not leave it alone. -/
theorem stale_in_outage_iff_active :
    let now := Instant.epoch.after (.ofSecs 60)
    let tick := Engine.active.tick .standard .errorCount [.outage now] now
    (∀ r ∈ [Reading.outage now], r.Failed) ∧ (∃ r, tick.1 = .ok (⟨[], [], 0, 1, 0⟩, r)) ∧
      ¬(tick.2.events = Engine.active.events ∧ tick.2.pending = Engine.active.pending) := by
  intro now tick
  have hout := Reading.failed_outage now
  obtain ⟨hreport, -, hrests⟩ := stale_in_outage_iff .standard (fun _ _ => false) .empty
    [.dispatch .errorCount [⟨"ds1", .epoch, 0, .ok (.count 5)⟩],
      .dispatch .errorCount [⟨"ds1", .epoch, 0, .ok (.count 5)⟩]] .errorCount [.outage now] hout now
  refine ⟨hout, hreport, fun ⟨hevents, hpending⟩ => Engine.not_rests_active ?_⟩
  exact hrests (Engine.healthy_active.noneFailed _) hevents hpending _

/-- **An active alert goes missing in an outage, and recovers in the next tick.** One that was still unconfirmed is
discarded. -/
theorem recovered_in_outage :
    let time (n : Nat) := Instant.epoch.after (.ofSecs n)
    let scope := Rule.errorCount.scope
    let k := Fingerprint.ofRule "r1"
    let unconfirmed := (Engine.fresh (fun _ _ => false) .empty).run .standard
      [.dispatch .errorCount [⟨"ds1", .epoch, 0, .ok (.count 5)⟩]]
    unconfirmed.Shows scope k .preAlert ∧ ((unconfirmed.tickInOutage (time 60)).cell scope k).record = none ∧
      Engine.active.Shows scope k .alerting ∧
      (Engine.active.tickInOutage (time 60)).Shows scope k .pendingRecovery ∧
      ((Engine.active.tickInOutage (time 60)).tickInOutage (time 120)).Shows scope k .recovered := by
  decide +kernel

end Alerting
