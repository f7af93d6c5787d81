import Alerting.Proofs.Engine.Run

/-!
# Active alerts that stopped matching

An active alert that a pass misses goes missing, unless its fingerprint is listed as missing already: then the pass
leaves it active (`active_after_missing_pass_iff`). An entry beside an active alert is what a failed write leaves
behind: a pass lists the fingerprint and fails to store the event, or a reactivation stores the event and fails to
remove the entry. Later passes do not repair it, even when no call fails any more (`half_done_passes_stay`).
-/

namespace Alerting

namespace Engine

theorem isCurrent_eq_false {current : List String} {fingerprint : String} (h : fingerprint ∉ current) :
    isCurrent current fingerprint = false := by
  simp [isCurrent, h]

end Engine

/-! ## One missed fingerprint -/

section Missed

variable {c : Cell} {config : Config} {scope : Scope} {info : Option FaultCenter} {now : Instant} {event : Event}

/-- A missed active event that is not listed as missing goes missing. -/
theorem Cell.pass_active_unlisted (h : c.record.filter scope.owns = some event) (hs : event.status = .alerting)
    (hc : c.since = none) :
    c.pass config scope info now false false =
      (some .pending, ⟨some (event.moved .pendingRecovery now), some now⟩) := by
  have ha : Status.allows .alerting .pendingRecovery = true := rfl
  rw [pass_missed c config scope info now h, hs]
  simp only [Job.result, hc, hs, ha, if_true]

/-- A missed active event that is listed as missing is left alone. -/
theorem Cell.pass_active_listed (h : c.record.filter scope.owns = some event) (hs : event.status = .alerting)
    (hc : c.since.isSome = true) : c.pass config scope info now false false = (none, c) := by
  obtain ⟨since, hc⟩ := Option.isSome_iff_exists.mp hc
  rw [pass_missed c config scope info now h, hs]
  simp [Job.result, hc, hs]

/-- A settled event that is active afterwards was left alone. -/
theorem Job.settle_active (old : Event)
    (h : ((Job.settle old).result config info now c).2.record.filter scope.owns = some event)
    (hs : event.status = .alerting) : ((Job.settle old).result config info now c).2 = c := by
  have hmoved : ∀ {target : Status}, (some (old.moved target now)).filter scope.owns = some event →
      target = .alerting := by
    intro target hm
    cases (Option.filter_eq_some_iff.mp hm).1
    exact hs
  unfold Job.result at h ⊢
  dsimp only at h ⊢
  split at h
  · split at h
    · exact absurd (hmoved h) (by decide)
    · next hc ha => simp only [if_neg ha]
  · split at h
    · exact absurd (hmoved h) (by decide)
    · next hc hg => simp only [if_neg hg]

/-- A missed event of the rule that is active after a pass was active before it. -/
theorem Cell.active_of_pass
    (h : (c.pass config scope info now false false).2.record.filter scope.owns = some event)
    (hs : event.status = .alerting) : c.record.filter scope.owns = some event := by
  cases hm : c.record.filter scope.owns with
  | none =>
    rw [pass_foreign c config scope info now hm, hm] at h
    exact h
  | some old =>
    rw [pass_missed c config scope info now hm] at h
    cases ho : old.status with
    | preAlert =>
      simp only [ho] at h
      cases h
    | recovered =>
      simp only [ho] at h
      exact hm.symm.trans h
    | alerting | pendingRecovery =>
      simp only [ho] at h
      rw [Job.settle_active old h hs] at h
      exact hm.symm.trans h

end Missed

/-! ## Passes in which no call fails -/

/-- **What was active and missed is active after a healthy pass exactly if its fingerprint was listed as missing
before.** Else the pass has listed it and it is pending. This holds after every run, whichever of its calls failed. -/
theorem active_after_missing_pass_iff (config : Config) (faults : Nat → Call → Bool) (infos : InfoCache)
    (works : List Work) (rule : Rule) (current suppressed : List String) (now : Instant) :
    let e := ((Engine.fresh faults infos).run config works).healthy
    ∃ r e', e.reconcile config rule.scope current suppressed now = (.ok r, e') ∧
      ∀ fingerprint, fingerprint ∉ current → fingerprint ∉ suppressed →
        (e'.Shows rule.scope fingerprint .alerting ↔ e.Shows rule.scope fingerprint .alerting ∧
          (e.pending.get? rule.tenantId rule.id fingerprint).isSome = true) ∧
        (e.Shows rule.scope fingerprint .alerting → e.pending.get? rule.tenantId rule.id fingerprint = none →
          e'.Shows rule.scope fingerprint .pendingRecovery ∧
            e'.pending.get? rule.tenantId rule.id fingerprint = some now ∧ fingerprint ∈ r.pending) := by
  intro e
  have hc : e.Coherent := Engine.Coherent.run config works (Engine.coherent_fresh faults infos)
  obtain ⟨r, e', hr, -, -, -, hcell⟩ := Engine.reconcile_of_healthy config rule.scope current suppressed now
    (Engine.healthy_healthy _) hc rule.scope_keys.1 rule.scope_keys.2
  refine ⟨r, e', hr, fun k hcur hsup => ?_⟩
  obtain ⟨hk, hv⟩ := hcell k
  have hsup' : suppressed.contains k = false := by simpa using hsup
  rw [Engine.isCurrent_eq_false hcur, hsup'] at hk hv
  simp only [Engine.Shows, Cell.status, Option.map_eq_some_iff]
  refine ⟨⟨?_, ?_⟩, ?_⟩
  · rintro ⟨event, hm, hs⟩
    rw [hk] at hm
    have hm' := Cell.active_of_pass hm hs
    refine ⟨⟨event, hm', hs⟩, ?_⟩
    -- Without an entry, the pass would have moved it.
    cases hn : (e.cell rule.scope k).since with
    | none =>
      rw [Cell.pass_active_unlisted hm' hs hn] at hm
      have he : event.moved .pendingRecovery now = event := Option.some.inj (Option.filter_eq_some_iff.mp hm).1
      have hp : (event.moved .pendingRecovery now).status = .alerting := he ▸ hs
      cases hp
    | some since => exact congrArg Option.isSome hn
  · rintro ⟨⟨event, hm, hs⟩, hl⟩
    rw [Cell.pass_active_listed hm hs hl] at hk
    exact ⟨event, by rw [hk]; exact hm, hs⟩
  · rintro ⟨event, hm, hs⟩ hn
    rw [Cell.pass_active_unlisted hm hs hn] at hk hv
    refine ⟨⟨event.moved .pendingRecovery now, ?_, rfl⟩, congrArg Cell.since hk, (hv .pending).mpr rfl⟩
    rw [hk, Option.filter_eq_some_iff]
    exact ⟨rfl, (Option.filter_eq_some_iff.mp hm).2⟩

/-- Two ticks of the rule that match, and a pass that misses it; the push of the pass is the eighth call after the
first. -/
def Work.activeThenMissed : List Work :=
  let hit := Work.dispatch .errorCount [⟨"ds1", .epoch, 0, .ok (.count 5)⟩]
  [hit, hit, .recover Rule.errorCount.scope [] [] (Instant.epoch.after (.ofSecs 60))]

/-- A pass after which the rule matches again; the deletion of the entry is the thirteenth call after the first. -/
def Work.activeAgain : List Work :=
  activeThenMissed ++ [.recover Rule.errorCount.scope [Fingerprint.ofRule "r1"] [] (Instant.epoch.after (.ofSecs 90))]

/-- **One failed write is enough: a later pass in which no call fails leaves the missed alert active.** In the first
run the push of a new state fails after the entry was made, in the second the entry stays after the alert became
active again. -/
theorem half_done_passes_stay :
    let late := Instant.epoch.after (.ofSecs 3600)
    let scope := Rule.errorCount.scope
    let lostPush := (Engine.fresh (fun n _ => n == 8) .empty).run .standard Work.activeThenMissed
    let lostDelete := (Engine.fresh (fun n _ => n == 13) .empty).run .standard Work.activeAgain
    (lostPush.healthy.reconcile .standard scope [] [] late).2.Shows scope (Fingerprint.ofRule "r1") .alerting ∧
      (lostDelete.healthy.reconcile .standard scope [] [] late).2.Shows scope (Fingerprint.ofRule "r1") .alerting := by
  decide +kernel

end Alerting
