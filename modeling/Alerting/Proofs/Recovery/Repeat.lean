import Alerting.Proofs.Recovery.Account
import Mathlib.Data.List.Sort

/-!
# A pass made twice

A pass that is made again at once finds nothing to do: what it moved is in a state that it leaves alone, what has gone
missing just now has its whole grace period before it, and what must not become active again is skipped again
(`Cell.still_pass`). So all jobs of the second pass are idle, and it touches no cache (`reconcile_reconcile`). It lists
the skipped fingerprints as the first one does, since both skip only current ones, by increasing fingerprint
(`Engine.pairwise_skipped`).
-/

namespace Alerting

/-! ## One fingerprint -/

theorem Instant.elapsedSince_self (t : Instant) : (t.elapsedSince t).nanos = 0 := by
  simp [elapsedSince, since]

/-- A pass leaves a cell as it is, with nothing to write about it. -/
structure Cell.Still (c : Cell) (config : Config) (scope : Scope) (info : Option FaultCenter) (now : Instant)
    (isCurrent isSuppressed : Bool) (v : Option Verdict) : Prop where
  pass : c.pass config scope info now isCurrent isSuppressed = (v, c)
  idle : ∀ job, c.job scope isCurrent isSuppressed = some job → job.Idle config info now c.since

namespace Cell

variable {c : Cell} {config : Config} {scope : Scope} {info : Option FaultCenter} {now : Instant} {event : Event}

/-! ### What is current -/

theorem still_of_since_none (isSuppressed : Bool) (h : c.since = none) :
    c.Still config scope info now true isSuppressed none where
  pass := by simp [pass_current, h]
  idle job hj := by simp [job_current, h] at hj

/-- What must not become active again is skipped as often as it is current. -/
theorem still_of_refused (isSuppressed : Bool) (h : c.record.filter scope.owns = some event)
    (hs : c.since.isSome = true) (ha : event.status.allows .alerting = false) :
    c.Still config scope info now true isSuppressed (some .skipped) where
  pass := by simp [pass_current, h, hs, ha, Job.result]
  idle job hj := by
    simp only [job_current, h, hs, if_true, Option.some.injEq] at hj
    subst hj
    exact ⟨event, rfl, ha⟩

theorem still_pass_current (isSuppressed : Bool) :
    (c.pass config scope info now true isSuppressed).2.Still config scope info now true isSuppressed
      ((c.pass config scope info now true isSuppressed).1.filter (· = .skipped)) := by
  rw [pass_current]
  cases hs : c.since.isSome with
  | false => exact still_of_since_none isSuppressed (Option.isSome_eq_false_iff.mp hs |> Option.isNone_iff_eq_none.mp)
  | true =>
    rw [if_pos rfl]
    cases hm : c.record.filter scope.owns with
    | none => exact still_of_since_none isSuppressed rfl
    | some event =>
      cases ha : event.status.allows .alerting with
      | true =>
        simp only [Job.result, ha, if_true]
        exact still_of_since_none isSuppressed rfl
      | false =>
        simp only [Job.result, ha, Bool.false_eq_true, if_false]
        exact still_of_refused isSuppressed hm hs ha

/-! ### What is missed -/

theorem still_of_foreign (h : c.record.filter scope.owns = none) :
    c.Still config scope info now false false none where
  pass := pass_foreign c config scope info now h
  idle job hj := by simp [job_foreign c scope h] at hj

/-- What has recovered is left alone, whatever entry it has. -/
theorem still_of_recovered (h : c.record.filter scope.owns = some event) (hs : event.status = .recovered) :
    c.Still config scope info now false false none where
  pass := by rw [pass_missed c config scope info now h, hs]
  idle job hj := by simp [job_missed c scope h, hs] at hj

/-- What is listed as missing and not due is left alone. -/
theorem still_of_listed (h : c.record.filter scope.owns = some event)
    (hs : event.status = .alerting ∨ event.status = .pendingRecovery) {time : Instant} (ht : c.since = some time)
    (hdue : ¬(event.status = .pendingRecovery ∧ config.graceOf event info ≤ now.elapsedSince time)) :
    c.Still config scope info now false false none where
  pass := by
    rw [pass_missed c config scope info now h]
    rcases hs with hs | hs <;> simp only [hs] at hdue ⊢ <;> simp only [Job.result, ht, hs, if_neg hdue]
  idle job hj := by
    rw [job_missed c scope h] at hj
    rcases hs with hs | hs <;> rw [hs] at hj <;> cases hj <;> exact ⟨time, ht, hdue⟩

/-- The event of a rule is still the event of the rule when it is moved. -/
theorem owned_moved (h : c.record.filter scope.owns = some event) (target : Status) (entry : Option Instant) :
    (⟨some (event.moved target now), entry⟩ : Cell).record.filter scope.owns = some (event.moved target now) :=
  Option.filter_eq_some_iff.mpr ⟨rfl, (Option.filter_eq_some_iff.mp h).2⟩

theorem still_settle (h : c.record.filter scope.owns = some event)
    (hs : event.status = .alerting ∨ event.status = .pendingRecovery) (hg : 0 < (config.graceOf event info).nanos) :
    ((Job.settle event).result config info now c).2.Still config scope info now false false none := by
  cases ht : c.since with
  | none =>
    have ha : event.status.allows .pendingRecovery = true := by rcases hs with hs | hs <;> rw [hs] <;> rfl
    simp only [Job.result, ht, ha, if_true]
    refine still_of_listed (owned_moved h ..) (.inr rfl) rfl fun hdue => ?_
    -- No time has passed since the event has gone missing.
    have hle : (config.graceOf event info).nanos ≤ (now.elapsedSince now).nanos := hdue.2
    rw [Instant.elapsedSince_self] at hle
    exact absurd hg (Nat.not_lt.mpr hle)
  | some time =>
    by_cases hdue : event.status = .pendingRecovery ∧ config.graceOf event info ≤ now.elapsedSince time
    · simp only [Job.result, ht, if_pos hdue]
      exact still_of_recovered (owned_moved h ..) rfl
    · simp only [Job.result, ht, if_neg hdue]
      exact still_of_listed h hs ht hdue

theorem still_pass_missed
    (hg : ∀ event, c.record.filter scope.owns = some event → 0 < (config.graceOf event info).nanos) :
    (c.pass config scope info now false false).2.Still config scope info now false false none := by
  cases hm : c.record.filter scope.owns with
  | none =>
    rw [pass_foreign c config scope info now hm]
    exact still_of_foreign hm
  | some event =>
    rw [pass_missed c config scope info now hm]
    cases hs : event.status with
    | preAlert => exact still_of_foreign rfl
    | recovered => exact still_of_recovered hm hs
    | alerting => exact still_settle hm (.inl hs) (hg event hm)
    | pendingRecovery => exact still_settle hm (.inr hs) (hg event hm)

/-! ### Both -/

theorem settle_ne_skipped (h : event.status = .alerting ∨ event.status = .pendingRecovery) :
    ((Job.settle event).result config info now c).1 ≠ some .skipped := by
  have ha : event.status.allows .pendingRecovery = true := by rcases h with hs | hs <;> rw [hs] <;> rfl
  cases ht : c.since with
  | none => simp [Job.result, ht, ha]
  | some time =>
    simp only [Job.result, ht]
    split <;> simp

/-- Only what is current is skipped when no call fails. -/
theorem isCurrent_of_skipped {isCurrent isSuppressed : Bool}
    (h : (c.pass config scope info now isCurrent isSuppressed).1 = some .skipped) : isCurrent = true := by
  cases isCurrent with
  | true => rfl
  | false =>
    exfalso
    cases isSuppressed with
    | true =>
      rw [pass_suppressed] at h
      cases h
    | false =>
      cases hm : c.record.filter scope.owns with
      | none =>
        rw [pass_foreign c config scope info now hm] at h
        cases h
      | some event =>
        rw [pass_missed c config scope info now hm] at h
        cases hs : event.status with
        | preAlert | recovered => simp [hs] at h
        | alerting =>
          rw [hs] at h
          exact settle_ne_skipped (.inl hs) h
        | pendingRecovery =>
          rw [hs] at h
          exact settle_ne_skipped (.inr hs) h

/-- **What a pass has left it leaves again**, and skips it again if it has skipped it. -/
theorem still_pass {isCurrent isSuppressed : Bool} (hg : ∀ event, c.record.filter scope.owns = some event →
      (isCurrent || !isSuppressed) = true → 0 < (config.graceOf event info).nanos) :
    (c.pass config scope info now isCurrent isSuppressed).2.Still config scope info now isCurrent isSuppressed
      ((c.pass config scope info now isCurrent isSuppressed).1.filter (· = .skipped)) := by
  cases isCurrent with
  | true => exact still_pass_current isSuppressed
  | false =>
    cases isSuppressed with
    | true =>
      rw [pass_suppressed]
      exact ⟨pass_suppressed .., fun job hj => by simp [job_suppressed] at hj⟩
    | false =>
      have hnone : (c.pass config scope info now false false).1.filter (· = .skipped) = none :=
        Option.filter_eq_none_iff.mpr fun v hv hskipped => by
          cases isCurrent_of_skipped (hv.trans (congrArg some (of_decide_eq_true hskipped)))
      rw [hnone]
      exact still_pass_missed fun event hm => hg event hm rfl

end Cell

/-- A report that only lists skipped fingerprints. -/
theorem RecoveryReport.eq_of_only_skipped {r : RecoveryReport} (h : ∀ v, v ≠ .skipped → r.list v = []) :
    r = { empty with skipped := r.skipped } := by
  obtain ⟨deleted, reactivated, pending, recovered, skipped⟩ := r
  obtain rfl : deleted = [] := h .deleted (by simp)
  obtain rfl : reactivated = [] := h .reactivated (by simp)
  obtain rfl : pending = [] := h .pending (by simp)
  obtain rfl : recovered = [] := h .recovered (by simp)
  rfl

namespace Engine

section Pass

variable (config : Config) (scope : Scope) (current suppressed : List String) (now : Instant) {e : Engine}

/-! ## Skipped fingerprints -/

/-- The current fingerprints among those of the jobs of a pass increase, since they are those to reactivate. -/
theorem pairwise_current_jobs (all : Table Event) (pending : Table Instant) :
    (((jobs scope current suppressed all pending).map (·.1)).filter (current.contains ·)).Pairwise (· < ·) := by
  have hdiscards : (((((owned scope current suppressed all).filter (isStale current)).toList.map fun x =>
      (x.1, Job.discard x.2)).map (·.1)).filter (current.contains ·)) = [] := by
    refine List.filter_eq_nil_iff.mpr fun k hk hc => ?_
    obtain ⟨⟨fingerprint, job⟩, hx, rfl⟩ := List.mem_map.mp hk
    obtain ⟨event, -, hs, -⟩ := (mem_discards scope current suppressed all).mp hx
    rw [(isStale_isMissing_of_current hc event).1] at hs
    cases hs
  have hsettlements : ((((keptEvents scope current suppressed all).filter (isMissing current)).toList.map fun x =>
      (x.1, Job.settle x.2)).map (·.1)).filter (current.contains ·) = [] := by
    refine List.filter_eq_nil_iff.mpr fun k hk hc => ?_
    obtain ⟨⟨fingerprint, job⟩, hx, rfl⟩ := List.mem_map.mp hk
    obtain ⟨event, -, -, hm, -⟩ := (mem_settlements scope current suppressed all).mp hx
    rw [(isStale_isMissing_of_current hc event).2] at hm
    cases hm
  rw [jobs, List.map_append, List.map_append, List.filter_append, List.filter_append, hdiscards, hsettlements,
    List.nil_append, List.append_nil, List.map_map]
  refine List.Pairwise.sublist List.filter_sublist (List.pairwise_map.mpr ?_)
  exact Table.pairwise_keys _

/-- **A pass in which no call fails lists the skipped fingerprints by increasing fingerprint.** -/
theorem pairwise_skipped (h : e.Healthy) (hc : e.Coherent) (hk : scope.eventsKey.isEmpty = false)
    (hi : scope.infoKey.isEmpty = false) {r : RecoveryReport} {e' : Engine}
    (hpass : e.reconcile config scope current suppressed now = (.ok r, e')) : r.skipped.Pairwise (· < ·) := by
  obtain ⟨entries, hsub, hacc⟩ := accounted_reconcileRead config scope
    (current.filter fun fingerprint => !fingerprint.isEmpty) suppressed now (e := e.counted.counted.counted) hc
    (e.infos.get? scope.infoKey)
  have hread := reconcile_of_reads config scope current suppressed now hk hi (readError_of_healthy scope h)
  obtain rfl : r = RecoveryReport.empty.enter entries :=
    (Except.ok.inj (congrArg Prod.fst (hpass.symm.trans hread))).trans hacc.report
  obtain ⟨r', _, hpass', -, -, -, hcell⟩ := reconcile_of_healthy config scope current suppressed now h hc hk hi
  obtain rfl := Except.ok.inj (congrArg Prod.fst (hpass'.symm.trans hpass))
  have hskipped : (RecoveryReport.empty.enter entries).skipped.Sublist (entries.map (·.fingerprint)) := by
    rw [show (RecoveryReport.empty.enter entries).skipped = _ from RecoveryReport.list_enter .empty entries .skipped]
    exact List.filter_sublist.map _
  have hall : (RecoveryReport.empty.enter entries).skipped.filter
      ((current.filter fun fingerprint => !fingerprint.isEmpty).contains ·) =
        (RecoveryReport.empty.enter entries).skipped := by
    refine List.filter_eq_self.mpr fun k hk => ?_
    rw [contains_filter_eq_isCurrent]
    exact Cell.isCurrent_of_skipped (((hcell k).2 .skipped).mp hk)
  rw [← hall]
  exact (pairwise_current_jobs scope _ suppressed _ _).sublist ((hskipped.trans hsub).filter _)

/-! ## The second pass -/

/-- **A pass leaves both caches as they are if it leaves every cell as it is**, and reports what it finds of each. -/
theorem reconcile_of_still (h : e.Healthy) (hc : e.Coherent) (hk : scope.eventsKey.isEmpty = false)
    (hi : scope.infoKey.isEmpty = false) {verdict : String → Option Verdict}
    (hstill : ∀ k, (e.cell scope k).Still config scope (e.infos.get? scope.infoKey) now (isCurrent current k)
      (suppressed.contains k) (verdict k)) :
    ∃ r e', e.reconcile config scope current suppressed now = (.ok r, e') ∧ e'.events = e.events ∧
      e'.pending = e.pending ∧ ∀ k v, k ∈ r.list v ↔ verdict k = some v := by
  obtain ⟨r, e', hpass, -, -, -, hcell⟩ := reconcile_of_healthy config scope current suppressed now h hc hk hi
  have hread := reconcile_of_reads config scope current suppressed now hk hi (readError_of_healthy scope h)
  obtain ⟨-, he⟩ := Prod.mk.inj (hpass.symm.trans hread)
  have hidle : ∀ x ∈ jobs scope (current.filter fun fingerprint => !fingerprint.isEmpty) suppressed
      (e.events.all scope.eventsKey) (e.pending.list scope.tenant scope.rule), x.2.Idle config
        (e.infos.get? scope.infoKey) now ((e.pending.list scope.tenant scope.rule).get? x.1) := by
    rintro ⟨k, job⟩ hx
    have hj := (mem_jobs ..).mp hx
    rw [contains_filter_eq_isCurrent] at hj
    exact (hstill k).idle job hj
  obtain ⟨hevents, hpending⟩ := foldl_of_idle scope hidle (.empty, e.counted.counted.counted)
  rw [← reconcileRead_eq_jobs] at hevents hpending
  refine ⟨r, e', hpass, he ▸ hevents, he ▸ hpending, fun k v => ?_⟩
  rw [(hcell k).2, (hstill k).pass]

/-- **A second pass does nothing when no call fails.** -/
theorem reconcile_reconcile (h : e.Healthy) (hc : e.Coherent)
    (hg : ∀ k event, (e.cell scope k).record.filter scope.owns = some event →
      (isCurrent current k || !suppressed.contains k) = true →
      0 < (config.graceOf event (e.infos.get? scope.infoKey)).nanos) :
    ∃ r₁ e₁ r₂ e₂, e.reconcile config scope current suppressed now = (.ok r₁, e₁) ∧
      e₁.reconcile config scope current suppressed now = (.ok r₂, e₂) ∧
      e₂.events = e₁.events ∧ e₂.pending = e₁.pending ∧
      r₂ = { RecoveryReport.empty with skipped := r₁.skipped } := by
  cases hkeys : scope.eventsKey.isEmpty || scope.infoKey.isEmpty with
  | true =>
    exact ⟨_, _, _, _, reconcile_of_emptyKey config scope current suppressed now hkeys,
      reconcile_of_emptyKey config scope current suppressed now hkeys, rfl, rfl, rfl⟩
  | false =>
    obtain ⟨hk, hi⟩ := Bool.or_eq_false_iff.mp hkeys
    obtain ⟨r₁, e₁, hpass₁, hh₁, hc₁, hinfos, hcell₁⟩ :=
      reconcile_of_healthy config scope current suppressed now h hc hk hi
    obtain ⟨r₂, e₂, hpass₂, hevents, hpending, hlist₂⟩ := reconcile_of_still config scope current suppressed now hh₁ hc₁
      hk hi fun k => by
        rw [(hcell₁ k).1, hinfos]
        exact Cell.still_pass (hg k)
    -- What the second pass reports is what the first one has skipped.
    have hlist : ∀ k v, k ∈ r₂.list v ↔ v = .skipped ∧ k ∈ r₁.skipped := fun k v => by
      rw [hlist₂, Option.filter_eq_some_iff, decide_eq_true_iff, and_comm]
      refine and_congr_right fun hv => ?_
      rw [hv]
      exact ((hcell₁ k).2 .skipped).symm
    have hnone : ∀ v, v ≠ .skipped → r₂.list v = [] := fun v hv =>
      List.eq_nil_iff_forall_not_mem.mpr fun k hk => hv ((hlist k v).mp hk).1
    have hskipped : r₂.skipped = r₁.skipped :=
      List.Pairwise.eq_of_mem_iff (pairwise_skipped config scope current suppressed now hh₁ hc₁ hk hi hpass₂)
        (pairwise_skipped config scope current suppressed now h hc hk hi hpass₁) fun k =>
          (hlist k .skipped).trans (and_iff_right rfl)
    exact ⟨r₁, e₁, r₂, e₂, hpass₁, hpass₂, hevents, hpending, hskipped ▸ RecoveryReport.eq_of_only_skipped hnone⟩

end Pass

end Engine

/-- **A pass made again at once changes nothing.** If no call of two passes with the same arguments fails and every
event that the first one owns has a positive grace period, the second one leaves both caches as the first one has left
them, and reports nothing but what the first one has skipped. -/
theorem second_pass_is_idle (config : Config) (scope : Scope) (current suppressed : List String) (now : Instant)
    (e : Engine) (hc : e.Coherent)
    (hg : ∀ k event, (Engine.owned scope (current.filter fun fingerprint => !fingerprint.isEmpty) suppressed
        (e.events.all scope.eventsKey)).get? k = some event →
      Duration.ofSecs 0 < config.graceOf event (e.infos.get? scope.infoKey))
    (hn : e.NoneFailed ((e.reconcile config scope current suppressed now).2.reconcile config scope current suppressed
      now).2) :
    ∃ r₁ e₁ r₂ e₂, e.reconcile config scope current suppressed now = (.ok r₁, e₁) ∧
      e₁.reconcile config scope current suppressed now = (.ok r₂, e₂) ∧
      e₂.events = e₁.events ∧ e₂.pending = e₁.pending ∧
      r₂ = { RecoveryReport.empty with skipped := r₁.skipped } := by
  have hlocal := Engine.local_reconcile config scope now current suppressed
  obtain ⟨hfirst, hsecond⟩ := hlocal.noneFailed_of_twice hlocal hn
  obtain ⟨r₁, e₁, r₂, e₂, h₁, h₂, hevents, hpending, hr⟩ := Engine.reconcile_reconcile config scope current suppressed
    now (Engine.healthy_healthy e) hc fun k event hm ho => hg k event (by
      obtain ⟨hr, howns⟩ := Option.filter_eq_some_iff.mp hm
      rw [Engine.owned, Table.get?_filter, Engine.contains_filter_eq_isCurrent]
      exact Option.filter_eq_some_iff.mpr ⟨hr, Bool.and_eq_true_iff.mpr ⟨howns, ho⟩⟩)
  rw [hlocal.healthy_of_noneFailed hfirst] at h₁
  obtain ⟨hresult₁, rfl⟩ := Prod.mk.inj h₁
  rw [hlocal.healthy_of_noneFailed hsecond] at h₂
  obtain ⟨hresult₂, rfl⟩ := Prod.mk.inj h₂
  exact ⟨r₁, _, r₂, _, Prod.ext hresult₁ rfl, Prod.ext hresult₂ rfl, hevents, hpending, hr⟩

/-- Grace periods are positive if the configured one is. -/
theorem Config.graceOf_pos {config : Config} (h : 0 < config.defaultRecoverWaitSecs) (event : Event)
    (info : Option FaultCenter) : Duration.ofSecs 0 < config.graceOf event info := by
  have hsecs : ∀ {n : Nat}, 0 < n → Duration.ofSecs 0 < Duration.ofSecs n := fun hn => by
    show 0 * Duration.second < _ * Duration.second
    rw [Nat.zero_mul]
    exact Nat.mul_pos hn (by decide)
  unfold graceOf
  split
  · next secs hs => exact hsecs (of_decide_eq_true (Option.filter_eq_some_iff.mp hs).2)
  · unfold recoverWait
    split
    · exact hsecs h
    · next hne => exact hsecs (Nat.pos_of_ne_zero hne)

/-- The active alert with a neighbour that has recovered and is still listed as missing. -/
def Engine.withListed : Engine :=
  ((Engine.active.withNeighbour "neighbour").withFaults fun _ c => c == .pendingDelete "neighbour").run .standard
    [.recover Rule.errorCount.scope [Fingerprint.ofRule "r1"] [] (Instant.epoch.after (.ofSecs 60)),
      .recover Rule.errorCount.scope [Fingerprint.ofRule "r1"] [] (Instant.epoch.after (.ofSecs 90))]

/-- The first of two passes finds one alert missing and skips its neighbour, which has recovered; the second one only
skips the neighbour. -/
theorem second_pass_is_idle_withListed :
    let scope := Rule.errorCount.scope
    let e := Engine.withListed.withFaults fun _ _ => false
    let pass (e : Engine) := e.reconcile .standard scope ["neighbour"] [] (Instant.epoch.after (.ofSecs 120))
    ∃ e₁ e₂, pass e = (.ok ⟨[], [], [Fingerprint.ofRule "r1"], [], ["neighbour"]⟩, e₁) ∧
      pass e₁ = (.ok ⟨[], [], [], [], ["neighbour"]⟩, e₂) ∧ e₂.events = e₁.events ∧ e₂.pending = e₁.pending := by
  intro scope e pass
  have hc : e.Coherent := (Engine.Coherent.run .standard _
    ((Engine.coherent_active.withNeighbour "neighbour").withFaults _)).withFaults _
  have hrun : (pass e).1.toOption = some ⟨[], [], [Fingerprint.ofRule "r1"], [], ["neighbour"]⟩ := by
    decide +kernel
  obtain ⟨r₁, e₁, r₂, e₂, h₁, h₂, hevents, hpending, rfl⟩ := second_pass_is_idle .standard scope ["neighbour"] []
    (Instant.epoch.after (.ofSecs 120)) e hc (fun k event _ => Config.graceOf_pos (by decide) event _)
    fun _ _ _ _ => rfl
  have hr : some r₁ = some ⟨[], [], [Fingerprint.ofRule "r1"], [], ["neighbour"]⟩ := by
    rw [← hrun]
    exact (congrArg (fun s => s.1.toOption) h₁).symm
  cases hr
  exact ⟨e₁, e₂, h₁, h₂, hevents, hpending⟩

end Alerting
