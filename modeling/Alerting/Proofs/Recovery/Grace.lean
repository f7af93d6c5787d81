import Alerting.Proofs.Engine.Run

/-!
# The grace period

Only the time of the first pass that missed a fingerprint is kept. In passes of one rule in which no call fails, it is
a function of the lists of the passes (`Pass.missingSince`): a pass in which the fingerprint is current forgets it, and
a pass in which it is only suppressed does not touch it. An alert recovers exactly when that time lies at least its
grace period back. It was then missed for the whole grace period (`MissedFor`) exactly if every pass that had it
suppressed was followed by one that lies a grace period back (`recovered_iff`). Else a pass that had it suppressed did
not start the grace period again (`suppression_is_no_interruption`).
-/

namespace Alerting

/-- A recovery pass of a rule. -/
structure Pass where
  current : List String
  suppressed : List String
  now : Instant

namespace Pass

/-- The pass as a piece of work. -/
def work (p : Pass) (scope : Scope) : Work := .recover scope p.current p.suppressed p.now

/-- Whether a fingerprint is current. -/
def has (p : Pass) (fingerprint : String) : Bool := Engine.isCurrent p.current fingerprint

/-- Whether a fingerprint is neither current nor suppressed. -/
def misses (p : Pass) (fingerprint : String) : Bool :=
  !p.has fingerprint && !p.suppressed.contains fingerprint

/-- Whether a fingerprint is suppressed and not current. -/
def suppresses (p : Pass) (fingerprint : String) : Bool :=
  !p.has fingerprint && p.suppressed.contains fingerprint

/-- Since when a fingerprint is missing after a pass, given since when it was before. -/
def missingSince (p : Pass) (fingerprint : String) (since : Option Instant) : Option Instant :=
  if p.has fingerprint then none
  else if p.suppressed.contains fingerprint then since
  else some (since.getD p.now)

/-- A time since when a fingerprint is missing is the time of a pass that missed it, and after which it was never
current. -/
theorem of_foldl_missingSince {fingerprint : String} {s : Instant} {l : List Pass} {since : Option Instant}
    (h : l.foldl (fun since p => p.missingSince fingerprint since) since = some s) :
    (since = some s ∧ ∀ x ∈ l, x.has fingerprint = false) ∨
      ∃ l₁ q l₂, l = l₁ ++ q :: l₂ ∧ q.now = s ∧ q.misses fingerprint = true ∧
        ∀ x ∈ l₂, x.has fingerprint = false := by
  induction l generalizing since with
  | nil => exact .inl ⟨h, fun _ hx => nomatch hx⟩
  | cons p l ih =>
    rcases ih h with ⟨hp, hl⟩ | ⟨l₁, q, l₂, rfl, hq⟩
    · cases hh : p.has fingerprint with
      | true => simp [missingSince, hh] at hp
      | false =>
        have hall : ∀ x ∈ p :: l, x.has fingerprint = false := fun x hx => by
          rcases List.mem_cons.mp hx with rfl | hx
          · exact hh
          · exact hl x hx
        cases hs : p.suppressed.contains fingerprint with
        | true =>
          simp only [missingSince, hh, hs, Bool.false_eq_true, if_false, if_true] at hp
          exact .inl ⟨hp, hall⟩
        | false =>
          simp only [missingSince, hh, hs, Bool.false_eq_true, if_false, Option.some.injEq] at hp
          cases since with
          | some t => exact .inl ⟨congrArg some hp, hall⟩
          | none => exact .inr ⟨[], p, l, rfl, hp, by simp only [misses, hh, hs]; rfl, hl⟩
    · exact .inr ⟨p :: l₁, q, l₂, rfl, hq⟩

theorem misses_of_not_suppresses {p : Pass} {fingerprint : String} (h : p.has fingerprint = false)
    (hs : p.suppresses fingerprint ≠ true) : p.misses fingerprint = true := by
  simp only [suppresses, misses, h, Bool.not_false, Bool.true_and] at hs ⊢
  rw [Bool.eq_false_iff.mpr hs]
  rfl

theorem misses_of_suppresses {p : Pass} {fingerprint : String} (h : p.suppresses fingerprint = true) :
    p.misses fingerprint = false := by
  simp only [suppresses, misses, Bool.and_eq_true] at h ⊢
  rw [h.2]
  exact Bool.and_false _

end Pass

/-! ## Missed for a whole grace period -/

/-- At `p`, the fingerprint has been missed for a time by all of the last passes. -/
def MissedFor (passes : List Pass) (p : Pass) (fingerprint : String) (grace : Duration) : Prop :=
  ∃ l₁ q l₂, passes = l₁ ++ q :: l₂ ∧ grace ≤ p.now.elapsedSince q.now ∧
    ∀ x ∈ q :: l₂ ++ [p], x.misses fingerprint = true

/-- The pass after every pass that had the fingerprint suppressed lies at least a time back. -/
def SuppressedLongAgo (passes : List Pass) (p : Pass) (fingerprint : String) (grace : Duration) : Prop :=
  ∀ l₁ x l₂, passes = l₁ ++ x :: l₂ → x.suppresses fingerprint = true →
    ∃ y ∈ l₂.head?, grace ≤ p.now.elapsedSince y.now

section MissedFor

variable {passes : List Pass} {p : Pass} {fingerprint : String} {grace : Duration}

theorem missedFor_of_split {l₁ l₂ : List Pass} {q : Pass} (h : passes = l₁ ++ q :: l₂)
    (hg : grace ≤ p.now.elapsedSince q.now) (hm : ∀ x ∈ q :: l₂, x.misses fingerprint = true)
    (hp : p.misses fingerprint = true) : MissedFor passes p fingerprint grace := by
  refine ⟨l₁, q, l₂, h, hg, fun x hx => ?_⟩
  rcases List.mem_append.mp hx with hx | hx
  · exact hm x hx
  · rw [List.mem_singleton.mp hx]
    exact hp

/-- The passes after the last one that had the fingerprint suppressed all missed it. -/
theorem SuppressedLongAgo.missedFor (h : SuppressedLongAgo passes p fingerprint grace)
    (hp : p.misses fingerprint = true) {l l₁ : List Pass} (hl : passes = l₁ ++ l)
    (hh : ∀ x ∈ l, x.has fingerprint = false) (hsome : ∃ x ∈ l, x.suppresses fingerprint = true) :
    MissedFor passes p fingerprint grace := by
  -- The induction goes to the last pass that had it suppressed.
  induction l generalizing l₁ with
  | nil =>
    obtain ⟨_, hx, -⟩ := hsome
    cases hx
  | cons x l ih =>
    obtain ⟨z, hz, hzs⟩ := hsome
    have hl' : ∀ w ∈ l, w.has fingerprint = false := fun w hw => hh w (List.mem_cons_of_mem x hw)
    by_cases hmore : ∃ w ∈ l, w.suppresses fingerprint = true
    · exact ih (hl.trans (List.append_cons l₁ x l)) hl' hmore
    · have hx : x.suppresses fingerprint = true := by
        rcases List.mem_cons.mp hz with rfl | hz
        · exact hzs
        · exact absurd ⟨z, hz, hzs⟩ hmore
      obtain ⟨y, hy, hg⟩ := h l₁ x l hl hx
      obtain ⟨l', rfl⟩ := List.head?_eq_some_iff.mp hy
      refine missedFor_of_split (hl.trans (List.append_cons l₁ x (y :: l'))) hg (fun w hw => ?_) hp
      exact Pass.misses_of_not_suppresses (hl' w hw) fun hs => hmore ⟨w, hw, hs⟩

/-- The pass after one that had the fingerprint suppressed is not later than any that began to miss it for good. -/
theorem MissedFor.suppressedLongAgo (h : MissedFor passes p fingerprint grace)
    (horder : passes.Pairwise fun a b => p.now.elapsedSince b.now ≤ p.now.elapsedSince a.now) :
    SuppressedLongAgo passes p fingerprint grace := by
  obtain ⟨l₁, q, l₂, rfl, hg, hm⟩ := h
  intro k₁ x k₂ hk hx
  have hmem : ∀ w ∈ q :: l₂, w ≠ x := by
    rintro w hw rfl
    have hw' := hm w (List.mem_append_left _ hw)
    rw [Pass.misses_of_suppresses hx] at hw'
    cases hw'
  -- `x` stands before `q`, so the pass after it is `q` or an earlier one.
  rcases List.append_eq_append_iff.mp hk with ⟨m, -, hm'⟩ | ⟨m, hm', hk₂⟩
  · exact absurd rfl (hmem x (hm' ▸ List.mem_append_right m List.mem_cons_self))
  · cases m with
    | nil =>
      obtain ⟨rfl, -⟩ := List.cons.inj hk₂
      exact absurd rfl (hmem _ List.mem_cons_self)
    | cons z m =>
      obtain ⟨rfl, rfl⟩ := List.cons.inj hk₂
      cases m with
      | nil => exact ⟨q, rfl, hg⟩
      | cons y m =>
        refine ⟨y, rfl, Nat.le_trans hg ?_⟩
        subst hm'
        exact (List.pairwise_append.mp horder).2.2 y (by simp) q List.mem_cons_self

/-- **After a pass that missed it and since when it was never current, a fingerprint has been missed all the time
exactly if no pass that had it suppressed was too late.** -/
theorem missedFor_iff {l₁ l₂ : List Pass} {q : Pass} (h : passes = l₁ ++ q :: l₂)
    (hg : grace ≤ p.now.elapsedSince q.now) (hq : q.misses fingerprint = true)
    (hl : ∀ x ∈ l₂, x.has fingerprint = false) (hp : p.misses fingerprint = true)
    (horder : passes.Pairwise fun a b => p.now.elapsedSince b.now ≤ p.now.elapsedSince a.now) :
    MissedFor passes p fingerprint grace ↔ SuppressedLongAgo passes p fingerprint grace := by
  refine ⟨fun hm => hm.suppressedLongAgo horder, fun hs => ?_⟩
  by_cases hsome : ∃ x ∈ l₂, x.suppresses fingerprint = true
  · exact hs.missedFor hp (h.trans (List.append_cons l₁ q l₂)) hl hsome
  · refine missedFor_of_split h hg (fun x hx => ?_) hp
    rcases List.mem_cons.mp hx with rfl | hx
    · exact hq
    · exact Pass.misses_of_not_suppresses (hl x hx) fun hxs => hsome ⟨x, hx, hxs⟩

end MissedFor

/-! ## One fingerprint -/

/-- The entry of a pending event is the time since when it is missing, and nothing else of the rule has an entry. -/
def Cell.Tracks (c : Cell) (scope : Scope) (since : Option Instant) : Prop :=
  match c.status scope with
  | some .pendingRecovery => c.since = since
  | some .alerting => c.since = none ∧ since = none
  | _ => c.since = none

/-- What a pass does about a fingerprint. -/
def Pass.on (p : Pass) (config : Config) (scope : Scope) (info : Option FaultCenter) (fingerprint : String) (c : Cell) :
    Option Verdict × Cell :=
  c.pass config scope info p.now (p.has fingerprint) (p.suppressed.contains fingerprint)

section Tracks

variable {c : Cell} {config : Config} {scope : Scope} {info : Option FaultCenter} {fingerprint : String}
  {since : Option Instant} {event : Event}

/-- A moved event is tracked by the state that it was moved to. -/
theorem Cell.tracks_moved (h : c.record.filter scope.owns = some event) (target : Status) (time : Instant)
    (entry : Option Instant) :
    (⟨some (event.moved target time), entry⟩ : Cell).Tracks scope since ↔
      match target with
      | .pendingRecovery => entry = since
      | .alerting => entry = none ∧ since = none
      | _ => entry = none := by
  rw [Tracks, status_moved h]
  cases target <;> exact Iff.rfl

theorem Cell.Tracks.of_since_eq_none (h : c.Tracks scope since) (hc : c.since = none) : c.Tracks scope none := by
  unfold Tracks at h ⊢
  split at h
  · exact hc
  · exact ⟨hc, rfl⟩
  · exact hc

/-- A pass that has a fingerprint forgets since when it was missing. -/
theorem Cell.Tracks.current (h : c.Tracks scope since) (now : Instant) (isSuppressed : Bool) :
    (c.pass config scope info now true isSuppressed).2.Tracks scope none := by
  rw [pass_current]
  cases hc : c.since with
  | none => exact h.of_since_eq_none hc
  | some t =>
    simp only [Option.isSome_some, if_true]
    cases hm : c.record.filter scope.owns with
    | none => simp [Tracks, Cell.status, hm, hc] at h
    | some event =>
      cases hs : event.status with
      | pendingRecovery =>
        have ha : Status.allows .pendingRecovery .alerting = true := rfl
        simp only [Job.result, hs, ha, if_true]
        exact (tracks_moved hm .alerting now none).mpr ⟨rfl, rfl⟩
      | preAlert | alerting | recovered => simp [Tracks, Cell.status, hm, hs, hc] at h

/-- A pass that misses a fingerprint goes on counting from the first that did. -/
theorem Cell.Tracks.missed (h : c.Tracks scope since) (now : Instant) :
    (c.pass config scope info now false false).2.Tracks scope (some (since.getD now)) := by
  cases hm : c.record.filter scope.owns with
  | none =>
    rw [pass_foreign c config scope info now hm]
    simpa [Tracks, Cell.status, hm] using h
  | some event =>
    have hbegin : Status.allows event.status .pendingRecovery = true → c.since = none → since = none →
        ((Job.settle event).result config info now c).2.Tracks scope (some (since.getD now)) := by
      rintro ha hc rfl
      simp only [Job.result, hc, ha, if_true]
      exact (tracks_moved hm .pendingRecovery now (some now)).mpr rfl
    rw [pass_missed c config scope info now hm]
    cases hs : event.status with
    | preAlert => simpa [Tracks, Cell.status, hm, hs] using h
    | recovered => simpa [Tracks, Cell.status, hm, hs] using h
    | alerting =>
      simp only [Tracks, Cell.status, hm, Option.map_some, hs] at h
      exact hbegin (by rw [hs]; rfl) h.1 h.2
    | pendingRecovery =>
      simp only [Tracks, Cell.status, hm, Option.map_some, hs] at h
      cases hc : c.since with
      | none => exact hbegin (by rw [hs]; rfl) hc (h.symm.trans hc)
      | some t =>
        obtain rfl : since = some t := h.symm.trans hc
        simp only [Job.result, hc]
        split
        · exact (tracks_moved hm .recovered now none).mpr rfl
        · simp only [Tracks, Cell.status, hm, Option.map_some, hs, hc, Option.getD_some]

/-- **Every pass goes on tracking a fingerprint.** -/
theorem Cell.Tracks.step (h : c.Tracks scope since) (p : Pass) :
    (p.on config scope info fingerprint c).2.Tracks scope (p.missingSince fingerprint since) := by
  unfold Pass.on Pass.missingSince
  cases p.has fingerprint with
  | true => exact h.current p.now _
  | false =>
    cases p.suppressed.contains fingerprint with
    | true =>
      rw [pass_suppressed]
      exact h
    | false => exact h.missed p.now

theorem Cell.pass_current_ne (now : Instant) (isSuppressed : Bool) :
    (c.pass config scope info now true isSuppressed).1 ≠ some .recovered := by
  rw [pass_current]
  split
  · cases c.record.filter scope.owns with
    | none => simp [Job.result]
    | some event =>
      simp only [Job.result]
      split <;> simp
  · simp

/-- A pass that misses a fingerprint lets it recover exactly when its event is pending and its entry is old enough. -/
theorem Cell.pass_missed_recovers_iff (now : Instant) :
    (c.pass config scope info now false false).1 = some .recovered ↔
      ∃ event s, c.record.filter scope.owns = some event ∧ event.status = .pendingRecovery ∧ c.since = some s ∧
        config.graceOf event info ≤ now.elapsedSince s := by
  cases hm : c.record.filter scope.owns with
  | none => simp [pass_foreign c config scope info now hm]
  | some event =>
    have hsettle : ((Job.settle event).result config info now c).1 = some .recovered ↔
        ∃ s, event.status = .pendingRecovery ∧ c.since = some s ∧
          config.graceOf event info ≤ now.elapsedSince s := by
      cases hc : c.since with
      | none =>
        simp only [Job.result, hc]
        split <;> simp
      | some s =>
        simp only [Job.result, hc]
        split
        · next hg => simpa using hg
        · next hg => simpa using hg
    rw [pass_missed c config scope info now hm]
    cases hs : event.status with
    | preAlert | recovered => simp [hs]
    | alerting | pendingRecovery =>
      rw [hs] at hsettle
      simpa [hs] using hsettle

/-- What is reported as recovered is what has newly recovered. -/
theorem Pass.on_recovered_iff (p : Pass) :
    (p.on config scope info fingerprint c).1 = some .recovered ↔ c.status scope ≠ some .recovered ∧
      (p.on config scope info fingerprint c).2.status scope = some .recovered := by
  have hstay : ∀ {v : Option Verdict}, v ≠ some .recovered →
      (v = some .recovered ↔ c.status scope ≠ some .recovered ∧ c.status scope = some .recovered) :=
    fun hv => ⟨fun h => absurd h hv, fun h => absurd h.2 h.1⟩
  unfold Pass.on
  cases p.has fingerprint with
  | true =>
    rw [Cell.pass_current]
    split
    · cases hm : c.record.filter scope.owns with
      | none => simp [Job.result, Cell.status, hm]
      | some event =>
        simp only [Job.result]
        split
        · simp [Cell.status_moved hm]
        · exact hstay (by simp)
    · exact hstay (by simp)
  | false =>
    cases p.suppressed.contains fingerprint with
    | true =>
      rw [Cell.pass_suppressed]
      exact hstay (by simp)
    | false =>
      cases hm : c.record.filter scope.owns with
      | none =>
        rw [Cell.pass_foreign c config scope info p.now hm]
        exact hstay (by simp)
      | some event =>
        have hc : c.status scope = some event.status := by simp [Cell.status, hm]
        rw [Cell.pass_missed c config scope info p.now hm]
        cases hs : event.status with
        | preAlert => simp [Cell.status]
        | recovered => exact hstay (by simp)
        | alerting | pendingRecovery =>
          simp only [Job.result]
          split <;> split
          · simp [Cell.status_moved hm]
          · exact hstay (by simp)
          · simp [Cell.status_moved hm, hc, hs]
          · exact hstay (by simp)

/-- **A pass lets a fingerprint recover exactly when it misses it, and its event is pending and missing for the whole
grace period.** -/
theorem Cell.Tracks.recovers_iff (h : c.Tracks scope since) (p : Pass) :
    (p.on config scope info fingerprint c).1 = some .recovered ↔
      p.misses fingerprint = true ∧ ∃ event s, c.record.filter scope.owns = some event ∧
        event.status = .pendingRecovery ∧ since = some s ∧ config.graceOf event info ≤ p.now.elapsedSince s := by
  unfold Pass.on Pass.misses
  cases p.has fingerprint with
  | true => simp [pass_current_ne]
  | false =>
    cases p.suppressed.contains fingerprint with
    | true => simp [pass_suppressed]
    | false =>
      rw [pass_missed_recovers_iff]
      simp only [Bool.not_false, Bool.and_self, true_and]
      refine exists_congr fun event => exists_congr fun s => and_congr_right fun hm => and_congr_right fun hs => ?_
      simp only [Tracks, Cell.status, hm, Option.map_some, hs] at h
      rw [h]

end Tracks

/-! ## Runs of passes -/

namespace Engine

/-- An engine that holds some events and no entries, none of whose calls fails. -/
def seeded (events : List Event) (infos : InfoCache) : Engine :=
  { initial with events := events.foldl EventCache.push .empty, infos := infos }

theorem Coherent.pushed (events : List Event) {e : Engine} (h : e.Coherent) :
    Coherent { e with events := events.foldl EventCache.push e.events } := by
  induction events generalizing e with
  | nil => exact h
  | cons event events ih =>
    have hstored : (e.stored event).Coherent := h.stored event
    exact ih hstored

theorem coherent_seeded (events : List Event) (infos : InfoCache) : (seeded events infos).Coherent := by
  have hempty : Coherent { initial with infos := infos } := fun _ _ _ h => nomatch h
  exact hempty.pushed events

/-- Passes of a rule in which no call fails. -/
theorem run_passes (config : Config) (rule : Rule) (passes : List Pass) {e : Engine} (hh : e.Healthy)
    (hc : e.Coherent) :
    (e.run config (passes.map (·.work rule.scope))).Healthy ∧
      (e.run config (passes.map (·.work rule.scope))).Coherent ∧
      (e.run config (passes.map (·.work rule.scope))).infos = e.infos ∧
      ∀ fingerprint, (e.run config (passes.map (·.work rule.scope))).cell rule.scope fingerprint =
        passes.foldl (fun c p => (p.on config rule.scope (e.infos.get? rule.scope.infoKey) fingerprint c).2)
          (e.cell rule.scope fingerprint) := by
  induction passes generalizing e with
  | nil => exact ⟨hh, hc, rfl, fun _ => rfl⟩
  | cons p passes ih =>
    obtain ⟨r, e', hr, hh', hc', hi', hcell⟩ := reconcile_of_healthy config rule.scope p.current p.suppressed p.now
      hh hc rule.scope_keys.1 rule.scope_keys.2
    obtain ⟨hrh, hrc, hri, hrcell⟩ := ih hh' hc'
    have hrun : e.run config ((p :: passes).map (·.work rule.scope)) =
        e'.run config (passes.map (·.work rule.scope)) := by
      simp only [List.map_cons, run, List.foldl_cons, Pass.work, after, hr]
    rw [hrun]
    refine ⟨hrh, hrc, hri.trans hi', fun k => ?_⟩
    rw [hrcell k, hi', (hcell k).1]
    rfl

end Engine

/-- After passes from empty entries on, every fingerprint is tracked by what the passes had. -/
theorem Cell.tracks_foldl {config : Config} {scope : Scope} {info : Option FaultCenter} {fingerprint : String}
    (passes : List Pass) {c : Cell} {since : Option Instant} (h : c.Tracks scope since) :
    (passes.foldl (fun c p => (p.on config scope info fingerprint c).2) c).Tracks scope
      (passes.foldl (fun since p => p.missingSince fingerprint since) since) := by
  induction passes generalizing c since with
  | nil => exact h
  | cons p passes ih => exact ih (h.step p)

theorem Cell.tracks_of_since_eq_none {c : Cell} (h : c.since = none) (scope : Scope) : c.Tracks scope none := by
  unfold Tracks
  split
  · exact h
  · exact ⟨h, rfl⟩
  · exact h

/-- **An alert recovers exactly when its fingerprint counts as missing for its whole grace period.** It counts as
missing since a pass that missed it and after which no pass had it. When later passes lie less far back than earlier
ones, it was missed all the time exactly if no pass that had it suppressed was too late. -/
theorem recovered_iff (config : Config) (events : List Event) (infos : InfoCache) (rule : Rule) (passes : List Pass)
    (p : Pass) :
    let e := (Engine.seeded events infos).run config (passes.map (·.work rule.scope))
    let grace (event : Event) := config.graceOf event (infos.get? rule.scope.infoKey)
    let record (fingerprint : String) := (e.cell rule.scope fingerprint).record.filter rule.scope.owns
    ∃ r e', e.reconcile config rule.scope p.current p.suppressed p.now = (.ok r, e') ∧ ∀ fingerprint,
      (fingerprint ∈ r.recovered ↔
        ¬e.Shows rule.scope fingerprint .recovered ∧ e'.Shows rule.scope fingerprint .recovered) ∧
      (fingerprint ∈ r.recovered ↔ p.misses fingerprint = true ∧ ∃ event s, record fingerprint = some event ∧
        event.status = .pendingRecovery ∧
        passes.foldl (fun since q => q.missingSince fingerprint since) none = some s ∧
        grace event ≤ p.now.elapsedSince s) ∧
      (fingerprint ∈ r.recovered → ∃ event, record fingerprint = some event ∧
        (∃ l₁ q l₂, passes = l₁ ++ q :: l₂ ∧ grace event ≤ p.now.elapsedSince q.now ∧ q.misses fingerprint = true ∧
          ∀ x ∈ l₂, x.has fingerprint = false) ∧
        ((passes.Pairwise fun a b => p.now.elapsedSince b.now ≤ p.now.elapsedSince a.now) →
          (MissedFor passes p fingerprint (grace event) ↔ SuppressedLongAgo passes p fingerprint (grace event)))) := by
  intro e grace record
  obtain ⟨hh, hc, hi, hcell⟩ := Engine.run_passes config rule passes (e := Engine.seeded events infos) (fun _ _ => rfl)
    (Engine.coherent_seeded events infos)
  obtain ⟨r, e', hr, -, -, -, hpass⟩ := Engine.reconcile_of_healthy config rule.scope p.current p.suppressed p.now hh hc
    rule.scope_keys.1 rule.scope_keys.2
  refine ⟨r, e', hr, fun k => ?_⟩
  obtain ⟨hk, hv⟩ := hpass k
  have htracks : (e.cell rule.scope k).Tracks rule.scope
      (passes.foldl (fun since q => q.missingSince k since) none) := by
    rw [hcell k]
    exact Cell.tracks_foldl passes (Cell.tracks_of_since_eq_none rfl rule.scope)
  have hmoved := (hv .recovered).trans (Pass.on_recovered_iff p)
  have hiff := (hv .recovered).trans (htracks.recovers_iff p)
  rw [hi] at hiff
  refine ⟨?_, hiff, fun hmem => ?_⟩
  · rw [Engine.Shows, Engine.Shows, hk]
    exact hmoved
  obtain ⟨hmiss, event, s, hm, -, hs, hg⟩ := hiff.mp hmem
  rcases Pass.of_foldl_missingSince hs with ⟨h, -⟩ | ⟨l₁, q, l₂, hl, rfl, hq, hhas⟩
  · cases h
  · exact ⟨event, hm, ⟨l₁, q, l₂, hl, hg, hq, hhas⟩, missedFor_iff hl hg hq hhas hmiss⟩

/-- An active event with a grace period of a minute. -/
def Event.active : Event :=
  { draft .errorCount "ds1" "f1" .standard .empty "e1" .epoch with status := .alerting, recoverWaitSecs := some 60 }

/-- **A pass that has the fingerprint suppressed does not start the grace period again.** The alert recovers 61 seconds
after it was first missed, though a more urgent severity still matched half a minute before. -/
theorem suppression_is_no_interruption :
    let time (n : Nat) := Instant.epoch.after (.ofSecs n)
    let scope := Rule.errorCount.scope
    let passes : List Pass := [⟨[], [], time 0⟩, ⟨[], ["f1"], time 30⟩]
    let e := (Engine.seeded [.active] .empty).run .standard (passes.map (·.work scope))
    (e.reconcile .standard scope [] [] (time 61)).2.Shows scope "f1" .recovered ∧
      ¬MissedFor passes ⟨[], [], time 61⟩ "f1" (Config.standard.graceOf .active none) := by
  refine ⟨by decide +kernel, ?_⟩
  rintro ⟨l₁, q, l₂, h, -, hall⟩
  have hlast : some (Pass.mk [] ["f1"] (Instant.epoch.after (.ofSecs 30))) = (q :: l₂).getLast? := by
    have hl := congrArg List.getLast? h
    rw [List.getLast?_append, List.getLast?_cons (l := l₂), Option.some_or] at hl
    rw [List.getLast?_cons]
    exact hl
  have hmiss := hall _ (List.mem_append_left _ (List.mem_of_getLast? hlast.symm))
  exact absurd hmiss (by decide +kernel)

end Alerting
