import Alerting.Proofs.Engine.Change

/-!
# A recovery pass as a list of jobs

Which step a pass takes for a fingerprint, and with which event, is settled by the three reads: it is the `Job` of the
fingerprint (`Cell.job`), and the pass does its jobs one after the other (`reconcileRead_eq_jobs`). No fingerprint has
two jobs (`pairwise_jobs`), and a job touches nothing that is kept about another fingerprint. Hence every fingerprint
can be looked at by itself (`foldl_local`).
-/

namespace Alerting

/-- What a pass does about one fingerprint. -/
inductive Job
  | discard (event : Event)
  /-- There may be no event that becomes active. -/
  | reactivate (event : Option Event)
  | settle (event : Event)

/-- The event that a job is about. -/
def Job.event? : Job → Option Event
  | discard event => some event
  | reactivate event => event
  | settle event => some event

/-- What is kept about one fingerprint: its event, and since when it is missing. -/
structure Cell where
  record : Option Event
  since : Option Instant
  deriving DecidableEq

/-- What a pass does about a fingerprint of which this was read. -/
def Cell.job (c : Cell) (scope : Scope) (isCurrent isSuppressed : Bool) : Option Job :=
  let mine := c.record.filter fun event =>
    event.ruleId == scope.rule && event.tenantId == scope.tenant && (isCurrent || !isSuppressed)
  if isCurrent then if c.since.isSome then some (.reactivate mine) else none
  else
    match mine with
    | none => none
    | some event =>
      if event.status = .preAlert then some (.discard event)
      else if event.status.isTerminal then none
      else some (.settle event)

/-! ## Tables as lists -/

namespace Table

variable {α β : Type}

theorem mem_map_toList {t : Table α} {f : α → β} {k : String} {b : β} :
    (k, b) ∈ (t.toList.map fun x => (x.1, f x.2)) ↔ ∃ v, t.get? k = some v ∧ f v = b := by
  constructor
  · intro h
    obtain ⟨x, hx, he⟩ := List.mem_map.mp h
    cases he
    exact ⟨x.2, mem_toList_iff.mp hx, rfl⟩
  · rintro ⟨v, hv, rfl⟩
    exact List.mem_map.mpr ⟨(k, v), mem_toList_iff.mpr hv, rfl⟩

end Table

namespace Engine

variable (config : Config) (scope : Scope) (current suppressed : List String) (now : Instant) (all : Table Event)
  (pending : Table Instant) (info : Option FaultCenter)

/-! ## Jobs -/

/-- Makes an event active again, if there is one, and forgets that it was missing. -/
def activate (e : Engine) (r : RecoveryReport) (fingerprint : String) : Option Event → Result RecoveryReport
  | none => (r, e.clearPending scope fingerprint)
  | some event =>
    match event.transition .alerting now with
    | .error error => (r.skip fingerprint, e.note (.moveRefused scope.rule error))
    | .ok next =>
      match e.push next with
      | (.error error, e) => (r.skip fingerprint, e.note (.reactivationNotStored fingerprint error))
      | (.ok (), e) =>
        ({ r with reactivated := r.reactivated ++ [fingerprint] }, e.clearPending scope fingerprint)

/-- Does one job. -/
def doJob (s : Result RecoveryReport) : String × Job → Result RecoveryReport
  | (fingerprint, .discard event) => s.2.discard s.1 fingerprint event
  | (fingerprint, .reactivate event) => s.2.activate scope now s.1 fingerprint event
  | (fingerprint, .settle event) => s.2.settle config scope info pending now s.1 fingerprint event

/-- An unconfirmed event that is not current. -/
def isStale (fingerprint : String) (event : Event) : Bool :=
  event.status == .preAlert && !current.contains fingerprint

/-- An event that has not ended and is not current. -/
def isMissing (fingerprint : String) (event : Event) : Bool :=
  !event.status.isTerminal && !current.contains fingerprint

/-- What is current is neither stale nor missing. -/
theorem isStale_isMissing_of_current {current : List String} {fingerprint : String}
    (hc : current.contains fingerprint = true) (event : Event) :
    isStale current fingerprint event = false ∧ isMissing current fingerprint event = false := by
  simp only [isStale, isMissing, hc, Bool.not_true, Bool.and_false, and_self]

/-- What is not current is stale or missing by its status. -/
theorem isStale_isMissing_of_not_current {current : List String} {fingerprint : String}
    (hc : current.contains fingerprint = false) (event : Event) :
    isStale current fingerprint event = (event.status == .preAlert) ∧
      isMissing current fingerprint event = !event.status.isTerminal := by
  simp only [isStale, isMissing, hc, Bool.not_false, Bool.and_true, and_self]

/-- The events of a pass that are not discarded. -/
def keptEvents : Table Event := (owned scope current suppressed all).filter fun fingerprint event =>
  !isStale current fingerprint event

/-- The jobs of a pass, in the order in which they are done. -/
def jobs : List (String × Job) :=
  (((owned scope current suppressed all).filter (isStale current)).toList.map fun x => (x.1, .discard x.2)) ++
    ((pending.filter fun fingerprint _ => current.contains fingerprint).keys.map fun fingerprint =>
      (fingerprint, .reactivate ((keptEvents scope current suppressed all).get? fingerprint))) ++
    ((keptEvents scope current suppressed all).filter (isMissing current)).toList.map fun x => (x.1, .settle x.2)

/-! ## The pass does its jobs -/

theorem discardAll_eq (l : List (String × Event)) (e : Engine) (r : RecoveryReport) :
    discardAll e r l =
      (l.map fun x => (x.1, Job.discard x.2)).foldl (doJob config scope now pending info) (r, e) := by
  induction l generalizing e r with
  | nil => rfl
  | cons x l ih => exact ih (e.discard r x.1 x.2).2 _

theorem settleAll_eq (l : List (String × Event)) (e : Engine) (r : RecoveryReport) :
    settleAll config scope info pending now e r l =
      (l.map fun x => (x.1, Job.settle x.2)).foldl (doJob config scope now pending info) (r, e) := by
  induction l generalizing e r with
  | nil => rfl
  | cons x l ih => exact ih (e.settle config scope info pending now r x.1 x.2).2 _

/-- A reactivation changes the table of events only at its own fingerprint. -/
theorem reactivate_eq (e : Engine) (owned : Table Event) (r : RecoveryReport) (fingerprint : String) :
    ((e.reactivate scope now owned r fingerprint).1.2, (e.reactivate scope now owned r fingerprint).2) =
        e.activate scope now r fingerprint (owned.get? fingerprint) ∧
      ∀ k, k ≠ fingerprint → (e.reactivate scope now owned r fingerprint).1.1.get? k = owned.get? k := by
  unfold reactivate
  cases owned.get? fingerprint with
  | none => exact ⟨rfl, fun _ _ => rfl⟩
  | some event =>
    dsimp only [activate]
    cases event.transition .alerting now with
    | error error => exact ⟨rfl, fun _ _ => rfl⟩
    | ok next =>
      dsimp only
      rcases e.push_cases next with ⟨-, hp⟩ | ⟨-, hp⟩ <;> rw [hp]
      · exact ⟨rfl, fun _ _ => rfl⟩
      · exact ⟨rfl, fun k hk => by simp [Table.get?_insert, hk]⟩

/-- Reactivations of different fingerprints are jobs with the events that were there before. -/
theorem reactivateAll_eq (l : List String) (e : Engine) (owned : Table Event) (r : RecoveryReport) (hl : l.Nodup) :
    ((reactivateAll scope now e owned r l).1.2, (reactivateAll scope now e owned r l).2) =
        (l.map fun k => (k, Job.reactivate (owned.get? k))).foldl (doJob config scope now pending info) (r, e) ∧
      ∀ k, k ∉ l → (reactivateAll scope now e owned r l).1.1.get? k = owned.get? k := by
  induction l generalizing e owned r with
  | nil => exact ⟨rfl, fun _ _ => rfl⟩
  | cons fingerprint l ih =>
    obtain ⟨hf, hl'⟩ := List.nodup_cons.mp hl
    obtain ⟨hjob, hother⟩ := reactivate_eq scope now e owned r fingerprint
    obtain ⟨hrest, hkeep⟩ := ih (e.reactivate scope now owned r fingerprint).2
      (e.reactivate scope now owned r fingerprint).1.1 (e.reactivate scope now owned r fingerprint).1.2 hl'
    constructor
    · have hmap : (l.map fun k => (k, Job.reactivate ((e.reactivate scope now owned r fingerprint).1.1.get? k))) =
          l.map fun k => (k, Job.reactivate (owned.get? k)) :=
        List.map_congr_left fun k hk => by rw [hother k fun h => hf (h ▸ hk)]
      rw [hmap, hjob] at hrest
      exact hrest
    · intro k hk
      obtain ⟨hkf, hkl⟩ := not_or.mp (fun h => hk (List.mem_cons.mpr h))
      exact (hkeep k hkl).trans (hother k hkf)

/-- **A pass over what was read does its jobs one after the other.** -/
theorem reconcileRead_eq_jobs (e : Engine) :
    e.reconcileRead config scope current suppressed now all pending info =
      (jobs scope current suppressed all pending).foldl (doJob config scope now pending info) (.empty, e) := by
  let kept := keptEvents scope current suppressed all
  let back := (pending.filter fun fingerprint _ => current.contains fingerprint).keys
  let d := discardAll e .empty ((owned scope current suppressed all).filter (isStale current)).toList
  obtain ⟨hback, hkeep⟩ := reactivateAll_eq config scope now pending info back d.2 kept d.1 (Table.nodup_keys _)
  have hmissing : (reactivateAll scope now d.2 kept d.1 back).1.1.filter (isMissing current) =
      kept.filter (isMissing current) := by
    refine Table.ext_get? fun k => ?_
    rw [Table.get?_filter, Table.get?_filter]
    by_cases hk : k ∈ back
    · have hc : current.contains k = true := by
        obtain ⟨x, hx, rfl⟩ := List.mem_map.mp hk
        exact (List.mem_filter.mp hx).2
      have hnone : ∀ o : Option Event, o.filter (isMissing current k) = none := fun o => by
        cases o <;> simp [(isStale_isMissing_of_current hc _).2]
      rw [hnone, hnone]
    · rw [hkeep k hk]
  show settleAll config scope info pending now (reactivateAll scope now d.2 kept d.1 back).2
    (reactivateAll scope now d.2 kept d.1 back).1.2
    ((reactivateAll scope now d.2 kept d.1 back).1.1.filter (isMissing current)).toList = _
  rw [hmissing, settleAll_eq, hback, jobs, List.foldl_append, List.foldl_append]
  exact congrArg (fun s => List.foldl _ (List.foldl _ s _) _) (discardAll_eq config scope now pending info _ e .empty)

/-! ## Every fingerprint has its job -/

theorem mem_discards {fingerprint : String} {job : Job} :
    (fingerprint, job) ∈ (((owned scope current suppressed all).filter (isStale current)).toList.map fun x =>
      (x.1, Job.discard x.2)) ↔
    ∃ event, (owned scope current suppressed all).get? fingerprint = some event ∧
      isStale current fingerprint event = true ∧ Job.discard event = job := by
  simp only [Table.mem_map_toList, Table.get?_filter, Option.filter_eq_some_iff, and_assoc]

theorem mem_reactivations {fingerprint : String} {job : Job} :
    (fingerprint, job) ∈ ((pending.filter fun fingerprint _ => current.contains fingerprint).keys.map fun fingerprint =>
      (fingerprint, Job.reactivate ((keptEvents scope current suppressed all).get? fingerprint))) ↔
    (pending.get? fingerprint).isSome = true ∧ current.contains fingerprint = true ∧
      Job.reactivate ((keptEvents scope current suppressed all).get? fingerprint) = job := by
  have hk : fingerprint ∈ (pending.filter fun fingerprint _ => current.contains fingerprint).keys ↔
      (pending.get? fingerprint).isSome = true ∧ current.contains fingerprint = true := by
    rw [Table.mem_keys, Table.get?_filter]
    cases pending.get? fingerprint <;> simp
  rw [← and_assoc, ← hk, List.mem_map]
  constructor
  · rintro ⟨k, hm, he⟩
    cases he
    exact ⟨hm, rfl⟩
  · rintro ⟨hm, rfl⟩
    exact ⟨fingerprint, hm, rfl⟩

theorem mem_settlements {fingerprint : String} {job : Job} :
    (fingerprint, job) ∈ (((keptEvents scope current suppressed all).filter (isMissing current)).toList.map fun x =>
      (x.1, Job.settle x.2)) ↔
    ∃ event, (owned scope current suppressed all).get? fingerprint = some event ∧
      isStale current fingerprint event = false ∧ isMissing current fingerprint event = true ∧
      Job.settle event = job := by
  simp only [Table.mem_map_toList, keptEvents, Table.get?_filter, Option.filter_eq_some_iff, and_assoc,
    Bool.not_eq_true']

/-- The jobs of a pass are those of the cells that were read. -/
theorem mem_jobs {fingerprint : String} {job : Job} :
    (fingerprint, job) ∈ jobs scope current suppressed all pending ↔
      Cell.job ⟨all.get? fingerprint, pending.get? fingerprint⟩ scope (current.contains fingerprint)
        (suppressed.contains fingerprint) = some job := by
  have hmine : (owned scope current suppressed all).get? fingerprint = (all.get? fingerprint).filter fun event =>
      event.ruleId == scope.rule && event.tenantId == scope.tenant &&
        (current.contains fingerprint || !suppressed.contains fingerprint) := Table.get?_filter ..
  rw [jobs, List.mem_append, List.mem_append, mem_discards, mem_reactivations, mem_settlements, keptEvents,
    Table.get?_filter]
  simp only [Cell.job, ← hmine]
  cases hc : current.contains fingerprint with
  | true =>
    have hj := fun event => isStale_isMissing_of_current hc event
    have hkeep : ∀ o : Option Event, (o.filter fun event => !isStale current fingerprint event) = o := fun o => by
      cases o <;> simp [hj]
    rw [hkeep]
    cases pending.get? fingerprint <;> simp [hj]
  | false =>
    have hj := fun event => isStale_isMissing_of_not_current hc event
    cases (owned scope current suppressed all).get? fingerprint with
    | none => simp
    | some event => cases hs : event.status <;> simp [hj, hs, Status.isTerminal]

/-- No fingerprint has two jobs. -/
theorem pairwise_jobs : (jobs scope current suppressed all pending).Pairwise (·.1 ≠ ·.1) := by
  have hmap : ∀ {α : Type} (t : Table α) (f : α → Job),
      (t.toList.map fun x => (x.1, f x.2)).Pairwise (·.1 ≠ ·.1) := fun t f => by
    have := Table.nodup_keys t
    exact List.pairwise_map.mpr (List.pairwise_map.mp this)
  refine List.pairwise_append.mpr ⟨List.pairwise_append.mpr ⟨hmap _ _, ?_, ?_⟩, hmap _ _, ?_⟩
  · exact List.pairwise_map.mpr (Table.nodup_keys _)
  · rintro ⟨k, job⟩ hx ⟨k', job'⟩ hy rfl
    obtain ⟨event, -, hs, -⟩ := (mem_discards ..).mp hx
    obtain ⟨-, hc, -⟩ := (mem_reactivations ..).mp hy
    rw [(isStale_isMissing_of_current hc event).1] at hs
    cases hs
  · rintro ⟨k, job⟩ hx ⟨k', job'⟩ hy rfl
    obtain ⟨event', ho', hs', hm', -⟩ := (mem_settlements ..).mp hy
    rcases List.mem_append.mp hx with hx | hx
    · obtain ⟨event, ho, hs, -⟩ := (mem_discards ..).mp hx
      rw [ho] at ho'
      cases ho'
      rw [hs] at hs'
      cases hs'
    · obtain ⟨-, hc, -⟩ := (mem_reactivations ..).mp hx
      rw [(isStale_isMissing_of_current hc event').2] at hm'
      cases hm'

end Engine

/-! ## One fingerprint after the other -/

/-- Steps at different places, each of which touches only its own place if that is still as it was at the beginning:
in the end every place is what its own step made of what stood there at the beginning. -/
theorem foldl_local {σ ι α γ : Type} {f : σ → ι × α → σ} {view : σ → ι → γ} {P : σ → Prop} {l : List (ι × α)}
    (hl : l.Pairwise (·.1 ≠ ·.1)) {s : σ}
    (step : ∀ s', ∀ x ∈ l, view s' x.1 = view s x.1 → P s' →
      P (f s' x) ∧ ∀ i, i ≠ x.1 → view (f s' x) i = view s' i) (h : P s) :
    P (l.foldl f s) ∧ (∀ i, (∀ x ∈ l, i ≠ x.1) → view (l.foldl f s) i = view s i) ∧
      ∀ x ∈ l, ∃ s', P s' ∧ view s' x.1 = view s x.1 ∧ view (l.foldl f s) x.1 = view (f s' x) x.1 := by
  induction hl generalizing s with
  | nil => exact ⟨h, fun _ _ => rfl, fun _ hx => nomatch hx⟩
  | @cons x l hx _ ih =>
    obtain ⟨hP, hframe⟩ := step s x List.mem_cons_self rfl h
    have hback : ∀ y ∈ l, view (f s x) y.1 = view s y.1 := fun y hy => hframe y.1 fun he => hx y hy he.symm
    obtain ⟨hP', hout, hin⟩ := ih (fun s' y hy hv =>
      step s' y (List.mem_cons_of_mem x hy) (hv.trans (hback y hy))) hP
    refine ⟨hP', fun i hi => ?_, fun y hy => ?_⟩
    · exact (hout i fun y hy => hi y (List.mem_cons_of_mem x hy)).trans (hframe i (hi x List.mem_cons_self))
    · rcases List.mem_cons.mp hy with rfl | hy
      · exact ⟨s, h, rfl, hout y.1 hx⟩
      · obtain ⟨s', hs', hv, hr⟩ := hin y hy
        exact ⟨s', hs', hv.trans (hback y hy), hr⟩

end Alerting
