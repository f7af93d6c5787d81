import Alerting.Proofs.Dispatch.Flight
import Alerting.Proofs.Engine.Faults
import Alerting.Proofs.Recovery.Grace

/-!
# Pending alerts and their entries

The state of an alert and the time since when it is missing are stored by calls of their own, and each of them may
fail. A pass makes the entry before it stores the pending event, and removes it after it has stored the next state. So
no alert of a rule is pending without an entry, whichever calls fail, and when none fails every entry belongs to a
pending alert (`pending_iff_listed`).

This needs that rules have no fingerprints in common (`Work.KeepsApart`).
-/

namespace Alerting

theorem Scope.owns_iff {scope : Scope} {event : Event} : scope.owns event = true ↔ event.owner = scope.owner := by
  simp [Scope.owns, Event.owner, Scope.owner, and_comm]

/-! ## Rules without common fingerprints -/

/-- The findings of a task are about these fingerprints if it is one of the rule, and about others if it is not. -/
def AnswerTask.KeepsApart (rule : Rule) (own : String → Prop) (t : AnswerTask) : Prop :=
  ∀ f ∈ t.findings, ∀ fingerprint, f.Concerns fingerprint → (t.rule.owner = rule.owner ↔ own fingerprint)

/-- In a piece of work, a rule has these fingerprints for itself: its answers are about them only, those of other rules
are about others, and its passes are about its own fault center. -/
structure Work.KeepsApart (rule : Rule) (own : String → Prop) (w : Work) : Prop where
  answers : ∀ t ∈ w.tasks, t.KeepsApart rule own
  passes : ∀ scope current suppressed now, w = .recover scope current suppressed now → scope.owner = rule.owner →
    scope = rule.scope

/-- An event in the fault center of a rule is the rule's exactly if its fingerprint is. -/
def Event.Placed (rule : Rule) (own : String → Prop) (a : Event) : Prop :=
  EventCache.keyOf a = rule.scope.eventsKey → (a.owner = rule.owner ↔ own a.fingerprint)

namespace Cell

variable {c : Cell} {scope : Scope} {since : Option Instant}

/-- What is tracked and has an entry is pending. -/
theorem Tracks.status_of_since (h : c.Tracks scope since) (hs : c.since.isSome = true) :
    c.status scope = some .pendingRecovery := by
  unfold Tracks at h
  split at h
  · next hst => exact hst
  · rw [h.1] at hs
    cases hs
  · rw [h] at hs
    cases hs

theorem tracks_of_status (h : c.since.isSome = true → c.status scope = some .pendingRecovery) :
    c.Tracks scope c.since := by
  cases hs : c.since with
  | none => exact tracks_of_since_eq_none hs scope
  | some t =>
    rw [Tracks, h (by rw [hs]; rfl)]
    exact hs

end Cell

namespace Engine

section Apart

variable {rule : Rule} {own : String → Prop} {e : Engine}

/-- An event of the rule that is stored in its fault center is what the rule shows. -/
theorem shows_of_find? {a : Event} {fingerprint : String}
    (h : e.events.find? rule.scope.eventsKey fingerprint = some a) (ho : a.owner = rule.owner) :
    e.Shows rule.scope fingerprint a.status := by
  have hm : (e.cell rule.scope fingerprint).record.filter rule.scope.owns = some a :=
    Option.filter_eq_some_iff.mpr ⟨h, Scope.owns_iff.mpr ho⟩
  rw [Shows, Cell.status, hm]
  rfl

/-- What the rule shows is the state of an event of its own. -/
theorem Shows.exists_event {fingerprint : String} {s : Status} (h : e.Shows rule.scope fingerprint s) :
    ∃ a, e.events.find? rule.scope.eventsKey fingerprint = some a ∧ a.owner = rule.owner ∧ a.status = s := by
  obtain ⟨a, hm, hs⟩ := Option.map_eq_some_iff.mp h
  obtain ⟨hf, ho⟩ := Option.filter_eq_some_iff.mp hm
  exact ⟨a, hf, Scope.owns_iff.mp ho, hs⟩

/-- An event of an answer is the rule's exactly if its fingerprint is. It is pending if the record that it was made of
is, and then that record is the rule's too. -/
theorem placed_of_mem_events (hc : e.Coherent) (hp : ∀ c, e.Knows Landed c → c.Placed rule own) {t : AnswerTask}
    {f : Finding} {n : Nat} {a : Event}
    (hf : ∀ fingerprint, f.Concerns fingerprint → (t.rule.owner = rule.owner ↔ own fingerprint))
    (ha : a ∈ f.events (e.cached t.rule) t.rule t.datasource t.now n) : a.Placed rule own ∧
      (EventCache.keyOf a = rule.scope.eventsKey →
        (∃ c, e.events.find? rule.scope.eventsKey a.fingerprint = some c ∧
          (a.owner = rule.owner ↔ c.owner = rule.owner) ∧
          (a.status = .pendingRecovery ↔ c.status = .pendingRecovery)) ∨
        a.status = .preAlert ∧ ∀ c, e.events.find? rule.scope.eventsKey a.fingerprint = some c →
          c.status = .recovered) := by
  have hl := hc.liesAt_cached t.rule
  obtain ⟨hlies, hcon⟩ := Finding.liesAt_of_mem_events hl ha
  have hcached : ∀ {c}, EventCache.keyOf a = rule.scope.eventsKey →
      (e.cached t.rule a.fingerprint = some c ↔ e.events.find? rule.scope.eventsKey a.fingerprint = some c) :=
    fun hk => by rw [← hk, hlies.1]; exact Iff.rfl
  cases Finding.origin_of_mem_events hl ha with
  | continued c hcc _ _ hs _ ho =>
    have hplaced : EventCache.keyOf a = rule.scope.eventsKey → (c.owner = rule.owner ↔ own a.fingerprint) :=
      fun hk => by
        obtain ⟨hck, hcf⟩ := hl _ c hcc
        have := hp c (hc.knows hcc Landed) (hck.trans (hlies.1.symm.trans hk))
        rwa [hcf] at this
    have hown : EventCache.keyOf a = rule.scope.eventsKey → (a.owner = rule.owner ↔ own a.fingerprint) :=
      fun hk => by
        rw [ho]
        split
        · exact hf _ hcon
        · exact hplaced hk
    refine ⟨hown, fun hk => .inl ⟨c, (hcached hk).mp hcc, (hown hk).trans (hplaced hk).symm, ?_⟩⟩
    rw [hs]
    split
    · next hd =>
      rw [Event.status_of_isDue (Bool.and_eq_true_iff.mp hd).2]
      simp
    · exact Iff.rfl
  | started _ _ hs hnew _ ho =>
    exact ⟨fun _ => by rw [ho]; exact hf _ hcon,
      fun hk => .inr ⟨hs, fun c hcc => Status.isTerminal_iff.mp (hnew c ((hcached hk).mpr hcc))⟩⟩

end Apart

/-! ## Changes of a pass -/

section Turns

variable {config : Config} {scope : Scope} {now : Instant} {info : Option FaultCenter} {c : Cell} {fingerprint : String}
  {e e' : Engine}

/-- After a change of a pass, what is stored was stored before, or it is an event of the rule that was moved on. -/
theorem Turn.knows (ht : Turn config scope now info c fingerprint e e') {a : Event} (h : e'.Knows Landed a) :
    e.Knows Landed a ∨ ∃ old target, a = old.moved target now ∧ e.Knows Landed old ∧ old.owner = scope.owner ∧
      old.LiesAt scope.eventsKey fingerprint ∧ (target = .pendingRecovery → e'.Lists scope fingerprint) := by
  have hmoved : ∀ {e : Engine} {old : Event} (target : Status) {d : Cell}, e.cell scope fingerprint = d →
      d.record.filter scope.owns = some old → old.LiesAt scope.eventsKey fingerprint →
      (target = .pendingRecovery → e.Lists scope fingerprint) →
      (e.stored (old.moved target now)).Knows Landed a → e.Knows Landed a ∨ ∃ old target, a = old.moved target now ∧
        e.Knows Landed old ∧ old.owner = scope.owner ∧ old.LiesAt scope.eventsKey fingerprint ∧
        (target = .pendingRecovery → e.Lists scope fingerprint) := by
    intro e old target d hc ho hl hp h
    rcases h.of_stored with rfl | h
    · have hf := find?_of_cell_eq hc ho
      refine .inr ⟨old, target, rfl, .inl ?_, Scope.owns_iff.mp (Option.filter_eq_some_iff.mp ho).2, hl, hp⟩
      rw [hl.1, hl.2]
      exact hf
    · exact .inl h
  cases ht with
  | quiet hq => exact .inl (h.of_quietly hq.quietly .inr)
  | discarded => exact .inl h.of_removed
  | reactivated old hc ho hl => exact hmoved .alerting hc ho hl nofun h
  | listed | unlisted => exact .inl h
  | wentMissing old hc ho hl =>
    exact hmoved .pendingRecovery hc ho hl (fun _ => congrArg (fun c : Cell => c.since.isSome) hc) h
  | recovered old since hc ho hl => exact hmoved .recovered hc ho hl nofun h

/-- A change of a pass removes an entry only if the rule has no pending event for it. -/
theorem Turn.lists (ht : Turn config scope now info c fingerprint e e') {scope' : Scope} {k : String}
    (h : e.Lists scope' k) : e'.Lists scope' k ∨
      scope'.owner = scope.owner ∧ k = fingerprint ∧ ¬e.Shows scope fingerprint .pendingRecovery := by
  cases ht with
  | quiet hq =>
    rw [Lists, Quietly.pending hq.quietly]
    exact .inl h
  | discarded | reactivated | wentMissing | recovered => exact .inl h
  | listed old _ _ =>
    left
    simp only [Lists, missed, PendingCache.get?_set]
    split
    · rfl
    · exact h
  | unlisted hs =>
    by_cases hk : (scope'.tenant = scope.tenant ∧ scope'.rule = scope.rule) ∧ k = fingerprint
    · exact .inr ⟨Prod.ext hk.1.1 hk.1.2, hk.2, hs⟩
    · left
      simp only [Lists, found, PendingCache.get?_delete, if_neg hk]
      exact h

/-- A pass makes no entries for another rule. -/
theorem Turn.lists_of_owner_ne (ht : Turn config scope now info c fingerprint e e') {scope' : Scope} {k : String}
    (hne : scope'.owner ≠ scope.owner) (h : e'.Lists scope' k) : e.Lists scope' k := by
  have hother : ¬((scope'.tenant = scope.tenant ∧ scope'.rule = scope.rule) ∧ k = fingerprint) :=
    fun hat => hne (Prod.ext hat.1.1 hat.1.2)
  cases ht with
  | quiet hq => rwa [Lists, Quietly.pending hq.quietly] at h
  | discarded | reactivated | wentMissing | recovered => exact h
  | listed => simpa only [Lists, missed, PendingCache.get?_set, if_neg hother] using h
  | unlisted => simpa only [Lists, found, PendingCache.get?_delete, if_neg hother] using h

/-- A pass leaves the events of other rules alone. -/
theorem Turn.find?_of_owner_ne (ht : Turn config scope now info c fingerprint e e') {key k : String} {a : Event}
    (hne : a.owner ≠ scope.owner) (h : e.events.find? key k = some a) : e'.events.find? key k = some a := by
  have hother : ∀ {e : Engine} {old : Event} {d : Cell}, e.events.find? key k = some a →
      e.cell scope fingerprint = d → d.record.filter scope.owns = some old →
      ¬(key = scope.eventsKey ∧ k = fingerprint) := by
    rintro e old d h hc hold ⟨rfl, rfl⟩
    have hfind := find?_of_cell_eq hc hold
    rw [h] at hfind
    cases hfind
    exact hne (Scope.owns_iff.mp (Option.filter_eq_some_iff.mp hold).2)
  have hstored : ∀ {e : Engine} {old : Event} (target : Status) {d : Cell}, e.events.find? key k = some a →
      e.cell scope fingerprint = d → d.record.filter scope.owns = some old →
      old.LiesAt scope.eventsKey fingerprint → (e.stored (old.moved target now)).events.find? key k = some a := by
    intro e old target d h hc hold hl
    have hat : ¬(old.moved target now).LiesAt key k :=
      fun hat => hother h hc hold ⟨hat.1.symm.trans hl.1, hat.2.symm.trans hl.2⟩
    rwa [find?_stored_of_ne hat]
  cases ht with
  | quiet hq => rwa [Quietly.events hq.quietly]
  | discarded old hc hold hl =>
    rw [removed, EventCache.find?_remove, if_neg]
    · exact h
    · exact fun hat => hother h hc hold ⟨hat.1.trans hl.1, hat.2⟩
  | reactivated old hc hold hl => exact hstored .alerting h hc hold hl
  | wentMissing old hc hold hl => exact hstored .pendingRecovery h hc hold hl
  | recovered old since hc hold hl => exact hstored .recovered h hc hold hl
  | listed | unlisted => exact h

end Turns

/-! ## Pending alerts have entries -/

section Listed

variable {rule : Rule} {own : String → Prop} {e e' : Engine}

/-- A pending event of the rule has an entry. -/
def Listed (rule : Rule) (own : String → Prop) (e : Engine) (a : Event) : Prop :=
  a.Placed rule own ∧ (EventCache.keyOf a = rule.scope.eventsKey → a.owner = rule.owner →
    a.status = .pendingRecovery → e.Lists rule.scope a.fingerprint)

/-- Events stand where they belong, and the pending ones of the rule have entries. -/
def AllListed (rule : Rule) (own : String → Prop) (e : Engine) : Prop :=
  e.Coherent ∧ ∀ a, e.Knows Landed a → e.Listed rule own a

theorem Listed.of_pending {a : Event} (h : e.Listed rule own a) (hp : e'.pending = e.pending) :
    e'.Listed rule own a := by
  refine ⟨h.1, fun hk ho hs => ?_⟩
  rw [Lists, hp]
  exact h.2 hk ho hs

/-- **The calls for answers leave every pending event with an entry.** -/
theorem pointwise_listed {tasks : List AnswerTask} (htasks : ∀ t ∈ tasks, t.KeepsApart rule own) :
    Pointwise tasks Coherent (Listed rule own) := by
  refine ⟨?quiet, ?looked, ?stored⟩
  case quiet =>
    intro e e' hq hc
    exact ⟨hq (fun hq h => h.quiet hq) hc, fun h => h.of_pending hq.pending⟩
  case looked =>
    intro t ht f hf e e' a hq _ hc hp ha
    obtain ⟨hplaced, hfrom⟩ := placed_of_mem_events hc (fun c hc => (hp c hc).1) (htasks t ht f hf) ha
    suffices h : e.Listed rule own a from h.of_pending hq.pending
    refine ⟨hplaced, ?_⟩
    intro hk ho hs
    rcases hfrom hk with ⟨c, hcf, hco, hcs⟩ | ⟨hpre, -⟩
    · obtain ⟨hck, hcfp⟩ := hc _ _ c hcf
      have hl := (hp c (hc.knows hcf Landed)).2 hck (hco.mp ho) (hcs.mp hs)
      rwa [hcfp] at hl
    · rw [hpre] at hs
      cases hs
  case stored =>
    intro e a hc _
    exact ⟨hc.stored a, fun h => h.of_pending rfl⟩

theorem AllListed.quiet (h : e.AllListed rule own) (hq : Quiet e e') : e'.AllListed rule own :=
  ⟨h.1.quiet hq, fun a ha => (h.2 a (ha.of_quietly hq.quietly .inr)).of_pending (Quietly.pending hq.quietly)⟩

/-- **The changes of a pass leave every pending event with an entry.** -/
theorem listed_of_turn {config : Config} {scope : Scope} {now : Instant} {info : Option FaultCenter} {c : Cell}
    {fingerprint : String} (ht : Turn config scope now info c fingerprint e e')
    (hs : scope.owner = rule.owner → scope = rule.scope)
    (h : ∀ a, e.Knows Landed a → e.Listed rule own a) {a : Event} (ha : e'.Knows Landed a) : e'.Listed rule own a := by
  rcases ht.knows ha with ha | ⟨old, target, rfl, hold, hoo, hl, hp⟩
  · obtain ⟨hplaced, hlisted⟩ := h a ha
    refine ⟨hplaced, fun hk ho hst => ?_⟩
    refine (ht.lists (hlisted hk ho hst)).resolve_right fun ⟨hown, hfp, hno⟩ => hno ?_
    obtain rfl := hs hown.symm
    rw [← hfp, ← hst]
    exact shows_of_find? (hk ▸ ha.stored_of_landed) ho
  · refine ⟨(h old hold).1, fun _ ho hst => ?_⟩
    obtain rfl := hs (hoo.symm.trans ho)
    have hfp : (old.moved target now).fingerprint = fingerprint := hl.2
    rw [hfp]
    exact hp hst

/-- **Every piece of work leaves every pending event with an entry.** -/
theorem listed_after {w : Work} (hw : w.KeepsApart rule own) (config : Config)
    (h : e.AllListed rule own) : (e.after config w).AllListed rule own := by
  refine (pointwise_listed hw.answers).keptBy.after config h.1
    (fun scope current suppressed now hrec fingerprint e₁ e₂ ht h => ?_) h
  exact ⟨h.1.deal ht.deal, fun a ha => listed_of_turn ht (hw.passes scope current suppressed now hrec) h.2 ha⟩

end Listed

/-! ## Entries belong to pending alerts -/

section Paired

variable {rule : Rule} {own : String → Prop} {e e' : Engine}

/-- Every entry of the rule belongs to a pending event of its own. -/
def Paired (rule : Rule) (own : String → Prop) (e : Engine) : Prop :=
  ∀ fingerprint, e.Lists rule.scope fingerprint → own fingerprint ∧ e.Shows rule.scope fingerprint .pendingRecovery

/-- An event of the rule that has an entry is pending. -/
def PendingIfListed (rule : Rule) (own : String → Prop) (e : Engine) (a : Event) : Prop :=
  a.Placed rule own ∧ (EventCache.keyOf a = rule.scope.eventsKey → a.owner = rule.owner →
    e.Lists rule.scope a.fingerprint → a.status = .pendingRecovery)

theorem PendingIfListed.of_pending {a : Event} (h : e.PendingIfListed rule own a) (hp : e'.pending = e.pending) :
    e'.PendingIfListed rule own a := by
  refine ⟨h.1, fun hk ho hl => h.2 hk ho ?_⟩
  rwa [Lists, hp] at hl

theorem Paired.of_eq (h : e.Paired rule own) (hp : e'.pending = e.pending) (he : e'.events = e.events) :
    e'.Paired rule own := by
  intro fingerprint hl
  rw [Lists, hp] at hl
  rw [Shows, cell, hp, he]
  exact h fingerprint hl

theorem Paired.stored {a : Event} (h : e.Paired rule own) (ha : e.PendingIfListed rule own a) :
    (e.stored a).Paired rule own := by
  intro fingerprint hl
  obtain ⟨hown, hshows⟩ := h fingerprint hl
  refine ⟨hown, ?_⟩
  obtain ⟨c, hf, ho, hs⟩ := hshows.exists_event
  by_cases hat : a.LiesAt rule.scope.eventsKey fingerprint
  · obtain ⟨hk, rfl⟩ := id hat
    have hao : a.owner = rule.owner := (ha.1 hk).mpr hown
    rw [← ha.2 hk hao hl]
    exact shows_of_find? (find?_stored_self hat) hao
  · rw [← hs]
    exact shows_of_find? ((find?_stored_of_ne hat).trans hf) ho

/-- **The calls for answers leave every entry with a pending event.** -/
theorem pointwise_paired {tasks : List AnswerTask} (htasks : ∀ t ∈ tasks, t.KeepsApart rule own) :
    Pointwise tasks (fun e => e.Coherent ∧ e.Paired rule own) (PendingIfListed rule own) := by
  refine ⟨?quiet, ?looked, ?stored⟩
  case quiet =>
    rintro e e' hq ⟨hc, h⟩
    exact ⟨⟨hq (fun hq h => h.quiet hq) hc, h.of_eq hq.pending hq.events⟩, fun h => h.of_pending hq.pending⟩
  case looked =>
    rintro t ht f hf e e' a hq - ⟨hc, h⟩ hp ha
    obtain ⟨hplaced, hfrom⟩ := placed_of_mem_events hc (fun c hc => (hp c hc).1) (htasks t ht f hf) ha
    suffices h : e.PendingIfListed rule own a from h.of_pending hq.pending
    refine ⟨hplaced, ?_⟩
    intro hk ho hl
    rcases hfrom hk with ⟨c, hcf, hco, hcs⟩ | ⟨-, hnew⟩
    · obtain ⟨hck, hcfp⟩ := hc _ _ c hcf
      exact hcs.mpr ((hp c (hc.knows hcf Landed)).2 hck (hco.mp ho) (hcfp ▸ hl))
    -- What has an entry is pending, and a new generation starts only where nothing is live.
    · obtain ⟨c, hcf, -, hcs⟩ := (h a.fingerprint hl).2.exists_event
      rw [hnew c hcf] at hcs
      cases hcs
  case stored =>
    rintro e a ⟨hc, h⟩ ha
    exact ⟨⟨hc.stored a, h.stored ha⟩, fun h => h.of_pending rfl⟩

/-- A pass of another rule leaves every entry of the rule with a pending event. -/
theorem Paired.turn_of_owner_ne {config : Config} {scope : Scope} {now : Instant} {info : Option FaultCenter} {c : Cell}
    {fingerprint : String} (h : e.Paired rule own) (ht : Turn config scope now info c fingerprint e e')
    (hne : scope.owner ≠ rule.owner) : e'.Paired rule own := by
  intro k hl
  obtain ⟨hown, hshows⟩ := h k (ht.lists_of_owner_ne hne.symm hl)
  obtain ⟨a, hf, ho, hs⟩ := hshows.exists_event
  refine ⟨hown, ?_⟩
  rw [← hs]
  exact shows_of_find? (ht.find?_of_owner_ne (ho ▸ hne.symm) hf) ho

/-- A pass of the rule in which no call fails leaves every entry with a pending event. -/
theorem Paired.pass (h : e.Paired rule own) (hh : e.Healthy) (hc : e.Coherent) (config : Config)
    (current suppressed : List String) (now : Instant) (hown : ∀ fingerprint,
      (e.reconcile config rule.scope current suppressed now).2.Shows rule.scope fingerprint .pendingRecovery →
      own fingerprint) : (e.reconcile config rule.scope current suppressed now).2.Paired rule own := by
  intro fingerprint hl
  obtain ⟨r, e', hr, -, -, -, hcell⟩ := reconcile_of_healthy config rule.scope current suppressed now hh hc
    rule.scope_keys.1 rule.scope_keys.2
  rw [hr] at hl hown ⊢
  have htracks : (e.cell rule.scope fingerprint).Tracks rule.scope (e.cell rule.scope fingerprint).since :=
    Cell.tracks_of_status fun hs => (h fingerprint hs).2
  have hstep : ((⟨current, suppressed, now⟩ : Pass).on config rule.scope (e.infos.get? rule.scope.infoKey) fingerprint
      (e.cell rule.scope fingerprint)).2.Tracks rule.scope _ := htracks.step ⟨current, suppressed, now⟩
  have hshows : e'.Shows rule.scope fingerprint .pendingRecovery := by
    rw [Shows, (hcell fingerprint).1]
    refine hstep.status_of_since ?_
    have hs : (e'.cell rule.scope fingerprint).since.isSome = true := hl
    rwa [(hcell fingerprint).1] at hs
  exact ⟨hown fingerprint hshows, hshows⟩

theorem Paired.knows (h : e.Paired rule own) {a : Event} (ha : e.Knows Landed a) (hp : a.Placed rule own) :
    e.PendingIfListed rule own a := by
  refine ⟨hp, fun hk _ hl => ?_⟩
  obtain ⟨c, hf, -, hs⟩ := (h a.fingerprint hl).2.exists_event
  rw [← hk, ha.stored_of_landed] at hf
  rwa [Option.some.inj hf]

/-- **A piece of work in which no call fails leaves every entry with a pending event.** -/
theorem Paired.after {w : Work} (h : e.Paired rule own) (hw : w.KeepsApart rule own) (config : Config) (hh : e.Healthy)
    (hl : e.AllListed rule own) : (e.after config w).Paired rule own := by
  have hpoint : ∀ a, e.Knows Landed a → e.PendingIfListed rule own a := fun a ha => h.knows ha (hl.2 a ha).1
  have hafter := listed_after hw config hl
  cases w with
  | dispatch | race =>
    have hkept := (pointwise_paired hw.answers).keptBy
    exact (hkept.after config hl.1 (fun _ _ _ _ hrec => nomatch hrec) ⟨⟨hl.1, h⟩, hpoint⟩).1.2
  | recover scope current suppressed now =>
    by_cases hs : scope.owner = rule.owner
    · obtain rfl := hw.passes scope current suppressed now rfl hs
      refine h.pass hh hl.1 config current suppressed now fun fingerprint hshows => ?_
      obtain ⟨a, hf, ho, -⟩ := Shows.exists_event hshows
      obtain ⟨hk, hfp⟩ := hafter.1 _ _ a hf
      have hown := ((hafter.2 a (hafter.1.knows hf Landed)).1 hk).mp ho
      rwa [hfp] at hown
    · exact reconcile_keeps_turns config scope current suppressed now hl.1
        (fun _ _ _ ht h => h.turn_of_owner_ne ht hs) h

end Paired

/-! ## Runs -/

section Runs

variable {rule : Rule} {own : String → Prop} {e : Engine} {works : List Work}

/-- **After every run, every pending event has an entry.** -/
theorem listed_run (hw : ∀ w ∈ works, w.KeepsApart rule own) (config : Config)
    (h : e.AllListed rule own) : (e.run config works).AllListed rule own := by
  induction works generalizing e with
  | nil => exact h
  | cons w works ih =>
    exact ih (fun x hx => hw x (List.mem_cons_of_mem w hx)) (listed_after (hw w List.mem_cons_self) config h)

/-- **After a run in which no call fails, every entry belongs to a pending event.** -/
theorem Paired.run (h : e.Paired rule own) (hw : ∀ w ∈ works, w.KeepsApart rule own) (config : Config) (hh : e.Healthy)
    (hl : e.AllListed rule own) : (e.run config works).Paired rule own := by
  induction works generalizing e with
  | nil => exact h
  | cons w works ih =>
    have hw' := hw w List.mem_cons_self
    exact ih (h.after hw' config hh hl) (fun x hx => hw x (List.mem_cons_of_mem w hx)) (hh.after hl.1 config w)
      (listed_after hw' config hl)

variable (rule own) in
theorem listed_fresh (faults : Nat → Call → Bool) (infos : InfoCache) : (fresh faults infos).AllListed rule own :=
  ⟨coherent_fresh faults infos, fun _ ha => nomatch ha.stored_of_landed⟩

/-- **After a run in which no call has failed, every entry belongs to a pending event.** -/
theorem shows_of_lists {faults : Nat → Call → Bool} {infos : InfoCache} (hw : ∀ w ∈ works, w.KeepsApart rule own)
    (config : Config) (hnone : (fresh faults infos).NoneFailed ((fresh faults infos).run config works))
    {fingerprint : String} (hl : ((fresh faults infos).run config works).Lists rule.scope fingerprint) :
    ((fresh faults infos).run config works).Shows rule.scope fingerprint .pendingRecovery := by
  have hempty : (fresh faults infos).healthy.Paired rule own := fun _ hl => nomatch hl
  have hpaired := hempty.run hw config (healthy_healthy _) (listed_fresh rule own _ infos)
  have hsame : (fresh faults infos).healthy.run config works = ((fresh faults infos).run config works).healthy :=
    congrArg Prod.snd ((local_run config works).healthy_of_noneFailed hnone)
  rw [hsame] at hpaired
  exact (hpaired fingerprint hl).2

/-- A pending event of the rule has an entry, if all events that are known have. -/
theorem lists_of_shows (hl : e.AllListed rule own) {fingerprint : String}
    (h : e.Shows rule.scope fingerprint .pendingRecovery) : e.Lists rule.scope fingerprint := by
  obtain ⟨a, hf, ho, hs⟩ := h.exists_event
  obtain ⟨hk, hfp⟩ := hl.1 _ _ a hf
  have hlists := (hl.2 a (hl.1.knows hf Landed)).2 hk ho hs
  rwa [hfp] at hlists

end Runs

end Engine

/-- **Every pending alert of a rule has an entry, and as long as no call has failed, every entry belongs to a pending
alert.** -/
theorem pending_iff_listed (config : Config) (faults : Nat → Call → Bool) (infos : InfoCache) (works : List Work)
    (rule : Rule) (own : String → Prop) (hapart : ∀ w ∈ works, w.KeepsApart rule own) :
    let start := Engine.fresh faults infos
    let e := start.run config works
    (∀ fingerprint, e.Shows rule.scope fingerprint .pendingRecovery → e.Lists rule.scope fingerprint) ∧
      (start.NoneFailed e →
        ∀ fingerprint, e.Lists rule.scope fingerprint → e.Shows rule.scope fingerprint .pendingRecovery) := by
  intro start e
  have hfresh := Engine.listed_fresh rule own faults infos
  exact ⟨fun _ hs => Engine.lists_of_shows (Engine.listed_run hapart config hfresh) hs,
    fun hnone _ hl => Engine.shows_of_lists hapart config hnone hl⟩

/-- A log rule has one fingerprint. -/
theorem Rule.eq_of_concerns {rule : Rule} (h : rule.query.family = .logs) {answer : Answer} {f : Finding}
    (hf : f ∈ rule.findings answer) {fingerprint : String} (hc : f.Concerns fingerprint) :
    fingerprint = Fingerprint.ofRule rule.id := by
  unfold Rule.findings at hf
  split at hf
  · next hq => exact absurd h (by simp [hq, Query.family])
  · simp only [Logs.findings] at hf
    split at hf
    · rw [List.mem_singleton.mp hf] at hc
      rcases hc with ⟨o, ho, rfl⟩ | ⟨v, hv⟩
      · cases ho
        rfl
      · cases hv
    · cases hf
  · next hq => exact absurd h (by simp [hq, Query.family])
  · next hq => exact absurd h (by simp [hq, Query.family])
  · next hq => exact absurd h (by simp [hq, Query.family])
  · cases hf

/-- The same rule under another id. -/
def Rule.errorCount₂ : Rule := { Rule.errorCount with id := "r2" }

theorem Rule.ofRule_errorCount₂ : Fingerprint.ofRule Rule.errorCount₂.id ≠ Fingerprint.ofRule "r1" := by decide +kernel

/-- Two rules match, the first one is missed by a pass, and then it matches again. The new state of the last pass is
stored by the fifteenth call. -/
def Work.missedAndBack : List Work :=
  let hit (rule : Rule) := Work.dispatch rule [⟨"ds1", .epoch, 0, .ok (.count 5)⟩]
  [hit .errorCount, hit .errorCount, hit .errorCount₂,
    .recover Rule.errorCount.scope [] [] (Instant.epoch.after (.ofSecs 60)),
    .recover Rule.errorCount.scope [Fingerprint.ofRule "r1"] [] (Instant.epoch.after (.ofSecs 90))]

theorem Work.keepsApart_missedAndBack :
    ∀ w ∈ Work.missedAndBack, w.KeepsApart .errorCount (· = Fingerprint.ofRule "r1") := by
  have hhit : ∀ rule : Rule, rule.query.family = .logs →
      (rule.owner = Rule.errorCount.owner ↔ Fingerprint.ofRule rule.id = Fingerprint.ofRule "r1") →
      (Work.dispatch rule [⟨"ds1", .epoch, 0, .ok (.count 5)⟩]).KeepsApart .errorCount
        (· = Fingerprint.ofRule "r1") := by
    refine fun rule hq ho => ⟨fun t ht f hf fingerprint hc => ?_, fun _ _ _ _ h => nomatch h⟩
    obtain rfl := List.mem_singleton.mp ht
    rw [Rule.eq_of_concerns hq hf hc]
    exact ho
  have hpass : ∀ current now, (Work.recover Rule.errorCount.scope current [] now).KeepsApart .errorCount
      (· = Fingerprint.ofRule "r1") := by
    refine fun _ _ => ⟨fun _ ht => (nomatch ht), fun scope _ _ _ h _ => ?_⟩
    cases h
    rfl
  have h₁ := hhit .errorCount rfl ⟨fun _ => rfl, fun _ => rfl⟩
  have h₂ := hhit .errorCount₂ rfl (iff_of_false (by decide) Rule.ofRule_errorCount₂)
  intro w hw
  simp only [missedAndBack, List.mem_cons, List.not_mem_nil, or_false] at hw
  rcases hw with rfl | rfl | rfl | rfl | rfl
  · exact h₁
  · exact h₁
  · exact h₂
  · exact hpass _ _
  · exact hpass _ _

/-- When the last pass fails to store the active event, the alert stays pending. The first pass has listed it, and no
call has failed until then. -/
theorem Engine.run_missedAndBack :
    let start := Engine.fresh (fun n _ => n == 14) .empty
    let e := start.run .standard Work.missedAndBack
    let e' := start.run .standard (Work.missedAndBack.take 4)
    e.Shows Rule.errorCount.scope (Fingerprint.ofRule "r1") .pendingRecovery ∧ 14 < e.calls ∧
      e'.Lists Rule.errorCount.scope (Fingerprint.ofRule "r1") ∧ e'.calls ≤ 14 := by
  decide +kernel

/-- When the last pass fails to store the active event, the alert stays pending, and its entry stays. Before it, no call
has failed, and the entry that the first pass made belongs to a pending alert. -/
theorem pending_iff_listed_missedAndBack :
    let scope := Rule.errorCount.scope
    let start := Engine.fresh (fun n _ => n == 14) .empty
    let e := start.run .standard Work.missedAndBack
    let e' := start.run .standard (Work.missedAndBack.take 4)
    (∀ w ∈ Work.missedAndBack, w.KeepsApart .errorCount (· = Fingerprint.ofRule "r1")) ∧
      e.Shows scope (Fingerprint.ofRule "r1") .pendingRecovery ∧ e.Lists scope (Fingerprint.ofRule "r1") ∧
      start.NoneFailed e' ∧ e'.Lists scope (Fingerprint.ofRule "r1") ∧
      e'.Shows scope (Fingerprint.ofRule "r1") .pendingRecovery := by
  obtain ⟨hshows, -, hlists, hcalls⟩ := Engine.run_missedAndBack
  have hnone : (Engine.fresh (fun n _ => n == 14) .empty).NoneFailed _ := Engine.noneFailed_of_once rfl (.inl hcalls)
  have htake : ∀ w ∈ Work.missedAndBack.take 4, w.KeepsApart .errorCount (· = Fingerprint.ofRule "r1") :=
    fun w hw => Work.keepsApart_missedAndBack w (List.mem_of_mem_take hw)
  exact ⟨Work.keepsApart_missedAndBack, hshows,
    (pending_iff_listed .standard _ .empty _ _ _ Work.keepsApart_missedAndBack).1 _ hshows, hnone, hlists,
    (pending_iff_listed .standard _ .empty _ _ _ htake).2 hnone _ hlists⟩

end Alerting
