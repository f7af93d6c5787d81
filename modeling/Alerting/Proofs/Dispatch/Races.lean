import Alerting.Proofs.Dispatch.Path
import Alerting.Proofs.Dispatch.Flight

/-!
# Writes of datasources side by side

Between the look-up of a record and the store of the event that was made of it, other tasks may store theirs. What is
stored of a generation, or about to be, is then still in one phase (`Status.phase`, `Racing`): at worst, an active
alert is written over by an unconfirmed one. When the tasks have no fingerprint in common, none gets in the way of
another, and a confirmation is undone only by the answer that made it (`SideBySide`).
-/

namespace Alerting

/-! ## Tasks that may have fingerprints in common -/

/-- The phase of a state. Matches do not leave it: they confirm an unconfirmed alert at most. -/
def Status.phase : Status → Status
  | .alerting => .preAlert
  | s => s

/-- Within a phase, only the move from an active alert to an unconfirmed one is not allowed. -/
theorem Status.allowed_of_phase {a b : Status} (h : a.phase = b.phase) :
    a.Allowed b ∨ a = .alerting ∧ b = .preAlert := by
  cases a <;> cases b <;> simp [phase, Allowed, allows] at h ⊢

/-- Both events are of one generation. -/
def Event.SameGeneration (a b : Event) : Prop :=
  EventCache.keyOf a = EventCache.keyOf b ∧ a.fingerprint = b.fingerprint ∧ a.id = b.id

namespace Engine

/-- An event is stored, or a task is about to store it. -/
def Holds (e : Engine) (tasks : List AnswerTask) (event : Event) : Prop :=
  e.events.find? (EventCache.keyOf event) event.fingerprint = some event ∨ ∃ t ∈ tasks, event ∈ t.outcome.events

/-- Events of one generation are in one phase. -/
structure Racing (ok : Status → Status → Prop) (e : Engine) (tasks : List AnswerTask) : Prop where
  lawful : e.Lawful ok
  numbered : ∀ event, e.Holds tasks event → ∃ n, n < e.minted ∧ event.id = mintedId n
  phase : ∀ a b, e.Holds tasks a → e.Holds tasks b → a.SameGeneration b → a.status.phase = b.status.phase

section Racing

variable {ok : Status → Status → Prop} {e e' : Engine} {tasks : List AnswerTask} {i : Nat} {t t' : AnswerTask}

theorem Lawful.holds (h : e.Lawful ok) {key fingerprint : String} {event : Event}
    (hf : e.events.find? key fingerprint = some event) : e.Holds tasks event := by
  obtain ⟨rfl, rfl⟩ := h.coherent key fingerprint event hf
  exact .inl hf

theorem Racing.of_holds (h : e.Racing ok tasks) (hl : e'.Lawful ok) (hm : e.minted ≤ e'.minted)
    {tasks' : List AnswerTask} (hh : ∀ event, e'.Holds tasks' event → e.Holds tasks event) : e'.Racing ok tasks' := by
  refine ⟨hl, fun event hev => ?_, fun a b ha hb => h.phase a b (hh a ha) (hh b hb)⟩
  obtain ⟨n, hn, hid⟩ := h.numbered event (hh event hev)
  exact ⟨n, Nat.lt_of_lt_of_le hn hm, hid⟩

/-- A looked up event is in the phase of the others of its generation: it has the phase of the live record, and the id
of a new generation is nobody else's. -/
theorem Racing.phase_looked (h : e.Racing ok tasks) {f : Finding} {a b : Event}
    (ha : a ∈ f.events (e.cached t.rule) t.rule t.datasource t.now e.minted) (hb : e.Holds tasks b)
    (hab : a.SameGeneration b) : a.status.phase = b.status.phase := by
  obtain ⟨hkey, hfp, hid⟩ := hab
  have hc := h.lawful.coherent.liesAt_cached t.rule
  have hla := (Finding.liesAt_of_mem_events hc ha).1
  cases Finding.origin_of_mem_events hc ha with
  | continued c hcached _ hida hs =>
    obtain ⟨hlk, hlf⟩ := hc _ c hcached
    have hcb : c.status.phase = b.status.phase :=
      h.phase c b (h.lawful.holds hcached) hb ⟨(hlk.trans hla.1.symm).trans hkey, hlf.trans hfp, hida.symm.trans hid⟩
    rw [← hcb, hs]
    split
    · next hd =>
      rw [Event.status_of_isDue (Bool.and_eq_true_iff.mp hd).2]
      rfl
    · rfl
  | started _ hida _ _ =>
    obtain ⟨n, hn, hidb⟩ := h.numbered b hb
    exact absurd (mintedId_inj (hidb.symm.trans (hid.symm.trans hida))) (Nat.ne_of_lt hn)

/-- A look-up leaves the events of each generation in one phase. -/
theorem Racing.looked (h : e.Racing ok tasks) (hl : e'.Lawful ok) {f : Finding}
    (hm : e'.minted = e.minted + [f].countP Finding.isMatch) {tasks' : List AnswerTask}
    (hh : ∀ event, e'.Holds tasks' event → e.Holds tasks event ∨
      event ∈ f.events (e.cached t.rule) t.rule t.datasource t.now e.minted) : e'.Racing ok tasks' := by
  refine ⟨hl, fun event hev => ?_, fun a b ha hb hab => ?_⟩
  · rcases hh event hev with hev | hev
    · obtain ⟨n, hn, hid⟩ := h.numbered event hev
      exact ⟨n, by omega, hid⟩
    · refine h.lawful.numbered_of_mem_events hev (by omega) fun hmatch => ?_
      rw [hm, List.countP_cons_of_pos hmatch]
      omega
  · rcases hh a ha with ha | ha <;> rcases hh b hb with hb | hb
    · exact h.phase a b ha hb hab
    · exact (h.phase_looked hb ha ⟨hab.1.symm, hab.2.1.symm, hab.2.2.symm⟩).symm
    · exact h.phase_looked ha hb hab
    · rw [Finding.eq_of_mem_events ha hb]

/-- **A call of a task leaves the events of each generation in one phase.** -/
theorem Racing.proceeds (hallows : ∀ a b : Status, a.Allowed b → ok a b) (hback : ok .alerting .preAlert)
    (h : e.Racing ok tasks) (hi : tasks[i]? = some t) (hp : Proceeds e t t' e') :
    e'.Racing ok (tasks.set i t') := by
  have ht : t ∈ tasks := List.mem_of_getElem? hi
  have hset : ∀ event, e'.Holds (tasks.set i t') event → e'.events.find? (EventCache.keyOf event) event.fingerprint =
      some event ∨ (∃ x ∈ tasks, event ∈ x.outcome.events) ∨ event ∈ t'.outcome.events := by
    rintro event (hev | ⟨x, hx, hev⟩)
    · exact .inl hev
    · rcases List.mem_or_eq_of_mem_set hx with hx | rfl
      · exact .inr (.inl ⟨x, hx, hev⟩)
      · exact .inr (.inr hev)
  have hquiet : Quietly e e' → e'.Lawful ok := fun hq => hq (fun hq h => h.quiet hq) h.lawful
  cases hp with
  | looked f fs out _ hf ho hm hq =>
    refine h.looked (t := t) (hquiet hq) hm fun event hev => ?_
    rcases hset event hev with hev | hev | hev
    · exact .inl (.inl (hq.events ▸ hev))
    · exact .inl (.inr hev)
    · rcases List.mem_append.mp (ho ▸ hev : event ∈ t.outcome.events ++ _) with hev | hev
      · exact .inl (.inr ⟨t, ht, hev⟩)
      · exact .inr hev
  | failed _ hq =>
    refine h.of_holds (hquiet hq) hq.minted fun event hev => ?_
    rcases hset event hev with hev | hev | hev
    · exact .inl (hq.events ▸ hev)
    · exact .inr hev
    · cases hev
  | lost event out _ ho hq =>
    refine h.of_holds (hquiet hq) hq.minted fun ev hev => ?_
    rcases hset ev hev with hev | hev | hev
    · exact .inl (hq.events ▸ hev)
    · exact .inr hev
    · exact .inr ⟨t, ht, ho ▸ List.mem_cons_of_mem event hev⟩
  | stored event out ho =>
    have hevent : e.Holds tasks event := .inr ⟨t, ht, ho ▸ List.mem_cons_self⟩
    refine h.of_holds ((h.lawful.quiet (.counted e)).stored (h.numbered event hevent) fun old hold hid => ?_)
      (Nat.le_refl _) fun ev hev => ?_
    · obtain ⟨hk, hf⟩ := h.lawful.coherent _ _ old hold
      rcases Status.allowed_of_phase (h.phase old event (h.lawful.holds hold) hevent ⟨hk, hf, hid⟩) with ha | ⟨ha, hb⟩
      · exact hallows _ _ ha
      · rw [ha, hb]
        exact hback
    · rcases hset ev hev with hev | hev | hev
      · simp only [Engine.stored, EventCache.find?_push] at hev
        split at hev
        · cases hev
          exact hevent
        · exact .inl hev
      · exact .inr hev
      · exact .inr ⟨t, ht, ho ▸ List.mem_cons_of_mem event hev⟩
  | idle =>
    rw [set_of_getElem? hi]
    exact h

/-- **A race at worst writes an unconfirmed event over an active one.** -/
theorem Racing.race (hallows : ∀ a b : Status, a.Allowed b → ok a b) (hback : ok .alerting .preAlert)
    (order : List Nat) {e : Engine} {tasks : List AnswerTask} (h : e.Racing ok tasks) :
    (e.race tasks order).Lawful ok := by
  induction order generalizing e tasks with
  | nil => exact h.lawful
  | cons i order ih =>
    rw [Engine.race]
    split
    · exact ih h
    · next t hi => exact ih (h.proceeds hallows hback hi (e.proceeds t))

/-- Events of tasks that have not begun are those that are stored. -/
theorem Lawful.racing (h : e.Lawful ok) (hnone : ∀ t ∈ tasks, t.outcome.events = []) : e.Racing ok tasks := by
  have hstored : ∀ event, e.Holds tasks event →
      e.events.find? (EventCache.keyOf event) event.fingerprint = some event := by
    rintro event (hev | ⟨t, ht, hev⟩)
    · exact hev
    · rw [hnone t ht] at hev
      cases hev
  refine ⟨h, fun event hev => h.numbered _ _ event (hstored event hev), ?_⟩
  rintro a b ha hb ⟨hkey, hfp, -⟩
  have hab := hstored a ha
  rw [hkey, hfp, hstored b hb] at hab
  rw [Option.some.inj hab]

end Racing

/-! ## Tasks without common fingerprints -/

end Engine

/-- A task has findings or events of a fingerprint. -/
def AnswerTask.Touches (t : AnswerTask) (fingerprint : String) : Prop :=
  (∃ f ∈ t.findings, f.Concerns fingerprint) ∨ ∃ event ∈ t.outcome.events, event.fingerprint = fingerprint

/-- Two tasks have no fingerprint in common. -/
def AnswerTask.Apart (t u : AnswerTask) : Prop := ∀ fingerprint, t.Touches fingerprint → ¬u.Touches fingerprint

namespace Engine

/-- The events of a task may follow each other and what is stored, and so may those of its findings. -/
structure Sound (ok : Status → Status → Prop) (e : Engine) (t : AnswerTask) : Prop where
  numbered : ∀ event ∈ t.outcome.events, ∃ n, n < e.minted ∧ event.id = mintedId n
  next : ∀ event ∈ t.outcome.events, ∀ old,
    e.events.find? (EventCache.keyOf event) event.fingerprint = some old → old.FollowedBy event ok
  ordered : t.outcome.events.Pairwise fun a b => a.fingerprint = b.fingerprint → a.FollowedBy b ok
  origin : ∀ g ∈ t.findings, ∀ event ∈ t.outcome.events, ∃ (f : Finding) (n : Nat),
    (f.isMatch = true → n < e.minted) ∧ f.Origin (e.cached t.rule) t.rule t.now n event ∧
    (f.isMatch = true → g.Concerns event.fingerprint → g.isMatch = true)
  steady : t.findings.Pairwise Finding.SafeBefore

section Sound

variable {ok : Status → Status → Prop} {e e' : Engine} {t t' : AnswerTask}

/-- A task has no fingerprint after a call that it did not have before. -/
theorem Proceeds.touches (h : Proceeds e t t' e') (hc : e.Coherent) {fingerprint : String}
    (ht : t'.Touches fingerprint) : t.Touches fingerprint := by
  cases h with
  | looked f fs out _ hf ho _ _ =>
    rcases ht with ⟨g, hg, hcon⟩ | ⟨event, hev, hfp⟩
    · exact .inl ⟨g, hf ▸ List.mem_cons_of_mem f hg, hcon⟩
    · rcases List.mem_append.mp (ho ▸ hev : event ∈ t.outcome.events ++ _) with hev | hev
      · exact .inr ⟨event, hev, hfp⟩
      · have hcon := (Finding.liesAt_of_mem_events (hc.liesAt_cached t.rule) hev).2
        exact .inl ⟨f, hf ▸ List.mem_cons_self, hfp ▸ hcon⟩
  | failed => rcases ht with ⟨_, hg, _⟩ | ⟨_, hev, _⟩ <;> contradiction
  | lost event _ _ ho | stored event _ ho =>
    rcases ht with ⟨_, hg, _⟩ | ⟨ev, hev, hfp⟩
    · cases hg
    · exact .inr ⟨ev, ho ▸ List.mem_cons_of_mem event hev, hfp⟩
  | idle => exact ht

/-- Calls of other tasks are nothing to a task, if they store no event of its fingerprints. -/
theorem Sound.of_find?_eq (h : e.Sound ok t) (hm : e.minted ≤ e'.minted)
    (hf : ∀ event ∈ t.outcome.events, ∀ key, e'.events.find? key event.fingerprint =
      e.events.find? key event.fingerprint) : e'.Sound ok t := by
  refine ⟨fun event hev => ?_, fun event hev old hold => ?_, h.ordered, fun g hg event hev => ?_, h.steady⟩
  · obtain ⟨n, hn, hid⟩ := h.numbered event hev
    exact ⟨n, Nat.lt_of_lt_of_le hn hm, hid⟩
  · exact h.next event hev old ((hf event hev _).symm.trans hold)
  · obtain ⟨f, n, hn, ho, hg'⟩ := h.origin g hg event hev
    exact ⟨f, n, fun hmatch => Nat.lt_of_lt_of_le (hn hmatch) hm, ho.of_cached (hf event hev _), hg'⟩

theorem Sound.quietly (h : e.Sound ok t) (hq : Quietly e e') : e'.Sound ok t :=
  h.of_find?_eq hq.minted fun _ _ _ => by rw [hq.events]

theorem Sound.tail (h : e.Sound ok t) {event : Event} {out : Outcome} (ho : t.outcome.events = event :: out.events) :
    e.Sound ok (t.left [] out) := by
  have hmem : ∀ ev ∈ out.events, ev ∈ t.outcome.events := fun ev hev => ho ▸ List.mem_cons_of_mem event hev
  have hord := h.ordered
  rw [ho] at hord
  exact ⟨fun ev hev => h.numbered ev (hmem ev hev), fun ev hev => h.next ev (hmem ev hev),
    (List.pairwise_cons.mp hord).2, fun _ hg => (nomatch hg), .nil⟩

/-- A look-up makes an event that may follow the earlier ones of the task and what is stored. -/
theorem Sound.looked (hallows : ∀ a b : Status, a.Allowed b → ok a b) (hl : e.Lawful ok) (h : e.Sound ok t)
    {f : Finding} {fs : List Finding} {out : Outcome} (hf : t.findings = f :: fs)
    (ho : out.events = t.outcome.events ++ f.events (e.cached t.rule) t.rule t.datasource t.now e.minted)
    (hm : e'.minted = e.minted + [f].countP Finding.isMatch) (hq : Quietly e e') : e'.Sound ok (t.left fs out) := by
  have hc := hl.coherent.liesAt_cached t.rule
  have hsteady := h.steady
  rw [hf] at hsteady
  obtain ⟨hhead, htail⟩ := List.pairwise_cons.mp hsteady
  have hmatch : f.isMatch = true → e.minted < e'.minted := fun hmatch => by
    rw [List.countP_cons_of_pos hmatch] at hm
    omega
  have hold := h.quietly hq
  have hmem : ∀ {event}, event ∈ out.events → event ∈ t.outcome.events ∨
      event ∈ f.events (e.cached t.rule) t.rule t.datasource t.now e.minted :=
    fun hev => List.mem_append.mp (ho ▸ hev)
  refine ⟨fun event hev => ?_, fun event hev old hstored => ?_, ?_, fun g hg event hev => ?_, htail⟩
  · rcases hmem hev with hev | hev
    · exact hold.numbered event hev
    · exact hl.numbered_of_mem_events hev hq.minted hmatch
  · rcases hmem hev with hev | hev
    · exact hold.next event hev old hstored
    · rw [hq.events, (Finding.liesAt_of_mem_events hc hev).1.1] at hstored
      exact (Finding.origin_of_mem_events hc hev).follows_cached hallows hstored (hl.numbered _ _ old hstored)
  · show out.events.Pairwise _
    rw [ho]
    refine List.pairwise_append.mpr ⟨h.ordered, Finding.pairwise_events, fun a ha b hb hab => ?_⟩
    -- Nobody else stores an event of this fingerprint, so both were made of the same record.
    obtain ⟨f₀, n, hn, horigin, hmatches⟩ := h.origin f (hf ▸ List.mem_cons_self) a ha
    refine horigin.follows hallows (Finding.origin_of_mem_events hc hb) hab hn fun hf₀ hfm => ?_
    rw [hmatches hf₀ (hab ▸ (Finding.liesAt_of_mem_events hc hb).2)] at hfm
    cases hfm
  · rcases hmem hev with hev | hev
    · exact hold.origin g (hf ▸ List.mem_cons_of_mem f hg) event hev
    · refine ⟨f, e.minted, hmatch, ?_, fun hfm hcon => ?_⟩
      · show f.Origin (e'.cached t.rule) t.rule t.now e.minted event
        rw [hq.cached]
        exact Finding.origin_of_mem_events hc hev
      · rcases (Finding.liesAt_of_mem_events hc hev).2 with ⟨o, rfl, hfp⟩ | ⟨v, rfl⟩
        · rcases hcon with ⟨o', rfl, -⟩ | ⟨v, rfl⟩
          · rfl
          · exact absurd (by rw [hfp]) (hhead _ hg o v rfl)
        · cases hfm

theorem Sound.stored (hl : e.Lawful ok) (h : e.Sound ok t) {event : Event} {out : Outcome}
    (ho : t.outcome.events = event :: out.events) :
    (e.counted.stored event).Lawful ok ∧ (e.counted.stored event).Sound ok (t.left [] out) := by
  have hmem : event ∈ t.outcome.events := ho ▸ List.mem_cons_self
  have hord := h.ordered
  rw [ho] at hord
  have htail := h.tail ho
  refine ⟨(hl.quiet (.counted e)).stored (h.numbered event hmem) (h.next event hmem), htail.numbered,
    fun ev hev old hold => ?_, htail.ordered, fun _ hg => (nomatch hg), .nil⟩
  simp only [Engine.stored, EventCache.find?_push] at hold
  split at hold
  · next hat =>
    cases hold
    exact (List.pairwise_cons.mp hord).1 ev hev hat.2.symm
  · exact htail.next ev hev old hold

/-- **A task stays sound by its own calls.** -/
theorem Sound.proceeds (hallows : ∀ a b : Status, a.Allowed b → ok a b) (hl : e.Lawful ok) (h : e.Sound ok t)
    (hp : Proceeds e t t' e') : e'.Lawful ok ∧ e'.Sound ok t' := by
  have hquiet : Quietly e e' → e'.Lawful ok := fun hq => hq (fun hq h => h.quiet hq) hl
  cases hp with
  | looked f fs out _ hf ho hm hq => exact ⟨hquiet hq, h.looked hallows hl hf ho hm hq⟩
  | failed _ hq =>
    exact ⟨hquiet hq, fun _ hev => (nomatch hev), fun _ hev => (nomatch hev), .nil, fun _ hg => (nomatch hg), .nil⟩
  | lost event out _ ho hq => exact ⟨hquiet hq, (h.tail ho).quietly hq⟩
  | stored event out ho => exact h.stored hl ho
  | idle => exact ⟨hl, h⟩

/-- **A task stays sound by the calls of a task without common fingerprints.** -/
theorem Sound.of_apart (h : e.Sound ok t) {u u' : AnswerTask} (hp : Proceeds e u u' e') (hu : u.Apart t) :
    e'.Sound ok t := by
  cases hp with
  | looked _ _ _ _ _ _ _ hq | failed _ hq | lost _ _ _ _ hq => exact h.quietly hq
  | stored event out ho =>
    refine h.of_find?_eq (Nat.le_refl _) fun ev hev key => ?_
    have hne : ev.fingerprint ≠ event.fingerprint := fun hfp =>
      hu event.fingerprint (.inr ⟨event, ho ▸ List.mem_cons_self, rfl⟩) (.inr ⟨ev, hev, hfp⟩)
    simp only [Engine.stored, EventCache.find?_push, hne, and_false, if_false]
    rfl
  | idle => exact h

end Sound

/-- Sound tasks, of which no two have a fingerprint in common. -/
structure SideBySide (ok : Status → Status → Prop) (e : Engine) (tasks : List AnswerTask) : Prop where
  lawful : e.Lawful ok
  sound : ∀ (i : Nat) t, tasks[i]? = some t → e.Sound ok t
  apart : ∀ (i j : Nat) t u, tasks[i]? = some t → tasks[j]? = some u → i ≠ j → t.Apart u

section SideBySide

variable {ok : Status → Status → Prop} {e : Engine} {tasks : List AnswerTask}

/-- **A call of a task leaves all tasks sound.** -/
theorem SideBySide.proceeds (hallows : ∀ a b : Status, a.Allowed b → ok a b) (h : e.SideBySide ok tasks) {i : Nat}
    {t t' : AnswerTask} {e' : Engine} (hi : tasks[i]? = some t) (hp : Proceeds e t t' e') :
    e'.SideBySide ok (tasks.set i t') := by
  obtain ⟨hl, hs⟩ := (h.sound i t hi).proceeds hallows h.lawful hp
  have htouch : ∀ {k}, t'.Touches k → t.Touches k := fun ht => hp.touches h.lawful.coherent ht
  have hset : ∀ {j u}, (tasks.set i t')[j]? = some u → i = j ∧ u = t' ∨ i ≠ j ∧ tasks[j]? = some u := by
    intro j u hu
    by_cases hij : i = j
    · subst hij
      rw [getElem?_set_of_getElem? hi] at hu
      exact .inl ⟨rfl, (Option.some.inj hu).symm⟩
    · rw [List.getElem?_set_ne hij] at hu
      exact .inr ⟨hij, hu⟩
  refine ⟨hl, fun j u hu => ?_, fun j k u v hu hv hjk => ?_⟩
  · rcases hset hu with ⟨-, rfl⟩ | ⟨hij, hu⟩
    · exact hs
    · exact (h.sound j u hu).of_apart hp (h.apart i j t u hi hu hij)
  · rcases hset hu with ⟨rfl, rfl⟩ | ⟨-, hu'⟩ <;> rcases hset hv with ⟨rfl, rfl⟩ | ⟨hik, hv'⟩
    · exact absurd rfl hjk
    · exact fun fp ht => h.apart i k t v hi hv' hik fp (htouch ht)
    · exact fun fp hufp ht => h.apart j i u t hu' hi hjk fp hufp (htouch ht)
    · exact h.apart j k u v hu' hv' hjk

/-- **A race of tasks without common fingerprints is in order.** -/
theorem SideBySide.race (hallows : ∀ a b : Status, a.Allowed b → ok a b) (order : List Nat) {e : Engine}
    {tasks : List AnswerTask} (h : e.SideBySide ok tasks) : (e.race tasks order).Lawful ok := by
  induction order generalizing e tasks with
  | nil => exact h.lawful
  | cons i order ih =>
    rw [Engine.race]
    split
    · exact ih h
    · next t hi => exact ih (h.proceeds hallows hi (e.proceeds t))

/-- Tasks that have not begun are sound if their findings are. -/
theorem Lawful.sideBySide (h : e.Lawful ok) (hnone : ∀ t ∈ tasks, t.outcome.events = [])
    (hsteady : ∀ t ∈ tasks, t.findings.Pairwise Finding.SafeBefore) (hapart : tasks.Pairwise AnswerTask.Apart) :
    e.SideBySide ok tasks := by
  refine ⟨h, fun i t hi => ?_, fun i j t u hi hj hij k ht hu => ?_⟩
  · have ht := List.mem_of_getElem? hi
    have hno : ∀ event, event ∉ t.outcome.events := fun event hev => by
      rw [hnone t ht] at hev
      cases hev
    refine ⟨fun ev hev => absurd hev (hno ev), fun ev hev => absurd hev (hno ev), ?_,
      fun _ _ ev hev => absurd hev (hno ev), hsteady t ht⟩
    rw [hnone t ht]
    exact .nil
  · obtain ⟨hi', rfl⟩ := List.getElem?_eq_some_iff.mp hi
    obtain ⟨hj', rfl⟩ := List.getElem?_eq_some_iff.mp hj
    have hpair := List.pairwise_iff_getElem.mp hapart
    rcases Nat.lt_or_gt_of_ne hij with hlt | hlt
    · exact hpair i j hi' hj' hlt k ht hu
    · exact hpair j i hj' hi' hlt k hu ht

end SideBySide

end Engine

/-! ## Runs -/

/-- The answers of metrics rules in a piece of work are steady, and those that are worked off side by side have no
fingerprint in common. -/
def Work.Steady : Work → Prop
  | dispatch rule readings => rule.query.family = .metrics → ∀ r ∈ readings, ∀ answer, r.reply = .ok answer →
      rule.Steady answer
  | race readings _ => (AnswerTask.ofReadings readings).Pairwise AnswerTask.Apart ∧ ∀ x ∈ readings,
      x.1.query.family = .metrics → ∀ answer, x.2.reply = .ok answer → x.1.Steady answer
  | recover .. => True

theorem Rule.steady_of_imp {rule : Rule} {answer : Answer} (h : rule.query.family = .metrics → rule.Steady answer) :
    rule.Steady answer := by
  by_cases hm : rule.query.family = .metrics
  · exact h hm
  · exact rule.steady_of_family_ne hm answer

namespace Engine

section Runs

variable {ok : Status → Status → Prop} (hallows : ∀ a b : Status, a.Allowed b → ok a b)
include hallows

theorem Lawful.after {e : Engine} (h : e.Lawful ok) (config : Config) (w : Work)
    (hsteady : ok .alerting .preAlert ∨ w.Steady) : (e.after config w).Lawful ok := by
  cases w with
  | dispatch rule readings =>
    exact Lawful.gather hallows rule e.time readings .empty 0 h (hsteady.imp_right fun hs r hr answer ha =>
      Rule.steady_of_imp fun hm => hs hm r hr answer ha)
  | race readings order =>
    have hnone : ∀ t ∈ AnswerTask.ofReadings readings, t.outcome.events = [] := fun t ht => by
      obtain ⟨-, -, -, -, rfl⟩ := AnswerTask.mem_ofReadings ht
      rfl
    rcases hsteady with hback | ⟨hapart, hs⟩
    · exact (h.racing hnone).race hallows hback order
    · refine (h.sideBySide hnone (fun t ht => ?_) hapart).race hallows order
      obtain ⟨x, hx, answer, ha, rfl⟩ := AnswerTask.mem_ofReadings ht
      exact Rule.steady_of_imp fun hm => hs x hx hm answer ha
  | recover scope current suppressed now =>
    exact reconcile_keeps config scope current suppressed now h.coherent (fun _ _ _ hd h => h.deal hallows hd) h

/-- **Every run is in order, unless a confirmation is undone.** -/
theorem Lawful.run (config : Config) (works : List Work) {e : Engine} (h : e.Lawful ok)
    (hsteady : ok .alerting .preAlert ∨ ∀ w ∈ works, w.Steady) : (e.run config works).Lawful ok := by
  induction works generalizing e with
  | nil => exact h
  | cons w works ih =>
    have hw : ok .alerting .preAlert ∨ w.Steady := hsteady.imp_right fun hs => hs w List.mem_cons_self
    exact ih (h.after hallows config w hw) (hsteady.imp_right fun hs x hx => hs x (List.mem_cons_of_mem w hx))

end Runs

theorem lawful_fresh (ok : Status → Status → Prop) (faults : Nat → Call → Bool) (infos : InfoCache) :
    (fresh faults infos).Lawful ok :=
  ⟨coherent_fresh faults infos, fun _ _ _ h => (nomatch h), fun _ h => (nomatch h)⟩

end Engine

end Alerting
