import Alerting.Proofs.Dispatch.Events
import Alerting.Proofs.Engine.Run

/-!
# Events in flight

Between the look-up of a record and the store of the event that was made of it, the event is in flight, and other tasks
may make their calls. One call of a task looks something up, stores an event in flight, or touches no cache
(`Proceeds`). A property of the engine and of the events in flight that these calls keep (`KeptBy`) is kept by the
datasources of a dispatch, worked off side by side in any order (`KeptBy.race`) or one after the other
(`KeptBy.dispatch`).
-/

namespace Alerting

namespace Engine

/-! ## One call of a task -/

/-- Some changes that touch no cache: what holds before and none of them breaks holds afterwards. -/
def Quietly (e e' : Engine) : Prop :=
  ∀ {P : Engine → Prop}, (∀ {e e' : Engine}, Quiet e e' → P e → P e') → P e → P e'

section Quietly

variable {e e' : Engine}

theorem Quietly.refl (e : Engine) : Quietly e e := fun _ h => h

theorem Quiet.quietly (h : Quiet e e') : Quietly e e' := fun keeps he => keeps h he

theorem Quietly.events (h : Quietly e e') : e'.events = e.events :=
  h (P := fun x => x.events = e.events) (fun hq hx => by cases hq <;> exact hx) rfl

theorem Quietly.pending (h : Quietly e e') : e'.pending = e.pending :=
  h (P := fun x => x.pending = e.pending) (fun hq hx => by cases hq <;> exact hx) rfl

theorem Quietly.infos (h : Quietly e e') : e'.infos = e.infos :=
  h (P := fun x => x.infos = e.infos) (fun hq hx => by cases hq <;> exact hx) rfl

theorem Quietly.writes (h : Quietly e e') : e'.writes = e.writes :=
  h (P := fun x => x.writes = e.writes) (fun hq hx => by cases hq <;> exact hx) rfl

theorem Quietly.minted (h : Quietly e e') : e.minted ≤ e'.minted :=
  h (P := fun x => e.minted ≤ x.minted) (fun hq hx => by cases hq <;> first | exact hx | exact Nat.le_succ_of_le hx)
    (Nat.le_refl _)

theorem Quietly.cached (h : Quietly e e') (rule : Rule) : e'.cached rule = e.cached rule := by
  unfold Engine.cached
  rw [h.events]

end Quietly

/-- What one call of a task comes to. -/
inductive Proceeds (e : Engine) (t : AnswerTask) : AnswerTask → Engine → Prop
  | looked (f : Finding) (fs : List Finding) (out : Outcome) (e' : Engine) : t.findings = f :: fs →
      out.events = t.outcome.events ++ f.events (e.cached t.rule) t.rule t.datasource t.now e.minted →
      e'.minted = e.minted + [f].countP Finding.isMatch → Quietly e e' → Proceeds e t (t.left fs out) e'
  | failed (e' : Engine) : Quietly e e' → Proceeds e t (t.left [] .empty) e'
  | lost (event : Event) (out : Outcome) (e' : Engine) : t.outcome.events = event :: out.events → Quietly e e' →
      Proceeds e t (t.left [] out) e'
  | stored (event : Event) (out : Outcome) : t.outcome.events = event :: out.events →
      Proceeds e t (t.left [] out) (e.counted.stored event)
  | idle : Proceeds e t t e

theorem proceeds (e : Engine) (t : AnswerTask) : Proceeds e t (e.proceed t).1 (e.proceed t).2 := by
  unfold proceed
  split
  · next f fs hf =>
    have hquiet : Quietly e (e.workOff t.rule t.datasource t.now t.outcome [f]).2 :=
      fun keeps h => workOff_keeps keeps t.rule t.datasource t.now [f] t.outcome h
    split
    · next error e' hr =>
      rw [hr] at hquiet
      exact .failed _ fun keeps h => keeps (.noted _ _) (hquiet keeps h)
    · next out e' hr =>
      rw [hr] at hquiet
      obtain ⟨ho, hm⟩ := workOff_spec [f] hr
      rw [eventsOf, eventsOf, List.append_nil] at ho
      exact .looked f fs out e' hf ho hm hquiet
  · next event events hf hev =>
    rw [store]
    rcases e.push_cases event with ⟨-, hp⟩ | ⟨-, hp⟩ <;> rw [hp]
    · exact .lost event _ _ hev fun keeps h => keeps (.noted _ _) (keeps (.counted e) h)
    · exact .stored event { t.outcome with events := events } hev
  · exact .idle

/-! ## What the calls of tasks keep -/

/-- Nothing is in flight. -/
def Landed (_ : Event) : Prop := False

/-- A property of the engine and of the events in flight that the calls for some answers keep. -/
structure KeptBy (tasks : List AnswerTask) (Q : Engine → (Event → Prop) → Prop) : Prop where
  quiet : ∀ {e e' : Engine} {flying flying' : Event → Prop}, Quietly e e' → (∀ a, flying' a → flying a) →
    Q e flying → Q e' flying'
  looked : ∀ t ∈ tasks, ∀ f ∈ t.findings, ∀ {e e' : Engine} {flying : Event → Prop}, Quietly e e' →
    e'.minted = e.minted + [f].countP Finding.isMatch → Q e flying →
    Q e' fun a => flying a ∨ a ∈ f.events (e.cached t.rule) t.rule t.datasource t.now e.minted
  stored : ∀ {e : Engine} {flying : Event → Prop} {a : Event}, flying a → Q e flying → Q (e.stored a) flying

end Engine

namespace AnswerTask

/-- What is left of one of some tasks. -/
def PartOf (t : AnswerTask) (tasks : List AnswerTask) : Prop :=
  ∃ t₀ ∈ tasks, t.rule = t₀.rule ∧ t.datasource = t₀.datasource ∧ t.now = t₀.now ∧ ∀ f ∈ t.findings, f ∈ t₀.findings

theorem mem_ofReadings {readings : List (Rule × Reading)} {t : AnswerTask} (h : t ∈ ofReadings readings) :
    ∃ x ∈ readings, ∃ answer, x.2.reply = .ok answer ∧ t = ofAnswer x.1 x.2.datasource x.2.asked answer := by
  obtain ⟨⟨rule, r⟩, hx, ht⟩ := List.mem_filterMap.mp h
  obtain ⟨answer, hr, rfl⟩ := Option.map_eq_some_iff.mp ht
  cases hreply : r.reply with
  | error failure => simp [hreply, Except.toOption] at hr
  | ok answer' =>
    obtain rfl : answer' = answer := by simpa [hreply, Except.toOption] using hr
    exact ⟨(rule, r), hx, answer', hreply, rfl⟩

/-- The tasks of a dispatch are those of the answers to its rule. -/
theorem mem_ofReadings_of_rule {rule : Rule} {readings : List Reading} {t : AnswerTask}
    (h : t ∈ ofReadings (readings.map fun r => (rule, r))) :
    ∃ r ∈ readings, ∃ answer, r.reply = .ok answer ∧ t = ofAnswer rule r.datasource r.asked answer := by
  obtain ⟨x, hx, answer, ha, rfl⟩ := mem_ofReadings h
  obtain ⟨r, hr, rfl⟩ := List.mem_map.mp hx
  exact ⟨r, hr, answer, ha, rfl⟩

/-- The task of every answer is one of the tasks. -/
theorem ofAnswer_mem {readings : List Reading} {rule : Rule} {r : Reading} {answer : Answer} (h : r ∈ readings)
    (ha : r.reply = .ok answer) :
    ofAnswer rule r.datasource r.asked answer ∈ ofReadings (readings.map fun r => (rule, r)) :=
  List.mem_filterMap.mpr ⟨(rule, r), List.mem_map_of_mem h, by simp [ha, Except.toOption]⟩

theorem ofReadings_tail {rule : Rule} {r : Reading} {readings : List Reading} {t : AnswerTask}
    (h : t ∈ ofReadings (readings.map fun r => (rule, r))) :
    t ∈ ofReadings ((r :: readings).map fun r => (rule, r)) := by
  rw [List.map_cons, ofReadings, List.filterMap_cons]
  split
  · exact h
  · exact List.mem_cons_of_mem _ h

/-- The events that tasks are about to store. -/
def InFlight (tasks : List AnswerTask) (a : Event) : Prop := ∃ t ∈ tasks, a ∈ t.outcome.events

section

variable {t : AnswerTask} {tasks tasks₀ : List AnswerTask} {out : Outcome} {i : Nat}

theorem partOf_self (h : t ∈ tasks) : t.PartOf tasks := ⟨t, h, rfl, rfl, rfl, fun _ hf => hf⟩

theorem PartOf.left (h : t.PartOf tasks) {fs : List Finding} (hfs : ∀ f ∈ fs, f ∈ t.findings) (out : Outcome) :
    (t.left fs out).PartOf tasks := by
  obtain ⟨t₀, ht₀, hr, hd, hn, hf⟩ := h
  exact ⟨t₀, ht₀, hr, hd, hn, fun f hm => hf f (hfs f hm)⟩

/-- The events in flight after a call are those of the task and the earlier ones. -/
theorem inFlight_set {t' : AnswerTask} {a : Event} (h : InFlight (tasks.set i t') a) :
    InFlight tasks a ∨ a ∈ t'.outcome.events := by
  obtain ⟨x, hx, ha⟩ := h
  rcases List.mem_or_eq_of_mem_set hx with hx | rfl
  · exact .inl ⟨x, hx, ha⟩
  · exact .inr ha

end

end AnswerTask

namespace Engine

open AnswerTask in
/-- **What the calls of tasks keep, they keep in any order.** -/
theorem KeptBy.race {tasks₀ : List AnswerTask} {Q : Engine → (Event → Prop) → Prop} (hQ : KeptBy tasks₀ Q)
    (order : List Nat) {e : Engine} {tasks : List AnswerTask} (hparts : ∀ t ∈ tasks, t.PartOf tasks₀)
    (h : Q e (InFlight tasks)) : Q (e.race tasks order) Landed := by
  induction order generalizing e tasks with
  | nil => exact hQ.quiet (Quietly.refl e) (fun _ hn => hn.elim) h
  | cons i order ih =>
    rw [Engine.race]
    split
    · exact ih hparts h
    · next t hi =>
      have ht : t ∈ tasks := List.mem_of_getElem? hi
      have hset : ∀ {t'}, t'.PartOf tasks₀ → ∀ x ∈ tasks.set i t', x.PartOf tasks₀ := fun ht' x hx => by
        rcases List.mem_or_eq_of_mem_set hx with hx | rfl
        · exact hparts x hx
        · exact ht'
      have hpart := hparts t ht
      cases hr : e.proceed t with
      | mk t' e' =>
        have hp := e.proceeds t
        rw [hr] at hp
        cases hp with
        | looked f fs out _ hf ho hm hq =>
          refine ih (hset (hpart.left (fun g hg => hf ▸ List.mem_cons_of_mem f hg) out)) ?_
          obtain ⟨t₀, ht₀, hrule, hdata, hnow, hfind⟩ := hpart
          have hlooked := hQ.looked t₀ ht₀ f (hfind f (hf ▸ List.mem_cons_self)) hq hm h
          rw [← hrule, ← hdata, ← hnow] at hlooked
          refine hQ.quiet (Quietly.refl _) (fun a ha => ?_) hlooked
          rcases inFlight_set ha with ha | ha
          · exact .inl ha
          · exact (List.mem_append.mp (ho ▸ ha : a ∈ t.outcome.events ++ _)).imp_left fun ha => ⟨t, ht, ha⟩
        | failed _ hq =>
          refine ih (hset (hpart.left (fun _ hg => absurd hg List.not_mem_nil) _)) (hQ.quiet hq (fun a ha => ?_) h)
          exact (inFlight_set ha).resolve_right (List.not_mem_nil)
        | lost event out _ ho hq =>
          refine ih (hset (hpart.left (fun _ hg => absurd hg List.not_mem_nil) _)) (hQ.quiet hq (fun a ha => ?_) h)
          exact (inFlight_set ha).elim id fun ha => ⟨t, ht, ho ▸ List.mem_cons_of_mem event ha⟩
        | stored event out ho =>
          refine ih (hset (hpart.left (fun _ hg => absurd hg List.not_mem_nil) _)) ?_
          have hevent : InFlight tasks event := ⟨t, ht, ho ▸ List.mem_cons_self⟩
          refine hQ.quiet (Quietly.refl _) (fun a ha => ?_) (hQ.stored hevent (hQ.quiet (Quiet.counted e).quietly
            (fun _ ha => ha) h))
          exact (inFlight_set ha).elim id fun ha => ⟨t, ht, ho ▸ List.mem_cons_of_mem event ha⟩
        | idle =>
          rw [set_of_getElem? hi]
          exact ih hparts h

/-- Tasks that have just begun have nothing in flight. -/
theorem KeptBy.race_of_begun {tasks : List AnswerTask} {Q : Engine → (Event → Prop) → Prop} (hQ : KeptBy tasks Q)
    (order : List Nat) {e : Engine} (hnew : ∀ t ∈ tasks, t.outcome = .empty) (h : Q e Landed) :
    Q (e.race tasks order) Landed := by
  refine hQ.race order (fun t ht => AnswerTask.partOf_self ht) (hQ.quiet (Quietly.refl e) (fun a ha => ?_) h)
  obtain ⟨t, ht, ha⟩ := ha
  rw [hnew t ht] at ha
  cases ha

/-- What the calls for an answer keep is kept when it is worked off alone. -/
theorem KeptBy.complete {rule : Rule} {datasource : String} {now : Instant} {reply : Except Failure Answer}
    {Q : Engine → (Event → Prop) → Prop}
    (hQ : ∀ answer, reply = .ok answer → KeptBy [.ofAnswer rule datasource now answer] Q) {e : Engine}
    (h : Q e Landed) : Q (e.complete rule datasource now reply).2 Landed := by
  rcases reply with (_ | _) | answer
  · exact h
  · exact h
  · have hQ := hQ answer rfl
    have hw : Quietly e (e.workOff rule datasource now .empty (rule.findings answer)).2 :=
      fun keeps h => workOff_keeps keeps rule datasource now _ .empty h
    let t := AnswerTask.ofAnswer rule datasource now answer
    obtain ⟨n, done, hrace⟩ := race_alone e (show [t][0]? = some t from rfl)
    have halone : Q (e.race [t] (List.replicate n 0 ++ [])) Landed :=
      hQ.race_of_begun _ (fun x hx => by rw [List.mem_singleton.mp hx]; rfl) h
    rw [hrace, Engine.race, dispatch_answer] at halone
    simp only [Engine.complete]
    cases hr : e.workOff rule datasource now .empty (rule.findings answer) with
    | mk result e₁ =>
      rw [hr] at hw halone
      cases result with
      | error error => exact hQ.quiet hw (fun _ ha => ha) h
      | ok out => exact halone

theorem KeptBy.mono {tasks tasks' : List AnswerTask} {Q : Engine → (Event → Prop) → Prop} (hQ : KeptBy tasks Q)
    (h : ∀ t ∈ tasks', t ∈ tasks) : KeptBy tasks' Q :=
  ⟨hQ.quiet, fun t ht => hQ.looked t (h t ht), hQ.stored⟩

/-- **What the calls for the answers of a dispatch keep, the dispatch keeps.** -/
theorem KeptBy.dispatch {rule : Rule} {readings : List Reading} {Q : Engine → (Event → Prop) → Prop}
    (hQ : KeptBy (AnswerTask.ofReadings (readings.map fun r => (rule, r))) Q) {e : Engine} (h : Q e Landed) :
    Q (e.dispatch rule readings).2 Landed := by
  have hquiet : ∀ {e e' : Engine}, Quiet e e' → Q e Landed → Q e' Landed :=
    fun hq h => hQ.quiet hq.quietly (fun _ ha => ha) h
  suffices hgather : ∀ (start : Nat) (g : Gathering) (last : Nat) (e : Engine), Q e Landed →
      Q (gather rule start e g last readings).2 Landed from hgather e.time .empty 0 e h
  intro start g last e h
  induction readings generalizing g last e with
  | nil => exact h
  | cons r readings ih =>
    rw [gather]
    split
    · exact h
    · refine ih (hQ.mono fun t ht => AnswerTask.ofReadings_tail ht) _ _ _
        (add_keeps (P := fun e => Q e Landed) hquiet g _ _ _ ?_)
      refine KeptBy.complete (fun answer ha => hQ.mono fun t ht => ?_) (hquiet (.waited e _) h)
      rw [List.mem_singleton.mp ht]
      exact AnswerTask.ofAnswer_mem List.mem_cons_self ha

end Engine

/-! ## Pieces of work -/

/-- The tasks of the answers in a piece of work. -/
def Work.tasks : Work → List AnswerTask
  | dispatch rule readings => AnswerTask.ofReadings (readings.map fun r => (rule, r))
  | race readings _ => AnswerTask.ofReadings readings
  | recover .. => []

namespace Engine

/-- **What the calls for answers and the changes of a pass keep, a piece of work keeps.** -/
theorem KeptBy.after {w : Work} {Q : Engine → (Event → Prop) → Prop} (hQ : KeptBy w.tasks Q) (config : Config)
    {e : Engine} (hc : e.Coherent)
    (turns : ∀ scope current suppressed now, w = .recover scope current suppressed now → ∀ fingerprint {e₁ e₂ : Engine},
      Turn config scope now (e.infos.get? scope.infoKey) (e.cell scope fingerprint) fingerprint e₁ e₂ →
      Q e₁ Landed → Q e₂ Landed)
    (h : Q e Landed) : Q (e.after config w) Landed := by
  cases w with
  | dispatch rule readings => exact hQ.dispatch h
  | race readings order =>
    refine hQ.race_of_begun order (fun t ht => ?_) h
    obtain ⟨x, -, answer, -, rfl⟩ := AnswerTask.mem_ofReadings ht
    rfl
  | recover scope current suppressed now =>
    exact reconcile_keeps_turns config scope current suppressed now hc (P := fun e => Q e Landed)
      (turns scope current suppressed now rfl) h

/-! ## New writes -/

/-- Every write after those of the past has a property, given the earlier writes. -/
def NewWrites (e : Engine) (past : List (Nat × Write)) (ok : List (Nat × Write) → Write → Prop) : Prop :=
  ∀ l₁ x l₂, e.writes = l₁ ++ x :: l₂ → past <:+ l₂ → ok l₂ x.2

section NewWrites

variable {e e' : Engine} {past : List (Nat × Write)} {ok ok' : List (Nat × Write) → Write → Prop}

theorem newWrites_self (e : Engine) (ok : List (Nat × Write) → Write → Prop) : e.NewWrites e.writes ok := by
  intro l₁ x l₂ hw hpast
  have hlen := hpast.length_le
  rw [hw, List.length_append, List.length_cons] at hlen
  omega

theorem NewWrites.of_writes (h : e.NewWrites past ok) (hw : e'.writes = e.writes) : e'.NewWrites past ok := by
  unfold NewWrites
  rwa [hw]

theorem NewWrites.mono (h : e.NewWrites past ok) (himp : ∀ earlier x, ok earlier x → ok' earlier x) :
    e.NewWrites past ok' := fun l₁ x l₂ hw hpast => himp l₂ x.2 (h l₁ x l₂ hw hpast)

/-- The write of a store comes after all others. -/
theorem NewWrites.stored (h : e.NewWrites past ok) {a : Event}
    (ha : ok e.writes ⟨e.events.find? (EventCache.keyOf a) a.fingerprint, a⟩) : (e.stored a).NewWrites past ok := by
  intro l₁ x l₂ hw hpast
  cases l₁ with
  | nil =>
    obtain ⟨rfl, rfl⟩ := List.cons.inj hw
    exact ha
  | cons y l₁ => exact h l₁ x l₂ (List.cons.inj hw).2 hpast

end NewWrites

/-! ## What holds of every event -/

/-- An event is stored, or it is in flight. -/
def Knows (e : Engine) (flying : Event → Prop) (event : Event) : Prop :=
  e.events.find? (EventCache.keyOf event) event.fingerprint = some event ∨ flying event

section Knows

variable {e e' : Engine} {flying flying' : Event → Prop} {a b : Event}

theorem Coherent.knows (h : e.Coherent) {key fingerprint : String}
    (hf : e.events.find? key fingerprint = some a) (flying : Event → Prop) : e.Knows flying a := by
  obtain ⟨rfl, rfl⟩ := h key fingerprint a hf
  exact .inl hf

theorem Knows.stored_of_landed (h : e.Knows Landed a) :
    e.events.find? (EventCache.keyOf a) a.fingerprint = some a := h.resolve_right id

theorem Knows.of_quietly (hq : Quietly e e') (hf : flying' a → e.Knows flying a) (h : e'.Knows flying' a) :
    e.Knows flying a :=
  h.elim (fun h => .inl (hq.events ▸ h)) hf

/-- Only what is known can be known after a store. -/
theorem Knows.of_stored (h : (e.stored a).Knows flying b) : b = a ∨ e.Knows flying b := by
  rcases h with h | h
  · simp only [Engine.stored, EventCache.find?_push] at h
    split at h
    · exact .inl (Option.some.inj h).symm
    · exact .inr (.inl h)
  · exact .inr (.inr h)

/-- Only what is known can be known after a removal. -/
theorem Knows.of_removed {tenant center fingerprint : String}
    (h : (e.removed tenant center fingerprint).Knows flying a) : e.Knows flying a := by
  refine h.imp_left fun h => ?_
  simp only [removed, EventCache.find?_remove] at h
  split at h
  · cases h
  · exact h

end Knows

/-- A property of the engine, and one of every event that is stored or in flight, that the calls for some answers
keep. -/
structure Pointwise (tasks : List AnswerTask) (inv : Engine → Prop) (p : Engine → Event → Prop) : Prop where
  quiet : ∀ {e e' : Engine}, Quietly e e' → inv e → inv e' ∧ ∀ {a}, p e a → p e' a
  looked : ∀ t ∈ tasks, ∀ f ∈ t.findings, ∀ {e e' : Engine} {a : Event}, Quietly e e' →
    e'.minted = e.minted + [f].countP Finding.isMatch → inv e → (∀ c, e.Knows Landed c → p e c) →
    a ∈ f.events (e.cached t.rule) t.rule t.datasource t.now e.minted → p e' a
  stored : ∀ {e : Engine} {a : Event}, inv e → p e a → inv (e.stored a) ∧ ∀ {b}, p e b → p (e.stored a) b

/-- What holds of every event is kept. -/
theorem Pointwise.keptBy {tasks : List AnswerTask} {inv : Engine → Prop} {p : Engine → Event → Prop}
    (h : Pointwise tasks inv p) : KeptBy tasks fun e flying => inv e ∧ ∀ a, e.Knows flying a → p e a := by
  refine ⟨?quiet, ?looked, ?stored⟩
  case quiet =>
    rintro e e' flying flying' hq hsub ⟨hi, hp⟩
    obtain ⟨hi', hq'⟩ := h.quiet hq hi
    refine ⟨hi', ?_⟩
    intro a ha
    exact hq' (hp a (ha.of_quietly hq fun ha => .inr (hsub a ha)))
  case looked =>
    rintro t ht f hf e e' flying hq hm ⟨hi, hp⟩
    obtain ⟨hi', hq'⟩ := h.quiet hq hi
    refine ⟨hi', ?_⟩
    rintro a (ha | ha | ha)
    · exact hq' (hp a (.inl (hq.events ▸ ha)))
    · exact hq' (hp a (.inr ha))
    · exact h.looked t ht f hf hq hm hi (fun c hc => hp c (.inl hc.stored_of_landed)) ha
  case stored =>
    rintro e flying a hfly ⟨hi, hp⟩
    obtain ⟨hi', hs⟩ := h.stored hi (hp a (.inr hfly))
    refine ⟨hi', ?_⟩
    intro b hb
    apply hs
    rcases hb.of_stored with rfl | hb
    · exact hp b (.inr hfly)
    · exact hp b hb

end Engine

end Alerting
