import Alerting.Proofs.Dispatch.Flight

/-!
# Generations of alerts

A new id is given to every match, and an event either has the id of the stored record that it was made of or a new one.
So what every event takes over from that record is the same for all events that were ever met under one id
(`Engine.Agrees`), in any run (`Agrees.run`). The first record of an id is the one that began the generation
(`Engine.firstRecord`).
-/

namespace Alerting

namespace Engine

/-! ## Events that were met -/

/-- An event was stored at some time, or it is in flight. -/
def Met (e : Engine) (flying : Event → Prop) (a : Event) : Prop := (∃ x ∈ e.writes, x.2.event = a) ∨ flying a

section Met

variable {e e' : Engine} {flying flying' : Event → Prop} {a b : Event}

theorem Met.of_landed (h : e.Met Landed a) (flying : Event → Prop) : e.Met flying a := h.imp_right fun hn => hn.elim

theorem Met.of_quietly (hq : Quietly e e') (hf : flying' a → e.Met flying a) (h : e'.Met flying' a) :
    e.Met flying a := by
  rcases h with h | h
  · rw [hq.writes] at h
    exact .inl h
  · exact hf h

theorem met_stored (e : Engine) (a : Event) : (e.stored a).Met Landed a := .inl ⟨_, List.mem_cons_self, rfl⟩

theorem Met.after_stored (h : e.Met flying b) (a : Event) : (e.stored a).Met flying b :=
  h.imp_left fun ⟨x, hx, hb⟩ => ⟨x, List.mem_cons_of_mem _ hx, hb⟩

/-- Only what was met can be met after a store. -/
theorem Met.of_stored (h : (e.stored a).Met flying b) : b = a ∨ e.Met flying b := by
  rcases h with ⟨x, hx, rfl⟩ | h
  · rcases List.mem_cons.mp hx with rfl | hx
    · exact .inl rfl
    · exact .inr (.inl ⟨x, hx, rfl⟩)
  · exact .inr (.inr h)

end Met

/-! ## First records -/

/-- The first event that was stored under an id. -/
def firstRecord (e : Engine) (id : String) : Option Event :=
  (e.writes.reverse.find? (·.2.event.id = id)).map (·.2.event)

section FirstRecord

variable {e e' : Engine} {a : Event} {id : String}

/-- A store comes after all other records of its id. -/
theorem firstRecord_stored (e : Engine) (a : Event) (id : String) :
    (e.stored a).firstRecord id = (e.firstRecord id).or (if a.id = id then some a else none) := by
  have hwrites : (e.stored a).writes.reverse =
      e.writes.reverse ++ [(e.time, ⟨e.events.find? (EventCache.keyOf a) a.fingerprint, a⟩)] := List.reverse_cons
  rw [firstRecord, firstRecord, hwrites, List.find?_append]
  cases e.writes.reverse.find? (·.2.event.id = id) with
  | some x => rfl
  | none =>
    by_cases hid : a.id = id <;> simp [hid]

theorem firstRecord_of_quietly (hq : Quietly e e') (id : String) : e'.firstRecord id = e.firstRecord id := by
  rw [firstRecord, firstRecord, hq.writes]

theorem met_of_firstRecord (h : e.firstRecord id = some a) : e.Met Landed a ∧ a.id = id := by
  obtain ⟨x, hx, rfl⟩ := Option.map_eq_some_iff.mp h
  exact ⟨.inl ⟨x, List.mem_reverse.mp (List.mem_of_find?_eq_some hx), rfl⟩, by simpa using List.find?_some hx⟩

theorem exists_firstRecord (h : e.Met Landed a) : ∃ first, e.firstRecord a.id = some first := by
  obtain ⟨x, hx, rfl⟩ := h.resolve_right id
  cases hf : e.firstRecord x.2.event.id with
  | some first => exact ⟨first, rfl⟩
  | none =>
    have hnone := List.find?_eq_none.mp (Option.map_eq_none_iff.mp hf) x (List.mem_reverse.mpr hx)
    exact absurd (decide_eq_true rfl) hnone

end FirstRecord

/-! ## What the events of a generation have in common -/

/-- All events that were ever met are sound, and what is read off them is the same for those with one id. -/
structure Agrees {β : Type} (read : Event → β) (sound : Event → Prop) (e : Engine) (flying : Event → Prop) : Prop where
  coherent : e.Coherent
  stored : ∀ key fingerprint a, e.events.find? key fingerprint = some a → e.Met Landed a
  numbered : ∀ a, e.Met flying a → ∃ n, n < e.minted ∧ a.id = mintedId n
  sound : ∀ a, e.Met flying a → sound a
  agree : ∀ a b, e.Met flying a → e.Met flying b → a.id = b.id → read a = read b

/-- An event of a finding is sound, and it takes its id over from a stored record together with what is read off it, or
it has a new id. -/
def TakesOver {β : Type} (read : Event → β) (sound : Event → Prop) (cached : String → Option Event) (f : Finding) (n : Nat)
    (a : Event) : Prop :=
  sound a ∧ ((∃ k c, cached k = some c ∧ a.id = c.id ∧ read a = read c) ∨ f.isMatch = true ∧ a.id = mintedId n)

section Agrees

variable {β : Type} {read : Event → β} {sound : Event → Prop} {tasks : List AnswerTask} {e e' : Engine}
  {flying flying' : Event → Prop} {a b : Event}

theorem Agrees.quietly (h : e.Agrees read sound flying) (hq : Quietly e e') (hf : ∀ a, flying' a → flying a) :
    e'.Agrees read sound flying' := by
  have hmet : ∀ {a}, e'.Met flying' a → e.Met flying a := fun ha => ha.of_quietly hq fun ha => .inr (hf _ ha)
  refine ⟨hq (fun hq h => h.quiet hq) h.coherent, fun key fingerprint a ha => ?_, fun a ha => ?_,
    fun a ha => h.sound a (hmet ha), fun a b ha hb => h.agree a b (hmet ha) (hmet hb)⟩
  · rw [hq.events] at ha
    rw [Met, hq.writes]
    exact h.stored key fingerprint a ha
  · obtain ⟨n, hn, hid⟩ := h.numbered a (hmet ha)
    exact ⟨n, Nat.lt_of_lt_of_le hn hq.minted, hid⟩

/-- An event that is stored agrees with those of its id, if it does with one that was met before. -/
theorem Agrees.stored_of_met (h : e.Agrees read sound flying) (ha : sound a) (hb : e.Met flying b)
    (hid : b.id = a.id) (hread : read b = read a) : (e.stored a).Agrees read sound flying := by
  have hsame : ∀ {c}, (e.stored a).Met flying c → ∃ d, e.Met flying d ∧ d.id = c.id ∧ read d = read c := by
    intro c hc
    rcases hc.of_stored with rfl | hc
    · exact ⟨b, hb, hid, hread⟩
    · exact ⟨c, hc, rfl, rfl⟩
  refine ⟨h.coherent.stored a, fun key fingerprint c hc => ?_, fun c hc => ?_, fun c hc => ?_, fun c d hc hd hcd => ?_⟩
  · simp only [Engine.stored, EventCache.find?_push] at hc
    split at hc
    · obtain rfl := Option.some.inj hc
      exact met_stored e _
    · exact (h.stored key fingerprint c hc).after_stored a
  · obtain ⟨d, hd, hdid, -⟩ := hsame hc
    obtain ⟨n, hn, hid⟩ := h.numbered d hd
    exact ⟨n, hn, hdid.symm.trans hid⟩
  · rcases hc.of_stored with rfl | hc
    · exact ha
    · exact h.sound c hc
  · obtain ⟨c', hc', hcid, hcr⟩ := hsame hc
    obtain ⟨d', hd', hdid, hdr⟩ := hsame hd
    exact hcr.symm.trans ((h.agree c' d' hc' hd' (hcid.trans (hcd.trans hdid.symm))).trans hdr)

/-- The stored records were met before. -/
theorem Agrees.met_cached (h : e.Agrees read sound flying) (rule : Rule) (k : String) (c : Event)
    (hc : e.cached rule k = some c) : e.Met flying c := (h.stored _ k c hc).of_landed flying

/-- An event of a finding agrees with all that were met before. -/
theorem Agrees.looked (h : e.Agrees read sound flying) (t : AnswerTask) (f : Finding)
    (hnew : ∀ a ∈ f.events (e.cached t.rule) t.rule t.datasource t.now e.minted,
      TakesOver read sound (e.cached t.rule) f e.minted a)
    (hq : Quietly e e') (hm : e'.minted = e.minted + [f].countP Finding.isMatch) :
    e'.Agrees read sound fun a => flying a ∨ a ∈ f.events (e.cached t.rule) t.rule t.datasource t.now e.minted := by
  have hsplit : ∀ {a}, e'.Met (fun a => flying a ∨
      a ∈ f.events (e.cached t.rule) t.rule t.datasource t.now e.minted) a → e.Met flying a ∨
      a ∈ f.events (e.cached t.rule) t.rule t.datasource t.now e.minted := by
    rintro a (ha | ha | ha)
    · exact .inl (.inl (hq.writes ▸ ha))
    · exact .inl (.inr ha)
    · exact .inr ha
  have hagree : ∀ {a b}, a ∈ f.events (e.cached t.rule) t.rule t.datasource t.now e.minted → e.Met flying b →
      a.id = b.id → read a = read b := by
    intro a b ha hb hid
    rcases (hnew a ha).2 with ⟨k, c, hc, hida, hread⟩ | ⟨-, hida⟩
    · exact hread.trans (h.agree c b (h.met_cached t.rule k c hc) hb (hida.symm.trans hid))
    -- the new id is none of those that were given out before
    · obtain ⟨n, hn, hidb⟩ := h.numbered b hb
      exact absurd (mintedId_inj (hida.symm.trans (hid.trans hidb))) (Nat.ne_of_gt hn)
  refine ⟨hq (fun hq h => h.quiet hq) h.coherent, fun key k a ha => ?_, fun a ha => ?_, fun a ha => ?_,
    fun a b ha hb hid => ?_⟩
  · rw [hq.events] at ha
    rw [Met, hq.writes]
    exact h.stored key k a ha
  · have hle : e.minted ≤ e'.minted := hq.minted
    rcases hsplit ha with ha | ha
    · obtain ⟨n, hn, hid⟩ := h.numbered a ha
      exact ⟨n, Nat.lt_of_lt_of_le hn hle, hid⟩
    · rcases (hnew a ha).2 with ⟨k, c, hc, hida, -⟩ | ⟨hmatch, hida⟩
      · obtain ⟨n, hn, hid⟩ := h.numbered c (h.met_cached t.rule k c hc)
        exact ⟨n, Nat.lt_of_lt_of_le hn hle, hida.trans hid⟩
      · rw [List.countP_cons_of_pos hmatch] at hm
        exact ⟨e.minted, by omega, hida⟩
  · rcases hsplit ha with ha | ha
    · exact h.sound a ha
    · exact (hnew a ha).1
  · rcases hsplit ha with ha | ha <;> rcases hsplit hb with hb | hb
    · exact h.agree a b ha hb hid
    · exact (hagree hb ha hid.symm).symm
    · exact hagree ha hb hid
    · rw [Finding.eq_of_mem_events ha hb]

/-- An event in flight agrees when it is stored. -/
theorem Agrees.stored_of_flying (h : e.Agrees read sound flying) (ha : flying a) :
    (e.stored a).Agrees read sound flying := h.stored_of_met (h.sound a (.inr ha)) (.inr ha) rfl rfl

/-- The changes of a pass keep what the events agree in, if a move does. -/
theorem Agrees.deal {scope : Scope} {fingerprint : String} (h : e.Agrees read sound Landed)
    (hmoved : ∀ {old : Event} {target : Status} (time : Instant), sound old → old.status.allows target = true →
      sound (old.moved target time) ∧ read old = read (old.moved target time))
    (hd : Deal scope fingerprint e e') : e'.Agrees read sound Landed := by
  cases hd with
  | quiet hq => exact h.quietly hq.quietly fun _ ha => ha
  | moved old target time hf hl ha =>
    have hold : e.Met Landed old := h.stored _ _ old hf
    obtain ⟨hs, hread⟩ := hmoved time (h.sound old hold) ha
    exact h.stored_of_met hs hold rfl hread
  | removed tenant center _ =>
    refine ⟨h.coherent.removed tenant center fingerprint, fun key k a ha => ?_, h.numbered, h.sound, h.agree⟩
    simp only [removed, EventCache.find?_remove] at ha
    split at ha
    · cases ha
    · exact h.stored key k a ha
  | missed | found => exact ⟨h.coherent, h.stored, h.numbered, h.sound, h.agree⟩

variable (read sound) in
theorem agrees_fresh (faults : Nat → Call → Bool) (infos : InfoCache) :
    (fresh faults infos).Agrees read sound Landed := by
  have hno : ∀ a, ¬(fresh faults infos).Met Landed a := fun a ha => ha.elim (fun ⟨_, hx, _⟩ => nomatch hx) id
  exact ⟨coherent_fresh faults infos, fun _ _ _ ha => (nomatch ha), fun a ha => absurd ha (hno a),
    fun a ha => absurd ha (hno a), fun a _ ha => absurd ha (hno a)⟩

end Agrees

end Engine

end Alerting
