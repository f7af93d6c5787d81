import Alerting.Proofs.Dispatch.Events
import Alerting.Proofs.Dispatch.Findings
import Alerting.Proofs.Engine.Run

/-!
# The states that an alert goes through

A write of an event over one of the same generation should be a move that the states allow. Recovery passes only make
allowed moves (`Lawful.deal`). A dispatch stores events that were made of the records as they stood before, and one of
them undoes a confirmation: when a match has confirmed an alert, and an expression of the same fingerprint that does not
match comes after it, the unconfirmed record is stored again, with its new value (`Finding.UndoneBy`). Nothing else goes
wrong when the answers are worked off one after the other (`Lawful.gather`).
-/

namespace Alerting

/-- The states allow a move. -/
def Status.Allowed (a b : Status) : Prop := a.allows b = true

instance (a b : Status) : Decidable (a.Allowed b) := inferInstanceAs (Decidable (_ = true))

/-- An event of the same generation comes after another one only in a state that the relation has. -/
def Event.FollowedBy (old new : Event) (ok : Status → Status → Prop) : Prop :=
  old.id = new.id → ok old.status new.status

/-- The event of a write may follow the one that it replaced. -/
def Write.Follows (w : Write) (ok : Status → Status → Prop) : Prop :=
  ∀ old ∈ w.replaced, old.FollowedBy w.event ok

section Decidable

variable (ok : Status → Status → Prop) [∀ a b, Decidable (ok a b)]

instance (old new : Event) : Decidable (old.FollowedBy new ok) :=
  inferInstanceAs (Decidable (old.id = new.id → ok old.status new.status))

instance (w : Write) : Decidable (w.Follows ok) :=
  inferInstanceAs (Decidable (∀ old ∈ w.replaced, old.FollowedBy w.event ok))

end Decidable

/-- The match `f` confirms the record of its fingerprint, and `g`, which does not match, stores it again as it was. -/
def Finding.UndoneBy (cached : String → Option Event) (rule : Rule) (now : Instant) (f g : Finding) : Prop :=
  ∃ o v c, f = .matched o ∧ g = .unmatched o.fingerprint v ∧ cached o.fingerprint = some c ∧ c.isDue rule now = true

/-- The first finding is no match, or the second one is of another fingerprint or a match too. -/
def Finding.SafeBefore (f g : Finding) : Prop := ∀ o v, f = .matched o → g ≠ .unmatched o.fingerprint v

/-- No match comes before a finding of its fingerprint that does not match. -/
def Rule.Steady (rule : Rule) (answer : Answer) : Prop := (rule.findings answer).Pairwise Finding.SafeBefore

/-- Only metrics rules have findings that do not match and store something. -/
theorem Rule.steady_of_family_ne {rule : Rule} (h : rule.query.family ≠ .metrics) (answer : Answer) :
    rule.Steady answer :=
  List.pairwise_of_forall_mem_list fun _ _ _ hg o v _ hgv =>
    rule.unmatched_not_mem h answer o.fingerprint v (hgv ▸ hg)

namespace Engine

/-- Events stand where they belong, their ids were given out, and all writes are in order. -/
structure Lawful (ok : Status → Status → Prop) (e : Engine) : Prop where
  coherent : e.Coherent
  numbered : ∀ key fingerprint event, e.events.find? key fingerprint = some event →
    ∃ n, n < e.minted ∧ event.id = mintedId n
  writes : ∀ w ∈ e.writes, w.2.Follows ok

/-! ## Single changes -/

section Changes

variable {ok : Status → Status → Prop} {e : Engine}

theorem Lawful.quiet {e' : Engine} (hq : Quiet e e') (h : e.Lawful ok) : e'.Lawful ok := by
  cases hq with
  | counted | noted | waited => exact ⟨h.coherent, h.numbered, h.writes⟩
  | minted =>
    refine ⟨h.coherent, fun key fingerprint event hf => ?_, h.writes⟩
    obtain ⟨n, hn, hid⟩ := h.numbered key fingerprint event hf
    exact ⟨n, Nat.lt_succ_of_lt hn, hid⟩

/-- The id of an event of a finding was given out before or is a new one. -/
theorem Lawful.numbered_of_mem_events (h : e.Lawful ok) {f : Finding} {rule : Rule} {datasource : String}
    {now : Instant} {event : Event} {m N : Nat} (hev : event ∈ f.events (e.cached rule) rule datasource now m)
    (hN : e.minted ≤ N) (hm : f.isMatch = true → m < N) : ∃ n, n < N ∧ event.id = mintedId n := by
  refine Finding.numbered_of_mem_events (h.coherent.liesAt_cached rule) (fun k c hcached => ?_) hev hm
  obtain ⟨n, hn, hid⟩ := h.numbered _ _ c hcached
  exact ⟨n, Nat.lt_of_lt_of_le hn hN, hid⟩

/-- A store of an event that may follow what stands in its place is in order. -/
theorem Lawful.stored (h : e.Lawful ok) {event : Event} (hid : ∃ n, n < e.minted ∧ event.id = mintedId n)
    (hf : ∀ old, e.events.find? (EventCache.keyOf event) event.fingerprint = some old → old.FollowedBy event ok) :
    (e.stored event).Lawful ok := by
  refine ⟨h.coherent.stored event, fun key fingerprint ev hev => ?_, fun w hw => ?_⟩
  · simp only [Engine.stored, EventCache.find?_push] at hev
    split at hev
    · cases hev
      exact hid
    · exact h.numbered key fingerprint ev hev
  · rcases List.mem_cons.mp hw with rfl | hw
    · exact hf
    · exact h.writes w hw

variable (hallows : ∀ a b : Status, a.Allowed b → ok a b)
include hallows

theorem Lawful.deal {scope : Scope} {fingerprint : String} {e' : Engine} (hd : Deal scope fingerprint e e')
    (h : e.Lawful ok) : e'.Lawful ok := by
  cases hd with
  | quiet hq => exact h.quiet hq
  | moved old target time hf hl ha =>
    have hid : ∃ n, n < e.minted ∧ (old.moved target time).id = mintedId n := h.numbered _ _ old hf
    refine h.stored hid fun old' hf' _ => ?_
    have hf'' : e.events.find? (EventCache.keyOf old) old.fingerprint = some old' := hf'
    rw [hl.1, hl.2, hf] at hf''
    cases hf''
    exact hallows _ _ ha
  | removed tenant center hk =>
    refine ⟨h.coherent.removed tenant center fingerprint, fun key k event hev => ?_, h.writes⟩
    simp only [Engine.removed, EventCache.find?_remove] at hev
    split at hev
    · cases hev
    · exact h.numbered key k event hev
  | missed | found => exact ⟨h.coherent, h.numbered, h.writes⟩

end Changes

/-! ## The stores of an answer -/

section Stores

variable {ok : Status → Status → Prop}

/-- Stores are in order when every event may follow what stood in its place and the earlier ones. -/
theorem Lawful.store (rule : String) (events : List Event) {e : Engine} (h : e.Lawful ok)
    (hid : ∀ event ∈ events, ∃ n, n < e.minted ∧ event.id = mintedId n)
    (hstart : ∀ event ∈ events, ∀ old, e.events.find? (EventCache.keyOf event) event.fingerprint = some old →
      old.FollowedBy event ok)
    (hpair : events.Pairwise fun a b => a.fingerprint = b.fingerprint → a.FollowedBy b ok) :
    (store rule e events).2.Lawful ok := by
  induction hpair generalizing e with
  | nil => exact h
  | @cons event events hhead _ ih =>
    have hc : e.counted.Lawful ok := h.quiet (.counted e)
    have hid' : ∀ ev ∈ events, ∃ n, n < e.minted ∧ ev.id = mintedId n :=
      fun ev hev => hid ev (List.mem_cons_of_mem _ hev)
    rw [Engine.store]
    rcases e.push_cases event with ⟨-, hp⟩ | ⟨-, hp⟩ <;> rw [hp]
    · exact ih (hc.quiet (.noted _ _)) hid' fun ev hev => hstart ev (List.mem_cons_of_mem _ hev)
    · refine ih (hc.stored (hid event List.mem_cons_self) (hstart event List.mem_cons_self)) hid'
        fun ev hev old hold => ?_
      simp only [Engine.stored, EventCache.find?_push] at hold
      split at hold
      · next hat =>
        cases hold
        exact hhead ev hev hat.2.symm
      · exact hstart ev (List.mem_cons_of_mem _ hev) old hold

end Stores

end Engine

/-! ## The events of an answer -/

section Answer

variable {cached : String → Option Event} {rule : Rule} {datasource : String} {now : Instant}
  {ok : Status → Status → Prop}

variable (hallows : ∀ a b : Status, a.Allowed b → ok a b)
include hallows

theorem Finding.Origin.follows_cached {f : Finding} {event c : Event} {n : Nat}
    (h : f.Origin cached rule now n event) (hc : cached event.fingerprint = some c)
    (hid : ∃ m, m < n ∧ c.id = Engine.mintedId m) : c.FollowedBy event ok := by
  intro he
  cases h with
  | continued c' hc' _ _ hs =>
    obtain rfl : c' = c := Option.some.inj (hc'.symm.trans hc)
    rw [hs]
    split
    · next hd =>
      rw [Event.status_of_isDue (Bool.and_eq_true_iff.mp hd).2]
      exact hallows _ _ rfl
    · exact hallows _ _ (Status.allows_self _)
  | started _ hn _ _ =>
    obtain ⟨m, hlt, hm⟩ := hid
    rw [hm, hn] at he
    exact absurd (Engine.mintedId_inj he) (Nat.ne_of_lt hlt)

/-- An event of an answer may follow an earlier one of its fingerprint, unless it undoes a confirmation. -/
theorem Finding.Origin.follows {f g : Finding} {a b : Event} {m n : Nat} (ha : f.Origin cached rule now m a)
    (hb : g.Origin cached rule now n b) (hf : a.fingerprint = b.fingerprint) (hmn : f.isMatch = true → m < n)
    (hundo : f.isMatch = true → g.isMatch = false → ∀ c, cached b.fingerprint = some c → c.isDue rule now = true →
      ok .alerting .preAlert) : a.FollowedBy b ok := by
  intro he
  cases ha with
  | continued c hc ht _ hs =>
    rw [hf] at hc
    cases hb with
    | continued c' hc' _ _ hs' =>
      obtain rfl : c = c' := Option.some.inj (hc.symm.trans hc')
      rw [hs, hs']
      cases hd : c.isDue rule now with
      | false =>
        simp only [Bool.and_false, Bool.false_eq_true, if_false]
        exact hallows _ _ (Status.allows_self _)
      | true =>
        have hp := Event.status_of_isDue hd
        cases hfm : f.isMatch <;> cases hgm : g.isMatch <;>
          simp only [hp, Bool.and_true, Bool.false_eq_true, if_true, if_false]
        · exact hallows _ _ rfl
        · exact hallows _ _ rfl
        · exact hundo hfm hgm c hc hd
        · exact hallows _ _ rfl
    | started _ _ _ hnew =>
      rw [hnew c hc] at ht
      cases ht
  | started hm hi _ hnew =>
    cases hb with
    | continued c' hc' ht' _ _ =>
      rw [hnew c' (hf ▸ hc')] at ht'
      cases ht'
    | started _ hi' _ _ =>
      rw [hi, hi'] at he
      exact absurd (Engine.mintedId_inj he) (Nat.ne_of_lt (hmn hm))

/-- The events of an answer may follow each other, unless one undoes a confirmation. -/
theorem pairwise_eventsOf
    (hc : ∀ k c, cached k = some c → c.LiesAt (eventsKey rule.tenantId rule.faultCenterId) k)
    {fs : List Finding} {n : Nat}
    (h : fs.Pairwise fun f g => f.UndoneBy cached rule now g → ok .alerting .preAlert) :
    (eventsOf cached rule datasource now n fs).Pairwise fun a b =>
      a.fingerprint = b.fingerprint → a.FollowedBy b ok := by
  induction h generalizing n with
  | nil => exact .nil
  | @cons f fs hf _ ih =>
    refine List.pairwise_append.mpr ⟨Finding.pairwise_events, ih, fun a ha b hb hab => ?_⟩
    obtain ⟨g, hg, m, hle, -, hbg⟩ := mem_eventsOf hb
    obtain ⟨-, hfa⟩ := Finding.liesAt_of_mem_events hc ha
    obtain ⟨-, hgb⟩ := Finding.liesAt_of_mem_events hc hbg
    refine (Finding.origin_of_mem_events hc ha).follows hallows (Finding.origin_of_mem_events hc hbg) hab
      (fun hm => ?_) (fun hm hn c hcb hd => ?_)
    · rw [if_pos hm] at hle
      exact hle
    -- A match before a finding of its fingerprint that does not match: what the hypothesis is about.
    · rcases hfa with ⟨o, rfl, ho⟩ | ⟨v, rfl⟩
      · rcases hgb with ⟨o', rfl, -⟩ | ⟨v, rfl⟩
        · cases hn
        · rw [← hab, ho] at hcb
          exact hf _ hg ⟨o, v, c, rfl, by rw [← hab, ho], hcb, hd⟩
      · cases hm

end Answer

namespace Engine

section Complete

variable {ok : Status → Status → Prop} (hallows : ∀ a b : Status, a.Allowed b → ok a b)
include hallows

/-- Working off an answer and storing its events is in order, unless a confirmation is undone. -/
theorem Lawful.complete {e : Engine} (h : e.Lawful ok) (rule : Rule) (datasource : String) (now : Instant)
    (reply : Except Failure Answer)
    (hsteady : ∀ answer, reply = .ok answer → (rule.findings answer).Pairwise fun f g =>
      f.UndoneBy (e.cached rule) rule now g → ok .alerting .preAlert) :
    (e.complete rule datasource now reply).2.Lawful ok := by
  rcases reply with (_ | _) | answer
  · exact h
  · exact h
  · have hw := workOff_keeps (P := Lawful ok) (fun hq h => h.quiet hq) rule datasource now (rule.findings answer)
      .empty h
    have hev := (workOff_events rule datasource now (rule.findings answer) e .empty).1
    simp only [Engine.complete]
    split
    · next hr => rwa [hr] at hw
    · next hr =>
      rw [hr] at hw hev
      obtain ⟨ho, hm⟩ := workOff_spec _ hr
      dsimp only at hev
      rw [ho]
      have hc := h.coherent.liesAt_cached rule
      refine Lawful.store rule.id _ hw (fun event hmem => ?_) (fun event hmem old hold => ?_) ?_
      · obtain ⟨f, -, m, -, hlt, hmem⟩ := mem_eventsOf hmem
        exact h.numbered_of_mem_events hmem (by omega) fun hmatch => hm ▸ hlt hmatch
      · obtain ⟨f, -, m, hle, -, hmem⟩ := mem_eventsOf hmem
        rw [hev, (Finding.liesAt_of_mem_events hc hmem).1.1] at hold
        obtain ⟨n, hn, hcid⟩ := h.numbered _ _ old hold
        exact (Finding.origin_of_mem_events hc hmem).follows_cached hallows hold ⟨n, by omega, hcid⟩
      · exact pairwise_eventsOf hallows hc (hsteady answer rfl)

/-- The stores of a dispatch are in order, unless a confirmation is undone. -/
theorem Lawful.gather (rule : Rule) (start : Nat) (readings : List Reading) {e : Engine} (g : Gathering) (last : Nat)
    (h : e.Lawful ok)
    (hsteady : ok .alerting .preAlert ∨ ∀ r ∈ readings, ∀ answer, r.reply = .ok answer → rule.Steady answer) :
    (gather rule start e g last readings).2.Lawful ok := by
  induction readings generalizing e g last with
  | nil => exact h
  | cons r readings ih =>
    rw [Engine.gather]
    split
    · exact h
    · refine ih _ _ (add_keeps (fun hq h => h.quiet hq) g _ _ _ ?_)
        (hsteady.imp_right fun hs x hx => hs x (List.mem_cons_of_mem r hx))
      refine (h.quiet (.waited e _)).complete hallows rule r.datasource r.asked r.reply fun answer ha => ?_
      rcases hsteady with hok | hs
      · exact List.pairwise_of_forall fun _ _ _ => hok
      · refine (hs r List.mem_cons_self answer ha).imp fun {f g} hfg hundo => ?_
        obtain ⟨o, v, c, hf, hg, -⟩ := hundo
        exact absurd hg (hfg o v hf)

end Complete

end Engine

end Alerting
