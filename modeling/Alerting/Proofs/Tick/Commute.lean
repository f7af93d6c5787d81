import Mathlib.Logic.Equiv.Defs
import Alerting.Proofs.Recovery.Apart
import Alerting.Proofs.Tick.Mirror

/-!
# Ticks of different rules commute

A tick of a rule changes the stored events under the rule's own fingerprints and the entries of the rule, and nothing else
(`Engine.LeavesRest`). This needs that the rule's events stand under its own fingerprints, which every run keeps
(`Engine.Homed`). So to a rule without common fingerprints, the engine after the tick mirrors the one before it
(`mirrors_of_leavesRest`), and the tick of that rule comes to the same in both. Hence two such ticks report the same and
leave the same caches in either order, except that the ids of new events are given out in the other order
(`ticks_commute`).
-/

namespace Alerting

/-- In a piece of work, the answers to rules with this id are about these fingerprints only. -/
def Work.Within (id : String) (own : String → Prop) (w : Work) : Prop :=
  ∀ t ∈ w.tasks, t.rule.id = id → ∀ f ∈ t.findings, ∀ k, f.Concerns k → own k

theorem Work.within_recover (id : String) (own : String → Prop) (scope : Scope) (current suppressed : List String)
    (now : Instant) : (Work.recover scope current suppressed now).Within id own := fun _ ht => nomatch ht

theorem Work.within_dispatch_of_ne {a b : Rule} (hne : a.id ≠ b.id) (own : String → Prop) (readings : List Reading) :
    (Work.dispatch a readings).Within b.id own := by
  intro t ht hid
  obtain ⟨r, -, answer, -, rfl⟩ := AnswerTask.mem_ofReadings_of_rule ht
  exact absurd hid hne

/-- The answers of a dispatch of the rule are about its fingerprints. -/
theorem Work.Within.concerns {rule : Rule} {own : String → Prop} {readings : List Reading}
    (h : (Work.dispatch rule readings).Within rule.id own) {r : Reading} (hr : r ∈ readings) {answer : Answer}
    (ha : r.reply = .ok answer) : ∀ f ∈ rule.findings answer, ∀ k, f.Concerns k → own k :=
  h _ (AnswerTask.ofAnswer_mem hr ha) rfl

namespace Engine

theorem Identified.tick {e : Engine} (h : e.Identified Landed) (config : Config) (rule : Rule) (readings : List Reading)
    (now : Instant) : (e.tick config rule readings now).2.Identified Landed :=
  tick_keeps (P := fun e => e.Identified Landed) (h.after config _).ids fun _ _ _ h => (h.after config _).ids

/-! ## Where the events of a rule stand -/

/-- Events stand where they belong, and those of rules with this id stand under these fingerprints. -/
def Homed (id : String) (own : String → Prop) (e : Engine) : Prop :=
  e.Coherent ∧ ∀ a, e.Knows Landed a → a.ruleId = id → own a.fingerprint

section Homed

variable {id : String} {own : String → Prop} {e : Engine}

theorem homed_fresh (faults : Nat → Call → Bool) (infos : InfoCache) : (fresh faults infos).Homed id own :=
  ⟨coherent_fresh faults infos, fun _ ha => nomatch ha.stored_of_landed⟩

theorem Homed.of_find? (h : e.Homed id own) {key k : String} {a : Event} (hf : e.events.find? key k = some a)
    (ha : a.ruleId = id) : own k := by
  obtain ⟨-, rfl⟩ := h.1 key k a hf
  exact h.2 a (h.1.knows hf Landed) ha

/-- An event of an answer is of the rule that was asked, or it goes on with a stored event of the same rule. -/
theorem pointwise_homed {w : Work} (hw : w.Within id own) :
    Pointwise w.tasks Coherent fun _ a => a.ruleId = id → own a.fingerprint := by
  refine ⟨?quiet, ?looked, ?stored⟩
  case quiet =>
    intro e e' hq hc
    exact ⟨hq (fun hq h => h.quiet hq) hc, fun h => h⟩
  case stored =>
    intro e a hc _
    exact ⟨hc.stored a, fun h => h⟩
  case looked =>
    intro t ht f hf e e' a _ _ hc hp ha hid
    have hl := hc.liesAt_cached t.rule
    obtain ⟨-, hcon⟩ := Finding.liesAt_of_mem_events hl ha
    have hasked : a.owner = t.rule.owner → own a.fingerprint := by
      intro ho
      have hrule : t.rule.id = id := (congrArg Prod.snd ho).symm.trans hid
      exact hw t ht hrule f hf _ hcon
    cases Finding.origin_of_mem_events hl ha with
    | started _ _ _ _ _ ho => exact hasked ho
    | continued c hcached _ _ _ _ ho =>
      cases hm : f.isMatch with
      | true =>
        rw [hm, if_pos rfl] at ho
        exact hasked ho
      | false =>
        rw [hm, if_neg Bool.false_ne_true] at ho
        have hrule : c.ruleId = id := (congrArg Prod.snd ho).symm.trans hid
        rw [← (hl _ c hcached).2]
        exact hp c (hc.knows hcached Landed) hrule

/-- A change of a pass moves an event and leaves its rule and its fingerprint as they were. -/
theorem Homed.turn (h : e.Homed id own) {config : Config} {scope : Scope} {now : Instant} {info : Option FaultCenter}
    {c : Cell} {fingerprint : String} {e' : Engine} (ht : Turn config scope now info c fingerprint e e') :
    e'.Homed id own := by
  refine ⟨h.1.deal ht.deal, fun a ha hid => ?_⟩
  rcases ht.knows ha with ha | ⟨old, target, rfl, hold, -⟩
  · exact h.2 a ha hid
  · exact h.2 old hold hid

theorem Homed.after (h : e.Homed id own) {w : Work} (hw : w.Within id own) (config : Config) :
    (e.after config w).Homed id own :=
  (pointwise_homed hw).keptBy.after config h.1 (fun _ _ _ _ _ _ _ _ ht (h : Homed id own _) => h.turn ht) h

/-- **Every run leaves the events of a rule under its own fingerprints.** -/
theorem Homed.run (h : e.Homed id own) {works : List Work} (hw : ∀ w ∈ works, w.Within id own) (config : Config) :
    (e.run config works).Homed id own := by
  induction works generalizing e with
  | nil => exact h
  | cons w works ih =>
    exact ih (h.after (hw w List.mem_cons_self) config) fun x hx => hw x (List.mem_cons_of_mem w hx)

theorem Homed.tick (h : e.Homed id own) {rule : Rule} {readings : List Reading}
    (hw : (Work.dispatch rule readings).Within id own) (config : Config) (now : Instant) :
    (e.tick config rule readings now).2.Homed id own :=
  tick_keeps (h.after hw config) fun current suppressed _ h =>
    h.after (Work.within_recover id own rule.scope current suppressed now) config

end Homed

/-! ## What a tick leaves alone -/

/-- Everything but the events under the rule's fingerprints and the rule's entries is as it was. -/
structure LeavesRest (rule : Rule) (own : String → Prop) (e e' : Engine) : Prop where
  events : ∀ key k, ¬(key = rule.scope.eventsKey ∧ own k) → e'.events.find? key k = e.events.find? key k
  entries : ∀ tenant id, (tenant, id) ≠ rule.owner → e'.pending.list tenant id = e.pending.list tenant id
  infos : e'.infos = e.infos
  minted : e.minted ≤ e'.minted

section LeavesRest

variable {rule : Rule} {own : String → Prop} {e e₁ e₂ : Engine}

theorem LeavesRest.refl (rule : Rule) (own : String → Prop) (e : Engine) : e.LeavesRest rule own e :=
  ⟨fun _ _ _ => rfl, fun _ _ _ => rfl, rfl, Nat.le_refl _⟩

theorem LeavesRest.quietly (h : e.LeavesRest rule own e₁) (hq : Quietly e₁ e₂) : e.LeavesRest rule own e₂ := by
  refine ⟨fun key k hk => ?_, fun tenant id hne => ?_, hq.infos.trans h.infos, Nat.le_trans h.minted hq.minted⟩
  · rw [hq.events]
    exact h.events key k hk
  · rw [hq.pending]
    exact h.entries tenant id hne

theorem LeavesRest.stored (h : e.LeavesRest rule own e₁) {a : Event}
    (ha : EventCache.keyOf a = rule.scope.eventsKey ∧ own a.fingerprint) : e.LeavesRest rule own (e₁.stored a) := by
  refine ⟨fun key k hk => ?_, h.entries, h.infos, h.minted⟩
  have hat : ¬a.LiesAt key k := fun hl => hk ⟨hl.1.symm.trans ha.1, hl.2 ▸ ha.2⟩
  rw [find?_stored_of_ne hat]
  exact h.events key k hk

/-- **A dispatch stores events under the rule's own fingerprints only.** -/
theorem LeavesRest.dispatch (h : e.LeavesRest rule own e₁) (hc : e₁.Coherent) {readings : List Reading}
    (hw : (Work.dispatch rule readings).Within rule.id own) : e.LeavesRest rule own (e₁.dispatch rule readings).2 := by
  have hkept : KeptBy (Work.dispatch rule readings).tasks fun e' flying => e'.Coherent ∧ e.LeavesRest rule own e' ∧
      ∀ a, flying a → EventCache.keyOf a = rule.scope.eventsKey ∧ own a.fingerprint := by
    refine ⟨?quiet, ?looked, ?stored⟩
    case quiet =>
      rintro e₁ e₂ flying flying' hq hsub ⟨hc, h, hown⟩
      exact ⟨hq (fun hq h => h.quiet hq) hc, h.quietly hq, fun a ha => hown a (hsub a ha)⟩
    case stored =>
      rintro e₁ flying a hfly ⟨hc, h, hown⟩
      exact ⟨hc.stored a, h.stored (hown a hfly), hown⟩
    case looked =>
      rintro t ht f hf e₁ e₂ flying hq - ⟨hc, h, hown⟩
      refine ⟨hq (fun hq h => h.quiet hq) hc, h.quietly hq, ?_⟩
      rintro a (ha | ha)
      · exact hown a ha
      · obtain ⟨r, -, answer, -, rfl⟩ := AnswerTask.mem_ofReadings_of_rule ht
        obtain ⟨hlies, hcon⟩ := Finding.liesAt_of_mem_events (hc.liesAt_cached rule) ha
        exact ⟨hlies.1, hw _ ht rfl f hf _ hcon⟩
  exact (hkept.dispatch ⟨hc, h, fun _ hn => hn.elim⟩).2.1

/-- A change of a pass touches no event, or the place of an event of the rule. -/
theorem Turn.events_cases {config : Config} {scope : Scope} {now : Instant} {info : Option FaultCenter} {c : Cell}
    {fingerprint : String} (ht : Turn config scope now info c fingerprint e₁ e₂) : e₂.events = e₁.events ∨
      (∃ old, e₁.events.find? scope.eventsKey fingerprint = some old ∧ old.owner = scope.owner) ∧
        ∀ key k, ¬(key = scope.eventsKey ∧ k = fingerprint) → e₂.events.find? key k = e₁.events.find? key k := by
  have hplace : ∀ {old : Event} {d : Cell}, e₁.cell scope fingerprint = d → d.record.filter scope.owns = some old →
      ∃ old, e₁.events.find? scope.eventsKey fingerprint = some old ∧ old.owner = scope.owner := by
    intro old d hc ho
    exact ⟨old, find?_of_cell_eq hc ho, Scope.owns_iff.mp (Option.filter_eq_some_iff.mp ho).2⟩
  have hmoved : ∀ {old : Event} (target : Status), old.LiesAt scope.eventsKey fingerprint →
      ∀ key k, ¬(key = scope.eventsKey ∧ k = fingerprint) →
        (e₁.stored (old.moved target now)).events.find? key k = e₁.events.find? key k := by
    intro old target hl key k hk
    exact find?_stored_of_ne fun hat => hk ⟨hat.1.symm.trans hl.1, hat.2.symm.trans hl.2⟩
  cases ht with
  | quiet hq => exact .inl (Quietly.events hq.quietly)
  | listed | unlisted => exact .inl rfl
  | reactivated old hc ho hl => exact .inr ⟨hplace hc ho, hmoved .alerting hl⟩
  | wentMissing old hc ho hl => exact .inr ⟨hplace hc ho, hmoved .pendingRecovery hl⟩
  | recovered old since hc ho hl => exact .inr ⟨hplace hc ho, hmoved .recovered hl⟩
  | discarded old hc ho hl =>
    refine .inr ⟨hplace hc ho, fun key k hk => ?_⟩
    have hkey : Alerting.eventsKey old.tenantId old.faultCenterId = scope.eventsKey := hl.1
    rw [removed, EventCache.find?_remove, hkey, if_neg hk]

/-- **A pass changes events under the rule's own fingerprints only**, since it changes no event of another rule. -/
theorem LeavesRest.reconcile (h : e.LeavesRest rule own e₁) (hh : e₁.Homed rule.id own) (config : Config)
    (current suppressed : List String) (now : Instant) :
    e.LeavesRest rule own (e₁.reconcile config rule.scope current suppressed now).2 := by
  have hothers := leavesOthers_reconcile config rule.scope current suppressed now hh.1
  obtain ⟨-, hevents⟩ := reconcile_keeps_turns config rule.scope current suppressed now hh.1
    (P := fun e' => e'.Homed rule.id own ∧
      ∀ key k, ¬(key = rule.scope.eventsKey ∧ own k) → e'.events.find? key k = e₁.events.find? key k)
    (fun fingerprint e₂ e₃ ht ⟨hh, h⟩ => by
      refine ⟨hh.turn ht, fun key k hk => ?_⟩
      rw [← h key k hk]
      rcases ht.events_cases with he | ⟨⟨old, hf, ho⟩, hframe⟩
      · rw [he]
      · -- The event that was there is the rule's, so its fingerprint is too.
        have hown : own fingerprint := hh.of_find? hf (congrArg Prod.snd ho)
        exact hframe key k fun hat => hk ⟨hat.1, hat.2 ▸ hown⟩)
    ⟨hh, fun _ _ _ => rfl⟩
  obtain ⟨hinfos, hminted⟩ := reconcile_keeps config rule.scope current suppressed now hh.1
    (P := fun e' => e'.infos = e₁.infos ∧ e₁.minted ≤ e'.minted)
    (fun _ e₂ e₃ hd ⟨hi, hm⟩ => by
      refine ⟨hd.faults_eq.2.trans hi, ?_⟩
      cases hd with
      | quiet hq => exact Nat.le_trans hm (Quietly.minted hq.quietly)
      | moved | removed | missed | found => exact hm)
    ⟨rfl, Nat.le_refl _⟩
  exact
    { events := fun key k hk => (hevents key k hk).trans (h.events key k hk)
      entries := fun tenant id hne => (hothers.pending tenant id hne).trans (h.entries tenant id hne)
      infos := hinfos.trans h.infos
      minted := Nat.le_trans h.minted hminted }

/-- **A tick changes events under the rule's own fingerprints and entries of the rule only.** -/
theorem leavesRest_tick (hh : e.Homed rule.id own) {readings : List Reading}
    (hw : (Work.dispatch rule readings).Within rule.id own) (config : Config) (now : Instant) :
    e.LeavesRest rule own (e.tick config rule readings now).2 := by
  have hboth : (e.tick config rule readings now).2.Homed rule.id own ∧
      e.LeavesRest rule own (e.tick config rule readings now).2 :=
    tick_keeps (P := fun e' => e'.Homed rule.id own ∧ e.LeavesRest rule own e')
      ⟨hh.after hw config, (LeavesRest.refl rule own e).dispatch hh.1 hw⟩
      fun current suppressed _ ⟨hh, h⟩ => ⟨hh.after (Work.within_recover _ own rule.scope current suppressed now) config,
        h.reconcile hh config current suppressed now⟩
  exact hboth.2

end LeavesRest

/-! ## The numbers of ids -/

/-- Puts off all numbers from `start` on by `d`. -/
def putOff (start d n : Nat) : Nat := if n < start then n else n + d

/-- Exchanges the `m` numbers from `start` on with the `n` numbers after them. -/
def exchange (start m n : Nat) : Equiv.Perm Nat where
  toFun i := if i < start then i else if i < start + m then i + n else if i < start + m + n then i - m else i
  invFun i := if i < start then i else if i < start + n then i + m else if i < start + m + n then i - n else i
  left_inv i := by grind
  right_inv i := by grind

section Exchange

variable {start m n i : Nat}

theorem exchange_eq (start m n i : Nat) : exchange start m n i =
    if i < start then i else if i < start + m then i + n else if i < start + m + n then i - m else i := rfl

theorem exchange_of_lt (h : i < start) : exchange start m n i = i := if_pos h

/-- What comes first in one order is put off in the other. -/
theorem exchange_of_first (h : i < start + m) : exchange start m n i = putOff start n i := by
  rw [exchange_eq, if_pos h, putOff]

theorem exchange_putOff (h : i < start + n) : exchange start m n (putOff start m i) = i := by
  rw [exchange_eq]
  grind [putOff]

theorem mem_of_exchange_ne (h : exchange start m n i ≠ i) : start ≤ i ∧ i < start + m + n := by
  rw [exchange_eq] at h
  grind

end Exchange

/-- Every stored event has an id that was given out. -/
theorem Identified.map_congr {e : Engine} (h : e.Identified Landed) {φ ψ : Event → Event}
    (heq : ∀ a n, n < e.minted → a.id = mintedId n → φ a = ψ a) (key k : String) :
    (e.events.find? key k).map φ = (e.events.find? key k).map ψ := by
  cases hf : e.events.find? key k with
  | none => rfl
  | some a =>
    obtain ⟨n, hn, hid⟩ := h.known a (h.coherent.knows hf Landed)
    exact congrArg some (heq a n hn hid)

/-- Events are left as they are when only later ids get other numbers. -/
theorem Identified.map_of_fixed {e : Engine} (h : e.Identified Landed) {f : Nat → Nat}
    (hf : ∀ n, n < e.minted → f n = n) (key k : String) :
    (e.events.find? key k).map (Event.renumbered f) = e.events.find? key k := by
  have hsame : ∀ (a : Event) n, n < e.minted → a.id = mintedId n → a.renumbered f = a := fun a n hn hid =>
    Event.renumbered_of_fixed hid (hf n hn)
  exact (h.map_congr hsame key k).trans Option.map_id'

/-! ## One tick after the other -/

section Ticks

variable {config : Config} {a b : Rule} {own₁ own₂ : String → Prop} {e e₁ : Engine}

/-- **What leaves a rule alone leaves an engine that mirrors the earlier one to the rule.** -/
theorem mirrors_of_leavesRest (hne : a.id ≠ b.id) (hapart : ∀ k, own₁ k → ¬own₂ k) (hi : e.Identified Landed)
    (h : e.LeavesRest a own₁ e₁) (hh : e.Healthy) (hh₁ : e₁.Healthy) (hb : e.Homed b.id own₂) (hb₁ : e₁.Homed b.id own₂) :
    Mirrors b.scope own₂ (putOff e.minted (e₁.minted - e.minted)) (e₁.minted - e.minted) e e₁ := by
  have hstands : ∀ k, own₂ k → e₁.events.find? b.scope.eventsKey k =
      (e.events.find? b.scope.eventsKey k).map (Event.renumbered (putOff e.minted (e₁.minted - e.minted))) := by
    intro k hk
    rw [hi.map_of_fixed (f := putOff e.minted (e₁.minted - e.minted)) (fun n hn => if_pos hn), h.events]
    exact fun hat => hapart k hat.2 hk
  refine ⟨hh, hh₁, hstands, fun k => ?owns, h.entries _ _ fun ho => hne (congrArg Prod.snd ho).symm, h.infos, ?minted,
    fun n hn => if_neg (Nat.not_lt.mpr hn)⟩
  case minted =>
    have := h.minted
    omega
  case owns =>
    by_cases hk : own₂ k
    · rw [hstands k hk]
      cases e.events.find? b.scope.eventsKey k with
      | none => rfl
      | some x => cases ho : b.scope.owns x <;> simp [Option.filter, ho]
    · -- The rule owns nothing there, before or after.
      have hnone : ∀ {x : Engine}, x.Homed b.id own₂ → (x.events.find? b.scope.eventsKey k).filter b.scope.owns = none := by
        intro x hx
        refine Option.filter_eq_none_iff.mpr fun y hy ho => hk ?_
        exact hx.of_find? hy (congrArg Prod.snd (Scope.owns_iff.mp ho))
      rw [hnone hb, hnone hb₁]
      rfl

/-- **A tick comes to the same after a tick of another rule.** -/
theorem tick_after_tick (hne : a.id ≠ b.id) (hapart : ∀ k, own₁ k → ¬own₂ k) (hh : e.Healthy) (hi : e.Identified Landed)
    (ha : e.Homed a.id own₁) (hb : e.Homed b.id own₂) {readings₁ readings₂ : List Reading}
    (hw₁ : (Work.dispatch a readings₁).Within a.id own₁) (hw₂ : (Work.dispatch b readings₂).Within b.id own₂)
    (now₁ now₂ : Instant) :
    let e₁ := (e.tick config a readings₁ now₁).2
    Alike b.scope own₂ (putOff e.minted (e₁.minted - e.minted)) (e₁.minted - e.minted)
        (e.tick config b readings₂ now₂) (e₁.tick config b readings₂ now₂) ∧
      e.LeavesRest a own₁ e₁ ∧ e₁.LeavesRest b own₂ (e₁.tick config b readings₂ now₂).2 := by
  intro e₁
  have hrest : e.LeavesRest a own₁ e₁ := leavesRest_tick ha hw₁ config now₁
  have hb₁ : e₁.Homed b.id own₂ := hb.tick (Work.within_dispatch_of_ne hne own₂ readings₁) config now₁
  have hh₁ : e₁.Healthy := hh.tick hi.coherent config a readings₁ now₁
  have hmirrors := mirrors_of_leavesRest hne hapart hi hrest hh hh₁ hb hb₁
  exact ⟨hmirrors.tick (fun _ hr _ ha => hw₂.concerns hr ha) config now₂, hrest, leavesRest_tick hb₁ hw₂ config now₂⟩

/-- The caches of two engines are the same, up to the numbers of ids that were given out since an earlier one. -/
structure SameCaches (e e₁ e₂ : Engine) : Prop where
  entries : ∀ tenant id, e₂.pending.list tenant id = e₁.pending.list tenant id
  events : ∃ π : Equiv.Perm Nat, (∀ n, π n ≠ n → e.minted ≤ n ∧ n < e₁.minted) ∧
    ∀ key, e₂.events.all key = (e₁.events.all key).map (Event.renumbered π)

/-- **Two rules that leave each other alone, each of which comes to the same first and last, leave the same caches in
either order.** -/
theorem sameCaches_of_mirrors {e₂ e₁₂ e₂₁ : Engine} (hne : a.id ≠ b.id) (hapart : ∀ k, own₁ k → ¬own₂ k)
    (hi : e.Identified Landed) (hi₁ : e₁.Identified Landed) (hi₂ : e₂.Identified Landed)
    (h₁ : e.LeavesRest a own₁ e₁) (h₁₂ : e₁.LeavesRest b own₂ e₁₂)
    (h₂ : e.LeavesRest b own₂ e₂) (h₂₁ : e₂.LeavesRest a own₁ e₂₁)
    (hm₁ : Mirrors a.scope own₁ (putOff e.minted (e₂.minted - e.minted)) (e₂.minted - e.minted) e₁ e₂₁)
    (hm₂ : Mirrors b.scope own₂ (putOff e.minted (e₁.minted - e.minted)) (e₁.minted - e.minted) e₂ e₁₂) :
    e.SameCaches e₁₂ e₂₁ := by
  have hle₁ := h₁.minted
  have hle₂ := h₂.minted
  refine ⟨fun tenant id => ?entries, exchange e.minted (e₁.minted - e.minted) (e₂.minted - e.minted), fun n hn => ?moved,
    fun key => Table.ext_get? fun k => ?events⟩
  case entries =>
    by_cases hta : (tenant, id) = a.owner
    · have hnb : (tenant, id) ≠ b.owner := fun htb => hne (congrArg Prod.snd (hta.symm.trans htb))
      obtain ⟨rfl, rfl⟩ := Prod.mk.inj hta
      exact hm₁.entries.trans (h₁₂.entries _ _ hnb).symm
    · by_cases htb : (tenant, id) = b.owner
      · obtain ⟨rfl, rfl⟩ := Prod.mk.inj htb
        exact (h₂₁.entries _ _ hta).trans hm₂.entries.symm
      · rw [h₂₁.entries _ _ hta, h₂.entries _ _ htb, h₁₂.entries _ _ htb, h₁.entries _ _ hta]
  case moved =>
    obtain ⟨hle, hlt⟩ := mem_of_exchange_ne hn
    have := hm₂.minted
    omega
  case events =>
    rw [Table.get?_map]
    show e₂₁.events.find? key k = (e₁₂.events.find? key k).map _
    by_cases hka : key = a.scope.eventsKey ∧ own₁ k
    · obtain ⟨rfl, hk⟩ := hka
      rw [hm₁.stands k hk, h₁₂.events _ k fun hat => hapart k hk hat.2]
      refine hi₁.map_congr (fun x n hn hid => Event.renumbered_congr hid ?_) _ k
      exact (exchange_of_first (by omega)).symm
    · by_cases hkb : key = b.scope.eventsKey ∧ own₂ k
      · obtain ⟨rfl, hk⟩ := hkb
        rw [hm₂.stands k hk, h₂₁.events _ k fun hat => hapart k hat.2 hk, Option.map_map]
        refine ((hi₂.map_congr (fun x n hn hid => ?_) _ k).trans Option.map_id').symm
        exact (Event.renumbered_renumbered hid).trans (Event.renumbered_of_fixed hid (exchange_putOff (by omega)))
      · rw [h₂₁.events _ k hka, h₂.events _ k hkb, h₁₂.events _ k hkb, h₁.events _ k hka]
        exact (hi.map_of_fixed (fun n hn => exchange_of_lt hn) key k).symm

end Ticks

end Engine

/-- **Ticks of different rules commute.** After any run, ticks of two rules without common fingerprints in which no call
fails report the same in either order, and leave the same caches up to the ids that they give out. -/
theorem ticks_commute (config : Config) (faults : Nat → Call → Bool) (infos : InfoCache) (works : List Work)
    (a b : Rule) (hne : a.id ≠ b.id) (own₁ own₂ : String → Prop) (hapart : ∀ k, own₁ k → ¬own₂ k)
    (readings₁ readings₂ : List Reading) (hw₁ : ∀ w ∈ .dispatch a readings₁ :: works, w.Within a.id own₁)
    (hw₂ : ∀ w ∈ .dispatch b readings₂ :: works, w.Within b.id own₂) (now₁ now₂ : Instant) :
    let e := ((Engine.fresh faults infos).run config works).healthy
    let tick₁ (e : Engine) := e.tick config a readings₁ now₁
    let tick₂ (e : Engine) := e.tick config b readings₂ now₂
    (tick₁ (tick₂ e).2).1 = (tick₁ e).1 ∧ (tick₂ (tick₁ e).2).1 = (tick₂ e).1 ∧
      e.SameCaches (tick₂ (tick₁ e).2).2 (tick₁ (tick₂ e).2).2 := by
  intro e tick₁ tick₂
  have hi : e.Identified Engine.Landed := by
    have h := (Engine.identified_fresh faults infos).run config works
    exact ⟨h.coherent, h.known, h.written, h.placed⟩
  have ha : e.Homed a.id own₁ :=
    (Engine.homed_fresh faults infos).run (fun w hw => hw₁ w (List.mem_cons_of_mem _ hw)) config
  have hb : e.Homed b.id own₂ :=
    (Engine.homed_fresh faults infos).run (fun w hw => hw₂ w (List.mem_cons_of_mem _ hw)) config
  have hd₁ := hw₁ _ List.mem_cons_self
  have hd₂ := hw₂ _ List.mem_cons_self
  obtain ⟨⟨hreport₂, hmirrors₂⟩, hrest₁, hrest₁₂⟩ := Engine.tick_after_tick hne hapart (Engine.healthy_healthy _) hi ha hb
    hd₁ hd₂ now₁ now₂
  obtain ⟨⟨hreport₁, hmirrors₁⟩, hrest₂, hrest₂₁⟩ := Engine.tick_after_tick hne.symm (fun k h₂ h₁ => hapart k h₁ h₂)
    (Engine.healthy_healthy _) hi hb ha hd₂ hd₁ now₂ now₁
  exact ⟨hreport₁, hreport₂, Engine.sameCaches_of_mirrors hne hapart hi (hi.tick config a readings₁ now₁)
    (hi.tick config b readings₂ now₂) hrest₁ hrest₁₂ hrest₂ hrest₂₁ hmirrors₁ hmirrors₂⟩

/-! ## Two rules on log lines -/

/-- A log rule has one fingerprint. -/
theorem Work.within_logs {rule : Rule} (h : rule.query.family = .logs) (readings : List Reading) (id : String) :
    (Work.dispatch rule readings).Within id (· = Fingerprint.ofRule id) := by
  intro t ht hid f hf k hk
  obtain ⟨r, -, answer, -, rfl⟩ := AnswerTask.mem_ofReadings_of_rule ht
  rw [← hid]
  exact Rule.eq_of_concerns h hf hk

/-- A tick in which a rule matches, some seconds after the beginning. -/
def Engine.tickAt (e : Engine) (rule : Rule) (secs : Nat) :
    Engine.Result (Except Panic (Report × Except EngineError RecoveryReport)) :=
  let now := Instant.epoch.after (.ofSecs secs)
  e.tick .standard rule [⟨"ds1", now, 0, .ok (.count 5)⟩] now

/-- An engine in which the first rule has matched once. -/
def Engine.matchedOnce : Engine :=
  ((fresh (fun _ _ => false) .empty).run .standard
    [.dispatch .errorCount [⟨"ds1", .epoch, 0, .ok (.count 5)⟩]]).healthy

/-- The id of the second rule's event. -/
def Engine.secondId (e : Engine) : Option String :=
  (e.events.find? Rule.errorCount₂.scope.eventsKey (Fingerprint.ofRule "r2")).map (·.id)

theorem Engine.secondId_tickAt :
    ((matchedOnce.tickAt .errorCount 60).2.tickAt .errorCount₂ 90).2.secondId = some (mintedId 2) ∧
      ((matchedOnce.tickAt .errorCount₂ 90).2.tickAt .errorCount 60).2.secondId = some (mintedId 1) := by
  decide +kernel

/-- Two rules of one fault center match in either order. They report the same, and the event of the second rule gets
another id. -/
theorem ticks_commute_matching :
    let e := Engine.matchedOnce
    let e₁₂ := (e.tickAt .errorCount 60).2.tickAt .errorCount₂ 90
    let e₂₁ := (e.tickAt .errorCount₂ 90).2.tickAt .errorCount 60
    e₂₁.1 = (e.tickAt .errorCount 60).1 ∧ e₁₂.1 = (e.tickAt .errorCount₂ 90).1 ∧ e.SameCaches e₁₂.2 e₂₁.2 ∧
      e₁₂.2.secondId = some (Engine.mintedId 2) ∧ e₂₁.2.secondId = some (Engine.mintedId 1) := by
  have hwithin : ∀ (rule : Rule) (id : String) (now : Instant), rule.query.family = .logs →
      ∀ w ∈ [Work.dispatch rule [⟨"ds1", now, 0, .ok (.count 5)⟩],
        .dispatch .errorCount [⟨"ds1", .epoch, 0, .ok (.count 5)⟩]], w.Within id (· = Fingerprint.ofRule id) := by
    intro rule id now hlogs w hw
    rw [List.mem_cons, List.mem_singleton] at hw
    rcases hw with rfl | rfl
    · exact Work.within_logs hlogs _ id
    · exact Work.within_logs rfl _ id
  have hapart : ∀ k, k = Fingerprint.ofRule Rule.errorCount.id → k ≠ Fingerprint.ofRule Rule.errorCount₂.id :=
    fun k hk hk' => Rule.ofRule_errorCount₂ (hk'.symm.trans hk)
  have hcommute := ticks_commute .standard (fun _ _ => false) .empty
    [.dispatch .errorCount [⟨"ds1", .epoch, 0, .ok (.count 5)⟩]] .errorCount .errorCount₂ (by decide) _ _ hapart
    [⟨"ds1", Instant.epoch.after (.ofSecs 60), 0, .ok (.count 5)⟩]
    [⟨"ds1", Instant.epoch.after (.ofSecs 90), 0, .ok (.count 5)⟩]
    (hwithin .errorCount _ _ rfl) (hwithin .errorCount₂ _ _ rfl) (Instant.epoch.after (.ofSecs 60))
    (Instant.epoch.after (.ofSecs 90))
  exact ⟨hcommute.1, hcommute.2.1, hcommute.2.2, Engine.secondId_tickAt.1, Engine.secondId_tickAt.2⟩

end Alerting
