import Alerting.Proofs.Engine.Run

/-!
# Fault centers that share a key

The events and the settings of a fault center are kept under a text that has a separator between the id of the tenant
and the id of the center. The ids are free texts, so the separator may occur at more than one place of a key, and then
the key belongs to more than one fault center. `Site.Blends` says exactly when (`Site.eventsKey_eq_iff`).

Two fault centers that do not blend are isolated: whatever is pushed, removed and inserted at one of them, what is read
at the other stays as it was. Two that blend are not (`isolated_iff`).
-/

namespace Alerting

/-- A fault center of a tenant, by the ids of both. -/
structure Site where
  tenant : String
  center : String
  deriving DecidableEq

namespace Site

def eventsKey (p : Site) : String := Alerting.eventsKey p.tenant p.center

def infoKey (p : Site) : String := Alerting.infoKey p.tenant p.center

/-- The tenant of the second fault center reaches over the separator into the center of the first one: up to its first
colon the separator is that of the first key, and after `overlap` it follows a second time. -/
def RunsInto (p q : Site) : Prop :=
  ∃ overlap : String, q.tenant = p.tenant ++ ":faultCenter" ++ overlap ∧
    ":" ++ p.center = overlap ++ ":faultCenter:" ++ q.center

/-- The ids of two fault centers, with the separator between them, are one text. -/
def Blends (p q : Site) : Prop := p = q ∨ p.RunsInto q ∨ q.RunsInto p

/-! ## Where a text can be cut -/

section Cuts

variable {word overlap front front' rest rest' : List Char}

/-- A text that begins with a word without colons and has a colon somewhere has it after the word. -/
theorem exists_overlap (hword : ':' ∉ word) (h : word ++ rest = overlap ++ ':' :: rest') :
    ∃ x, overlap = word ++ x ∧ rest = x ++ ':' :: rest' := by
  rcases List.append_eq_append_iff.mp h with ⟨x, ho, hr⟩ | ⟨tail, hw, ht⟩
  · exact ⟨x, ho, hr⟩
  · cases tail with
    | nil => exact ⟨[], by rw [hw, List.append_nil, List.append_nil], ht.symm⟩
    | cons colon tail =>
      obtain ⟨rfl, -⟩ := List.cons.inj ht
      exact absurd (hw ▸ List.mem_append_right overlap List.mem_cons_self) hword

/-- A text with a word between colons at two places: the second place is the first one, or it comes after the word. -/
theorem cut_after (hword : ':' ∉ word)
    (h : ':' :: (word ++ ':' :: rest) = overlap ++ ':' :: (word ++ ':' :: rest')) :
    (overlap = [] ∧ rest = rest') ∨
      ∃ x, overlap = ':' :: (word ++ x) ∧ ':' :: rest = x ++ ':' :: (word ++ ':' :: rest') := by
  cases overlap with
  | nil =>
    have htail := List.append_cancel_left (List.cons.inj h).2
    exact .inl ⟨rfl, (List.cons.inj htail).2⟩
  | cons colon overlap =>
    obtain ⟨rfl, htail⟩ := List.cons.inj h
    obtain ⟨x, rfl, hx⟩ := exists_overlap hword htail
    exact .inr ⟨x, rfl, hx⟩

/-- **Where a text can be cut at a word between colons**: at one place, or at a second one after the first. -/
theorem cut_iff (hword : ':' ∉ word) :
    front ++ ':' :: (word ++ ':' :: rest) = front' ++ ':' :: (word ++ ':' :: rest') ↔
      (front = front' ∧ rest = rest') ∨
      (∃ x, front' = front ++ ':' :: (word ++ x) ∧ ':' :: rest = x ++ ':' :: (word ++ ':' :: rest')) ∨
      ∃ x, front = front' ++ ':' :: (word ++ x) ∧ ':' :: rest' = x ++ ':' :: (word ++ ':' :: rest) := by
  constructor
  · intro h
    rcases List.append_eq_append_iff.mp h with ⟨overlap, hf, hr⟩ | ⟨overlap, hf, hr⟩
    · rcases cut_after hword hr with ⟨rfl, hrest⟩ | ⟨x, rfl, hx⟩
      · exact .inl ⟨by rw [hf, List.append_nil], hrest⟩
      · exact .inr (.inl ⟨x, hf, hx⟩)
    · rcases cut_after hword hr with ⟨rfl, hrest⟩ | ⟨x, rfl, hx⟩
      · exact .inl ⟨by rw [hf, List.append_nil], hrest.symm⟩
      · exact .inr (.inr ⟨x, hf, hx⟩)
  · rintro (⟨rfl, rfl⟩ | ⟨x, rfl, hx⟩ | ⟨x, rfl, hx⟩)
    · rfl
    · rw [hx]
      simp
    · rw [hx]
      simp

end Cuts

/-! ## Keys -/

/-- The word between the colons of the separator. -/
def word : List Char := "faultCenter".toList

theorem separator_toList : ":faultCenter:".toList = ':' :: (word ++ [':']) := by decide

variable {p q : Site}

theorem runsInto_iff : p.RunsInto q ↔ ∃ x, q.tenant.toList = p.tenant.toList ++ ':' :: (word ++ x) ∧
    ':' :: p.center.toList = x ++ ':' :: (word ++ ':' :: q.center.toList) := by
  have hopen : ":faultCenter".toList = ':' :: word := by decide
  have hcolon : ":".toList = [':'] := by decide
  constructor
  · rintro ⟨overlap, ht, hc⟩
    refine ⟨overlap.toList, ?_, ?_⟩
    · rw [ht, String.toList_append, String.toList_append, hopen, List.append_assoc, List.cons_append]
    · have h := congrArg String.toList hc
      simpa only [String.toList_append, hcolon, separator_toList, List.append_assoc, List.cons_append,
        List.nil_append] using h
  · rintro ⟨x, ht, hc⟩
    refine ⟨String.ofList x, String.toList_inj.mp ?_, String.toList_inj.mp ?_⟩
    · rw [ht, String.toList_append, String.toList_append, hopen, String.toList_ofList, List.append_assoc,
        List.cons_append]
    · simpa only [String.toList_append, hcolon, separator_toList, List.append_assoc, List.cons_append,
        List.nil_append, String.toList_ofList] using hc

/-- **Two fault centers have the same separated ids exactly if they blend.** -/
theorem separated_eq_iff :
    p.tenant ++ ":faultCenter:" ++ p.center = q.tenant ++ ":faultCenter:" ++ q.center ↔ p.Blends q := by
  have hword : ':' ∉ word := by decide
  have hsite : p = q ↔ p.tenant.toList = q.tenant.toList ∧ p.center.toList = q.center.toList := by
    rw [String.toList_inj, String.toList_inj]
    cases p
    cases q
    simp
  rw [Blends, runsInto_iff, runsInto_iff, hsite, ← cut_iff hword, ← String.toList_inj]
  simp only [String.toList_append, separator_toList, List.append_assoc, List.cons_append, List.nil_append]

theorem eventsKey_eq_iff : p.eventsKey = q.eventsKey ↔ p.Blends q := by
  rw [eventsKey, eventsKey, Alerting.eventsKey, Alerting.eventsKey, String.append_left_inj]
  exact separated_eq_iff

theorem infoKey_eq_iff : p.infoKey = q.infoKey ↔ p.Blends q := by
  rw [infoKey, infoKey, Alerting.infoKey, Alerting.infoKey, String.append_left_inj]
  exact separated_eq_iff

end Site

/-! ## Events -/

namespace EventCache

/-- A change of the events of a fault center. -/
inductive Edit
  | push (event : Event)
  | remove (site : Site) (fingerprint : String)

/-- The fault center whose events are changed. -/
def Edit.site : Edit → Site
  | push event => ⟨event.tenantId, event.faultCenterId⟩
  | remove site _ => site

def edit (c : EventCache) : Edit → EventCache
  | .push event => c.push event
  | .remove site fingerprint => c.remove site.tenant site.center fingerprint

/-- Whatever is changed at the first fault center, what is read at the second one stays as it was. -/
def Isolated (p q : Site) : Prop :=
  ∀ (c : EventCache) (edits : List Edit), (∀ x ∈ edits, x.site = p) →
    (edits.foldl edit c).all q.eventsKey = c.all q.eventsKey ∧
      ∀ fingerprint, (edits.foldl edit c).get? q.tenant q.center fingerprint = c.get? q.tenant q.center fingerprint

/-- A change leaves the events under other keys alone. -/
theorem all_edit_of_ne {c : EventCache} {x : Edit} {key : String} (h : key ≠ x.site.eventsKey) :
    (c.edit x).all key = c.all key := by
  cases x with
  | push event =>
    have hne : key ≠ keyOf event := h
    simp only [edit, push, all, Table.get?_insert, if_neg hne]
  | remove site fingerprint =>
    have hne : key ≠ eventsKey site.tenant site.center := h
    simp only [edit, remove]
    split
    · simp only [all, Table.get?_insert, if_neg hne]
    · rfl

theorem all_foldl_edit_of_ne {edits : List Edit} {key : String} (h : ∀ x ∈ edits, key ≠ x.site.eventsKey)
    (c : EventCache) : (edits.foldl edit c).all key = c.all key := by
  induction edits generalizing c with
  | nil => rfl
  | cons x edits ih =>
    rw [List.foldl_cons, ih fun y hy => h y (List.mem_cons_of_mem x hy)]
    exact all_edit_of_ne (h x List.mem_cons_self)

/-- **Fault centers are isolated exactly if they do not blend.** -/
theorem isolated_iff_not_blends {p q : Site} : Isolated p q ↔ ¬p.Blends q := by
  rw [← Site.eventsKey_eq_iff]
  constructor
  · intro h hkey
    let rule := { Rule.errorCount with tenantId := p.tenant, faultCenterId := p.center }
    let event := Event.draft rule "ds1" "" .standard .empty "" .epoch
    have hkept := (h .empty [.push event] (by simp [Edit.site, event, Event.draft, rule])).2 ""
    have hseen : (empty.push event).get? q.tenant q.center "" = some event := by
      rw [get?, find?_push, if_pos ⟨hkey.symm, rfl⟩]
    exact nomatch hseen.symm.trans hkept
  · intro hkey c edits hsite
    have hall : (edits.foldl edit c).all q.eventsKey = c.all q.eventsKey :=
      all_foldl_edit_of_ne (fun x hx he => hkey (hsite x hx ▸ he.symm)) c
    refine ⟨hall, fun fingerprint => ?_⟩
    exact congrArg (Table.get? · fingerprint) hall

end EventCache

/-! ## Settings -/

namespace InfoCache

/-- Whatever settings are inserted for the first fault center, those of the second one stay as they were. -/
def Isolated (p q : Site) : Prop :=
  ∀ (c : InfoCache) (centers : List FaultCenter), (∀ x ∈ centers, x.id = p.center) →
    (centers.foldl (·.insert p.tenant ·) c).get? q.infoKey = c.get? q.infoKey

theorem get?_insert (c : InfoCache) (tenant : String) (center : FaultCenter) (key : String) :
    (c.insert tenant center).get? key = if key = infoKey tenant center.id then some center else c.get? key :=
  Table.get?_insert ..

theorem isolated_iff_not_blends {p q : Site} : Isolated p q ↔ ¬p.Blends q := by
  rw [← Site.infoKey_eq_iff]
  constructor
  · intro h hkey
    have hkept := h .empty [⟨p.center, "", 0⟩] (by simp)
    have hseen : (empty.insert p.tenant ⟨p.center, "", 0⟩).get? q.infoKey = some ⟨p.center, "", 0⟩ := by
      rw [get?_insert]
      exact if_pos hkey.symm
    exact nomatch hseen.symm.trans hkept
  · intro hkey c centers hsite
    induction centers generalizing c with
    | nil => rfl
    | cons center centers ih =>
      have hne : q.infoKey ≠ infoKey p.tenant center.id := by
        rw [hsite center List.mem_cons_self]
        exact Ne.symm hkey
      rw [List.foldl_cons, ih _ fun x hx => hsite x (List.mem_cons_of_mem center hx), get?_insert, if_neg hne]

end InfoCache

/-- **The events of two fault centers are isolated exactly if the two do not blend, and so are their settings**: they
are different, and neither tenant reaches over the separator into the center of the other. -/
theorem isolated_iff (p q : Site) :
    (EventCache.Isolated p q ↔ p ≠ q ∧ ¬p.RunsInto q ∧ ¬q.RunsInto p) ∧
      (InfoCache.Isolated p q ↔ p ≠ q ∧ ¬p.RunsInto q ∧ ¬q.RunsInto p) := by
  have hblends : ¬p.Blends q ↔ p ≠ q ∧ ¬p.RunsInto q ∧ ¬q.RunsInto p := by
    rw [Site.Blends, not_or, not_or]
  exact ⟨EventCache.isolated_iff_not_blends.trans hblends, InfoCache.isolated_iff_not_blends.trans hblends⟩

/-- **Two different fault centers, both of valid rules, are not isolated.** What is pushed for the first one is found at
the second one, and so are the settings that are inserted for it. -/
theorem centers_share_a_key :
    let rule := { Rule.errorCount with tenantId := "acme", faultCenterId := "emea:faultCenter:core" }
    let rule' := { Rule.errorCount with tenantId := "acme:faultCenter:emea", faultCenterId := "core" }
    let event := Event.draft rule "ds1" "fp" .standard .empty "e1" .epoch
    let center : FaultCenter := ⟨rule.faultCenterId, "all", 60⟩
    rule.validate = .ok () ∧ rule'.validate = .ok () ∧
      EventCache.empty.get? rule'.tenantId rule'.faultCenterId "fp" = none ∧
      (EventCache.empty.push event).get? rule'.tenantId rule'.faultCenterId "fp" = some event ∧
      (EventCache.empty.push event).all (eventsKey rule'.tenantId rule'.faultCenterId) ≠ .empty ∧
      (InfoCache.empty.insert rule.tenantId center).get? (infoKey rule'.tenantId rule'.faultCenterId) =
        some center := by
  refine ⟨?valid, ?valid', ?_⟩
  case valid => rfl
  case valid' => rfl
  decide +kernel

end Alerting
