import Alerting.Json.Domain
import Alerting.Proofs.Json.Edits
import Alerting.Proofs.Json.ReadBack

/-!
# The JSON forms of the small types

Most forms have no fractions in them and are read back as they are (`Json.IsPlain`). A structure is read from an object of
all its members by `fields?_all`, and then member by member (`bind_of_eq_some`, `required_of_get?`,
`withDefault_of_get?`, `optional_of_get?`). For each type there are its layout, the stability of its reader, and the
reading of its form.
-/

namespace Alerting

open Json

namespace Json

/-! ## Forms without fractions -/

/-- The value has a text, which is read as the value itself. -/
structure IsPlain (v : Json) : Prop where
  isWritable : v.IsWritable
  reread_eq : v.reread = v

theorem areWritable_iff {vs : List Json} : AreWritable vs ↔ ∀ v ∈ vs, v.IsWritable := by
  induction vs with
  | nil => simp [AreWritable]
  | cons v vs ih => simp [AreWritable, ih]

theorem areWritableMembers_iff {ms : List (String × Json)} : AreWritableMembers ms ↔ ∀ m ∈ ms, m.2.IsWritable := by
  induction ms with
  | nil => simp [AreWritableMembers]
  | cons m ms ih => rw [AreWritableMembers, ih, List.forall_mem_cons]

theorem rereadAll_eq (vs : List Json) : rereadAll vs = vs.map reread := by
  induction vs with
  | nil => rfl
  | cons v vs ih => rw [rereadAll, ih, List.map_cons]

theorem rereadMembers_eq (ms : List (String × Json)) : rereadMembers ms = ms.map fun m => (m.1, m.2.reread) := by
  induction ms with
  | nil => rfl
  | cons m ms ih => rw [rereadMembers, ih, List.map_cons]

@[simp] theorem isPlain_null : IsPlain null := ⟨trivial, rfl⟩

@[simp] theorem isPlain_bool (b : Bool) : IsPlain (bool b) := ⟨trivial, rfl⟩

@[simp] theorem isPlain_text (s : String) : IsPlain (text s) := ⟨trivial, rfl⟩

theorem isPlain_nat {n : Nat} (h : n < 2 ^ 64) : IsPlain (nat n) := ⟨⟨by omega, by omega⟩, rfl⟩

theorem isPlain_list {vs : List Json} (h : ∀ v ∈ vs, IsPlain v) : IsPlain (list vs) where
  isWritable := areWritable_iff.mpr fun v hv => (h v hv).isWritable
  reread_eq := by
    rw [reread, rereadAll_eq, List.map_congr_left fun v hv => (h v hv).reread_eq, List.map_id']

theorem isPlain_object {ms : List (String × Json)} (h : ∀ m ∈ ms, IsPlain m.2) : IsPlain (object ms) where
  isWritable := areWritableMembers_iff.mpr fun m hm => (h m hm).isWritable
  reread_eq := by
    have hmap : (ms.map fun m => (m.1, m.2.reread)) = ms.map id :=
      List.map_congr_left fun m hm => Prod.ext rfl (h m hm).reread_eq
    rw [reread, rereadMembers_eq, hmap, List.map_id]

@[simp] theorem isPlain_texts (ss : List String) : IsPlain (texts ss) :=
  isPlain_list fun _ hv => by
    obtain ⟨s, -, rfl⟩ := List.mem_map.mp hv
    exact isPlain_text s

theorem isPlain_ofOption {α : Type} {f : α → Json} {o : Option α} (h : ∀ a ∈ o, IsPlain (f a)) :
    IsPlain (ofOption f o) := by
  cases o with
  | none => exact isPlain_null
  | some a => exact h a rfl

/-! ## Reading forms -/

theorem nat64?_nat {n : Nat} (h : n < 2 ^ 64) : nat64? (nat n) = some n := by
  have hn : 0 ≤ (n : Int) ∧ (n : Int) < (Nat.pow 2 64 : Nat) := ⟨by omega, by exact_mod_cast h⟩
  simp only [nat64?, nat, hn, and_self, if_true, Int.toNat_natCast]

theorem nat32?_nat {n : Nat} (h : n < 2 ^ 32) : nat32? (nat n) = some n := by
  have hn : 0 ≤ (n : Int) ∧ (n : Int) < (Nat.pow 2 32 : Nat) := ⟨by omega, by exact_mod_cast h⟩
  simp only [nat32?, nat, hn, and_self, if_true, Int.toNat_natCast]

theorem mapM_map_eq_some {α β : Type} {encode : α → β} {decode : β → Option α} : ∀ {as : List α},
    (∀ a ∈ as, decode (encode a) = some a) → (as.map encode).mapM decode = some as
  | [], _ => rfl
  | a :: as, h =>
    mapM_cons_eq_some.mpr
      ⟨a, as, h a List.mem_cons_self, mapM_map_eq_some fun b hb => h b (List.mem_cons_of_mem a hb), rfl⟩

theorem list?_map {α : Type} {encode : α → Json} {decode : Json → Option α} {as : List α}
    (h : ∀ a ∈ as, decode (encode a) = some a) : list? decode (list (as.map encode)) = some as := mapM_map_eq_some h

theorem texts?_texts (ss : List String) : list? text? (texts ss) = some ss := list?_map fun _ _ => rfl

theorem orNull_of_ne {α : Type} {decode : Json → Option α} {v : Json} (h : v ≠ null) :
    Fields.orNull decode v = (decode v).map some := by
  unfold Fields.orNull
  split
  · exact absurd rfl h
  · rfl

theorem orNull_ofOption {α : Type} {encode : α → Json} {decode : Json → Option α} {o : Option α}
    (hne : ∀ a, encode a ≠ null) (h : ∀ a ∈ o, decode (encode a) = some a) :
    Fields.orNull decode (ofOption encode o) = some o := by
  cases o with
  | none => rfl
  | some a => rw [ofOption, orNull_of_ne (hne a), h a rfl, Option.map_some]

end Json

/-! ## Tables -/

@[simp] theorem Table.isPlain_toJson (t : Table String) : IsPlain t.toJson :=
  isPlain_object fun _ hm => by
    obtain ⟨e, -, rfl⟩ := List.mem_map.mp hm
    exact isPlain_text e.2

theorem Table.ofList_toList {α : Type} (t : Table α) : Table.ofList t.toList = t :=
  have hnodup : (t.toList.map (·.1)).Nodup := t.nodup_keys
  Table.ext_get? fun k => Option.ext fun a => (Table.get?_ofList hnodup k a).trans Table.mem_toList_iff

theorem Table.table?_toJson (t : Table String) : table? text? t.toJson = some t := by
  have hentries : (t.toList.map fun e => (e.1, Json.text e.2)).mapM (namedValue? text?) = some t.toList :=
    mapM_map_eq_some fun _ _ => rfl
  exact Option.map_eq_some_iff.mpr ⟨_, hentries, t.ofList_toList⟩

/-! ## Names -/

theorem Comparison.ofName?_symbol (c : Comparison) : ofName? c.symbol = some c := by cases c <;> decide

theorem Weekday.ofName?_name (d : Weekday) : ofName? d.name = some d := by cases d <;> decide

theorem DatasourceKind.ofJson?_toJson (k : DatasourceKind) : ofJson? k.toJson = some k :=
  congrArg some (ofName_name k)

@[simp] theorem Status.isPlain_toJson (s : Status) : IsPlain s.toJson := isPlain_text _

@[simp] theorem Severity.isPlain_toJson (s : Severity) : IsPlain s.toJson := isPlain_text _

@[simp] theorem TimeUnit.isPlain_toJson (u : TimeUnit) : IsPlain u.toJson := isPlain_text _

@[simp] theorem DatasourceKind.isPlain_toJson (k : DatasourceKind) : IsPlain k.toJson := isPlain_text _

/-! ## Structures -/

/-- An object of all members of a structure, each of them once. -/
theorem fields?_all {ms : List (String × Json)} {names : List String} (hnames : ms.map (·.1) = names)
    (h : names.Nodup) : fields? names (.object ms) = some ⟨false, ms⟩ := by
  have hknown : known names ms = ms := by
    refine List.filter_eq_self.mpr fun m hm => List.contains_iff_mem.mpr ?_
    rw [← hnames]
    exact List.mem_map_of_mem hm
  have hnodup : ((known names ms).map (·.1)).Nodup := by rwa [hknown, hnames]
  rw [fields?_object hnodup, hknown]

section Chain

variable {α β : Type} {f : Fields} {name : String} {decode : Json → Option α} {v : Json} {a : α}

theorem bind_of_eq_some {x : Option α} {k : α → Option β} {b : β} (hx : x = some a) (hk : k a = some b) :
    (x >>= k) = some b := by rw [hx]; exact hk

theorem required_of_get? (hv : f.get? name = some v) (ha : decode v = some a) : f.required name decode = some a := by
  rw [Fields.required, hv]
  exact ha

theorem withDefault_of_get? {d : α} (hv : f.get? name = some v) (ha : decode v = some a) :
    f.withDefault name decode d = some a := by
  rw [Fields.withDefault, hv]
  exact ha

theorem optional_of_get? {o : Option α} (hv : f.get? name = some v) (ho : Fields.orNull decode v = some o) :
    f.optional name decode = some o := by
  rw [Fields.optional, hv]
  exact ho

end Chain

/-! ### Intervals -/

namespace Interval

def layout : Layout := .roomy ["value", "unit"] [("unit", TimeUnit.seconds.toJson)] []

theorem stable : Stable layout.Edit ofJson? :=
  Layout.stable fun _ _ h =>
    (h.required rfl rfl).bind fun _value =>
    (h.withDefault rfl rfl (by rfl)).bind fun _unit =>
    Keeps.refl _

variable {i : Interval}

theorem isPlain_toJson (h : i.value < 2 ^ 64) : IsPlain i.toJson :=
  isPlain_object (by simp [isPlain_nat h])

theorem ofJson?_toJson (h : i.value < 2 ^ 64) : ofJson? i.toJson = some i :=
  bind_of_eq_some (fields?_all rfl (by decide)) <|
  bind_of_eq_some (required_of_get? rfl (nat64?_nat h)) <|
  bind_of_eq_some (withDefault_of_get? rfl (TimeUnit.ofName?_name _))
  rfl

end Interval

/-! ### Effective times -/

namespace EffectiveTime

def layout : Layout := .roomy ["weekdays", "start_minute", "end_minute"] [("weekdays", .list [])] []

theorem stable : Stable layout.Edit ofJson? :=
  Layout.stable fun _ _ h =>
    (h.withDefault rfl rfl (by rfl)).bind fun _weekdays =>
    (h.required rfl rfl).bind fun _startMinute =>
    (h.required rfl rfl).bind fun _endMinute =>
    Keeps.refl _

/-- The minutes are numbers of 32 bits. -/
def Fits (w : EffectiveTime) : Prop := w.startMinute < 2 ^ 32 ∧ w.endMinute < 2 ^ 32

variable {w : EffectiveTime}

theorem isPlain_toJson (h : w.Fits) : IsPlain w.toJson := by
  have hstart : w.startMinute < 2 ^ 64 := h.1.trans (by decide)
  have hend : w.endMinute < 2 ^ 64 := h.2.trans (by decide)
  have hdays : IsPlain (.list (w.weekdays.map fun d => .text d.name)) :=
    isPlain_list fun _ hv => by
      obtain ⟨d, -, rfl⟩ := List.mem_map.mp hv
      exact isPlain_text _
  exact isPlain_object (by simp [hdays, isPlain_nat hstart, isPlain_nat hend])

theorem ofJson?_toJson (h : w.Fits) : ofJson? w.toJson = some w :=
  bind_of_eq_some (fields?_all rfl (by decide)) <|
  bind_of_eq_some (withDefault_of_get? rfl (list?_map fun d _ => Weekday.ofName?_name d)) <|
  bind_of_eq_some (required_of_get? rfl (nat32?_nat h.1)) <|
  bind_of_eq_some (required_of_get? rfl (nat32?_nat h.2))
  rfl

end EffectiveTime

/-! ### Fault centers -/

namespace FaultCenter

def layout : Layout :=
  .roomy ["id", "name", "recover_wait_secs"] [("name", .text ""), ("recover_wait_secs", .nat 0)] []

theorem stable : Stable layout.Edit ofJson? :=
  Layout.stable fun _ _ h =>
    (h.required rfl rfl).bind fun _id =>
    (h.withDefault rfl rfl (by rfl)).bind fun _name =>
    (h.withDefault rfl rfl (by rfl)).bind fun _recoverWaitSecs =>
    Keeps.refl _

variable {c : FaultCenter}

theorem isPlain_toJson (h : c.recoverWaitSecs < 2 ^ 64) : IsPlain c.toJson :=
  isPlain_object (by simp [isPlain_nat h])

theorem ofJson?_toJson (h : c.recoverWaitSecs < 2 ^ 64) : ofJson? c.toJson = some c :=
  bind_of_eq_some (fields?_all rfl (by decide)) <|
  bind_of_eq_some (required_of_get? rfl rfl) <|
  bind_of_eq_some (withDefault_of_get? rfl rfl) <|
  bind_of_eq_some (withDefault_of_get? rfl (nat64?_nat h))
  rfl

end FaultCenter

end Alerting
