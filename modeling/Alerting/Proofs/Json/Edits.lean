import Alerting.Json.Decode
import Mathlib.Logic.Relation

/-!
# Edits that readers do not notice

A JSON form may be edited where its reader does not look or knows a default: a structure takes members of unknown
names, and members that hold their defaults may go (`Layout.Edit`); elements of lists and members are edited inside
(`InElem`); a table may be listed in another order (`Reordered`).

`Stable` says that an edit does not change what is read. It is a property of single edits and carries over to any
number of them (`Stable.run`). For a structure it follows from its members one by one: each of them is read with the
same result before and after the edit (`FieldsEdit.required`, `FieldsEdit.requiredInside`, `FieldsEdit.withDefault`,
`FieldsEdit.withDefaultInside`, `FieldsEdit.optional`), and `Keeps.bind` chains them as the reader does.
-/

namespace Alerting.Json

/-! ## Edits -/

/-- What a form may become. -/
abbrev Change := Json → Json → Prop

/-- What is known of the members of a structure. -/
structure Layout where
  names : List String
  /-- The members that may be missing, with what they hold then. -/
  defaults : List (String × Json)
  /-- The members that are edited inside. -/
  inner : List (String × Change)
  /-- What members of unknown names may hold. -/
  Room : Json → Prop

/-- A layout where members of unknown names may hold anything. -/
def Layout.roomy (names : List String) (defaults : List (String × Json)) (inner : List (String × Change)) : Layout :=
  ⟨names, defaults, inner, fun _ => True⟩

/-- One edit of a structure. -/
inductive Layout.Edit (l : Layout) : Change
  | add {before behind : List (String × Json)} {name : String} {v : Json} (hname : name ∉ l.names) (hv : l.Room v) :
      Edit l (object (before ++ behind)) (object (before ++ (name, v) :: behind))
  | drop {before behind : List (String × Json)} {name : String} {v : Json} (hv : l.defaults.lookup name = some v) :
      Edit l (object (before ++ (name, v) :: behind)) (object (before ++ behind))
  | inside {before behind : List (String × Json)} {name : String} {change : Change} {v w : Json}
      (hchange : l.inner.lookup name = some change) (hv : change v w) :
      Edit l (object (before ++ (name, v) :: behind)) (object (before ++ (name, w) :: behind))

/-- One element of a list is edited. -/
inductive InElem (change : Change) : Change
  | mk {before behind : List Json} {v w : Json} (hv : change v w) :
      InElem change (list (before ++ v :: behind)) (list (before ++ w :: behind))

/-- A table is listed in another order. -/
inductive Reordered : Change
  | mk {ms ms' : List (String × Json)} (hnodup : (ms.map (·.1)).Nodup) (hperm : ms.Perm ms') :
      Reordered (object ms) (object ms')

/-! ## Stability -/

section Keeps

variable {α β : Type}

/-- What is found is still found. -/
def Keeps (x y : Option α) : Prop := ∀ a, x = some a → y = some a

theorem Keeps.refl (x : Option α) : Keeps x x := fun _ h => h

theorem Keeps.bind {x y : Option α} {k k' : α → Option β} (h : Keeps x y) (hk : ∀ a, Keeps (k a) (k' a)) :
    Keeps (x >>= k) (y >>= k') := fun b hb => by
  obtain ⟨a, ha, hb⟩ := Option.bind_eq_some_iff.mp hb
  exact Option.bind_eq_some_iff.mpr ⟨a, h a ha, hk a b hb⟩

/-- Whatever is read is still read after the change. -/
def Stable (change : Change) (decode : Json → Option α) : Prop := ∀ v w, change v w → Keeps (decode v) (decode w)

/-- **What is stable under one edit is stable under any number of them.** -/
theorem Stable.run {change : Change} {decode : Json → Option α} (h : Stable change decode) :
    Stable (Relation.ReflTransGen change) decode := fun v w hvw a ha => by
  induction hvw with
  | refl => exact ha
  | tail _ hstep ih => exact h _ _ hstep a ih

end Keeps

/-! ## Members -/

section Members

variable {α : Type} {l : Layout} {f f' : Fields} {name : String} {decode : Json → Option α}

/-- What one edit makes of a member. -/
inductive Layout.MemberEdit (l : Layout) (name : String) : Option Json → Option Json → Prop
  | same (o : Option Json) : MemberEdit l name o o
  | drop {v : Json} (hv : l.defaults.lookup name = some v) : MemberEdit l name (some v) none
  | inside {change : Change} {v w : Json} (hchange : l.inner.lookup name = some change) (hv : change v w) :
      MemberEdit l name (some v) (some w)

/-- What one edit makes of the members of a structure. -/
structure FieldsEdit (l : Layout) (f f' : Fields) : Prop where
  byPlace : f.byPlace = f'.byPlace
  member : ∀ name, l.MemberEdit name (f.get? name) (f'.get? name)

/-- A reader of a member that takes a default for a missing one, and an edited one for the old one, keeps its result. -/
theorem Layout.MemberEdit.keeps {o o' : Option Json} (h : l.MemberEdit name o o') (read : Option Json → Option α)
    (hdrop : ∀ v, l.defaults.lookup name = some v → Keeps (read (some v)) (read none))
    (hinside : ∀ change, l.inner.lookup name = some change → Stable change fun v => read (some v)) :
    Keeps (read o) (read o') := by
  cases h with
  | same o => exact Keeps.refl _
  | drop hv => exact hdrop _ hv
  | inside hchange hv => exact hinside _ hchange _ _ hv

theorem FieldsEdit.required (h : FieldsEdit l f f') (hdefault : l.defaults.lookup name = none)
    (hinner : l.inner.lookup name = none) : Keeps (f.required name decode) (f'.required name decode) :=
  (h.member name).keeps (·.bind decode) (fun _ hv => nomatch hdefault.symm.trans hv)
    fun _ hchange => nomatch hinner.symm.trans hchange

/-- A member that is edited inside. -/
theorem FieldsEdit.requiredInside {change : Change} (h : FieldsEdit l f f') (hdefault : l.defaults.lookup name = none)
    (hinner : l.inner.lookup name = some change) (hstable : Stable change decode) :
    Keeps (f.required name decode) (f'.required name decode) :=
  (h.member name).keeps (·.bind decode) (fun _ hv => nomatch hdefault.symm.trans hv)
    fun _ hchange => Option.some.inj (hinner.symm.trans hchange) ▸ hstable

theorem optional_eq_elim (f : Fields) (name : String) (decode : Json → Option α) :
    f.optional name decode =
      (f.get? name).elim (if f.byPlace then none else some none) (Fields.orNull decode) := by
  unfold Fields.optional
  cases f.get? name <;> rfl

theorem withDefault_eq_elim (f : Fields) (name : String) (decode : Json → Option α) (a : α) :
    f.withDefault name decode a = (f.get? name).elim (some a) decode := by
  unfold Fields.withDefault
  cases f.get? name <;> rfl

theorem FieldsEdit.optional (h : FieldsEdit l f f') (hdefault : l.defaults.lookup name = none)
    (hinner : l.inner.lookup name = none) : Keeps (f.optional name decode) (f'.optional name decode) := by
  rw [optional_eq_elim, optional_eq_elim, h.byPlace]
  exact (h.member name).keeps (·.elim (if f'.byPlace then none else some none) (Fields.orNull decode))
    (fun _ hv => nomatch hdefault.symm.trans hv) fun _ hchange => nomatch hinner.symm.trans hchange

/-- A member with a default, which its reader knows too. -/
theorem FieldsEdit.withDefaultOf {d : Json} {a : α} (h : FieldsEdit l f f')
    (hdefault : l.defaults.lookup name = some d) (hd : decode d = some a)
    (hinner : ∀ change, l.inner.lookup name = some change → Stable change decode) :
    Keeps (f.withDefault name decode a) (f'.withDefault name decode a) := by
  rw [withDefault_eq_elim, withDefault_eq_elim]
  exact (h.member name).keeps (·.elim (some a) decode)
    (fun _ hv _ hb => hd.symm.trans (Option.some.inj (hdefault.symm.trans hv) ▸ hb)) hinner

theorem FieldsEdit.withDefault {d : Json} {a : α} (h : FieldsEdit l f f') (hdefault : l.defaults.lookup name = some d)
    (hinner : l.inner.lookup name = none) (hd : decode d = some a) :
    Keeps (f.withDefault name decode a) (f'.withDefault name decode a) :=
  h.withDefaultOf hdefault hd fun _ hchange => nomatch hinner.symm.trans hchange

theorem FieldsEdit.withDefaultInside {d : Json} {a : α} {change : Change} (h : FieldsEdit l f f')
    (hdefault : l.defaults.lookup name = some d) (hinner : l.inner.lookup name = some change) (hd : decode d = some a)
    (hstable : Stable change decode) : Keeps (f.withDefault name decode a) (f'.withDefault name decode a) :=
  h.withDefaultOf hdefault hd fun _ hchange => Option.some.inj (hinner.symm.trans hchange) ▸ hstable

end Members

/-! ## Structures -/

section Structures

variable {α : Type} {l : Layout} {name : String} {v : Json} {before behind : List (String × Json)}

theorem lookup_between (hnodup : ((before ++ (name, v) :: behind).map (·.1)).Nodup) :
    List.lookup name (before ++ (name, v) :: behind) = some v ∧ List.lookup name (before ++ behind) = none := by
  rw [List.map_append, List.map_cons, List.perm_middle.nodup_iff] at hnodup
  have hnot := (List.nodup_cons.mp hnodup).1
  rw [← List.map_append] at hnot
  have hnone {ms : List (String × Json)} (h : name ∉ ms.map (·.1)) : List.lookup name ms = none :=
    List.lookup_eq_none_iff.mpr fun m hm => by
      rw [bne_iff_ne]
      rintro rfl
      exact h (List.mem_map_of_mem hm)
  refine ⟨?_, hnone hnot⟩
  rw [List.lookup_append, hnone fun h => hnot (by rw [List.map_append]; exact List.mem_append_left _ h), Option.none_or,
    List.lookup_cons_self]

theorem lookup_between_ne {name' : String} (h : name' ≠ name) :
    List.lookup name' (before ++ (name, v) :: behind) = List.lookup name' (before ++ behind) := by
  rw [List.lookup_append, List.lookup_append, List.lookup_cons, beq_eq_false_iff_ne.mpr h]

/-- The members of known names. -/
def known (names : List String) (ms : List (String × Json)) : List (String × Json) :=
  ms.filter fun m => names.contains m.1

theorem fields?_object {names : List String} {ms : List (String × Json)} (h : ((known names ms).map (·.1)).Nodup) :
    fields? names (object ms) = some ⟨false, known names ms⟩ := if_pos h

theorem of_fields?_object {names : List String} {ms : List (String × Json)} {f : Fields}
    (h : fields? names (object ms) = some f) :
    ((known names ms).map (·.1)).Nodup ∧ f = ⟨false, known names ms⟩ := by
  by_cases hn : ((known names ms).map (·.1)).Nodup
  · exact ⟨hn, (Option.some.inj ((fields?_object hn).symm.trans h)).symm⟩
  · have hnone : fields? names (object ms) = none := if_neg hn
    rw [hnone] at h
    cases h

theorem known_between_of_not_mem {names : List String} (h : name ∉ names) :
    known names (before ++ (name, v) :: behind) = known names (before ++ behind) := by
  simp [known, h]

theorem known_between_of_mem {names : List String} (h : name ∈ names) :
    known names (before ++ (name, v) :: behind) = known names before ++ (name, v) :: known names behind := by
  simp [known, h]

theorem FieldsEdit.of_eq {f f' : Fields} (h : f = f') : FieldsEdit l f f' := h ▸ ⟨rfl, fun _ => .same _⟩

/-- Two lists of members that differ in one member at most. -/
theorem FieldsEdit.between {f f' : Fields} (name : String) (hplace : f.byPlace = f'.byPlace)
    (hmember : l.MemberEdit name (f.get? name) (f'.get? name))
    (hother : ∀ name', name' ≠ name → f.get? name' = f'.get? name') : FieldsEdit l f f' where
  byPlace := hplace
  member name' := by
    by_cases h : name' = name
    · rw [h]
      exact hmember
    · rw [hother name' h]
      exact .same _

/-- **One edit of a structure leaves its known members, drops one that holds its default, or edits one inside.** -/
theorem fields?_edit {v w : Json} {f : Fields} (h : l.Edit v w) (hf : fields? l.names v = some f) :
    ∃ f', fields? l.names w = some f' ∧ FieldsEdit l f f' := by
  cases h with
  | @add before behind name v hname hv =>
    obtain ⟨hnodup, rfl⟩ := of_fields?_object hf
    rw [← known_between_of_not_mem (v := v) hname] at hnodup ⊢
    exact ⟨_, fields?_object hnodup, .of_eq rfl⟩
  | @drop before behind name v hv =>
    obtain ⟨hnodup, rfl⟩ := of_fields?_object hf
    by_cases hname : name ∈ l.names
    · rw [known_between_of_mem hname] at hnodup ⊢
      have hknown : known l.names (before ++ behind) = known l.names before ++ known l.names behind := by simp [known]
      have hsub := (List.Sublist.append_left (List.sublist_cons_self (name, v) (known l.names behind))
        (known l.names before)).map (·.1)
      refine ⟨_, fields?_object (hknown ▸ hnodup.sublist hsub), .between name rfl ?_ fun name' hne => ?_⟩
      · rw [hknown, Fields.get?, Fields.get?, (lookup_between hnodup).1, (lookup_between hnodup).2]
        exact .drop hv
      · rw [hknown]
        exact lookup_between_ne hne
    · rw [known_between_of_not_mem hname] at hnodup ⊢
      exact ⟨_, fields?_object hnodup, .of_eq rfl⟩
  | @inside before behind name change v w hchange hv =>
    obtain ⟨hnodup, rfl⟩ := of_fields?_object hf
    by_cases hname : name ∈ l.names
    · have hw : ((known l.names (before ++ (name, w) :: behind)).map (·.1)).Nodup := by
        rw [known_between_of_mem hname] at hnodup ⊢
        simpa using hnodup
      refine ⟨_, fields?_object hw, .between name rfl ?_ fun name' hne => ?_⟩
      · rw [known_between_of_mem hname] at hnodup hw ⊢
        rw [known_between_of_mem hname, Fields.get?, Fields.get?, (lookup_between hnodup).1, (lookup_between hw).1]
        exact .inside hchange hv
      · rw [known_between_of_mem hname, known_between_of_mem hname]
        exact (lookup_between_ne hne).trans (lookup_between_ne hne).symm
    · rw [known_between_of_not_mem hname, ← known_between_of_not_mem (v := w) hname] at hnodup ⊢
      exact ⟨_, fields?_object hnodup, .of_eq rfl⟩

/-- The reader of a structure is stable if what it does with the known members is. -/
theorem Layout.stable {body : Fields → Option α} (h : ∀ f f', FieldsEdit l f f' → Keeps (body f) (body f')) :
    Stable l.Edit fun v => fields? l.names v >>= body := fun v w hvw a ha => by
  obtain ⟨f, hf, ha⟩ := Option.bind_eq_some_iff.mp ha
  obtain ⟨f', hf', hedit⟩ := fields?_edit hvw hf
  exact Option.bind_eq_some_iff.mpr ⟨f', hf', h f f' hedit a ha⟩

/-- A structure that may be null: null is not edited. -/
theorem Layout.stable_orNull {decode : Json → Option α} (h : Stable l.Edit decode) :
    Stable l.Edit (Fields.orNull decode) := fun v w hvw b hb => by
  have hread {ms : List (String × Json)} : Fields.orNull decode (object ms) = (decode (object ms)).map some := rfl
  have hkeep := h v w hvw
  cases hvw <;>
  · rw [hread] at hb ⊢
    obtain ⟨a, ha, rfl⟩ := Option.map_eq_some_iff.mp hb
    rw [hkeep a ha, Option.map_some]

end Structures

/-! ## Lists and tables -/

section Lists

variable {α β : Type}

theorem mapM_cons_eq_some {f : α → Option β} {a : α} {as : List α} {bs : List β} :
    (a :: as).mapM f = some bs ↔ ∃ b bs', f a = some b ∧ as.mapM f = some bs' ∧ bs = b :: bs' := by
  rw [List.mapM_cons]
  simp only [bind, Option.bind_eq_some_iff, pure, Option.some.injEq]
  constructor
  · rintro ⟨b, hb, bs', hbs, rfl⟩
    exact ⟨b, bs', hb, hbs, rfl⟩
  · rintro ⟨b, bs', hb, hbs, rfl⟩
    exact ⟨b, hb, bs', hbs, rfl⟩

/-- The results of a list in another order are the results in that order. -/
theorem mapM_perm {f : α → Option β} {as as' : List α} (h : as.Perm as') :
    ∀ {bs : List β}, as.mapM f = some bs → ∃ bs', as'.mapM f = some bs' ∧ bs.Perm bs' := by
  induction h with
  | nil => exact fun h => ⟨_, h, .refl _⟩
  | cons a _ ih =>
    intro bs h
    obtain ⟨b, bs, hb, hbs, rfl⟩ := mapM_cons_eq_some.mp h
    obtain ⟨bs', hbs', hperm⟩ := ih hbs
    exact ⟨b :: bs', mapM_cons_eq_some.mpr ⟨b, bs', hb, hbs', rfl⟩, hperm.cons b⟩
  | swap a₁ a₂ as =>
    intro bs h
    obtain ⟨b₂, _, hb₂, htail, rfl⟩ := mapM_cons_eq_some.mp h
    obtain ⟨b₁, bs, hb₁, hbs, rfl⟩ := mapM_cons_eq_some.mp htail
    have htail := mapM_cons_eq_some.mpr ⟨b₂, bs, hb₂, hbs, rfl⟩
    exact ⟨b₁ :: b₂ :: bs, mapM_cons_eq_some.mpr ⟨b₁, b₂ :: bs, hb₁, htail, rfl⟩, .swap ..⟩
  | trans _ _ ih₁ ih₂ =>
    intro bs h
    obtain ⟨bs₁, h₁, hperm₁⟩ := ih₁ h
    obtain ⟨bs₂, h₂, hperm₂⟩ := ih₂ h₁
    exact ⟨bs₂, h₂, hperm₁.trans hperm₂⟩

/-- The entry of a table that a member stands for. -/
def namedValue? (decode : Json → Option α) (m : String × Json) : Option (String × α) :=
  (decode m.2).map fun a => (m.1, a)

theorem keys_of_mapM_namedValue? {decode : Json → Option α} {ms : List (String × Json)} :
    ∀ {es : List (String × α)}, ms.mapM (namedValue? decode) = some es → es.map (·.1) = ms.map (·.1) := by
  induction ms with
  | nil =>
    intro es h
    cases h
    rfl
  | cons m ms ih =>
    intro es h
    obtain ⟨e, es, he, hes, rfl⟩ := mapM_cons_eq_some.mp h
    obtain ⟨a, -, rfl⟩ := Option.map_eq_some_iff.mp he
    rw [List.map_cons, List.map_cons, ih hes]

theorem Reordered.stable (decode : Json → Option α) : Stable Reordered (table? decode) := by
  rintro _ _ ⟨hnodup, hperm⟩ t ht
  obtain ⟨es, hes, rfl⟩ := Option.map_eq_some_iff.mp ht
  obtain ⟨es', hes', hperm'⟩ := mapM_perm hperm hes
  have hkeys := keys_of_mapM_namedValue? hes
  refine Option.map_eq_some_iff.mpr ⟨es', hes', Table.ext_get? fun k => Option.ext fun a => ?_⟩
  rw [Table.get?_ofList ((hperm'.map _).nodup_iff.mp (hkeys ▸ hnodup)), Table.get?_ofList (hkeys ▸ hnodup)]
  exact hperm'.mem_iff.symm

theorem InElem.stable {change : Change} {decode : Json → Option α} (h : Stable change decode) :
    Stable (InElem change) (list? decode) := by
  rintro _ _ ⟨hv⟩ as has
  have hread (vs : List Json) : list? decode (list vs) = vs.mapM decode := rfl
  rw [hread, List.mapM_append] at has ⊢
  refine (Keeps.refl _).bind (fun as => ?_) _ has
  rw [List.mapM_cons, List.mapM_cons]
  exact ((h _ _ hv).bind fun _ => Keeps.refl _).bind fun _ => Keeps.refl _

end Lists

end Alerting.Json
