/-!
# Finite tables with text keys

A `Table α` maps finitely many texts to values of `α`. Its entries are kept in strictly increasing order of
their keys, so a table is determined by its lookups (`Table.ext_get?`) and listing it needs no further sorting.

Every operation is known through `get?`: `get?_insert`, `get?_erase`, `get?_filter`, `mem_toList_iff`.
-/

namespace Alerting

/-- A finite map from texts to values, listed in increasing order of the keys. -/
structure Table (α : Type) where
  /-- The entries, by increasing key. -/
  entries : List (String × α)
  /-- No key is listed twice, and the keys increase. -/
  sorted : entries.Pairwise (fun a b => a.1 < b.1)
  deriving DecidableEq

namespace Table

variable {α β : Type}

/-- Two tables with the same entries are equal. -/
theorem eq_of_entries {s t : Table α} (h : s.entries = t.entries) : s = t := by
  cases s; cases t; cases h; rfl

def empty : Table α := ⟨[], List.Pairwise.nil⟩

instance : Inhabited (Table α) := ⟨empty⟩

/-- The entries, by increasing key. -/
def toList (t : Table α) : List (String × α) := t.entries

/-- The keys, increasing. -/
def keys (t : Table α) : List String := t.entries.map (·.1)

/-- The values, by increasing key. -/
def values (t : Table α) : List α := t.entries.map (·.2)

def size (t : Table α) : Nat := t.entries.length

def isEmpty (t : Table α) : Bool := t.entries.isEmpty

/-! ## Lookup -/

/-- The value of the first entry with the key `k`. -/
def lookup (k : String) : List (String × α) → Option α
  | [] => none
  | (k', v) :: es => if k = k' then some v else lookup k es

/-- The value stored under `k`. -/
def get? (t : Table α) (k : String) : Option α := lookup k t.entries

def contains (t : Table α) (k : String) : Bool := (t.get? k).isSome

/-- A value that a list yields stands in the list. -/
theorem mem_of_lookup {k : String} {v : α} : ∀ {es : List (String × α)}, lookup k es = some v → (k, v) ∈ es
  | [], h => by cases h
  | (k', v') :: es, h => by
    by_cases hk : k = k'
    · simp only [lookup, hk, if_true, Option.some.injEq] at h
      subst h; subst hk; exact List.mem_cons_self
    · simp only [lookup, hk, if_false] at h
      exact List.mem_cons_of_mem _ (mem_of_lookup h)

/-- A key that no entry has yields nothing. -/
theorem lookup_eq_none {k : String} : ∀ {es : List (String × α)}, (∀ e ∈ es, k ≠ e.1) → lookup k es = none
  | [], _ => rfl
  | (k', v') :: es, h => by
    have hk : k ≠ k' := h (k', v') List.mem_cons_self
    simp only [lookup, hk, if_false]
    exact lookup_eq_none fun e he => h e (List.mem_cons_of_mem _ he)

/-- In an increasing list, every entry is the one found under its key. -/
theorem lookup_of_mem {k : String} {v : α} : ∀ {es : List (String × α)}, es.Pairwise (fun a b => a.1 < b.1) →
    (k, v) ∈ es → lookup k es = some v
  | [], _, h => by cases h
  | (k', v') :: es, hs, h => by
    rcases List.pairwise_cons.mp hs with ⟨hlt, hs'⟩
    rcases List.mem_cons.mp h with h | h
    · cases h; simp [lookup]
    · have hk : k ≠ k' := fun e => String.lt_irrefl k' (by have := hlt _ h; rwa [e] at this)
      simp only [lookup, hk, if_false]
      exact lookup_of_mem hs' h

/-- The entries of a table are exactly what its keys yield. -/
theorem mem_toList_iff {t : Table α} {k : String} {v : α} : (k, v) ∈ t.toList ↔ t.get? k = some v :=
  ⟨lookup_of_mem t.sorted, mem_of_lookup⟩

@[simp] theorem get?_empty (k : String) : (empty : Table α).get? k = none := rfl

/-! ## Keys and values -/

theorem pairwise_keys (t : Table α) : t.keys.Pairwise (· < ·) := List.pairwise_map.mpr t.sorted

theorem nodup_keys (t : Table α) : t.keys.Nodup := by
  refine t.pairwise_keys.imp fun {a b} h he => ?_
  rw [he] at h
  exact String.lt_irrefl _ h

theorem mem_keys {t : Table α} {k : String} : k ∈ t.keys ↔ (t.get? k).isSome = true := by
  rw [Option.isSome_iff_exists]
  constructor
  · intro h
    obtain ⟨x, hx, rfl⟩ := List.mem_map.mp h
    exact ⟨x.2, mem_toList_iff.mp hx⟩
  · rintro ⟨v, hv⟩
    exact List.mem_map.mpr ⟨(k, v), mem_toList_iff.mpr hv, rfl⟩

theorem mem_values {t : Table α} {v : α} : v ∈ t.values ↔ ∃ k, t.get? k = some v := by
  constructor
  · intro h
    obtain ⟨x, hx, rfl⟩ := List.mem_map.mp h
    exact ⟨x.1, mem_toList_iff.mp hx⟩
  · rintro ⟨k, hk⟩
    exact List.mem_map.mpr ⟨(k, v), mem_toList_iff.mpr hk, rfl⟩

/-! ## Insertion -/

/-- Puts an entry at its place in an increasing list, over an entry of the same key. -/
def insertEntry (k : String) (v : α) : List (String × α) → List (String × α)
  | [] => [(k, v)]
  | (k', v') :: es =>
    if k < k' then (k, v) :: (k', v') :: es
    else if k = k' then (k, v) :: es
    else (k', v') :: insertEntry k v es

/-- An entry after an insertion is the new one or an old one. -/
theorem mem_insertEntry {k : String} {v : α} {e : String × α} : ∀ {es : List (String × α)},
    e ∈ insertEntry k v es → e = (k, v) ∨ e ∈ es
  | [], h => by simpa [insertEntry] using h
  | (k', v') :: es, h => by
    simp only [insertEntry] at h
    split at h
    · simpa using h
    · split at h
      · rcases List.mem_cons.mp h with h | h
        · exact .inl h
        · exact .inr (List.mem_cons_of_mem _ h)
      · rcases List.mem_cons.mp h with h | h
        · exact .inr (h ▸ List.mem_cons_self)
        · rcases mem_insertEntry h with h | h
          · exact .inl h
          · exact .inr (List.mem_cons_of_mem _ h)

/-- Two different texts are ordered one way or the other. -/
theorem lt_of_not_lt_of_ne {a b : String} (h : ¬a < b) (hne : a ≠ b) : b < a := by
  refine Decidable.byContradiction fun h' => hne ?_
  exact String.le_antisymm (String.not_lt.mp h') (String.not_lt.mp h)

/-- Insertion keeps the keys increasing. -/
theorem insertEntry_sorted (k : String) (v : α) : ∀ {es : List (String × α)},
    es.Pairwise (fun a b => a.1 < b.1) → (insertEntry k v es).Pairwise (fun a b => a.1 < b.1)
  | [], _ => by simp [insertEntry]
  | (k', v') :: es, hs => by
    rcases List.pairwise_cons.mp hs with ⟨hlt, hs'⟩
    simp only [insertEntry]
    split
    · next h =>
      refine List.pairwise_cons.mpr ⟨fun e he => ?_, hs⟩
      rcases List.mem_cons.mp he with he | he
      · cases he; exact h
      · exact String.lt_trans h (hlt e he)
    · next h =>
      split
      · next heq => subst heq; exact List.pairwise_cons.mpr ⟨hlt, hs'⟩
      · next hne =>
        refine List.pairwise_cons.mpr ⟨fun e he => ?_, insertEntry_sorted k v hs'⟩
        rcases mem_insertEntry he with he | he
        · subst he; exact lt_of_not_lt_of_ne h hne
        · exact hlt e he

/-- The table with `v` stored under `k`. -/
def insert (t : Table α) (k : String) (v : α) : Table α :=
  ⟨insertEntry k v t.entries, insertEntry_sorted k v t.sorted⟩

theorem lookup_insertEntry (k k' : String) (v : α) : ∀ (es : List (String × α)),
    lookup k' (insertEntry k v es) = if k' = k then some v else lookup k' es
  | [] => by simp [insertEntry, lookup]
  | (k₁, v₁) :: es => by
    simp only [insertEntry]
    split
    · rfl
    · split
      · next heq => subst heq; by_cases h : k' = k <;> simp [lookup, h]
      · next hne =>
        simp only [lookup, lookup_insertEntry k k' v es]
        by_cases h : k' = k₁
        · have : ¬k' = k := fun e => hne (e ▸ h)
          simp [h, Ne.symm hne]
        · simp [h]

/-- A lookup after an insertion sees the new value under its key and the old ones elsewhere. -/
theorem get?_insert (t : Table α) (k k' : String) (v : α) :
    (t.insert k v).get? k' = if k' = k then some v else t.get? k' :=
  lookup_insertEntry k k' v t.entries

@[simp] theorem get?_insert_self (t : Table α) (k : String) (v : α) : (t.insert k v).get? k = some v := by
  simp [get?_insert]

/-! ## Filtering and removal -/

def filter (t : Table α) (p : String → α → Bool) : Table α :=
  ⟨t.entries.filter fun e => p e.1 e.2, t.sorted.filter _⟩

def erase (t : Table α) (k : String) : Table α := t.filter fun k' _ => k' != k

theorem lookup_filter (p : String → α → Bool) (k : String) : ∀ {es : List (String × α)},
    es.Pairwise (fun a b => a.1 < b.1) →
    lookup k (es.filter fun e => p e.1 e.2) = (lookup k es).filter (p k)
  | [], _ => rfl
  | (k', v') :: es, hs => by
    rcases List.pairwise_cons.mp hs with ⟨hlt, hs'⟩
    by_cases hp : p k' v'
    · by_cases hk : k = k'
      · subst hk; simp [lookup, hp, Option.filter]
      · simp [lookup, hp, hk, lookup_filter p k hs']
    · by_cases hk : k = k'
      · subst hk
        have hnone : lookup k es = none :=
          lookup_eq_none fun e he h => String.lt_irrefl e.1 (by have := hlt e he; rwa [h] at this)
        have hrec := lookup_filter p k hs'
        rw [hnone] at hrec
        simp [lookup, hp, hrec, Option.filter]
      · simp [lookup, hp, hk, lookup_filter p k hs']

/-- A lookup after filtering sees the values that passed the test. -/
theorem get?_filter (t : Table α) (p : String → α → Bool) (k : String) :
    (t.filter p).get? k = (t.get? k).filter (p k) := lookup_filter p k t.sorted

/-- A lookup after a removal misses the removed key and sees the rest. -/
theorem get?_erase (t : Table α) (k k' : String) :
    (t.erase k).get? k' = if k' = k then none else t.get? k' := by
  rw [erase, get?_filter]
  by_cases h : k' = k
  · subst h; cases t.get? k' <;> simp
  · cases ht : t.get? k' <;> simp [h]

/-! ## Building -/

/-- The table of a list of entries; a later entry of the same key wins. -/
def ofList (es : List (String × α)) : Table α := es.foldl (fun t e => t.insert e.1 e.2) empty

/-- The table with every value replaced by its image. -/
def map (f : α → β) (t : Table α) : Table β :=
  ⟨t.entries.map fun e => (e.1, f e.2), List.pairwise_map.mpr t.sorted⟩

theorem get?_map (f : α → β) (t : Table α) (k : String) : (t.map f).get? k = (t.get? k).map f := by
  have hlookup : ∀ es : List (String × α), lookup k (es.map fun e => (e.1, f e.2)) = (lookup k es).map f := by
    intro es
    induction es with
    | nil => rfl
    | cons e es ih =>
      simp only [List.map_cons, lookup, ih]
      split <;> rfl
  exact hlookup t.entries

/-- The table with `v` under `k`, unless something is stored there already. -/
def insertIfNew (t : Table α) (k : String) (v : α) : Table α :=
  if t.contains k then t else t.insert k v

/-- A lookup after a conditional insertion prefers the old value. -/
theorem get?_insertIfNew (t : Table α) (k k' : String) (v : α) :
    (t.insertIfNew k v).get? k' = if k' = k then some ((t.get? k).getD v) else t.get? k' := by
  by_cases h : k' = k
  · subst h
    cases ht : t.get? k' <;> simp [insertIfNew, contains, ht]
  · cases ht : t.get? k <;> simp [insertIfNew, contains, ht, h, get?_insert]

theorem isSome_insert {t : Table α} {k : String} (h : (t.get? k).isSome = true) (k' : String) (v : α) :
    ((t.insert k' v).get? k).isSome = true := by
  rw [get?_insert]
  split
  · rfl
  · exact h

theorem isSome_insertIfNew {t : Table α} {k : String} (h : (t.get? k).isSome = true) (k' : String) (v : α) :
    ((t.insertIfNew k' v).get? k).isSome = true := by
  rw [get?_insertIfNew]
  split
  · rfl
  · exact h

/-- A table has all the keys of the list that it is made of. -/
theorem isSome_ofList {k : String} {es : List (String × α)} (h : k ∈ es.map (·.1)) :
    ((ofList es).get? k).isSome = true := by
  suffices hfold : ∀ t : Table α, (t.get? k).isSome = true ∨ k ∈ es.map (·.1) →
      ((es.foldl (fun t e => t.insert e.1 e.2) t).get? k).isSome = true from hfold .empty (.inr h)
  clear h
  induction es with
  | nil => exact fun t h => h.resolve_right List.not_mem_nil
  | cons e es ih =>
    rintro t (h | h)
    · exact ih _ (.inl (isSome_insert h e.1 e.2))
    · rcases List.mem_cons.mp h with rfl | h
      · exact ih _ (.inl (by rw [get?_insert_self]; rfl))
      · exact ih _ (.inr h)

/-! ## Extensionality -/

/-- The smallest key of one of two increasing lists with equal lookups stands at the head of both. -/
theorem eq_of_lookup_eq : ∀ {es fs : List (String × α)}, es.Pairwise (fun a b => a.1 < b.1) →
    fs.Pairwise (fun a b => a.1 < b.1) → (∀ k, lookup k es = lookup k fs) → es = fs
  | [], [], _, _, _ => rfl
  | [], (k, v) :: fs, _, _, h => by simpa [lookup] using h k
  | (k, v) :: es, [], _, _, h => by simpa [lookup] using h k
  | (k, v) :: es, (k', v') :: fs, hs, ht, h => by
    rcases List.pairwise_cons.mp hs with ⟨hlt, hs'⟩
    rcases List.pairwise_cons.mp ht with ⟨hlt', ht'⟩
    have hk : k = k' := by
      have h₁ : lookup k ((k', v') :: fs) = some v := by rw [← h k]; simp [lookup]
      have h₂ : lookup k' ((k, v) :: es) = some v' := by rw [h k']; simp [lookup]
      refine Decidable.byContradiction fun hne => ?_
      have m₁ : (k, v) ∈ fs := mem_of_lookup (by simpa [lookup, hne] using h₁)
      have m₂ : (k', v') ∈ es := mem_of_lookup (by simpa [lookup, Ne.symm hne] using h₂)
      exact String.lt_irrefl k (String.lt_trans (hlt _ m₂) (hlt' _ m₁))
    subst hk
    have hv : v = v' := by simpa [lookup] using h k
    subst hv
    have htail : ∀ j, lookup j es = lookup j fs := fun j => by
      by_cases hj : j = k
      · subst hj
        rw [lookup_eq_none fun e he hx => String.lt_irrefl e.1 (by have := hlt e he; rwa [hx] at this),
          lookup_eq_none fun e he hx => String.lt_irrefl e.1 (by have := hlt' e he; rwa [hx] at this)]
      · simpa [lookup, hj] using h j
    rw [eq_of_lookup_eq hs' ht' htail]

/-- **A table is determined by its lookups.** -/
theorem ext_get? {s t : Table α} (h : ∀ k, s.get? k = t.get? k) : s = t :=
  eq_of_entries (eq_of_lookup_eq s.sorted t.sorted h)

/-! ## Lists of entries -/

/-- A table made of entries with different keys has these entries. -/
theorem get?_foldl_insert {es : List (String × α)} (hn : (es.map (·.1)).Nodup) (t : Table α) (k : String) (v : α) :
    (es.foldl (fun t e => t.insert e.1 e.2) t).get? k = some v ↔
      (k, v) ∈ es ∨ k ∉ es.map (·.1) ∧ t.get? k = some v := by
  induction es generalizing t with
  | nil => simp
  | cons e es ih =>
    obtain ⟨he, hn⟩ := List.nodup_cons.mp hn
    rw [List.foldl_cons, ih hn, get?_insert]
    by_cases hk : k = e.1
    · subst hk
      have hnot : ∀ v, (e.1, v) ∉ es := fun v hv => he (List.mem_map.mpr ⟨(e.1, v), hv, rfl⟩)
      simp only [hnot, he, List.mem_cons, Prod.ext_iff, true_and, or_false, List.map_cons, not_true_eq_false,
        false_and, if_true, Option.some.injEq, not_false_eq_true, false_or]
      exact eq_comm
    · have hne : (k, v) ≠ e := fun h => hk (congrArg Prod.fst h)
      simp only [hk, hne, if_false, List.mem_cons, false_or, List.map_cons]

theorem get?_ofList {es : List (String × α)} (hn : (es.map (·.1)).Nodup) (k : String) (v : α) :
    (ofList es).get? k = some v ↔ (k, v) ∈ es := by
  rw [ofList, get?_foldl_insert hn]
  simp

/-- **The entries of a table are sorted by key, however they were listed.** -/
theorem toList_ofList {es es' : List (String × α)} (hn : (es.map (·.1)).Nodup) (hp : es.Perm es') :
    (ofList es).toList = es'.mergeSort fun a b => a.1 ≤ b.1 := by
  have htrans : ∀ a b c : String × α, decide (a.1 ≤ b.1) = true → decide (b.1 ≤ c.1) = true →
      decide (a.1 ≤ c.1) = true := by
    intro a b c hab hbc
    exact decide_eq_true (String.le_trans (of_decide_eq_true hab) (of_decide_eq_true hbc))
  have htotal : ∀ a b : String × α, (decide (a.1 ≤ b.1) || decide (b.1 ≤ a.1)) = true :=
    fun a b => by simpa using String.le_total a.1 b.1
  have hsorted := List.pairwise_mergeSort htrans htotal es'
  have hperm : (es'.mergeSort fun a b => a.1 ≤ b.1).Perm es := (List.mergeSort_perm ..).trans hp.symm
  -- keys that do not decrease increase, since no key is listed twice
  have hincreasing : (es'.mergeSort fun a b => a.1 ≤ b.1).Pairwise fun a b => a.1 < b.1 := by
    have hne : (es'.mergeSort fun a b => a.1 ≤ b.1).Pairwise fun a b => a.1 ≠ b.1 :=
      List.pairwise_map.mp ((hperm.map _).nodup_iff.mpr hn)
    refine (hsorted.and hne).imp fun {a b} ⟨hle, hne⟩ => ?_
    exact Decidable.byContradiction fun hlt =>
      hne (String.le_antisymm (of_decide_eq_true hle) (String.not_lt.mp hlt))
  have hsame : ofList es = ⟨_, hincreasing⟩ := by
    refine ext_get? fun k => Option.ext fun v => ?_
    rw [get?_ofList hn, ← mem_toList_iff]
    exact hperm.mem_iff.symm
  rw [hsame]
  rfl

end Table

end Alerting
