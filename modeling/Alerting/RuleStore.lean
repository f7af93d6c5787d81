import Alerting.Rule.Basic

/-!
# The rule store

The rules that exist, by id. Only rules that can be scheduled are stored.
-/

namespace Alerting

/-- The stored rules, by id. -/
structure RuleStore where
  rules : Table Rule
  deriving DecidableEq

namespace RuleStore

def empty : RuleStore := ⟨.empty⟩

instance : Inhabited RuleStore := ⟨empty⟩

/-- Adds a rule or replaces the one of its id. -/
def upsert (s : RuleStore) (r : Rule) : Except EngineError RuleStore :=
  match r.validate with
  | .ok () => .ok ⟨s.rules.insert r.id r⟩
  | .error e => .error e

/-- Removes a rule, and says whether it was there. -/
def remove (s : RuleStore) (id : String) : Bool × RuleStore := (s.rules.contains id, ⟨s.rules.erase id⟩)

/-- Switches a rule on or off. -/
def setEnabled (s : RuleStore) (id : String) (enabled : Bool) : Except EngineError RuleStore :=
  match s.rules.get? id with
  | some r => .ok ⟨s.rules.insert id { r with enabled := enabled }⟩
  | none => .error (.ruleNotFound id)

/-- The rule of an id, if it belongs to the tenant. -/
def get? (s : RuleStore) (tenant id : String) : Option Rule := (s.rules.get? id).filter (·.tenantId == tenant)

def enabled (s : RuleStore) : List Rule := s.rules.values.filter (·.enabled)

def size (s : RuleStore) : Nat := s.rules.size

/-! ## Histories -/

/-- A change that is asked of the store. -/
inductive Edit
  | upsert (rule : Rule)
  | remove (id : String)
  | setEnabled (id : String) (enabled : Bool)

/-- The store after a change; one that is refused leaves it as it was. -/
def edit (s : RuleStore) : Edit → RuleStore
  | .upsert rule => (s.upsert rule).toOption.getD s
  | .remove id => (s.remove id).2
  | .setEnabled id enabled => (s.setEnabled id enabled).toOption.getD s

/-- The store after some changes, the first one first. -/
def run (edits : List Edit) : RuleStore := edits.foldl edit empty

/-- Every rule is stored under its id, and can be scheduled. -/
def Sound (s : RuleStore) : Prop := ∀ id r, s.rules.get? id = some r → r.id = id ∧ r.validate = .ok ()

theorem sound_empty : Sound empty := fun _ _ h => nomatch h

theorem Sound.insert {s : RuleStore} (h : s.Sound) {r : Rule} (hv : r.validate = .ok ()) :
    Sound ⟨s.rules.insert r.id r⟩ := by
  intro id r' hr
  rw [Table.get?_insert] at hr
  split at hr
  · next hid =>
    cases hr
    exact ⟨hid.symm, hv⟩
  · exact h id r' hr

/-- **Every change keeps the rules under their ids and able to be scheduled.** -/
theorem Sound.edit {s : RuleStore} (h : s.Sound) (e : Edit) : (s.edit e).Sound := by
  cases e with
  | upsert rule =>
    simp only [RuleStore.edit, upsert]
    split
    · next hv => exact h.insert hv
    · exact h
  | remove id =>
    intro id' r hr
    have hr' : (s.rules.erase id).get? id' = some r := hr
    rw [Table.get?_erase] at hr'
    split at hr'
    · cases hr'
    · exact h id' r hr'
  | setEnabled id enabled =>
    simp only [RuleStore.edit, setEnabled]
    split
    · next r hr =>
      obtain ⟨rfl, hv⟩ := h id r hr
      exact h.insert (r := { r with enabled := enabled }) hv
    · exact h

theorem sound_run (edits : List Edit) : (run edits).Sound := by
  have hfold : ∀ s : RuleStore, s.Sound → (edits.foldl RuleStore.edit s).Sound := by
    induction edits with
    | nil => exact fun _ h => h
    | cons e edits ih => exact fun s h => ih (s.edit e) (h.edit e)
  exact hfold empty sound_empty

theorem Sound.id_eq {s : RuleStore} (h : s.Sound) {tenant id : String} {r : Rule} (hr : s.get? tenant id = some r) :
    r.id = id := (h id r (Option.filter_eq_some_iff.mp hr).1).1

theorem Sound.validate_of_mem_enabled {s : RuleStore} (h : s.Sound) {r : Rule} (hr : r ∈ s.enabled) :
    r.validate = .ok () := by
  obtain ⟨id, hid⟩ := Table.mem_values.mp (List.mem_filter.mp hr).1
  exact (h id r hid).2

/-- The rules that are switched on have different ids. -/
theorem Sound.nodup_enabled {s : RuleStore} (h : s.Sound) : (s.enabled.map (·.id)).Nodup := by
  have hkeys : s.rules.values.map (·.id) = s.rules.keys := by
    rw [Table.values, Table.keys, List.map_map]
    refine List.map_congr_left fun e he => ?_
    exact (h e.1 e.2 (Table.mem_toList_iff.mp he)).1
  have hsub : (s.enabled.map (·.id)).Sublist s.rules.keys := by
    rw [← hkeys]
    exact List.filter_sublist.map _
  exact hsub.nodup (Table.nodup_keys _)

end RuleStore

end Alerting
