import Alerting.Event.Basic
import Alerting.FaultCenter

/-!
# Caches

Three caches hold the state of alerts: the latest record of every alert by fault center and fingerprint
(`EventCache`), the time since which a fingerprint is missing by tenant and rule (`PendingCache`), and the
settings of fault centers (`InfoCache`). The last writer of an entry wins.
-/

namespace Alerting

/-! ## Events -/

/-- The latest record of every alert, by key of the fault center and fingerprint. -/
structure EventCache where
  centers : Table (Table Event)
  deriving DecidableEq

namespace EventCache

def empty : EventCache := ⟨.empty⟩

instance : Inhabited EventCache := ⟨empty⟩

/-- The events under a key, by fingerprint. -/
def all (c : EventCache) (key : String) : Table Event := (c.centers.get? key).getD .empty

def find? (c : EventCache) (key fingerprint : String) : Option Event := (c.all key).get? fingerprint

def get? (c : EventCache) (tenant center fingerprint : String) : Option Event :=
  c.find? (eventsKey tenant center) fingerprint

/-- The key under which an event is stored. -/
def keyOf (e : Event) : String := eventsKey e.tenantId e.faultCenterId

/-- The cache with an event in place of an earlier one of its fingerprint. -/
def push (c : EventCache) (e : Event) : EventCache :=
  ⟨c.centers.insert (keyOf e) ((c.all (keyOf e)).insert e.fingerprint e)⟩

def remove (c : EventCache) (tenant center fingerprint : String) : EventCache :=
  match c.centers.get? (eventsKey tenant center) with
  | some events => ⟨c.centers.insert (eventsKey tenant center) (events.erase fingerprint)⟩
  | none => c

def size (c : EventCache) : Nat := c.centers.values.foldl (fun n events => n + events.size) 0

/-- A look after a push sees the pushed event at its place and the old ones elsewhere. -/
theorem find?_push (c : EventCache) (e : Event) (key fingerprint : String) :
    (c.push e).find? key fingerprint =
      if key = keyOf e ∧ fingerprint = e.fingerprint then some e else c.find? key fingerprint := by
  unfold find? all push
  by_cases h : key = keyOf e
  · subst h
    simp [Table.get?_insert, all]
  · simp [Table.get?_insert, h]

/-- A look after a removal misses the removed event and sees the rest. -/
theorem find?_remove (c : EventCache) (tenant center removed key fingerprint : String) :
    (c.remove tenant center removed).find? key fingerprint =
      if key = eventsKey tenant center ∧ fingerprint = removed then none else c.find? key fingerprint := by
  unfold find? all remove
  by_cases h : key = eventsKey tenant center
  · subst h
    cases hc : c.centers.get? (eventsKey tenant center) with
    | none => simp [hc]
    | some events => simp [Table.get?_erase]
  · cases hc : c.centers.get? (eventsKey tenant center) with
    | none => simp [h]
    | some events => simp [Table.get?_insert, h]

end EventCache

/-! ## Pending recoveries -/

/-- Since when a fingerprint is missing, by tenant, rule and fingerprint. -/
structure PendingCache where
  tenants : Table (Table (Table Instant))
  deriving DecidableEq

namespace PendingCache

def empty : PendingCache := ⟨.empty⟩

instance : Inhabited PendingCache := ⟨empty⟩

def rules (c : PendingCache) (tenant : String) : Table (Table Instant) := (c.tenants.get? tenant).getD .empty

/-- The missing fingerprints of a rule. -/
def list (c : PendingCache) (tenant rule : String) : Table Instant := ((c.rules tenant).get? rule).getD .empty

/-- Since when a fingerprint is missing. -/
def get? (c : PendingCache) (tenant rule fingerprint : String) : Option Instant :=
  (c.list tenant rule).get? fingerprint

def replace (c : PendingCache) (tenant rule : String) (entries : Table Instant) : PendingCache :=
  ⟨c.tenants.insert tenant ((c.rules tenant).insert rule entries)⟩

/-- The cache with a fingerprint missing since `time`. -/
def set (c : PendingCache) (tenant rule fingerprint : String) (time : Instant) : PendingCache :=
  c.replace tenant rule ((c.list tenant rule).insert fingerprint time)

def delete (c : PendingCache) (tenant rule fingerprint : String) : PendingCache :=
  if (c.list tenant rule).contains fingerprint then
    c.replace tenant rule ((c.list tenant rule).erase fingerprint)
  else c

/-- A list after a replacement is the new one for its rule and the old one elsewhere. -/
theorem list_replace (c : PendingCache) (tenant rule tenant' rule' : String) (entries : Table Instant) :
    (c.replace tenant rule entries).list tenant' rule' =
      if tenant' = tenant ∧ rule' = rule then entries else c.list tenant' rule' := by
  unfold list rules replace
  by_cases h : tenant' = tenant
  · subst h
    by_cases h' : rule' = rule
    · subst h'; simp
    · simp [Table.get?_insert, h', rules]
  · simp [Table.get?_insert, h]

/-- A look after an entry sees it at its place and the old ones elsewhere. -/
theorem get?_set (c : PendingCache) (tenant rule fingerprint tenant' rule' fingerprint' : String) (time : Instant) :
    (c.set tenant rule fingerprint time).get? tenant' rule' fingerprint' =
      if (tenant' = tenant ∧ rule' = rule) ∧ fingerprint' = fingerprint then some time
      else c.get? tenant' rule' fingerprint' := by
  unfold get? set
  rw [list_replace]
  by_cases h : tenant' = tenant ∧ rule' = rule
  · obtain ⟨rfl, rfl⟩ := h
    simp [Table.get?_insert]
  · simp [h]

/-- A look after a deletion misses the entry and sees the rest. -/
theorem get?_delete (c : PendingCache) (tenant rule fingerprint tenant' rule' fingerprint' : String) :
    (c.delete tenant rule fingerprint).get? tenant' rule' fingerprint' =
      if (tenant' = tenant ∧ rule' = rule) ∧ fingerprint' = fingerprint then none
      else c.get? tenant' rule' fingerprint' := by
  unfold get? delete
  by_cases hc : (c.list tenant rule).contains fingerprint
  · rw [if_pos hc, list_replace]
    by_cases h : tenant' = tenant ∧ rule' = rule
    · obtain ⟨rfl, rfl⟩ := h
      simp [Table.get?_erase]
    · simp [h]
  · rw [if_neg hc]
    split
    · next h =>
      obtain ⟨⟨rfl, rfl⟩, rfl⟩ := h
      simpa [Table.contains] using hc
    · rfl

end PendingCache

/-! ## Settings -/

/-- The settings of fault centers, by key. -/
structure InfoCache where
  infos : Table FaultCenter
  deriving DecidableEq

namespace InfoCache

def empty : InfoCache := ⟨.empty⟩

instance : Inhabited InfoCache := ⟨empty⟩

def get? (c : InfoCache) (key : String) : Option FaultCenter := c.infos.get? key

def insert (c : InfoCache) (tenant : String) (center : FaultCenter) : InfoCache :=
  ⟨c.infos.insert (infoKey tenant center.id) center⟩

end InfoCache

end Alerting
