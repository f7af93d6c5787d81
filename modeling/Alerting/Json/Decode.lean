import Alerting.Json.Basic
import Alerting.Table
import Alerting.Time.Rfc3339

/-!
# Typed reading of JSON values

A structure is read from an object, where its members go by name, unknown names are skipped and no known name
may be repeated, or from a list of its members in the order of their declaration (`Json.fields?`). A member may
be required, have a default, or be optional; a list may stop early only before members with a default.

A choice among names is read from the name itself or from an object with the name as its one member and null as
the value (`Json.choice?`).
-/

namespace Alerting.Json

/-! ## Plain values -/

def bool? : Json → Option Bool
  | bool b => some b
  | _ => none

def text? : Json → Option String
  | text s => some s
  | _ => none

def nat32? : Json → Option Nat
  | int n => if 0 ≤ n ∧ n < Nat.pow 2 32 then some n.toNat else none
  | _ => none

def nat64? : Json → Option Nat
  | int n => if 0 ≤ n ∧ n < Nat.pow 2 64 then some n.toNat else none
  | _ => none

/-- A number; integers are rounded to the nearest one. -/
def number? : Json → Option Number
  | int n => some (Number.ofInt n)
  | float x => some x
  | _ => none

def instant? : Json → Option Instant
  | text s => Instant.ofText? s
  | _ => none

def list? {α : Type} (decode : Json → Option α) : Json → Option (List α)
  | list elems => elems.mapM decode
  | _ => none

/-- A table of values of one kind; the last of several members of one name counts. -/
def table? {α : Type} (decode : Json → Option α) : Json → Option (Table α)
  | object members => (members.mapM fun m => (decode m.2).map fun a => (m.1, a)).map Table.ofList
  | _ => none

/-! ## Structures -/

/-- The known members of a structure, by name. -/
structure Fields where
  /-- Whether they come from a list. -/
  byPlace : Bool
  members : List (String × Json)

/-- The members of those names in an object or a list. -/
def fields? (names : List String) : Json → Option Fields
  | object members =>
    let known := members.filter fun m => names.contains m.1
    if (known.map (·.1)).Nodup then some ⟨false, known⟩ else none
  | list elems => if elems.length ≤ names.length then some ⟨true, names.zip elems⟩ else none
  | _ => none

namespace Fields

variable {α : Type}

def get? (f : Fields) (name : String) : Option Json := List.lookup name f.members

/-- A member that must be there. -/
def required (f : Fields) (name : String) (decode : Json → Option α) : Option α := (f.get? name).bind decode

/-- A member with a default. -/
def withDefault (f : Fields) (name : String) (decode : Json → Option α) (default : α) : Option α :=
  match f.get? name with
  | some v => decode v
  | none => some default

/-- Null for none, and any other value for some. -/
def orNull (decode : Json → Option α) : Json → Option (Option α)
  | null => some none
  | v => (decode v).map some

/-- A member that may be null, or missing in an object. -/
def optional (f : Fields) (name : String) (decode : Json → Option α) : Option (Option α) :=
  match f.get? name with
  | some v => orNull decode v
  | none => if f.byPlace then none else some none

end Fields

/-! ## Choices -/

/-- A choice among names. -/
def choice? {α : Type} (ofName : String → Option α) : Json → Option α
  | text s => ofName s
  | object [(s, null)] => ofName s
  | _ => none

end Alerting.Json
