import Alerting.Number.Basic

/-!
# JSON values

A `Json` value keeps what a reader of typed data can tell apart: integers of 64 bits from other numbers, the
members of an object in their order, and repeated names. A token that follows the grammar and yet denotes no
value (a number beyond the range of binary64, a text with half a surrogate pair, an object that has such a name)
is `unreadable`; it does no harm where the value is not looked at.
-/

namespace Alerting

inductive Json
  | null
  | bool (b : Bool)
  | int (n : Int)
  | float (x : Number)
  | text (s : String)
  | list (elems : List Json)
  | object (members : List (String × Json))
  | unreadable
  deriving Inhabited

namespace Json

mutual

/-- Whether every token inside denotes a value. -/
def isReadable : Json → Bool
  | list elems => areReadable elems
  | object members => areReadableMembers members
  | unreadable => false
  | _ => true

def areReadable : List Json → Bool
  | [] => true
  | v :: vs => isReadable v && areReadable vs

def areReadableMembers : List (String × Json) → Bool
  | [] => true
  | (_, v) :: ms => isReadable v && areReadableMembers ms

end

mutual

/-- How deep lists and objects are nested. -/
def depth : Json → Nat
  | list elems => depthOfAll elems + 1
  | object members => depthOfMembers members + 1
  | _ => 0

def depthOfAll : List Json → Nat
  | [] => 0
  | v :: vs => max (depth v) (depthOfAll vs)

def depthOfMembers : List (String × Json) → Nat
  | [] => 0
  | (_, v) :: ms => max (depth v) (depthOfMembers ms)

end

def nat (n : Nat) : Json := int n

/-- A number; one that is not finite has no JSON form and becomes null. -/
def number (x : Number) : Json := if x.isFinite then float x else null

/-- A value that may be missing. -/
def ofOption {α : Type} (f : α → Json) : Option α → Json
  | none => null
  | some a => f a

def texts (ss : List String) : Json := list (ss.map text)

/-- The value of the first member of that name. -/
def member? (name : String) : Json → Option Json
  | object members => List.lookup name members
  | _ => none

end Json

end Alerting
