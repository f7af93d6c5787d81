import Alerting.Cache
import Alerting.Engine.Notice

/-!
# The state of the engine

The `Engine` holds the caches and everything that reading and writing them leaves behind: how many calls were
made, which ids were given out, what was written and what was noted. Every call of a cache can fail; which ones
do is decided by `faults`, from the number of the call and the call itself. A failing call changes no cache and is
only counted (`Engine.perform`).

Writes and notices are kept with the time at which they were made, the latest first.
-/

namespace Alerting

/-- A call of the caches or of the rule store. -/
inductive Call
  | push (fingerprint : String)
  | remove (fingerprint : String)
  | get (fingerprint : String)
  | getAll (key : String)
  | pendingSet (fingerprint : String)
  | pendingDelete (fingerprint : String)
  | pendingList (rule : String)
  | info (key : String)
  | listRules
  | getRule (rule : String)
  deriving DecidableEq

namespace Call

def name : Call → String
  | push _ => "push"
  | remove _ => "remove"
  | get _ => "get"
  | getAll _ => "get_all"
  | pendingSet _ => "pending_set"
  | pendingDelete _ => "pending_delete"
  | pendingList _ => "pending_list"
  | info _ => "info"
  | listRules => "list_rules"
  | getRule _ => "get_rule"

/-- What the call is about. -/
def subject : Call → String
  | push fingerprint => fingerprint
  | remove fingerprint => fingerprint
  | get fingerprint => fingerprint
  | getAll key => key
  | pendingSet fingerprint => fingerprint
  | pendingDelete fingerprint => fingerprint
  | pendingList rule => rule
  | info key => key
  | listRules => ""
  | getRule rule => rule

/-- The error of the call when it fails. -/
def error : Call → EngineError
  | listRules => .ruleStore "list_rules is down"
  | getRule _ => .ruleStore "get_rule is down"
  | c => .cache (c.name ++ " is down")

end Call

/-- An event written to the cache, and the one that it replaced. -/
structure Write where
  replaced : Option Event
  event : Event
  deriving DecidableEq

/-- The caches, and what the work on them leaves behind. -/
structure Engine where
  events : EventCache
  pending : PendingCache
  infos : InfoCache
  /-- Whether a call fails, given how many came before it. -/
  faults : Nat → Call → Bool
  calls : Nat
  /-- How many ids were given out. -/
  minted : Nat
  /-- The present, in milliseconds. -/
  time : Nat
  /-- The writes with their times, the latest first. -/
  writes : List (Nat × Write)
  /-- The notices with their times, the latest first. -/
  notices : List (Nat × Notice)

namespace Engine

/-- The engine before any work, with calls that never fail. -/
def initial : Engine := ⟨.empty, .empty, .empty, fun _ _ => false, 0, 0, 0, [], []⟩

instance : Inhabited Engine := ⟨initial⟩

/-- The result of a step and the engine after it. -/
abbrev Result (α : Type) := α × Engine

/-- Notes something for the operator. -/
def note (e : Engine) (n : Notice) : Engine := { e with notices := (e.time, n) :: e.notices }

/-! ## Calls -/

def fails (e : Engine) (c : Call) : Bool := e.faults e.calls c

/-- The engine after the call has been counted. -/
def counted (e : Engine) : Engine := { e with calls := e.calls + 1 }

/-- Makes a call: its error if it fails, and else the outcome of `act`. -/
def perform {α : Type} (e : Engine) (c : Call) (act : Engine → α × Engine) : Result (Except EngineError α) :=
  if e.fails c then (.error c.error, e.counted)
  else
    let (a, e) := act e.counted
    (.ok a, e)

def push (e : Engine) (event : Event) : Result (Except EngineError Unit) :=
  e.perform (.push event.fingerprint) fun e =>
    let replaced := e.events.find? (EventCache.keyOf event) event.fingerprint
    ((), { e with events := e.events.push event, writes := (e.time, ⟨replaced, event⟩) :: e.writes })

def remove (e : Engine) (tenant center fingerprint : String) : Result (Except EngineError Unit) :=
  e.perform (.remove fingerprint) fun e => ((), { e with events := e.events.remove tenant center fingerprint })

def get (e : Engine) (tenant center fingerprint : String) : Result (Except EngineError (Option Event)) :=
  e.perform (.get fingerprint) fun e => (e.events.get? tenant center fingerprint, e)

def getAll (e : Engine) (key : String) : Result (Except EngineError (Table Event)) :=
  e.perform (.getAll key) fun e => (e.events.all key, e)

/-- Records since when a fingerprint is missing. -/
def pendingSet (e : Engine) (tenant rule fingerprint : String) (time : Instant) :
    Result (Except EngineError Unit) :=
  e.perform (.pendingSet fingerprint) fun e =>
    ((), { e with pending := e.pending.set tenant rule fingerprint time })

/-- Forgets that a fingerprint is missing. -/
def pendingDelete (e : Engine) (tenant rule fingerprint : String) : Result (Except EngineError Unit) :=
  e.perform (.pendingDelete fingerprint) fun e => ((), { e with pending := e.pending.delete tenant rule fingerprint })

/-- The missing fingerprints of a rule. -/
def pendingList (e : Engine) (tenant rule : String) : Result (Except EngineError (Table Instant)) :=
  e.perform (.pendingList rule) fun e => (e.pending.list tenant rule, e)

def info (e : Engine) (key : String) : Result (Except EngineError (Option FaultCenter)) :=
  e.perform (.info key) fun e => (e.infos.get? key, e)

/-! ## Ids -/

/-- The id of the `n`th new event. -/
def mintedId (n : Nat) : String := "event/" ++ Nat.repr n

def mint (e : Engine) : Result String := (mintedId e.minted, { e with minted := e.minted + 1 })

end Engine

end Alerting
