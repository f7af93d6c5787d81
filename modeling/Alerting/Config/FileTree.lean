import Alerting.Table

/-!
# Files and their paths

A `FileTree` holds the folders and files that can be read. A path is walked name by name, from the root or from
the folder where the reader is (`FileTree.walk`). It leads to a file, whose bytes are read, or there is a reason
why nothing is read (`ReadFailure`).
-/

namespace Alerting

/-- Why a file cannot be read. -/
inductive ReadFailure
  | missing
  /-- The path goes on after a file. -/
  | notFolder
  | folder
  | nameTooLong
  /-- No name contains a zero. -/
  | zeroInName
  | notText
  deriving DecidableEq

def ReadFailure.message : ReadFailure → String
  | missing => "No such file or directory (os error 2)"
  | notFolder => "Not a directory (os error 20)"
  | folder => "Is a directory (os error 21)"
  | nameTooLong => "File name too long (os error 36)"
  | zeroInName => "file name contained an unexpected NUL byte"
  | notText => "stream did not contain valid UTF-8"

/-- What stands at a place in a file tree. -/
inductive Entry
  | folder
  | file (content : ByteArray)

/-- A place in a file tree: the names that lead to it from the root. -/
abbrev Place := List String

/-- The folders and files that can be read. -/
structure FileTree where
  /-- What stands at every place but the root. -/
  entries : List (Place × Entry)
  /-- The folder where the paths begin that do not begin at the root. -/
  home : Place

namespace FileTree

/-- The longest name in a folder, in bytes. -/
def longestName : Nat := 255

/-- The longest path, in bytes. -/
def longestPath : Nat := 4095

/-- What stands at a place. The root is a folder. -/
def entry? (t : FileTree) : Place → Option Entry
  | [] => some .folder
  | place => t.entries.lookup place

/-- The place that a name leads to from a folder: `.` and the empty name stay, and `..` goes one up. -/
def follow (t : FileTree) (place : Place) (name : String) : Except ReadFailure Place :=
  match t.entry? place with
  | none => .error .missing
  | some (.file _) => .error .notFolder
  | some .folder =>
    if name = "" ∨ name = "." then .ok place
    else if name = ".." then .ok place.dropLast
    else if longestName < name.utf8ByteSize then .error .nameTooLong
    else
      match t.entry? (place ++ [name]) with
      | some _ => .ok (place ++ [name])
      | none => .error .missing

def walk (t : FileTree) (place : Place) (names : List String) : Except ReadFailure Place := names.foldlM t.follow place

def locate (t : FileTree) (path : String) : Except ReadFailure Place :=
  if path.contains '\x00' then .error .zeroInName
  else if path = "" then .error .missing
  else if longestPath < path.utf8ByteSize then .error .nameTooLong
  else t.walk (if path.startsWith '/' then [] else t.home) (path.splitOn "/")

/-- The bytes of the file of a path. -/
def read (t : FileTree) (path : String) : Except ReadFailure ByteArray := do
  match t.entry? (← t.locate path) with
  | some (.file content) => .ok content
  | some .folder => .error .folder
  | none => .error .missing

end FileTree

end Alerting
