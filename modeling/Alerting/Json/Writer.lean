import Alerting.Json.Basic
import Alerting.Number.Shortest

/-!
# Writing JSON

`Json.render` writes a value without white space. Texts escape the quote, the backslash and the control
characters and keep every other character. Integers are written in decimal. Every other number is written as its
shortest decimal and is told from an integer by a point or an exponent (`floatText`).
-/

namespace Alerting.Json

def escape (c : Char) : List Char :=
  if c == '"' then ['\\', '"']
  else if c == '\\' then ['\\', '\\']
  else if c == '\n' then ['\\', 'n']
  else if c == '\r' then ['\\', 'r']
  else if c == '\t' then ['\\', 't']
  else if c.toNat < 0x20 then
    ['\\', 'u', '0', '0', Text.hexDigit (c.toNat / 16), Text.hexDigit (c.toNat % 16)]
  else [c]

def quoted (s : String) : String := "\"" ++ String.ofList (s.toList.flatMap escape) ++ "\""

/-! ## Numbers -/

/-- The decimal `0.ds * 10 ^ point`: positional from `1e-5` up to `1e16`, and with an exponent beyond. -/
def decimalText (ds : List Char) (point : Int) : List Char :=
  if 0 < point ∧ point ≤ 16 then
    let places := point.toNat
    if ds.length ≤ places then ds ++ List.replicate (places - ds.length) '0' ++ ['.', '0']
    else ds.take places ++ '.' :: ds.drop places
  else if -5 < point ∧ point ≤ 0 then '0' :: '.' :: (List.replicate point.natAbs '0' ++ ds)
  else
    let exponent := (if point < 1 then ['-'] else []) ++ Text.decimal (point - 1).natAbs
    ds.take 1 ++ (if ds.length ≤ 1 then [] else '.' :: ds.drop 1) ++ 'e' :: exponent

/-- The text of a finite number; of two equally near decimals the even one is taken. -/
def floatText (x : Number) : String :=
  let magnitude :=
    if x.significand == 0 then ['0', '.', '0']
    else
      let (d, e) := x.rounding.digits fun below => below % 2 == 1
      let ds := Text.decimal d
      decimalText (Number.trimZeros ds) (ds.length + e)
  String.ofList (if x.isNegative then '-' :: magnitude else magnitude)

example : [floatText (.ofNat 3), floatText ⟨0x433999999999999C⟩, floatText ⟨0x48A6F578C4E0A061⟩] =
    ["3.0", "7205759403792796.0", "1e42"] := by decide +kernel

/-! ## Values -/

mutual

/-- The text of a value. -/
def render : Json → String
  | null => "null"
  | bool b => if b then "true" else "false"
  | int n => if n < 0 then "-" ++ Nat.repr n.natAbs else Nat.repr n.natAbs
  | float x => if x.isFinite then floatText x else "null"
  | text s => quoted s
  | list elems => "[" ++ renderElems elems ++ "]"
  | object members => "\x7b" ++ renderMembers members ++ "\x7d"
  | unreadable => "null"

def renderElems : List Json → String
  | [] => ""
  | [v] => render v
  | v :: vs => render v ++ "," ++ renderElems vs

def renderMembers : List (String × Json) → String
  | [] => ""
  | [(name, v)] => quoted name ++ ":" ++ render v
  | (name, v) :: ms => quoted name ++ ":" ++ render v ++ "," ++ renderMembers ms

end

end Alerting.Json
