import Alerting.Json.Basic
import Alerting.Text.Digits

/-!
# Reading JSON

`Json.parse?` reads one JSON value with nothing but white space around it. Numbers without fraction and exponent
that fit 64 bits are integers; the negative zero is not one of them. Every other numeral goes through a
significand of 64 bits (`Numeral`), a rounding that can differ from the nearest number in the last place.
-/

namespace Alerting.Json

/-! ## Numerals -/

/-- A decimal as its digits are taken in: `significand * 10 ^ exponent`. -/
structure Numeral where
  significand : Nat
  exponent : Int

/-- Whether a digit more would overflow 64 bits. -/
def Numeral.isFull (n : Numeral) (d : Nat) : Bool := Nat.pow 2 64 ≤ n.significand * 10 + d

/-- Takes in the digits before the point; from the first one that does not fit, digits only raise the
exponent. -/
def Numeral.takeWhole (n : Numeral) : List Char → Numeral
  | [] => n
  | c :: cs =>
    if n.isFull (Text.digitValue c) then ⟨n.significand, n.exponent + 1 + cs.length⟩
    else takeWhole ⟨n.significand * 10 + Text.digitValue c, n.exponent⟩ cs

/-- Takes in the digits after the point; from the first one that does not fit, digits are dropped. -/
def Numeral.takeFraction (n : Numeral) : List Char → Numeral
  | [] => n
  | c :: cs =>
    if n.isFull (Text.digitValue c) then n
    else takeFraction ⟨n.significand * 10 + Text.digitValue c, n.exponent - 1⟩ cs

/-- The number `10 ^ e`, for `e` up to 308. -/
def powerOfTen (e : Nat) : Number := Number.nearest false (Nat.pow 10 e) 1

/-- Divides by `10 ^ e`, a factor of at most `10 ^ 308` at a time. -/
def scaleDown (x : Number) : (fuel e : Nat) → Number
  | 0, _ => x
  | fuel + 1, e =>
    if e ≤ 308 then x.div (powerOfTen e)
    else if x.significand == 0 then x
    else scaleDown (x.div (powerOfTen 308)) fuel (e - 308)

/-- The magnitude of a decimal, unless it is beyond the range of finite numbers. -/
def Numeral.magnitude? (n : Numeral) : Option Number :=
  let x := Number.ofNat n.significand
  if 0 ≤ n.exponent then
    if n.significand == 0 then some x
    else if 308 < n.exponent then none
    else some (x.mul (powerOfTen n.exponent.toNat)) |>.filter (·.isFinite)
  else some (scaleDown x (n.exponent.natAbs / 308 + 1) n.exponent.natAbs)

/-- A run of digits, at least one. -/
def readDigits? (cs : List Char) : Option (List Char × List Char) :=
  let (ds, rest) := Text.spanDigits cs
  if ds.isEmpty then none else some (ds, rest)

/-- The sign of an exponent, which may be missing, and what follows it. -/
def takeSign : List Char → Int × List Char
  | '+' :: cs => (1, cs)
  | '-' :: cs => (-1, cs)
  | cs => (1, cs)

/-- An exponent part: its value, or nothing at all. -/
def readExponent? : List Char → Option (Option Int × List Char)
  | c :: cs =>
    if c == 'e' || c == 'E' then
      let (sign, cs) := takeSign cs
      (readDigits? cs).map fun (ds, rest) => (some (sign * Text.natOfDigits 0 ds), rest)
    else some (none, c :: cs)
  | [] => some (none, [])

/-- A fraction part: its digits, or nothing at all. -/
def readFraction? : List Char → Option (Option (List Char) × List Char)
  | '.' :: cs => (readDigits? cs).map fun (ds, rest) => (some ds, rest)
  | cs => some (none, cs)

/-- The value of a numeral by its parts. -/
def ofNumeral (negative : Bool) (whole : List Char) (fraction : Option (List Char)) (exponent : Option Int) :
    Json :=
  let n := Text.natOfDigits 0 whole
  if fraction.isNone && exponent.isNone && !negative && n < Nat.pow 2 64 then int n
  else if fraction.isNone && exponent.isNone && negative && 0 < n && n ≤ Nat.pow 2 63 then int (-n)
  else
    let m := (Numeral.takeWhole ⟨0, 0⟩ whole).takeFraction (fraction.getD [])
    -- An exponent beyond 32 bits decides the value by itself.
    let e := exponent.getD 0
    let m? : Option Number :=
      if 2147483648 ≤ e then (if m.significand == 0 then some (Number.ofNat 0) else none)
      else if e ≤ -2147483648 then some (Number.ofNat 0)
      else Numeral.magnitude? ⟨m.significand, m.exponent + e⟩
    match m? with
    | some x => float (if negative then x.neg else x)
    | none => unreadable

/-- A numeral. -/
def readNumber? (cs : List Char) : Option (Json × List Char) := do
  let (negative, cs) := match cs with
    | '-' :: cs => (true, cs)
    | cs => (false, cs)
  let (whole, cs) := Text.spanDigits cs
  if whole.isEmpty || (whole.head? == some '0' && 1 < whole.length) then none
  else
    let (fraction, cs) ← readFraction? cs
    let (exponent, cs) ← readExponent? cs
    some (ofNumeral negative whole fraction exponent, cs)

/-! ## Texts -/

/-- The value of four hexadecimal digits. -/
def hex4? (a b c d : Char) : Option Nat := do
  let a ← Text.hexValue? a
  let b ← Text.hexValue? b
  let c ← Text.hexValue? c
  let d ← Text.hexValue? d
  some (((a * 16 + b) * 16 + c) * 16 + d)

/-- The character that a one-letter escape stands for. -/
def escaped? : Char → Option Char
  | '"' => some '"'
  | '\\' => some '\\'
  | '/' => some '/'
  | 'b' => some '\x08'
  | 'f' => some '\x0c'
  | 'n' => some '\n'
  | 'r' => some '\r'
  | 't' => some '\t'
  | _ => none

/-- The rest of a text after its opening quote. `acc` holds the characters so far, last first, `half` the first
half of a surrogate pair that has just been read, and `good` says whether all the rest denotes characters. -/
def readText? (good : Bool) (half : Option Nat) (acc : List Char) :
    List Char → Option (Option String × List Char)
  | [] => none
  | '"' :: cs => some (if good && half.isNone then some (String.ofList acc.reverse) else none, cs)
  | '\\' :: 'u' :: a :: b :: c :: d :: cs =>
    match hex4? a b c d, half with
    | none, _ => none
    | some n, none =>
      if n < 0xD800 || 0xDFFF < n then readText? good none (Char.ofNat n :: acc) cs
      else if n < 0xDC00 then readText? good (some n) acc cs
      else readText? false none acc cs
    | some n, some h =>
      if 0xDC00 ≤ n && n ≤ 0xDFFF then
        readText? good none (Char.ofNat ((h - 0xD800) * 0x400 + (n - 0xDC00) + 0x10000) :: acc) cs
      else readText? false none acc cs
  | '\\' :: c :: cs =>
    match escaped? c with
    | some c => readText? (good && half.isNone) none (c :: acc) cs
    | none => none
  | c :: cs =>
    if c.toNat < 0x20 || c == '\\' then none else readText? (good && half.isNone) none (c :: acc) cs

/-! ## Values -/

/-- The text from its first character that is no white space. -/
def skipSpace (cs : List Char) : List Char :=
  cs.dropWhile fun c => c == ' ' || c == '\t' || c == '\n' || c == '\r'

/-- The rest of a text after a literal name. -/
def readName? (name : String) (v : Json) (cs : List Char) : Option (Json × List Char) :=
  if cs.take name.length = name.toList then some (v, cs.drop name.length) else none

/-- An object of members whose names may denote nothing. -/
def ofMembers (members : List (Option String × Json)) : Json :=
  match members.mapM (fun m => m.1.map fun name => (name, m.2)) with
  | some members => object members
  | none => unreadable

mutual

/-- A value, after white space. -/
def readValue? : (fuel : Nat) → List Char → Option (Json × List Char)
  | 0, _ => none
  | fuel + 1, cs =>
    match skipSpace cs with
    | '"' :: cs => (readText? true none [] cs).map fun (s, cs) =>
        (match s with
          | some s => text s
          | none => unreadable, cs)
    | '[' :: cs =>
      match skipSpace cs with
      | ']' :: cs => some (list [], cs)
      | cs => readElems? fuel [] cs
    | '{' :: cs =>
      match skipSpace cs with
      | '}' :: cs => some (object [], cs)
      | cs => readMembers? fuel [] cs
    | 'n' :: cs => readName? "null" null ('n' :: cs)
    | 't' :: cs => readName? "true" (bool true) ('t' :: cs)
    | 'f' :: cs => readName? "false" (bool false) ('f' :: cs)
    | cs => readNumber? cs

/-- The rest of a list from an element on. -/
def readElems? : (fuel : Nat) → List Json → List Char → Option (Json × List Char)
  | 0, _, _ => none
  | fuel + 1, acc, cs =>
    match readValue? fuel cs with
    | none => none
    | some (v, cs) =>
      match skipSpace cs with
      | ',' :: cs => readElems? fuel (v :: acc) cs
      | ']' :: cs => some (list (v :: acc).reverse, cs)
      | _ => none

/-- The rest of an object from a member on. -/
def readMembers? : (fuel : Nat) → List (Option String × Json) → List Char → Option (Json × List Char)
  | 0, _, _ => none
  | fuel + 1, acc, cs =>
    match skipSpace cs with
    | '"' :: cs =>
      match readText? true none [] cs with
      | none => none
      | some (name, cs) =>
        match skipSpace cs with
        | ':' :: cs =>
          match readValue? fuel cs with
          | none => none
          | some (v, cs) =>
            match skipSpace cs with
            | ',' :: cs => readMembers? fuel ((name, v) :: acc) cs
            | '}' :: cs => some (ofMembers ((name, v) :: acc).reverse, cs)
            | _ => none
        | _ => none
    | _ => none

end

/-- The value that a text denotes. Every call takes in a character or hands a character on to one that does. -/
def parse? (s : String) : Option Json :=
  let cs := s.toList
  match readValue? (2 * cs.length + 1) cs with
  | some (v, rest) => if (skipSpace rest).isEmpty then some v else none
  | none => none

end Alerting.Json
