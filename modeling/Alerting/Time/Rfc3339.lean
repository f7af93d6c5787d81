import Alerting.Text.Blank
import Alerting.Text.Digits
import Alerting.Time.Instant

/-!
# Timestamps

The text of an instant is its RFC 3339 timestamp in UTC, with 0, 3, 6 or 9 digits of a fraction, the fewest that
lose nothing (`Instant.text`). A leap second is written as second 60. A year outside 0 to 9999 has a sign.

The reader (`Instant.ofText?`) is more lenient. It accepts blanks between the components, numbers with fewer
digits, signed years, a blank or a small `t` between date and time, any number of digits of a fraction, of which
it uses nine, and an offset from UTC, with or without a colon.
-/

namespace Alerting.Instant

/-! ## Writing -/

/-- The year of a timestamp: four digits, or a sign and at least four. -/
def yearText (y : Int) : List Char :=
  if 0 ≤ y ∧ y ≤ 9999 then Text.padded 4 y.toNat
  else (if y < 0 then '-' else '+') :: Text.padded 4 y.natAbs

/-- The fraction of a second in the fewest groups of three digits. -/
def fractionText (nano : Nat) : List Char :=
  if nano == 0 then []
  else if nano % 1000000 == 0 then '.' :: Text.padded 3 (nano / 1000000)
  else if nano % 1000 == 0 then '.' :: Text.padded 6 (nano / 1000)
  else '.' :: Text.padded 9 nano

/-- The text of an instant. -/
def text (t : Instant) : String :=
  let d := Date.ofDay t.day
  let leap := t.nano / 1000000000
  String.ofList <|
    yearText d.year ++ '-' :: Text.padded 2 d.month ++ '-' :: Text.padded 2 d.day ++ 'T' ::
      Text.padded 2 (t.second / 3600) ++ ':' :: Text.padded 2 (t.second / 60 % 60) ++
      ':' :: Text.padded 2 (t.second % 60 + leap) ++ fractionText (t.nano % 1000000000) ++ ['Z']

/-! ## Reading -/

/-- Between one and `most` digits. -/
def readDigits? (most : Nat) (cs : List Char) : Option (Nat × List Char) :=
  let ds := (cs.take most).takeWhile Text.isDigit
  if ds.isEmpty then none else some (Text.natOfDigits 0 ds, cs.drop ds.length)

/-- A number of one or two digits after blanks. -/
def readTwo? (cs : List Char) : Option (Nat × List Char) := readDigits? 2 (Text.trimStart cs)

/-- A given character. -/
def readChar? (c : Char) : List Char → Option (List Char)
  | d :: cs => if d = c then some cs else none
  | [] => none

/-- A year after blanks: up to four digits, or a sign and any number of them. -/
def readYear? (cs : List Char) : Option (Int × List Char) :=
  match Text.trimStart cs with
  | '-' :: cs => (readDigits? cs.length cs).map fun (n, rest) => (-(n : Int), rest)
  | '+' :: cs => (readDigits? cs.length cs).map fun (n, rest) => ((n : Int), rest)
  | cs => (readDigits? 4 cs).map fun (n, rest) => ((n : Int), rest)

/-- A date. -/
def readDate? (cs : List Char) : Option (Date × List Char) := do
  let (year, cs) ← readYear? cs
  let cs ← readChar? '-' (Text.trimStart cs)
  let (month, cs) ← readTwo? cs
  let cs ← readChar? '-' (Text.trimStart cs)
  let (day, cs) ← readTwo? cs
  let date : Date := ⟨year, month, day⟩
  if date.isValid then some (date, cs) else none

/-- The nanoseconds of a fraction of a second, if there is one. -/
def readFraction? (cs : List Char) : Option (Nat × List Char) :=
  match cs with
  | '.' :: cs =>
    let (ds, rest) := Text.spanDigits cs
    if ds.isEmpty then none
    else
      let kept := ds.take 9
      some (Text.natOfDigits 0 kept * Nat.pow 10 (9 - kept.length), rest)
  | cs => some (0, cs)

/-- A time of day: its second and its nanoseconds. -/
def readTime? (cs : List Char) : Option ((Nat × Nat) × List Char) := do
  let (hour, cs) ← readTwo? cs
  let cs ← readChar? ':' (Text.trimStart cs)
  let (minute, cs) ← readTwo? cs
  let cs ← readChar? ':' (Text.trimStart cs)
  let (second, cs) ← readTwo? cs
  let (nano, cs) ← readFraction? cs
  if hour < 24 ∧ minute < 60 ∧ second ≤ 60 then
    let leap := second / 60
    some ((hour * 3600 + minute * 60 + (second - leap), nano + leap * 1000000000), cs)
  else none

/-- Exactly two digits. -/
def readPair? : List Char → Option (Nat × List Char)
  | a :: b :: cs => if Text.isDigit a && Text.isDigit b then some (Text.natOfDigits 0 [a, b], cs) else none
  | _ => none

/-- An offset from UTC in seconds: `Z`, `UTC`, or a sign, hours and minutes. -/
def readOffset? (cs : List Char) : Option (Int × List Char) :=
  let signed (sign : Int) (cs : List Char) : Option (Int × List Char) := do
    let (hours, cs) ← readPair? cs
    let (minutes, cs) ← readPair? (cs.dropWhile fun c => c == ':' || Text.isBlank c)
    if minutes < 60 ∧ hours < 24 then some (sign * (hours * 3600 + minutes * 60), cs) else none
  match cs with
  | 'Z' :: cs => some (0, cs)
  | 'z' :: cs => some (0, cs)
  | '+' :: cs => signed 1 cs
  | '-' :: cs => signed (-1) cs
  | '−' :: cs => signed (-1) cs
  | a :: b :: c :: cs => if [a, b, c].map Char.toUpper = ['U', 'T', 'C'] then some (0, cs) else none
  | _ => none

/-- The instant of a date and a time of day at an offset from UTC. -/
def ofLocal? (date : Date) (second nano : Nat) (offset : Int) : Option Instant :=
  let day := date.toDay
  let s : Int := second - offset
  if h : nano < 2000000000 then
    let t : Instant := ⟨day + s / 86400, (s % 86400).toNat, nano, by omega, h⟩
    if firstDay ≤ day ∧ day ≤ lastDay ∧ t.inRange then some t else none
  else none

/-- The instant of a timestamp. -/
def ofText? (s : String) : Option Instant := do
  let (date, cs) ← readDate? s.toList
  let cs ← match cs with
    | c :: cs => if c = 't' ∨ c = 'T' ∨ c = ' ' then some cs else none
    | [] => none
  let ((second, nano), cs) ← readTime? cs
  let (offset, cs) ← readOffset? (Text.trimStart cs)
  if (Text.trimStart cs).isEmpty then ofLocal? date second nano offset else none

end Alerting.Instant
