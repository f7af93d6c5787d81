import Alerting.Error
import Alerting.Number.Reader
import Alerting.Number.Shortest
import Alerting.Text.Blank

/-!
# Thresholds

A threshold compares an observed value with a bound. Its expression is an operator and a number, with blanks
around both and, in front, an optional name for the value: `"> 90"`, `"value <= 0.5"`, `"$value != 0"`
(`Threshold.ofExpr`). Written, it is the operator, a space and the number (`Threshold.text`).

Two numbers are taken as equal when they differ by less than `2 ^ -52`.
-/

namespace Alerting

/-- How a value is compared with a bound. -/
inductive Comparison
  | greater
  | greaterOrEqual
  | less
  | lessOrEqual
  | equal
  | notEqual
  deriving DecidableEq, Repr, Inhabited

namespace Comparison

/-- Whether the comparison of two numbers comes out true. -/
def holds : Comparison → Number → Number → Bool
  | greater, x, y => y.lt x
  | greaterOrEqual, x, y => y.le x
  | less, x, y => x.lt y
  | lessOrEqual, x, y => x.le y
  | equal, x, y => (x.distance y).lt Number.epsilon
  | notEqual, x, y => Number.epsilon.le (x.distance y)

/-- The symbol of a comparison. -/
def symbol : Comparison → String
  | greater => ">"
  | greaterOrEqual => ">="
  | less => "<"
  | lessOrEqual => "<="
  | equal => "=="
  | notEqual => "!="

/-- The comparison of a symbol; a single equals sign means the same as two. -/
def ofSymbol? : String → Option Comparison
  | ">" => some greater
  | ">=" => some greaterOrEqual
  | "<" => some less
  | "<=" => some lessOrEqual
  | "==" => some equal
  | "=" => some equal
  | "!=" => some notEqual
  | _ => none

/-- The comparison of its own symbol. -/
def ofName? (s : String) : Option Comparison := if s = "=" then none else ofSymbol? s

end Comparison

/-- A bound and how values are compared with it. -/
structure Threshold where
  operator : Comparison
  bound : Number
  deriving DecidableEq, Repr

namespace Threshold

/-- Whether a value meets the threshold. -/
def holds (t : Threshold) (x : Number) : Bool := t.operator.holds x t.bound

/-- The text of a threshold. -/
def text (t : Threshold) : String := t.operator.symbol ++ " " ++ t.bound.text

/-- The characters that operators are made of. -/
def isOperatorChar (c : Char) : Bool := c == '<' || c == '>' || c == '=' || c == '!'

/-- An expression without the name of the value in front of it. -/
def dropSubject (cs : List Char) : List Char :=
  match Text.dropLead? "$value".toList cs with
  | some rest => Text.trimStart rest
  | none =>
    match Text.dropLead? "value".toList cs with
    | some rest => Text.trimStart rest
    | none => cs

/-- The threshold of an expression: the longest run of operator characters is the operator, and all that follows
is the bound. -/
def ofChars (cs : List Char) : Except ExpressionDefect Threshold :=
  let cs := dropSubject (Text.trim cs)
  let symbol := cs.takeWhile isOperatorChar
  if symbol.isEmpty then .error .missingOperator
  else
    match Comparison.ofSymbol? (String.ofList symbol) with
    | none => .error .unknownOperator
    | some operator =>
      match Number.ofChars? (Text.trim (cs.dropWhile isOperatorChar)) with
      | none => .error .notANumber
      | some bound => if bound.isFinite then .ok ⟨operator, bound⟩ else .error .notFinite

/-- The threshold of an expression. -/
def ofExpr (expr : String) : Except EngineError Threshold :=
  match ofChars expr.toList with
  | .ok t => .ok t
  | .error defect => .error (.invalidExpression expr defect)

end Threshold

end Alerting
