import LineCalc.Binary64.Text
import LineCalc.Decimal.Conversion
import LineCalc.Decimal.Reader

/-!
Numerals: integers of any size and doubles. Their equality is that of the exact numbers, with no
rounding between the two.
-/
namespace LineCalc

inductive Numeral where
  | integer (n : Int)
  | double (x : Binary64)
  deriving DecidableEq, Repr

namespace Numeral

def equals : Numeral → Numeral → Bool
  | integer m, integer n => m == n
  | integer n, double x | double x, integer n => x.isInt n
  | double x, double y => x.equals y

/-- The nearest double; an integer must not be past the largest finite one. -/
def toDouble : Numeral → Except Fault Binary64
  | integer n =>
    match Binary64.ofInt? n with
    | some x => .ok x
    | none => .error .integerTooLarge
  | double x => .ok x

def display : Numeral → String
  | integer n => integerText n
  | double x => x.display

/-- The text of a result. -/
def result : Numeral → String
  | integer n => integerText n
  | double x => x.result

/-- A decimal literal of the numeral, with a point and without an exponent. -/
def plain : Numeral → String
  | integer n => integerText n ++ ".0"
  | double x => x.plain

/-- The display, if it is within the limit on digits. -/
def write : Numeral → Except Fault String
  | integer n => writeInteger n
  | double x => .ok x.display

/-- The decimal literal, if it is within the limit on digits. -/
def writePlain (v : Numeral) : Except Fault String := v.write.map fun _ => v.plain

def readSigned? (negative : Bool) (digits : List Char) : Option (Except Fault Numeral) :=
  if digits ≠ [] ∧ digits.all Char.isDigit then
    some ((convertDigits digits).map fun n => .integer (if negative then -(n : Int) else n))
  else none

/-- Digits alone, perhaps after a minus sign, are an integer, and all else is a double. -/
def read? (text : String) : Option (Except Fault Numeral) :=
  let integer := match text.toList with
    | '-' :: digits => readSigned? true digits
    | digits => readSigned? false digits
  integer <|> (Binary64.read? text.toList).map fun x => .ok (.double x)

end Numeral

end LineCalc
