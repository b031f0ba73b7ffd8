import LineCalc.Binary64.Basic
import LineCalc.Decimal.Integer
import LineCalc.Decimal.Literal

/-!
Reading written numbers: an optional minus sign, a literal, and an optional power of ten.
-/
namespace LineCalc

/-- The power of ten after a literal. -/
def Decimal.readPower? : List Char → Option Int
  | [] => some 0
  | 'e' :: '-' :: digits => (readDigits? digits).map fun n => -(n : Int)
  | 'e' :: '+' :: digits => (readDigits? digits).map Int.ofNat
  | 'e' :: digits => (readDigits? digits).map Int.ofNat
  | _ => none

def Decimal.readUnsigned? (text : List Char) : Option Decimal :=
  let literal := Literal.scan text
  if literal.digits = [] then none
  else (Decimal.readPower? (text.drop literal.length)).map fun power =>
    ⟨literal.decimal.coefficient, literal.decimal.exponent + power⟩

namespace Binary64

/-- The double nearest to an unsigned decimal, with a sign. -/
def ofDecimal (negative : Bool) (d : Decimal) : Binary64 := ofRounded negative d.nearest

def readUnsigned? (negative : Bool) (text : List Char) : Option Binary64 :=
  if text = ['i', 'n', 'f'] then some (.infinite negative)
  else (Decimal.readUnsigned? text).map (ofDecimal negative)

/-- A written double: `nan`, `inf`, or a decimal, the last two perhaps after a minus sign. -/
def read? (text : List Char) : Option Binary64 :=
  if text = ['n', 'a', 'n'] then some .nan
  else match text with
    | '-' :: rest => readUnsigned? true rest
    | rest => readUnsigned? false rest

end Binary64

end LineCalc
