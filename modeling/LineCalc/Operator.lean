import LineCalc.Binary64.Arithmetic
import LineCalc.Numeral

/-!
The four operators, on doubles and on numerals. Doubles compute with doubles and integers
exactly; where the two meet, and in every division, the answer is a double.
-/
namespace LineCalc

inductive Operator where
  | add
  | sub
  | mul
  | div
  deriving DecidableEq, Repr

namespace Operator

def name : Operator → String
  | add => "ADD"
  | sub => "SUB"
  | mul => "MUL"
  | div => "DIV"

/-- The kind of token that stands for the operator. -/
def kind : Operator → Kind
  | add => .plus
  | sub => .minus
  | mul => .times
  | div => .divide

/-- The kinds of tokens between the terms of an expression. -/
def additive : List Kind := [.plus, .minus]

/-- The kinds of tokens between the factors of a term. -/
def multiplicative : List Kind := [.times, .divide]

def ofKind : Kind → Except Fault Operator
  | .plus => .ok add
  | .minus => .ok sub
  | .times => .ok mul
  | .divide => .ok div
  | kind => .error (.notAnOperator kind)

def apply : Operator → Binary64 → Binary64 → Binary64
  | add => Binary64.add
  | sub => Binary64.sub
  | mul => Binary64.mul
  | div => Binary64.divide

end Operator

namespace Numeral

/-- The quotient of two integers, rounded once. -/
def divideIntegers (m n : Int) : Except Fault Binary64 :=
  if n = 0 then
    if m = 0 then .ok .nan
    else (Numeral.integer m).toDouble.map fun x => x.divide (.finite false .zero)
  else
    match Magnitude.nearest (m.natAbs * unitsPerOne) n.natAbs with
    | some quotient => .ok (.finite (decide (m < 0) ^^ decide (n < 0)) quotient)
    | none => .error .quotientTooLarge

def divide : Numeral → Numeral → Except Fault Binary64
  | .integer m, .integer n => divideIntegers m n
  | v, w => do return (← v.toDouble).divide (← w.toDouble)

end Numeral

/-- Integers stay integers under all operators but division. -/
def Operator.applyNumerals (op : Operator) (v w : Numeral) : Except Fault Numeral :=
  match op, v, w with
  | .add, .integer m, .integer n => .ok (.integer (m + n))
  | .sub, .integer m, .integer n => .ok (.integer (m - n))
  | .mul, .integer m, .integer n => .ok (.integer (m * n))
  | .div, v, w => (v.divide w).map .double
  | op, v, w => do return .double (op.apply (← v.toDouble) (← w.toDouble))

end LineCalc
