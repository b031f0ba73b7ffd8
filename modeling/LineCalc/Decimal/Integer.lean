/-!
Integers in decimal digits, written and read.
-/
namespace LineCalc

/-- The digits of an integer, after a minus sign if it is negative. -/
def integerText (n : Int) : String :=
  String.ofList (if n < 0 then '-' :: Nat.toDigits 10 n.natAbs else Nat.toDigits 10 n.natAbs)

/-- The number that a word of one digit or more stands for. -/
def readDigits? (text : List Char) : Option Nat :=
  if text ≠ [] ∧ text.all Char.isDigit then some (Nat.ofDigitChars 10 text 0) else none

end LineCalc
