import LineCalc.Error

/-!
Conversions between integers and their digits, which have a limit in both directions. Integers
within the limit are written in full (`writeInteger_of_lt`).
-/
namespace LineCalc

/-- The most digits that are converted. -/
@[irreducible] def mostDigits : Nat := 4300

theorem mostDigits_pos : 0 < mostDigits := by
  unfold mostDigits
  decide

/-- The number that a word of digits stands for. -/
def convertDigits (digits : List Char) : Except Fault Nat :=
  if digits = [] then .error .noDigits
  else if mostDigits < digits.length then .error (.digitLimit digits.length)
  else .ok (Nat.ofDigitChars 10 digits 0)

/-- The text of an integer. -/
def writeInteger (n : Int) : Except Fault String :=
  if mostDigits < (Nat.toDigits 10 n.natAbs).length then .error .unwritable
  else .ok (integerText n)

theorem length_toDigits_le {n : Nat} (small : n < Nat.pow 10 mostDigits) :
    (Nat.toDigits 10 n).length ≤ mostDigits :=
  (Nat.length_toDigits_le_iff (by decide) mostDigits_pos).mpr small

theorem writeInteger_of_lt {n : Int} (small : n.natAbs < Nat.pow 10 mostDigits) :
    writeInteger n = .ok (integerText n) :=
  if_neg (Nat.not_lt.mpr (length_toDigits_le small))

end LineCalc
