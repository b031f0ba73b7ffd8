import LineCalc.Binary64.Rounding

/-!
Unsigned decimals `coefficient * 10 ^ exponent`, the magnitude nearest to one, and the ways to
write its digits: plainly, or in front of a power of ten.
-/
namespace LineCalc

structure Decimal where
  coefficient : Nat
  exponent : Int
  deriving DecidableEq, Repr

namespace Decimal

def zero : Decimal := ⟨0, 0⟩

/-- The value in smallest units is `numerator / denominator`. -/
def numerator (d : Decimal) : Nat := d.coefficient * Nat.pow 10 d.exponent.toNat * unitsPerOne

def denominator (d : Decimal) : Nat := Nat.pow 10 (-d.exponent).toNat

/-- The magnitude that a decimal is read as, if it is not past the largest one. -/
def nearest (d : Decimal) : Option Magnitude := Magnitude.nearest d.numerator d.denominator

/-- The same value with a coefficient that does not end in zero. -/
def trim (d : Decimal) : Decimal :=
  if d.coefficient ≠ 0 ∧ d.coefficient % 10 = 0 then trim ⟨d.coefficient / 10, d.exponent + 1⟩
  else d
termination_by d.coefficient
decreasing_by omega

theorem denominator_pos (d : Decimal) : 0 < d.denominator := Nat.pow_pos (by decide)

/-- Decimals of one value are read as one magnitude. -/
theorem nearest_congr {d e : Decimal}
    (same : d.numerator * e.denominator = e.numerator * d.denominator) :
    d.nearest = e.nearest :=
  Magnitude.nearest_eq d.denominator_pos e.denominator_pos same

/-- Trailing zeros do not matter. -/
theorem nearest_shift (coefficient : Nat) (exponent : Int) :
    nearest ⟨coefficient * 10, exponent⟩ = nearest ⟨coefficient, exponent + 1⟩ := by
  apply nearest_congr
  simp only [numerator, denominator]
  by_cases negative : exponent < 0
  · have first : exponent.toNat = 0 := by omega
    have second : (exponent + 1).toNat = 0 := by omega
    have third : (-exponent).toNat = (-(exponent + 1)).toNat + 1 := by omega
    have power : Nat.pow 10 ((-(exponent + 1)).toNat + 1) =
        Nat.pow 10 (-(exponent + 1)).toNat * 10 := Nat.pow_succ ..
    rw [first, second, third, power]
    ac_rfl
  · have first : (exponent + 1).toNat = exponent.toNat + 1 := by omega
    have second : (-exponent).toNat = 0 := by omega
    have third : (-(exponent + 1)).toNat = 0 := by omega
    have power : Nat.pow 10 (exponent.toNat + 1) = Nat.pow 10 exponent.toNat * 10 :=
      Nat.pow_succ ..
    rw [first, second, third, power]
    ac_rfl

theorem nearest_trim (d : Decimal) : d.trim.nearest = d.nearest := by
  fun_induction trim d with
  | case1 d zeros ih =>
    have whole : d.coefficient / 10 * 10 = d.coefficient := by omega
    rw [ih, ← nearest_shift, whole]
  | case2 => rfl

def digits (d : Decimal) : List Char := Nat.toDigits 10 d.coefficient

/-- The power of ten of the first digit. -/
def leading (d : Decimal) : Int := d.exponent + d.digits.length - 1

/-- All digits, with a point only in front of a fraction, never an exponent. -/
def plain (d : Decimal) : List Char :=
  if 0 ≤ d.exponent then d.digits ++ List.replicate d.exponent.toNat '0'
  else
    let places := (-d.exponent).toNat
    let padded := List.replicate (places + 1 - d.digits.length) '0' ++ d.digits
    padded.take (padded.length - places) ++ '.' :: padded.drop (padded.length - places)

/-- Plain digits in which a whole number too has a point and one place. -/
def pointed (d : Decimal) : List Char :=
  if 0 ≤ d.exponent then d.plain ++ ['.', '0'] else d.plain

/-- The first digit, the others after a point, and the signed power of ten in at least `width`
    digits. -/
def scientific (width : Nat) (d : Decimal) : List Char :=
  let power := Nat.toDigits 10 d.leading.natAbs
  let mantissa := match d.digits with
    | first :: second :: rest => first :: '.' :: second :: rest
    | short => short
  mantissa ++ 'e' :: (if d.leading < 0 then '-' else '+') ::
    (List.replicate (width - power.length) '0' ++ power)

end Decimal

/-- When a decimal is written plainly: if its leading power of ten lies from `lowest` to
    `highest`. Otherwise it is written with an exponent of at least `exponentWidth` digits. -/
structure Layout where
  lowest : Int
  highest : Int
  /-- Whether a whole number keeps a point and one place. -/
  keepsPoint : Bool
  exponentWidth : Nat
  deriving DecidableEq, Repr

def Layout.write (layout : Layout) (d : Decimal) : List Char :=
  if layout.lowest ≤ d.leading ∧ d.leading ≤ layout.highest then
    if layout.keepsPoint then d.pointed else d.plain
  else d.scientific layout.exponentWidth

/-- Numbers are shown with a point, and plainly from `0.0001` to below `10 ^ 16`. -/
def Layout.display : Layout := ⟨-4, 15, true, 2⟩

/-- Table cells show whole numbers without a point, and are plain from `0.000001` to below
    `10 ^ 10`. -/
def Layout.cell : Layout := ⟨-6, 9, false, 1⟩

end LineCalc
