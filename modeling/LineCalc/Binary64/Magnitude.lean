/-!
Finite magnitudes of the binary64 format and rounding to them.

All magnitudes are multiples of the smallest one, `2 ^ -1074`, so exact values are kept as
quotients of natural numbers in that unit and no rational arithmetic is needed. Powers of fixed
height are not unfolded in proofs, which treat the height as any number.
-/
namespace LineCalc

/-- The smallest magnitude is one half to this power. -/
@[irreducible] def smallestPower : Nat := 1074

/-- The number of smallest magnitudes in one. -/
def unitsPerOne : Nat := Nat.pow 2 smallestPower

/-- The quotient `a / d` rounded to a natural number, a half to the even neighbour. -/
def roundHalfEven (a d : Nat) : Nat :=
  if 2 * (a % d) < d ∨ 2 * (a % d) = d ∧ a / d % 2 = 0 then a / d else a / d + 1

theorem roundHalfEven_bounds (a d : Nat) :
    a / d ≤ roundHalfEven a d ∧ roundHalfEven a d ≤ a / d + 1 := by
  unfold roundHalfEven
  split <;> omega

/-- The magnitude `significand * 2 ^ exponent` smallest units. A significand has at most 53
    bits, and only the smallest exponent admits fewer, so each magnitude has one form. -/
structure Magnitude where
  significand : Nat
  exponent : Nat
  significand_lt : significand < 0x20000000000000
  normal : 0x10000000000000 ≤ significand ∨ exponent = 0
  exponent_le : exponent ≤ 2045
  deriving DecidableEq, Repr

namespace Magnitude

def zero : Magnitude := ⟨0, 0, by decide, .inr rfl, by decide⟩

/-- The magnitude as a count of smallest units. -/
def units (m : Magnitude) : Nat := m.significand * Nat.pow 2 m.exponent

def isZero (m : Magnitude) : Bool := m.significand == 0

/-- The exponent at which the integer part of `a / d` has at most 53 bits, and exactly 53
    unless it is the smallest exponent. -/
def exponentFor (a d : Nat) : Nat := (a / d).log2 - 52

/-- The 53 leading bits of `a / d`, rounded; a carry may make a 54th. -/
def significandFor (a d : Nat) : Nat := roundHalfEven a (d * Nat.pow 2 (exponentFor a d))

theorem quotient_lt (a d : Nat) :
    a / (d * Nat.pow 2 (exponentFor a d)) < 0x20000000000000 := by
  have positive : 0 < Nat.pow 2 (exponentFor a d) := Nat.two_pow_pos _
  rw [← Nat.div_div_eq_div_mul, Nat.div_lt_iff_lt_mul positive]
  have below : a / d < Nat.pow 2 ((a / d).log2 + 1) := Nat.lt_log2_self
  have wide : Nat.pow 2 ((a / d).log2 + 1) ≤ Nat.pow 2 (53 + exponentFor a d) :=
    Nat.pow_le_pow_right (by decide) (by unfold exponentFor; omega)
  have split : Nat.pow 2 (53 + exponentFor a d) = 0x20000000000000 * Nat.pow 2 (exponentFor a d) :=
    Nat.pow_add 2 53 _
  omega

theorem le_quotient (a d : Nat) (large : exponentFor a d ≠ 0) :
    0x10000000000000 ≤ a / (d * Nat.pow 2 (exponentFor a d)) := by
  have nonzero : a / d ≠ 0 := by
    intro none
    simp [exponentFor, none] at large
  have width : 52 + exponentFor a d = (a / d).log2 := by
    unfold exponentFor at large ⊢
    omega
  have positive : 0 < Nat.pow 2 (exponentFor a d) := Nat.two_pow_pos _
  rw [← Nat.div_div_eq_div_mul, Nat.le_div_iff_mul_le positive]
  have above : Nat.pow 2 ((a / d).log2) ≤ a / d := Nat.log2_self_le nonzero
  have split : Nat.pow 2 (52 + exponentFor a d) = 0x10000000000000 * Nat.pow 2 (exponentFor a d) :=
    Nat.pow_add 2 52 _
  rw [width] at split
  omega

theorem significandFor_le (a d : Nat) : significandFor a d ≤ 0x20000000000000 := by
  have below := quotient_lt a d
  have bounds := roundHalfEven_bounds a (d * Nat.pow 2 (exponentFor a d))
  unfold significandFor
  omega

theorem significandFor_normal (a d : Nat) :
    0x10000000000000 ≤ significandFor a d ∨ exponentFor a d = 0 := by
  by_cases small : exponentFor a d = 0
  · exact .inr small
  · exact .inl (Nat.le_trans (le_quotient a d small) (roundHalfEven_bounds a _).1)

/-- The magnitude nearest to `a / d` units, a half to the even significand, for a positive
    `d`. There is none when the value rounds past the largest magnitude. -/
def nearest (a d : Nat) : Option Magnitude :=
  if carry : significandFor a d = 0x20000000000000 then
    if fits : exponentFor a d + 1 ≤ 2045 then
      some ⟨0x10000000000000, exponentFor a d + 1, by decide, .inl (by decide), fits⟩
    else none
  else if fits : exponentFor a d ≤ 2045 then
    some ⟨significandFor a d, exponentFor a d,
      Nat.lt_of_le_of_ne (significandFor_le a d) carry, significandFor_normal a d, fits⟩
  else none

end Magnitude

end LineCalc
