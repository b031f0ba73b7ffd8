import LineCalc.Binary64.Magnitude

/-!
Rounding depends on the value alone and keeps the magnitudes: `nearest_scale` says the first and
`nearest_mul_units` the second.
-/
namespace LineCalc

theorem roundHalfEven_scale (a d : Nat) {c : Nat} (positive : 0 < c) :
    roundHalfEven (a * c) (d * c) = roundHalfEven a d := by
  have remainder : 2 * (a % d * c) = 2 * (a % d) * c := (Nat.mul_assoc ..).symm
  unfold roundHalfEven
  rw [Nat.mul_div_mul_right _ _ positive, Nat.mul_mod_mul_right, remainder]
  simp only [Nat.mul_lt_mul_right positive, Nat.mul_left_inj (Nat.ne_of_gt positive)]

/-- A multiple of the divisor is not changed. -/
theorem roundHalfEven_mul (n : Nat) {d : Nat} (positive : 0 < d) : roundHalfEven (n * d) d = n := by
  unfold roundHalfEven
  rw [Nat.mul_mod_left, Nat.mul_div_cancel _ positive]
  simp [positive]

namespace Magnitude

theorem nearest_scale (a d : Nat) {c : Nat} (positive : 0 < c) :
    nearest (a * c) (d * c) = nearest a d := by
  have exponents : exponentFor (a * c) (d * c) = exponentFor a d := by
    unfold exponentFor
    rw [Nat.mul_div_mul_right _ _ positive]
  have significands : significandFor (a * c) (d * c) = significandFor a d := by
    unfold significandFor
    rw [exponents, Nat.mul_right_comm, roundHalfEven_scale _ _ positive]
  simp only [nearest, exponents, significands]

/-- Equal values have equal roundings. -/
theorem nearest_eq {a d b e : Nat} (d_positive : 0 < d) (e_positive : 0 < e)
    (same : a * e = b * d) : nearest a d = nearest b e := by
  rw [← nearest_scale a d e_positive, ← nearest_scale b e d_positive, same, Nat.mul_comm e d]

theorem exponentFor_units (m : Magnitude) : exponentFor m.units 1 = m.exponent := by
  unfold exponentFor
  rw [Nat.div_one]
  have below := m.significand_lt
  have positive : 0 < Nat.pow 2 m.exponent := Nat.two_pow_pos _
  rcases m.normal with full | smallest
  · have nonzero : m.units ≠ 0 := Nat.ne_of_gt (Nat.mul_pos (by omega) positive)
    have log : m.units.log2 = 52 + m.exponent := by
      rw [Nat.log2_eq_iff nonzero]
      have low : Nat.pow 2 (52 + m.exponent) = 0x10000000000000 * Nat.pow 2 m.exponent :=
        Nat.pow_add 2 52 _
      have high : Nat.pow 2 (52 + m.exponent + 1) = 0x20000000000000 * Nat.pow 2 m.exponent := by
        rw [Nat.add_right_comm]
        exact Nat.pow_add 2 53 _
      exact ⟨Nat.le_trans (Nat.le_of_eq low) (Nat.mul_le_mul_right _ full),
        Nat.lt_of_lt_of_le (Nat.mul_lt_mul_of_pos_right below positive) (Nat.le_of_eq high.symm)⟩
    omega
  · have small : m.units < 0x20000000000000 := by
      simp [units, smallest, below]
    by_cases zero : m.units = 0
    · simp [zero, smallest]
    · have log : m.units.log2 < 53 := (Nat.log2_lt zero).mpr small
      omega

theorem nearest_units (m : Magnitude) : nearest m.units 1 = some m := by
  have positive : 0 < Nat.pow 2 m.exponent := Nat.two_pow_pos _
  have significand : significandFor m.units 1 = m.significand := by
    unfold significandFor
    rw [exponentFor_units, Nat.one_mul]
    exact roundHalfEven_mul _ positive
  have below := m.significand_lt
  have fits := m.exponent_le
  unfold nearest
  simp only [significand, exponentFor_units]
  rw [dif_neg (by omega), dif_pos fits]

/-- A magnitude is its own rounding, however its value is written as a quotient. -/
theorem nearest_mul_units (m : Magnitude) {d : Nat} (positive : 0 < d) :
    nearest (m.units * d) d = some m := by
  rw [nearest_eq positive Nat.zero_lt_one (b := m.units) (by omega), nearest_units]

end Magnitude

end LineCalc
