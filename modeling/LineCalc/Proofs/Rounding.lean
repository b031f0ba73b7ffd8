import Mathlib
import LineCalc.Binary64.Rounding
import LineCalc.Decimal.Literal

/-!
Correct rounding, stated of exact values and apart from how it is computed. `Rounds r m` says that
`m` is the magnitude for `r`; `Magnitude.nearest_eq_some_iff` and `Decimal.nearest_eq_some_iff` say
that the computed roundings are those, and their partners with `none` when there is none.
-/
namespace LineCalc

theorem neighbour_or_far (k s d : Nat) :
    k + 1 = s ∨ k = s ∨ k = s + 1 ∨ k * d + 2 * d ≤ s * d ∨ s * d + 2 * d ≤ k * d := by
  by_cases below : k + 2 ≤ s
  · have step := Nat.mul_le_mul_right d below
    rw [Nat.add_mul] at step
    exact .inr (.inr (.inr (.inl step)))
  · by_cases above : s + 2 ≤ k
    · have step := Nat.mul_le_mul_right d above
      rw [Nat.add_mul] at step
      exact .inr (.inr (.inr (.inr step)))
    · omega

theorem roundHalfEven_dist (a : Nat) {d : Nat} (positive : 0 < d) :
    2 * Nat.dist a (roundHalfEven a d * d) ≤ d := by
  have whole : a / d * d + a % d = a := Nat.div_add_mod' a d
  have below : a % d < d := Nat.mod_lt a positive
  have above : (a / d + 1) * d = a / d * d + d := Nat.succ_mul ..
  unfold roundHalfEven Nat.dist
  split <;> omega

theorem roundHalfEven_tie {a d : Nat} (positive : 0 < d)
    (tie : 2 * Nat.dist a (roundHalfEven a d * d) = d) : roundHalfEven a d % 2 = 0 := by
  have whole : a / d * d + a % d = a := Nat.div_add_mod' a d
  have below : a % d < d := Nat.mod_lt a positive
  have above : (a / d + 1) * d = a / d * d + d := Nat.succ_mul ..
  unfold roundHalfEven Nat.dist at tie
  unfold roundHalfEven
  split
  · rename_i down
    rw [if_pos down] at tie
    omega
  · rename_i up
    rw [if_neg up] at tie
    omega

theorem roundHalfEven_nearest (a : Nat) {d : Nat} (positive : 0 < d) (k : Nat) :
    k = roundHalfEven a d ∨ Nat.dist a (roundHalfEven a d * d) < Nat.dist a (k * d) ∨
      (Nat.dist a (roundHalfEven a d * d) = Nat.dist a (k * d) ∧
        roundHalfEven a d % 2 = 0 ∧ k % 2 = 1) := by
  have near := roundHalfEven_dist a positive
  have tie := roundHalfEven_tie (a := a) positive
  generalize roundHalfEven a d = s at near tie
  have sides := neighbour_or_far k s d
  unfold Nat.dist at *
  rcases sides with below | same | above | farBelow | farAbove
  · have step : s * d = k * d + d := by rw [← below, Nat.succ_mul]
    omega
  · exact .inl same
  · have step : k * d = s * d + d := by rw [above, Nat.succ_mul]
    omega
  · omega
  · omega

namespace Magnitude

theorem units_injective {m n : Magnitude} (same : m.units = n.units) : m = n := by
  have first := nearest_units m
  rw [same, nearest_units n] at first
  exact (Option.some.inj first).symm

/- Whole numbers of at most 53 bits are magnitudes. -/
theorem exists_of_whole {n : Nat} (narrow : n < 0x20000000000000) :
    ∃ m : Magnitude, m.units = n * unitsPerOne := by
  by_cases none : n = 0
  · exact ⟨zero, by simp [units, zero, none]⟩
  · have width : n.log2 < 53 := (Nat.log2_lt none).mpr narrow
    have power : smallestPower = 1074 := by
      unfold smallestPower
      rfl
    have split (a b : Nat) : Nat.pow 2 a * Nat.pow 2 b = Nat.pow 2 (a + b) := (Nat.pow_add ..).symm
    have positive : 0 < Nat.pow 2 (52 - n.log2) := Nat.two_pow_pos _
    have low : Nat.pow 2 52 ≤ n * Nat.pow 2 (52 - n.log2) := by
      have above := Nat.mul_le_mul_right (Nat.pow 2 (52 - n.log2)) (Nat.log2_self_le none)
      have whole := split n.log2 (52 - n.log2)
      rw [Nat.add_sub_cancel' (by omega)] at whole
      exact whole ▸ above
    have high : n * Nat.pow 2 (52 - n.log2) < Nat.pow 2 53 := by
      have below := Nat.mul_lt_mul_of_pos_right (Nat.lt_log2_self (n := n)) positive
      have whole := split (n.log2 + 1) (52 - n.log2)
      rw [show n.log2 + 1 + (52 - n.log2) = 53 by omega] at whole
      exact whole ▸ below
    refine ⟨⟨n * Nat.pow 2 (52 - n.log2), smallestPower - (52 - n.log2), high, .inl low, ?_⟩, ?_⟩
    · omega
    · unfold units unitsPerOne
      rw [Nat.mul_assoc, split, Nat.add_sub_cancel' (by omega)]

/- From the exponent of the rounding on, a magnitude is a multiple of its step. -/
theorem units_eq_multiple {e : Nat} (m : Magnitude) (high : e ≤ m.exponent) :
    ∃ k, m.units = k * Nat.pow 2 e ∧ (k % 2 = 1 → m.significand % 2 = 1) := by
  refine ⟨m.significand * Nat.pow 2 (m.exponent - e), ?_, ?_⟩
  · have split : Nat.pow 2 (m.exponent - e) * Nat.pow 2 e = Nat.pow 2 m.exponent := by
      rw [← Nat.sub_add_cancel high]
      simp [Nat.pow_add]
    rw [Nat.mul_assoc, split, units]
  · intro odd
    exact Nat.odd_iff.mp (Nat.odd_mul.mp (Nat.odd_iff.mpr odd)).1

theorem units_lt_of_exponent_lt {e : Nat} (m : Magnitude) (low : m.exponent < e) :
    m.units < 0x10000000000000 * Nat.pow 2 e := by
  have narrow := m.significand_lt
  have step : Nat.pow 2 (m.exponent + 1) ≤ Nat.pow 2 e := Nat.pow_le_pow_right (by decide) low
  have double : Nat.pow 2 (m.exponent + 1) = 2 * Nat.pow 2 m.exponent := Nat.pow_succ'
  have positive : 0 < Nat.pow 2 m.exponent := Nat.two_pow_pos _
  calc m.units < 0x20000000000000 * Nat.pow 2 m.exponent :=
        Nat.mul_lt_mul_of_pos_right narrow positive
    _ = 0x10000000000000 * Nat.pow 2 (m.exponent + 1) := by rw [double]; ring
    _ ≤ 0x10000000000000 * Nat.pow 2 e := Nat.mul_le_mul_left _ step

/- The rounded value in smallest units, before it is packed. -/
def candidate (a d : Nat) : Nat := significandFor a d * Nat.pow 2 (exponentFor a d)

theorem candidate_closest (a : Nat) {d : Nat} (positive : 0 < d) (n : Magnitude) :
    n.units = candidate a d ∨ Nat.dist a (candidate a d * d) < Nat.dist a (n.units * d) ∨
      (Nat.dist a (candidate a d * d) = Nat.dist a (n.units * d) ∧
        significandFor a d % 2 = 0 ∧ n.significand % 2 = 1) := by
  have step : 0 < d * Nat.pow 2 (exponentFor a d) := Nat.mul_pos positive (Nat.two_pow_pos _)
  have scaled (k : Nat) :
      k * (d * Nat.pow 2 (exponentFor a d)) = k * Nat.pow 2 (exponentFor a d) * d := by ring
  have nearest := roundHalfEven_nearest a step
  simp only [scaled] at nearest
  by_cases high : exponentFor a d ≤ n.exponent
  · obtain ⟨k, multiple, odd⟩ := units_eq_multiple n high
    rw [multiple]
    rcases nearest k with same | nearer | ⟨tie, even, oddMultiple⟩
    · exact .inl (by rw [same]; rfl)
    · exact .inr (.inl nearer)
    · exact .inr (.inr ⟨tie, even, odd oddMultiple⟩)
  · right; left
    have below := units_lt_of_exponent_lt n (Nat.lt_of_not_le high)
    have large := le_quotient a d (by omega)
    rw [Nat.le_div_iff_mul_le step, scaled] at large
    have farther : n.units * d < 0x10000000000000 * Nat.pow 2 (exponentFor a d) * d :=
      Nat.mul_lt_mul_of_pos_right below positive
    have bound : Nat.dist a (candidate a d * d) ≤
        Nat.dist a (0x10000000000000 * Nat.pow 2 (exponentFor a d) * d) := by
      rcases nearest 0x10000000000000 with same | nearer | ⟨tie, _, _⟩
      · rw [same]; exact Nat.le_refl _
      · exact Nat.le_of_lt nearer
      · exact Nat.le_of_eq tie
    refine Nat.lt_of_le_of_lt bound ?_
    unfold Nat.dist
    omega

def value (m : Magnitude) : ℚ := m.units / unitsPerOne

end Magnitude

/-- Half a step past the largest magnitude. -/
def overflowThreshold : ℚ := 2 ^ 1024 - 2 ^ 970

/-- Correct rounding to the magnitudes: no other is nearer, a tie goes to the even significand, and
    past the threshold there is none. -/
structure Rounds (r : ℚ) (m : Magnitude) : Prop where
  below : r < overflowThreshold
  least : ∀ n : Magnitude, |r - m.value| ≤ |r - n.value|
  even : ∀ n : Magnitude, n ≠ m → |r - n.value| = |r - m.value| → m.significand % 2 = 0

namespace Magnitude

theorem nearest_packs {a d : Nat} {m : Magnitude} (found : nearest a d = some m) :
    m.units = candidate a d ∧ (significandFor a d % 2 = 0 → m.significand % 2 = 0) ∧
      (exponentFor a d < 2045 ∨
        exponentFor a d = 2045 ∧ significandFor a d < 0x20000000000000) := by
  have bound := significandFor_le a d
  unfold nearest at found
  unfold candidate
  split at found
  · rename_i carry
    split at found
    · obtain rfl := Option.some.inj found
      refine ⟨?_, fun _ => Nat.mod_eq_zero_of_dvd (by norm_num), by omega⟩
      have double : Nat.pow 2 (exponentFor a d + 1) = Nat.pow 2 (exponentFor a d) * 2 :=
        Nat.pow_succ ..
      rw [units, carry, double]
      ring
    · cases found
  · split at found
    · obtain rfl := Option.some.inj found
      exact ⟨rfl, id, by omega⟩
    · cases found

theorem nearest_overflows {a d : Nat} (none : nearest a d = none) :
    2045 < exponentFor a d ∨ exponentFor a d = 2045 ∧ significandFor a d = 0x20000000000000 := by
  unfold nearest at none
  split at none
  · split at none
    · cases none
    · omega
  · split at none
    · cases none
    · omega

/- The largest step is two to one power more. -/
@[irreducible] def halfStepPower : Nat := 2044

theorem halfStepPower_succ : halfStepPower + 1 = 2045 := by
  unfold halfStepPower
  rfl

/- The threshold in smallest units, an odd multiple of half the largest step. -/
def thresholdUnits : Nat := 0x3fffffffffffff * Nat.pow 2 halfStepPower

theorem lt_threshold_of_small {a d : Nat} (positive : 0 < d) (small : exponentFor a d < 2045) :
    a < thresholdUnits * d := by
  have step : 0 < d * Nat.pow 2 (exponentFor a d) := Nat.mul_pos positive (Nat.two_pow_pos _)
  have below := quotient_lt a d
  rw [Nat.div_lt_iff_lt_mul step] at below
  have power : Nat.pow 2 (exponentFor a d) ≤ Nat.pow 2 halfStepPower :=
    Nat.pow_le_pow_right (by decide) (by have := halfStepPower_succ; omega)
  calc a < 0x20000000000000 * (d * Nat.pow 2 (exponentFor a d)) := below
    _ ≤ 0x20000000000000 * (d * Nat.pow 2 halfStepPower) :=
      Nat.mul_le_mul_left _ (Nat.mul_le_mul_left _ power)
    _ ≤ 0x3fffffffffffff * (d * Nat.pow 2 halfStepPower) := Nat.mul_le_mul_right _ (by decide)
    _ = thresholdUnits * d := by unfold thresholdUnits; ring

/- At the largest step the significand says on which side of the threshold the value lies. -/
theorem threshold_le_iff_of_top {a d : Nat} (positive : 0 < d) (top : exponentFor a d = 2045) :
    thresholdUnits * d ≤ a ↔ significandFor a d = 0x20000000000000 := by
  have atMost := significandFor_le a d
  have step : 0 < d * Nat.pow 2 (exponentFor a d) := Nat.mul_pos positive (Nat.two_pow_pos _)
  have near := roundHalfEven_dist a step
  have tie := roundHalfEven_tie (a := a) step
  change 2 * Nat.dist a (significandFor a d * _) ≤ _ at near
  change 2 * Nat.dist a (significandFor a d * _) = _ → significandFor a d % 2 = 0 at tie
  have double : d * Nat.pow 2 (exponentFor a d) = 2 * (Nat.pow 2 halfStepPower * d) := by
    rw [top, ← halfStepPower_succ]
    simp only [Nat.pow_eq, Nat.pow_succ]
    ring
  have limit : thresholdUnits * d = 0x3fffffffffffff * (Nat.pow 2 halfStepPower * d) :=
    Nat.mul_assoc ..
  rw [double] at near tie step
  rw [limit]
  generalize significandFor a d = s at *
  generalize Nat.pow 2 halfStepPower * d = half at *
  have twice : s * (2 * half) = 2 * (s * half) := by ring
  rw [twice] at near tie
  unfold Nat.dist at near tie
  constructor
  · intro reached
    by_contra noCarry
    by_cases last : s = 0x1fffffffffffff
    · subst last
      omega
    · have far := Nat.mul_le_mul_right half (show s ≤ 0x1ffffffffffffe by omega)
      omega
  · intro carry
    subst carry
    omega

theorem threshold_le_of_large {a d : Nat} (positive : 0 < d) (large : 2045 < exponentFor a d) :
    thresholdUnits * d ≤ a := by
  have step : 0 < d * Nat.pow 2 (exponentFor a d) := Nat.mul_pos positive (Nat.two_pow_pos _)
  have above := le_quotient a d (by omega)
  rw [Nat.le_div_iff_mul_le step] at above
  have power : Nat.pow 2 (halfStepPower + 2) ≤ Nat.pow 2 (exponentFor a d) :=
    Nat.pow_le_pow_right (by decide) (by have := halfStepPower_succ; omega)
  have quadruple : Nat.pow 2 (halfStepPower + 2) = 4 * Nat.pow 2 halfStepPower := by
    simp only [Nat.pow_eq, Nat.pow_succ]
    ring
  calc thresholdUnits * d ≤ 0x40000000000000 * Nat.pow 2 halfStepPower * d :=
        Nat.mul_le_mul_right _ (Nat.mul_le_mul_right _ (by decide))
    _ = 0x10000000000000 * (d * Nat.pow 2 (halfStepPower + 2)) := by rw [quadruple]; ring
    _ ≤ 0x10000000000000 * (d * Nat.pow 2 (exponentFor a d)) :=
        Nat.mul_le_mul_left _ (Nat.mul_le_mul_left _ power)
    _ ≤ a := above

theorem nearest_eq_none_iff_units {a d : Nat} (positive : 0 < d) :
    nearest a d = none ↔ thresholdUnits * d ≤ a := by
  constructor
  · intro none
    rcases nearest_overflows none with large | ⟨top, carry⟩
    · exact threshold_le_of_large positive large
    · exact (threshold_le_iff_of_top positive top).mpr carry
  · intro reached
    cases found : nearest a d with
    | none => rfl
    | some m =>
      obtain ⟨_, _, small | ⟨top, noCarry⟩⟩ := nearest_packs found
      · have := lt_threshold_of_small positive small
        omega
      · have carry := (threshold_le_iff_of_top positive top).mp reached
        omega

theorem unitsPerOne_pos : 0 < unitsPerOne := Nat.two_pow_pos _

theorem overflowThreshold_units : overflowThreshold * unitsPerOne = thresholdUnits := by
  have powers : (2 : ℚ) ^ 970 * 2 ^ smallestPower = 2 ^ halfStepPower := by
    rw [← pow_add]
    congr 1
    unfold smallestPower halfStepPower
    rfl
  have wide : (2 : ℚ) ^ 1024 = 2 ^ 54 * 2 ^ 970 := by rw [← pow_add]
  have units : (unitsPerOne : ℚ) = 2 ^ smallestPower := by
    unfold unitsPerOne
    exact Nat.cast_pow 2 _
  have threshold : (thresholdUnits : ℚ) = 0x3fffffffffffff * 2 ^ halfStepPower := by
    unfold thresholdUnits
    push_cast [Nat.pow_eq]
    rfl
  unfold overflowThreshold
  rw [wide, units, threshold, ← powers]
  generalize (2 : ℚ) ^ 970 = power
  ring

/- Distances from `a / d` units to magnitudes, in units and cleared of `d`. -/
theorem abs_sub_value (a : Nat) {d : Nat} (positive : 0 < d) (m : Magnitude) :
    |(a : ℚ) / d / unitsPerOne - m.value| = Nat.dist a (m.units * d) / (d * unitsPerOne) := by
  have denominator : (0 : ℚ) < d * unitsPerOne := by
    exact_mod_cast Nat.mul_pos positive unitsPerOne_pos
  have dist : |(a : ℚ) - m.units * d| = Nat.dist a (m.units * d) := by
    unfold Nat.dist
    rcases Nat.le_total a (m.units * d) with below | above
    · have cast : (a : ℚ) ≤ m.units * d := by exact_mod_cast below
      rw [abs_of_nonpos (by linarith), Nat.sub_eq_zero_of_le below]
      push_cast [below]
      ring
    · have cast : (m.units : ℚ) * d ≤ a := by exact_mod_cast above
      rw [abs_of_nonneg (by linarith), Nat.sub_eq_zero_of_le above]
      push_cast [above]
      ring
  have common : (a : ℚ) / d / unitsPerOne - m.value = (a - m.units * d) / (d * unitsPerOne) := by
    have : (d : ℚ) ≠ 0 := by exact_mod_cast positive.ne'
    have : (unitsPerOne : ℚ) ≠ 0 := by exact_mod_cast unitsPerOne_pos.ne'
    unfold value
    field_simp
  rw [common, abs_div, abs_of_pos denominator, dist]

theorem lt_overflowThreshold_iff (a : Nat) {d : Nat} (positive : 0 < d) :
    (a : ℚ) / d / unitsPerOne < overflowThreshold ↔ a < thresholdUnits * d := by
  have one : (0 : ℚ) < unitsPerOne := by exact_mod_cast unitsPerOne_pos
  have divisor : (0 : ℚ) < d := by exact_mod_cast positive
  rw [div_lt_iff₀ one, overflowThreshold_units, div_lt_iff₀ divisor]
  exact_mod_cast Iff.rfl

theorem rounds_of_nearest {a d : Nat} {m : Magnitude} (positive : 0 < d)
    (found : nearest a d = some m) : Rounds ((a : ℚ) / d / unitsPerOne) m := by
  have denominator : (0 : ℚ) < d * unitsPerOne := by
    exact_mod_cast Nat.mul_pos positive unitsPerOne_pos
  obtain ⟨packed, parity, _⟩ := nearest_packs found
  have closest (n : Magnitude) := candidate_closest a positive n
  rw [← packed] at closest
  refine ⟨?_, ?_, ?_⟩
  · rw [lt_overflowThreshold_iff a positive]
    have finite := (nearest_eq_none_iff_units (a := a) positive).not
    rw [found] at finite
    simpa using finite
  · intro n
    rw [abs_sub_value a positive, abs_sub_value a positive]
    refine div_le_div_of_nonneg_right ?_ denominator.le
    rcases closest n with same | nearer | ⟨tie, _⟩
    · rw [same]
    · exact_mod_cast nearer.le
    · exact_mod_cast tie.le
  · intro n other tie
    rw [abs_sub_value a positive, abs_sub_value a positive, div_left_inj' denominator.ne'] at tie
    rcases closest n with same | nearer | ⟨_, even, _⟩
    · exact absurd (units_injective same) other
    · exact absurd (by exact_mod_cast tie) nearer.ne'
    · exact parity even

/-- `nearest` is correct rounding. -/
theorem nearest_eq_some_iff {a d : Nat} (positive : 0 < d) {m : Magnitude} :
    nearest a d = some m ↔ Rounds ((a : ℚ) / d / unitsPerOne) m := by
  refine ⟨rounds_of_nearest positive, ?_⟩
  intro rounds
  cases found : nearest a d with
  | none =>
    have reached := (nearest_eq_none_iff_units positive).mp found
    have below := (lt_overflowThreshold_iff a positive).mp rounds.below
    omega
  | some n =>
    have denominator : (0 : ℚ) < d * unitsPerOne := by
      exact_mod_cast Nat.mul_pos positive unitsPerOne_pos
    obtain ⟨packed, _, _⟩ := nearest_packs found
    have closest := candidate_closest a positive m
    have least := rounds.least n
    rw [← packed] at closest
    rw [abs_sub_value a positive, abs_sub_value a positive,
      div_le_div_iff_of_pos_right denominator, Nat.cast_le] at least
    rcases closest with same | nearer | ⟨tie, _, odd⟩
    · rw [units_injective same]
    · omega
    · by_cases same : n = m
      · rw [same]
      · have equal :
            |(a : ℚ) / d / unitsPerOne - n.value| = |(a : ℚ) / d / unitsPerOne - m.value| := by
          rw [abs_sub_value a positive, abs_sub_value a positive, tie]
        have even := rounds.even n same equal
        omega

theorem nearest_eq_none_iff {a d : Nat} (positive : 0 < d) :
    nearest a d = none ↔ overflowThreshold ≤ (a : ℚ) / d / unitsPerOne := by
  rw [nearest_eq_none_iff_units positive, ← not_lt, ← not_lt, lt_overflowThreshold_iff a positive]

end Magnitude

namespace Decimal

def value (d : Decimal) : ℚ := d.coefficient * 10 ^ d.exponent

theorem value_eq (d : Decimal) : (d.numerator : ℚ) / d.denominator / unitsPerOne = d.value := by
  have one : (unitsPerOne : ℚ) ≠ 0 := by exact_mod_cast Magnitude.unitsPerOne_pos.ne'
  have power : (10 : ℚ) ^ d.exponent.toNat / 10 ^ (-d.exponent).toNat = 10 ^ d.exponent := by
    rw [← zpow_natCast, ← zpow_natCast, ← zpow_sub₀ (by norm_num)]
    congr 1
    omega
  unfold numerator denominator value
  rw [← power]
  push_cast [Nat.pow_eq]
  field_simp

theorem nearest_eq_some_iff {d : Decimal} {m : Magnitude} :
    d.nearest = some m ↔ Rounds d.value m := by
  rw [← value_eq]
  exact Magnitude.nearest_eq_some_iff d.denominator_pos

theorem nearest_eq_none_iff {d : Decimal} : d.nearest = none ↔ overflowThreshold ≤ d.value := by
  rw [← value_eq]
  exact Magnitude.nearest_eq_none_iff d.denominator_pos

end Decimal

namespace Literal

/-- The exact value: that of the digits before the point, and that of those after it at their
    places. -/
def value (l : Literal) : ℚ :=
  Nat.ofDigitChars 10 l.whole 0 +
    Nat.ofDigitChars 10 (l.fraction.getD []) 0 / 10 ^ (l.fraction.getD []).length

theorem decimal_value (l : Literal) : l.decimal.value = l.value := by
  unfold Decimal.value decimal value digits
  rw [Nat.ofDigitChars_append, Nat.ofDigitChars_eq_ofDigitChars_zero, zpow_neg, zpow_natCast]
  push_cast
  field_simp

end Literal

end LineCalc
