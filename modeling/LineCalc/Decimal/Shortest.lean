import LineCalc.Decimal.Basic

/-!
The shortest decimal of a magnitude: the fewest digits that are read back as the magnitude,
and of those the nearest to it. `nearest_shortest` says that it is read back.
-/
namespace LineCalc.Magnitude

/-- All digits of a magnitude. -/
def exactDecimal (m : Magnitude) : Decimal :=
  ⟨m.units * Nat.pow 5 smallestPower, -(smallestPower : Int)⟩

/-- The power of ten just above the first digit. The scale `10 ^ 324` makes the smallest
    magnitude at least one. -/
def ceiling (m : Magnitude) : Int :=
  (Nat.toDigits 10 (m.units * Nat.pow 10 324 / unitsPerOne)).length - 324

/-- A multiple of `10 ^ power` that is read back as the magnitude: the nearest one if
    possible, else the neighbour on the other side. -/
def onGrid? (m : Magnitude) (power : Int) : Option Decimal :=
  let a := m.units * Nat.pow 10 (-power).toNat
  let d := unitsPerOne * Nat.pow 10 power.toNat
  [roundHalfEven a d, a / d, a / d + 1].map (⟨·, power⟩)
    |>.find? fun candidate => candidate.nearest == some m

/-- Seventeen digits are always enough; the exact digits stand behind that. -/
def shortest (m : Magnitude) : Decimal :=
  if m.isZero then .zero
  else
    let ceiling := m.ceiling
    let found := (List.range 17).findSome? fun (n : Nat) => m.onGrid? (ceiling - (n + 1))
    (found.getD m.exactDecimal).trim

theorem nearest_of_onGrid? {m : Magnitude} {power : Int} {d : Decimal}
    (found : m.onGrid? power = some d) : d.nearest = some m :=
  eq_of_beq (List.find?_some (p := fun candidate : Decimal => candidate.nearest == some m) found)

theorem nearest_exactDecimal (m : Magnitude) : m.exactDecimal.nearest = some m := by
  have positive : 0 < Nat.pow 10 smallestPower := Nat.pow_pos (by decide)
  have power : Nat.pow 5 smallestPower * unitsPerOne = Nat.pow 10 smallestPower :=
    (Nat.mul_pow 5 2 smallestPower).symm
  have above : (-(smallestPower : Int)).toNat = 0 := by omega
  have below : (- -(smallestPower : Int)).toNat = smallestPower := by omega
  unfold Decimal.nearest Decimal.numerator Decimal.denominator exactDecimal
  simp only
  rw [above, below, show Nat.pow 10 0 = 1 from rfl, Nat.mul_one, Nat.mul_assoc, power]
  exact nearest_mul_units m positive

theorem nearest_zero : Decimal.zero.nearest = some .zero := by
  have noUnits : Decimal.zero.numerator = Magnitude.zero.units := by
    simp [Decimal.zero, Decimal.numerator, Magnitude.zero, units]
  unfold Decimal.nearest
  rw [noUnits]
  exact nearest_units .zero

theorem eq_zero_of_isZero {m : Magnitude} (none : m.isZero) : m = .zero := by
  obtain ⟨significand, exponent, below, normal, fits⟩ := m
  simp only [isZero, beq_iff_eq] at none
  have least : exponent = 0 := normal.resolve_left (by omega)
  simp only [none, least, zero]

/-- The shortest decimal is read back as the magnitude. -/
theorem nearest_shortest (m : Magnitude) : m.shortest.nearest = some m := by
  unfold shortest
  split
  case isTrue none => rw [nearest_zero, eq_zero_of_isZero none]
  case isFalse =>
    rw [Decimal.nearest_trim]
    cases candidate : (List.range 17).findSome? fun (n : Nat) =>
        m.onGrid? (m.ceiling - (n + 1)) with
    | none => exact nearest_exactDecimal m
    | some d =>
      obtain ⟨_, n, _, _, found, _⟩ := List.findSome?_eq_some_iff.mp candidate
      exact nearest_of_onGrid? found

end LineCalc.Magnitude
