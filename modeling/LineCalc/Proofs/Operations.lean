import LineCalc.Operator
import LineCalc.Proofs.Values

/-!
The operations of the binary64 format, as relations. Finite operands have the exact result, rounded
once; the other cases are those of the format. Each relation has one result for any two operands,
and it is what the operation computes (`sum_iff`, `difference_iff`, `product_iff`, `quotient_iff`).
Subtraction is computed as the addition of the opposite, and division is the quotient for zero
divisors too.
-/
namespace LineCalc.Binary64

/- An exact sum of zero is negative only if both terms are. -/
inductive Sum : Binary64 → Binary64 → Binary64 → Prop where
  | nanLeft (y : Binary64) : Sum .nan y .nan
  | nanRight (x : Binary64) : Sum x .nan .nan
  | infinite (s : Bool) : Sum (.infinite s) (.infinite s) (.infinite s)
  | opposite (s : Bool) : Sum (.infinite s) (.infinite !s) .nan
  | infiniteLeft (s t : Bool) (n : Magnitude) : Sum (.infinite s) (.finite t n) (.infinite s)
  | infiniteRight (s t : Bool) (m : Magnitude) : Sum (.finite s m) (.infinite t) (.infinite t)
  | zero {s t : Bool} {m n : Magnitude} (total : signedValue s m + signedValue t n = 0) :
      Sum (.finite s m) (.finite t n) (.finite (s && t) .zero)
  | rounded {s t : Bool} {m n : Magnitude} {r : ℚ} {z : Binary64}
      (total : signedValue s m + signedValue t n = r) (nonzero : r ≠ 0)
      (rounds : Approximates (decide (r < 0)) |r| z) : Sum (.finite s m) (.finite t n) z

/- An exact difference of zero is negative only if the sign of the first operand is and that of the
   second is not. -/
inductive Difference : Binary64 → Binary64 → Binary64 → Prop where
  | nanLeft (y : Binary64) : Difference .nan y .nan
  | nanRight (x : Binary64) : Difference x .nan .nan
  | infinite (t : Bool) : Difference (.infinite !t) (.infinite t) (.infinite !t)
  | same (s : Bool) : Difference (.infinite s) (.infinite s) .nan
  | infiniteLeft (s t : Bool) (n : Magnitude) :
      Difference (.infinite s) (.finite t n) (.infinite s)
  | infiniteRight (s t : Bool) (m : Magnitude) :
      Difference (.finite s m) (.infinite t) (.infinite !t)
  | zero {s t : Bool} {m n : Magnitude} (rest : signedValue s m - signedValue t n = 0) :
      Difference (.finite s m) (.finite t n) (.finite (s && !t) .zero)
  | rounded {s t : Bool} {m n : Magnitude} {r : ℚ} {z : Binary64}
      (rest : signedValue s m - signedValue t n = r) (nonzero : r ≠ 0)
      (rounds : Approximates (decide (r < 0)) |r| z) : Difference (.finite s m) (.finite t n) z

inductive Product : Binary64 → Binary64 → Binary64 → Prop where
  | nanLeft (y : Binary64) : Product .nan y .nan
  | nanRight (x : Binary64) : Product x .nan .nan
  | infinite (s t : Bool) : Product (.infinite s) (.infinite t) (.infinite (s ^^ t))
  | infiniteLeft (s t : Bool) {n : Magnitude} (nonzero : n ≠ .zero) :
      Product (.infinite s) (.finite t n) (.infinite (s ^^ t))
  | infiniteRight (s t : Bool) {m : Magnitude} (nonzero : m ≠ .zero) :
      Product (.finite s m) (.infinite t) (.infinite (s ^^ t))
  | infiniteZero (s t : Bool) : Product (.infinite s) (.finite t .zero) .nan
  | zeroInfinite (s t : Bool) : Product (.finite s .zero) (.infinite t) .nan
  | rounded {s t : Bool} {m n : Magnitude} {z : Binary64}
      (rounds : Approximates (s ^^ t) (m.value * n.value) z) :
      Product (.finite s m) (.finite t n) z

inductive Quotient : Binary64 → Binary64 → Binary64 → Prop where
  | nanLeft (y : Binary64) : Quotient .nan y .nan
  | nanRight (x : Binary64) : Quotient x .nan .nan
  | infinities (s t : Bool) : Quotient (.infinite s) (.infinite t) .nan
  | infiniteLeft (s t : Bool) (n : Magnitude) :
      Quotient (.infinite s) (.finite t n) (.infinite (s ^^ t))
  | infiniteRight (s t : Bool) (m : Magnitude) :
      Quotient (.finite s m) (.infinite t) (.finite (s ^^ t) .zero)
  | zeros (s t : Bool) : Quotient (.finite s .zero) (.finite t .zero) .nan
  | zeroDivisor (s t : Bool) {m : Magnitude} (nonzero : m ≠ .zero) :
      Quotient (.finite s m) (.finite t .zero) (.infinite (s ^^ t))
  | rounded {s t : Bool} {m n : Magnitude} {z : Binary64} (nonzero : n ≠ .zero)
      (rounds : Approximates (s ^^ t) (m.value / n.value) z) :
      Quotient (.finite s m) (.finite t n) z

variable {x y z w : Binary64}

theorem signedValue_add (s t : Bool) (m n : Magnitude) :
    signedValue s m + signedValue t n =
      ((signedUnits s m + signedUnits t n : ℤ) : ℚ) / unitsPerOne := by
  rw [signedValue_eq_units, signedValue_eq_units, Int.cast_add, add_div]

/- A total in smallest units, as the rounding takes it: its sign apart from its size. -/
theorem approximates_total (total : ℤ) :
    Approximates (decide ((total : ℚ) / unitsPerOne < 0)) |(total : ℚ) / unitsPerOne|
      (round (decide (total < 0)) total.natAbs 1) := by
  have one : (0 : ℚ) < unitsPerOne := by exact_mod_cast Magnitude.unitsPerOne_pos
  have size : |(total : ℚ) / unitsPerOne| = (total.natAbs : ℚ) / (1 : ℕ) / unitsPerOne := by
    rw [abs_div, abs_of_pos one, Nat.cast_one, div_one, Nat.cast_natAbs, Int.cast_abs]
  have sign : (total : ℚ) / unitsPerOne < 0 ↔ total < 0 := by
    rw [div_lt_iff₀ one, zero_mul]
    exact_mod_cast Iff.rfl
  rw [size, decide_eq_decide.mpr sign]
  exact approximates_round _ _ Nat.one_pos

theorem signedUnits_add_eq_zero_iff {s t : Bool} {m n : Magnitude} :
    signedUnits s m + signedUnits t n = 0 ↔ signedValue s m + signedValue t n = 0 := by
  have one : (unitsPerOne : ℚ) ≠ 0 := by exact_mod_cast Magnitude.unitsPerOne_pos.ne'
  rw [signedValue_add, div_eq_zero_iff, or_iff_left one, Int.cast_eq_zero]

theorem add_finite (s t : Bool) (m n : Magnitude) :
    (Binary64.finite s m).add (.finite t n) =
      if signedUnits s m + signedUnits t n = 0 then .finite (s && t) .zero
      else round (decide (signedUnits s m + signedUnits t n < 0))
        (signedUnits s m + signedUnits t n).natAbs 1 := rfl

theorem sum_add (x y : Binary64) : Sum x y (x.add y) := by
  cases x with
  | nan => exact .nanLeft y
  | infinite s =>
    cases y with
    | nan => exact .nanRight _
    | infinite t => cases s <;> cases t <;> first | exact .infinite _ | exact .opposite _
    | finite t n => exact .infiniteLeft s t n
  | finite s m =>
    cases y with
    | nan => exact .nanRight _
    | infinite t => exact .infiniteRight s t m
    | finite t n =>
      rw [add_finite]
      split
      · rename_i none
        exact .zero (signedUnits_add_eq_zero_iff.mp none)
      · rename_i some
        rw [signedUnits_add_eq_zero_iff, signedValue_add] at some
        exact .rounded (signedValue_add s t m n) some (approximates_total _)

/-- There is one sum for any two operands, and it is what is computed. -/
theorem sum_iff : Sum x y z ↔ x.add y = z := by
  refine ⟨?_, fun same => same ▸ sum_add x y⟩
  intro sum
  cases sum with
  | nanLeft => rfl
  | nanRight => cases x <;> rfl
  | infinite s => exact if_pos rfl
  | opposite s => exact if_neg (by cases s <;> simp)
  | infiniteLeft => rfl
  | infiniteRight => rfl
  | zero total => exact if_pos (signedUnits_add_eq_zero_iff.mpr total)
  | @rounded s t m n r _ total nonzero rounds =>
    subst total
    have computed := approximates_total (signedUnits s m + signedUnits t n)
    rw [← signedValue_add] at computed
    rw [add_finite, if_neg (signedUnits_add_eq_zero_iff.not.mpr nonzero)]
    exact computed.unique (abs_nonneg _) rounds

theorem sum_of_difference (difference : Difference x y z) : Sum x y.neg z := by
  cases difference with
  | nanLeft => exact .nanLeft _
  | nanRight => exact .nanRight _
  | infinite t => exact .infinite _
  | same s => exact .opposite s
  | infiniteLeft => exact .infiniteLeft ..
  | infiniteRight => exact .infiniteRight ..
  | zero rest =>
    refine .zero ?_
    rwa [signedValue_not, ← sub_eq_add_neg]
  | rounded rest nonzero rounds =>
    refine .rounded ?_ nonzero rounds
    rwa [signedValue_not, ← sub_eq_add_neg]

theorem difference_sub (x y : Binary64) : Difference x y (x.sub y) := by
  cases x with
  | nan => exact .nanLeft y
  | infinite s =>
    cases y with
    | nan => exact .nanRight _
    | infinite t =>
      cases s <;> cases t
      · exact .same false
      · exact .infinite true
      · exact .infinite false
      · exact .same true
    | finite t n => exact .infiniteLeft s t n
  | finite s m =>
    cases y with
    | nan => exact .nanRight _
    | infinite t => exact .infiniteRight s t m
    | finite t n =>
      have sum := sum_add (.finite s m) (.finite (!t) n)
      change Difference _ _ ((Binary64.finite s m).add (.finite (!t) n))
      generalize (Binary64.finite s m).add (.finite (!t) n) = z at sum ⊢
      cases sum with
      | zero total =>
        rw [signedValue_not, ← sub_eq_add_neg] at total
        exact .zero total
      | rounded total nonzero rounds =>
        rw [signedValue_not, ← sub_eq_add_neg] at total
        exact .rounded total nonzero rounds

/-- There is one difference of any two operands, and it is what is computed. -/
theorem difference_iff : Difference x y z ↔ x.sub y = z := by
  refine ⟨?_, fun same => same ▸ difference_sub x y⟩
  intro difference
  exact sum_iff.mp (sum_of_difference difference)

theorem approximates_product (s : Bool) (m n : Magnitude) :
    Approximates s (m.value * n.value) (round s (m.units * n.units) unitsPerOne) := by
  have size : m.value * n.value = ((m.units * n.units : ℕ) : ℚ) / unitsPerOne / unitsPerOne := by
    unfold Magnitude.value
    push_cast
    ring
  rw [size]
  exact approximates_round _ _ Magnitude.unitsPerOne_pos

theorem product_mul (x y : Binary64) : Product x y (x.mul y) := by
  cases x with
  | nan => exact .nanLeft y
  | infinite s =>
    cases y with
    | nan => exact .nanRight _
    | infinite t => exact .infinite s t
    | finite t n =>
      by_cases none : n = .zero
      · subst none
        exact .infiniteZero s t
      · have product : (Binary64.infinite s).mul (.finite t n) = .infinite (s ^^ t) :=
          if_neg (Magnitude.isZero_iff.not.mpr none)
        rw [product]
        exact .infiniteLeft s t none
  | finite s m =>
    cases y with
    | nan => exact .nanRight _
    | infinite t =>
      by_cases none : m = .zero
      · subst none
        exact .zeroInfinite s t
      · have product : (Binary64.finite s m).mul (.infinite t) = .infinite (s ^^ t) :=
          if_neg (Magnitude.isZero_iff.not.mpr none)
        rw [product]
        exact .infiniteRight s t none
    | finite t n => exact .rounded (approximates_product _ m n)

/-- There is one product for any two operands, and it is what is computed. -/
theorem product_iff : Product x y z ↔ x.mul y = z := by
  refine ⟨?_, fun same => same ▸ product_mul x y⟩
  intro product
  cases product with
  | nanLeft => rfl
  | nanRight => cases x <;> rfl
  | infinite => rfl
  | infiniteLeft s t nonzero => exact if_neg (Magnitude.isZero_iff.not.mpr nonzero)
  | infiniteRight s t nonzero => exact if_neg (Magnitude.isZero_iff.not.mpr nonzero)
  | infiniteZero => rfl
  | zeroInfinite => rfl
  | @rounded s t m n _ rounds =>
    exact (approximates_product _ m n).unique (mul_nonneg m.value_nonneg n.value_nonneg) rounds

theorem approximates_quotient (s : Bool) (m : Magnitude) {n : Magnitude} (nonzero : n ≠ .zero) :
    Approximates s (m.value / n.value) (round s (m.units * unitsPerOne) n.units) := by
  have one : (unitsPerOne : ℚ) ≠ 0 := by exact_mod_cast Magnitude.unitsPerOne_pos.ne'
  have size : m.value / n.value = ((m.units * unitsPerOne : ℕ) : ℚ) / n.units / unitsPerOne := by
    unfold Magnitude.value
    push_cast
    field_simp
  have positive : 0 < n.units := by
    rw [Nat.pos_iff_ne_zero]
    intro none
    refine nonzero (Magnitude.value_eq_zero_iff.mp ?_)
    rw [Magnitude.value, none, Nat.cast_zero, zero_div]
  rw [size]
  exact approximates_round _ _ positive

theorem div_finite (s t : Bool) (m n : Magnitude) :
    (Binary64.finite s m).div (.finite t n) =
      if n.isZero then if m.isZero then .nan else .infinite (s ^^ t)
      else round (s ^^ t) (m.units * unitsPerOne) n.units := rfl

/- A zero divisor is treated apart, with the same result. -/
theorem divide_eq_div (x y : Binary64) : x.divide y = x.div y := by
  cases y with
  | nan => rfl
  | infinite t => rfl
  | finite t n =>
    by_cases none : n = .zero
    · subst none
      cases x with
      | nan => rfl
      | infinite s => rfl
      | finite s m =>
        rw [div_finite]
        unfold divide
        cases zero : m.isZero <;> simp [isZero, isNaN, isNegative, zero, Magnitude.isZero_iff.mpr]
    · have nonzero : (Binary64.finite t n).isZero = false :=
        Magnitude.isZero_eq_false_iff.mpr none
      exact if_pos (congrArg (! ·) nonzero)

theorem quotient_div (x y : Binary64) : Quotient x y (x.div y) := by
  cases x with
  | nan => exact .nanLeft y
  | infinite s =>
    cases y with
    | nan => exact .nanRight _
    | infinite t => exact .infinities s t
    | finite t n => exact .infiniteLeft s t n
  | finite s m =>
    cases y with
    | nan => exact .nanRight _
    | infinite t => exact .infiniteRight s t m
    | finite t n =>
      rw [div_finite]
      split
      · rename_i none
        obtain rfl := Magnitude.isZero_iff.mp none
        split
        · rename_i none
          obtain rfl := Magnitude.isZero_iff.mp none
          exact .zeros s t
        · rename_i some
          exact .zeroDivisor s t (Magnitude.isZero_iff.not.mp some)
      · rename_i some
        have nonzero := Magnitude.isZero_iff.not.mp some
        exact .rounded nonzero (approximates_quotient _ m nonzero)

/-- There is one quotient for any two operands, and it is what is computed, also for a zero
    divisor. -/
theorem quotient_iff : Quotient x y z ↔ x.divide y = z := by
  rw [divide_eq_div]
  refine ⟨?_, fun same => same ▸ quotient_div x y⟩
  intro quotient
  cases quotient with
  | nanLeft => rfl
  | nanRight => cases x <;> rfl
  | infinities => rfl
  | infiniteLeft => rfl
  | infiniteRight => rfl
  | zeros s t => simp only [div_finite, Magnitude.isZero_zero, ↓reduceIte]
  | zeroDivisor s t nonzero =>
    rw [div_finite, if_pos Magnitude.isZero_zero, if_neg (Magnitude.isZero_iff.not.mpr nonzero)]
  | @rounded s t m n _ nonzero rounds =>
    rw [div_finite, if_neg (Magnitude.isZero_iff.not.mpr nonzero)]
    exact (approximates_quotient _ m nonzero).unique
      (div_nonneg m.value_nonneg n.value_nonneg) rounds

end LineCalc.Binary64

namespace LineCalc.Operator

/- The results of an operator as the format has them. -/
def Gives : Operator → Binary64 → Binary64 → Binary64 → Prop
  | add => Binary64.Sum
  | sub => Binary64.Difference
  | mul => Binary64.Product
  | div => Binary64.Quotient

theorem gives_iff {op : Operator} {x y z : Binary64} : op.Gives x y z ↔ op.apply x y = z := by
  cases op with
  | add => exact Binary64.sum_iff
  | sub => exact Binary64.difference_iff
  | mul => exact Binary64.product_iff
  | div => exact Binary64.quotient_iff

end LineCalc.Operator
