import LineCalc.Binary64.Arithmetic
import LineCalc.Proofs.Scanning

/-!
Exact values of doubles, and the doubles of exact results. A size that is not negative rounds to one
magnitude at most (`Rounds.unique`); with a sign that is the double for the result, or it is an
infinity for a size past the threshold (`Approximates`). `Binary64.round` computes it
(`approximates_round`).
-/
namespace LineCalc

namespace Magnitude

theorem value_nonneg (m : Magnitude) : 0 ≤ m.value := by
  unfold value
  positivity

theorem value_eq_zero_iff {m : Magnitude} : m.value = 0 ↔ m = zero := by
  rw [← value_zero]
  exact ⟨value_injective, congrArg value⟩

theorem isZero_zero : zero.isZero := rfl

theorem isZero_iff {m : Magnitude} : m.isZero ↔ m = zero :=
  ⟨eq_zero_of_isZero, fun none => by subst none; rfl⟩

theorem isZero_eq_false_iff {m : Magnitude} : m.isZero = false ↔ m ≠ zero := by
  rw [← Bool.not_eq_true, isZero_iff]

theorem rounds_self (m : Magnitude) : Rounds m.value m := by
  have rounds := rounds_of_nearest Nat.one_pos (nearest_units m)
  rwa [Nat.cast_one, div_one] at rounds

theorem value_lt_threshold (m : Magnitude) : m.value < overflowThreshold := m.rounds_self.below

end Magnitude

section Rounding

variable {r : ℚ} {m n : Magnitude}

/- Sizes as quotients in smallest units, which is how they are rounded. -/
theorem exists_quotient (size : 0 ≤ r) :
    ∃ a d : ℕ, 0 < d ∧ (a : ℚ) / d / unitsPerOne = r := by
  have one : (unitsPerOne : ℚ) ≠ 0 := by exact_mod_cast Magnitude.unitsPerOne_pos.ne'
  have whole : ((r.num.natAbs : ℕ) : ℚ) = r.num := by
    rw [Nat.cast_natAbs, abs_of_nonneg (Rat.num_nonneg.mpr size)]
  refine ⟨r.num.natAbs * unitsPerOne, r.den, r.den_pos, ?_⟩
  rw [Nat.cast_mul, whole, mul_div_right_comm, Rat.num_div_den, mul_div_cancel_right₀ r one]

theorem Rounds.unique (size : 0 ≤ r) (first : Rounds r m) (second : Rounds r n) : m = n := by
  obtain ⟨a, d, positive, rfl⟩ := exists_quotient size
  rw [← Magnitude.nearest_eq_some_iff positive] at first second
  exact Option.some.inj (first.symm.trans second)

end Rounding

namespace Binary64

def signedValue (negative : Bool) (m : Magnitude) : ℚ := if negative then -m.value else m.value

/- The exact value of a finite double. -/
def value? : Binary64 → Option ℚ
  | .finite negative m => some (signedValue negative m)
  | _ => none

def IsInfinite (x : Binary64) : Prop := ∃ negative, x = .infinite negative

def IsFinite (x : Binary64) : Prop := ∃ negative m, x = .finite negative m

/- The double for a result of an exact size: its magnitude where it rounds to one, and past the
   threshold an infinity. -/
inductive Approximates (negative : Bool) (r : ℚ) : Binary64 → Prop where
  | finite {m : Magnitude} (rounds : Rounds r m) : Approximates negative r (.finite negative m)
  | infinite (past : overflowThreshold ≤ r) : Approximates negative r (.infinite negative)

variable {negative : Bool} {r : ℚ} {x y : Binary64}

theorem Approximates.unique (size : 0 ≤ r) (first : Approximates negative r x)
    (second : Approximates negative r y) : x = y := by
  cases first with
  | finite rounds =>
    cases second with
    | finite rounds' => rw [rounds.unique size rounds']
    | infinite past => exact absurd rounds.below (not_lt.mpr past)
  | infinite past =>
    cases second with
    | finite rounds => exact absurd rounds.below (not_lt.mpr past)
    | infinite => rfl

theorem Approximates.ne_nan (approximates : Approximates negative r x) : x ≠ .nan := by
  cases approximates <;> exact Binary64.noConfusion

theorem Approximates.isNegative_eq (approximates : Approximates negative r x) :
    x.isNegative = negative := by
  cases approximates <;> rfl

/-- `round` gives the double for the quotient. -/
theorem approximates_round (negative : Bool) (a : ℕ) {d : ℕ} (positive : 0 < d) :
    Approximates negative ((a : ℚ) / d / unitsPerOne) (round negative a d) := by
  unfold round
  cases found : Magnitude.nearest a d with
  | none => exact .infinite ((Magnitude.nearest_eq_none_iff positive).mp found)
  | some m => exact .finite ((Magnitude.nearest_eq_some_iff positive).mp found)

theorem signedValue_eq_units (negative : Bool) (m : Magnitude) :
    signedValue negative m = (signedUnits negative m : ℚ) / unitsPerOne := by
  unfold signedValue signedUnits Magnitude.value
  cases negative <;> simp [neg_div]

theorem signedValue_eq_integer_iff {s : Bool} {m : Magnitude} {n : ℤ} :
    signedValue s m = n ↔ signedUnits s m = n * unitsPerOne := by
  have one : (unitsPerOne : ℚ) ≠ 0 := by exact_mod_cast Magnitude.unitsPerOne_pos.ne'
  rw [signedValue_eq_units, div_eq_iff one]
  exact_mod_cast Iff.rfl

/- A double that is whole, as a sign and a number of ones. -/
theorem units_of_signedValue {s : Bool} {m : Magnitude} {n : ℤ} (whole : signedValue s m = n) :
    m.units = n.natAbs * unitsPerOne ∧ (if s then -(n.natAbs : ℤ) else n.natAbs) = n := by
  have exact : signedUnits s m = n * unitsPerOne := signedValue_eq_integer_iff.mp whole
  have size : m.units = n.natAbs * unitsPerOne := by
    have absolute := congrArg Int.natAbs exact
    rw [Int.natAbs_mul, Int.natAbs_natCast] at absolute
    rw [← absolute]
    cases s <;> simp [signedUnits]
  refine ⟨size, ?_⟩
  have positive : (0 : ℤ) < unitsPerOne := by exact_mod_cast Magnitude.unitsPerOne_pos
  cases s with
  | false =>
    have nonneg : 0 ≤ n * unitsPerOne := exact ▸ Int.natCast_nonneg _
    have := nonneg_of_mul_nonneg_left nonneg positive
    simp only [Bool.false_eq_true, ↓reduceIte]
    omega
  | true =>
    have nonpos : n * unitsPerOne ≤ 0 := exact ▸ Int.neg_nonpos_of_nonneg (Int.natCast_nonneg _)
    have := nonpos_of_mul_nonpos_left nonpos positive
    simp only [↓reduceIte]
    omega

theorem abs_signedValue (negative : Bool) (m : Magnitude) : |signedValue negative m| = m.value := by
  unfold signedValue
  cases negative
  · exact abs_of_nonneg m.value_nonneg
  · exact (abs_neg m.value).trans (abs_of_nonneg m.value_nonneg)

theorem signedValue_not (t : Bool) (n : Magnitude) :
    signedValue (!t) n = -signedValue t n := by
  cases t <;> simp [signedValue]

theorem equals_finite_iff {s t : Bool} {m n : Magnitude} :
    (finite s m).equals (finite t n) ↔ signedValue s m = signedValue t n := by
  unfold equals
  simp only [Bool.and_eq_true, Bool.or_eq_true, beq_iff_eq, Magnitude.isZero_iff]
  constructor
  · rintro ⟨rfl, rfl | rfl⟩
    · rfl
    · simp [signedValue, Magnitude.value_zero]
  · intro same
    have size := congrArg abs same
    rw [abs_signedValue, abs_signedValue] at size
    obtain rfl := Magnitude.value_injective size
    refine ⟨rfl, or_iff_not_imp_left.mpr fun other => Magnitude.value_eq_zero_iff.mp ?_⟩
    cases s <;> cases t
    · exact absurd rfl other
    · change m.value = -m.value at same
      linarith
    · change -m.value = m.value at same
      linarith
    · exact absurd rfl other

/-- Equal doubles have one exact value, or they are the same infinity. -/
theorem equals_iff : x.equals y ↔
    (∃ r, x.value? = some r ∧ y.value? = some r) ∨ ∃ s, x = .infinite s ∧ y = .infinite s := by
  cases x with
  | nan => simp [equals, value?]
  | infinite s =>
    cases y with
    | infinite t => simpa [equals, value?] using eq_comm
    | _ => simp [equals, value?]
  | finite s m =>
    cases y with
    | finite t n => rw [equals_finite_iff]; simp [value?, eq_comm]
    | _ => simp [equals, value?]

theorem equals_self (number : x ≠ .nan) : x.equals x := by
  cases x with
  | nan => exact absurd rfl number
  | infinite s => exact equals_iff.mpr (.inr ⟨s, rfl, rfl⟩)
  | finite s m => exact equals_finite_iff.mpr rfl

/- Only the zeros are equal without being the same. -/
theorem eq_or_zeros_of_equals (same : x.equals y) :
    x = y ∨ ∃ s t, x = .finite s .zero ∧ y = .finite t .zero := by
  cases x with
  | nan => cases same
  | infinite s =>
    cases y with
    | infinite t => exact .inl (congrArg infinite (eq_of_beq same))
    | _ => cases same
  | finite s m =>
    cases y with
    | finite t n =>
      simp only [equals, Bool.and_eq_true, Bool.or_eq_true, beq_iff_eq,
        Magnitude.isZero_iff] at same
      obtain ⟨rfl, rfl | rfl⟩ := same
      · exact .inl rfl
      · exact .inr ⟨s, t, rfl, rfl⟩
    | _ => cases same

theorem equals_symm (same : x.equals y) : y.equals x := by
  rw [equals_iff] at same ⊢
  rcases same with ⟨r, first, second⟩ | ⟨s, first, second⟩
  · exact .inl ⟨r, second, first⟩
  · exact .inr ⟨s, second, first⟩

theorem equals_trans {z : Binary64} (first : x.equals y) (second : y.equals z) : x.equals z := by
  rw [equals_iff] at first second ⊢
  rcases first with ⟨r, left, middle⟩ | ⟨s, left, rfl⟩
  · rcases second with ⟨r', middle', right⟩ | ⟨s, rfl, right⟩
    · obtain rfl := Option.some.inj (middle.symm.trans middle')
      exact .inl ⟨r, left, right⟩
    · cases middle
  · rcases second with ⟨r', middle', right⟩ | ⟨s', same, right⟩
    · cases middle'
    · cases same
      exact .inr ⟨s, left, right⟩

end Binary64

end LineCalc
