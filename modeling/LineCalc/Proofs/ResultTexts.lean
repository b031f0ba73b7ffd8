import LineCalc.Proofs.PlainTexts

/-!
Result texts of doubles. Whole numbers round to whole numbers (`Magnitude.whole_of_rounds`), so that
the shortest decimal of a double that is not whole is not whole either, and no display ends in a
point and a zero if the integers below the limit are written in full. Both kinds of text are read
back as the double, except that zero loses its sign (`result_faithful`).
-/
namespace LineCalc

namespace Magnitude

variable {m : Magnitude}

/- From the power of the significand on, there are no magnitudes between whole numbers. -/
theorem whole_of_large (large : (2 : ℚ) ^ 52 ≤ m.value) : ∃ k : ℕ, m.value = k := by
  have one : (0 : ℚ) < unitsPerOne := by exact_mod_cast unitsPerOne_pos
  have units : 0x10000000000000 * unitsPerOne ≤ m.units := by
    unfold value at large
    rw [le_div_iff₀ one] at large
    have cast : ((0x10000000000000 * unitsPerOne : ℕ) : ℚ) ≤ m.units := by
      push_cast
      linarith
    exact_mod_cast cast
  have high : smallestPower ≤ m.exponent := by
    by_contra low
    have below := units_lt_of_exponent_lt m (Nat.lt_of_not_le low)
    exact absurd units (Nat.not_le.mpr below)
  obtain ⟨k, multiple, _⟩ := units_eq_multiple m high
  refine ⟨k, ?_⟩
  unfold value
  rw [multiple]
  change ((k * unitsPerOne : ℕ) : ℚ) / unitsPerOne = k
  push_cast
  field_simp

theorem exists_value_of_whole {n : ℕ} (narrow : n < 0x20000000000000) :
    ∃ w : Magnitude, w.value = n := by
  have one : (unitsPerOne : ℚ) ≠ 0 := by exact_mod_cast unitsPerOne_pos.ne'
  obtain ⟨w, units⟩ := exists_of_whole narrow
  refine ⟨w, ?_⟩
  unfold value
  rw [units]
  push_cast
  field_simp

/- Rounding does not pass a magnitude. -/
theorem le_value_of_rounds {r : ℚ} {w : Magnitude} (rounds : Rounds r m) (below : w.value ≤ r) :
    w.value ≤ m.value := by
  have least := rounds.least w
  rw [abs_of_nonneg (sub_nonneg.mpr below)] at least
  have near := le_of_abs_le least
  linarith

/-- Whole numbers round to whole numbers. -/
theorem whole_of_rounds {n : ℕ} (rounds : Rounds n m) : ∃ k : ℕ, m.value = k := by
  by_cases narrow : n < 0x20000000000000
  · obtain ⟨w, same⟩ := exists_value_of_whole narrow
    have least := rounds.least w
    rw [same, sub_self, abs_zero] at least
    exact ⟨n, (sub_eq_zero.mp (abs_nonpos_iff.mp least)).symm⟩
  · obtain ⟨w, same⟩ := exists_value_of_whole (show 0x10000000000000 < 0x20000000000000 by decide)
    have wide : 0x10000000000000 ≤ n := by omega
    have large := le_value_of_rounds rounds (show w.value ≤ n by rw [same]; exact_mod_cast wide)
    refine whole_of_large (le_trans (le_of_eq ?_) large)
    rw [same]
    norm_num

theorem value_le_of_rounds {r : ℚ} (size : 0 ≤ r) (rounds : Rounds r m) : m.value ≤ 2 * r := by
  have least := rounds.least zero
  rw [value_zero, sub_zero, abs_of_nonneg size] at least
  have near := neg_le_of_abs_le least
  linarith

end Magnitude

theorem Decimal.value_lt_of_leading {d : Decimal} {n : ℕ} (low : d.leading < n) :
    d.value < 10 ^ n := by
  have digits : d.coefficient < 10 ^ d.digits.length :=
    (Nat.length_toDigits_le_iff (by decide) Nat.length_toDigits_pos).mp (Nat.le_refl _)
  have power : (0 : ℚ) < 10 ^ d.exponent := zpow_pos (by norm_num) _
  have narrow : (d.coefficient : ℚ) < 10 ^ d.digits.length := by exact_mod_cast digits
  calc d.value = d.coefficient * 10 ^ d.exponent := rfl
    _ < 10 ^ d.digits.length * 10 ^ d.exponent := (mul_lt_mul_iff_of_pos_right power).mpr narrow
    _ = 10 ^ (d.leading + 1) := by
      rw [← zpow_natCast, ← zpow_add₀ (by norm_num)]
      congr 1
      unfold leading
      omega
    _ ≤ 10 ^ (n : ℤ) := zpow_le_zpow_right₀ (by norm_num) (by omega)
    _ = 10 ^ n := zpow_natCast ..

/- A point and a zero at the end. -/
abbrev PointZero : List Char := ['.', '0']

theorem not_pointZero_of_digits {front back : List Char} (two : 2 ≤ back.length)
    (digits : ∀ c ∈ back, c.isDigit) : ¬ PointZero <:+ front ++ back := by
  intro ends
  have inside := List.suffix_of_suffix_length_le ends (List.suffix_append front back) two
  have point := digits '.' (inside.subset (by simp))
  cases point

theorem fraction_of_pointZero {whole fraction : List Char} (present : fraction ≠ [])
    (digits : ∀ c ∈ fraction, c.isDigit) (ends : PointZero <:+ whole ++ '.' :: fraction) :
    fraction = ['0'] := by
  have one : fraction.length < 2 := by
    by_contra long
    have written : whole ++ '.' :: fraction = (whole ++ ['.']) ++ fraction := by simp
    rw [written] at ends
    exact not_pointZero_of_digits (Nat.le_of_not_lt long) digits ends
  obtain ⟨c, rest, rfl⟩ := List.exists_cons_of_ne_nil present
  obtain rfl : rest = [] := List.eq_nil_of_length_eq_zero (by simpa using one)
  have last : PointZero <:+ ['.', c] :=
    List.suffix_of_suffix_length_le ends (List.suffix_append whole ['.', c]) (by simp)
  simpa using (last.eq_of_length rfl).symm

namespace Decimal

variable {d : Decimal}

theorem not_pointZero_scientific {width : ℕ} (two : 2 ≤ width) (front : List Char) :
    ¬ PointZero <:+ front ++ d.scientific width := by
  have written : front ++ d.scientific width =
      (front ++ d.mantissa.text ++ ['e', if d.leading < 0 then '-' else '+']) ++
        (List.replicate (width - (Nat.toDigits 10 d.leading.natAbs).length) '0' ++
          Nat.toDigits 10 d.leading.natAbs) := by
    rw [scientific_eq]
    simp
  rw [written]
  apply not_pointZero_of_digits
  · simp
    omega
  · intro c member
    rcases List.mem_append.mp member with zero | digit
    · obtain rfl := List.eq_of_mem_replicate zero
      rfl
    · exact Nat.isDigit_of_mem_toDigits (by decide) (by decide) digit

/- Only whole numbers are written with a zero as their one place. -/
theorem whole_of_pointZero {front : List Char} (ends : PointZero <:+ front ++ d.pointed) :
    ∃ n : ℕ, d.value = n := by
  obtain ⟨fraction, some, present⟩ := d.pointedLiteral_fraction
  have digits := d.pointedLiteral_isLexeme.fraction
  have value := d.pointedLiteral_value
  rw [← pointedLiteral_text, Literal.text, some] at ends
  simp only at ends
  rw [some, Option.getD_some] at digits
  rw [← List.append_assoc] at ends
  obtain rfl := fraction_of_pointZero present digits ends
  refine ⟨Nat.ofDigitChars 10 d.pointedLiteral.whole 0, ?_⟩
  rw [← value, Literal.value, some]
  simp [Nat.ofDigitChars_cons]

end Decimal

namespace Binary64

variable {x y : Binary64} {n : ℤ}

theorem truncate?_of_value? (whole : x.value? = some (n : ℚ)) :
    x.isWhole ∧ x.truncate? = some n := by
  cases x with
  | nan => cases whole
  | infinite s => cases whole
  | finite s m =>
    obtain ⟨units, sign⟩ := units_of_signedValue (Option.some.inj whole)
    constructor
    · simp [isWhole, units]
    · have quotient : m.units / unitsPerOne = n.natAbs := by
        rw [units, Nat.mul_div_cancel _ Magnitude.unitsPerOne_pos]
      cases s with
      | false => exact congrArg some (by rw [quotient]; exact sign)
      | true => exact congrArg some (by rw [quotient]; exact sign)

theorem value?_of_truncate? (whole : x.isWhole) (part : x.truncate? = some n) :
    x.value? = some (n : ℚ) := by
  have one : (unitsPerOne : ℚ) ≠ 0 := by exact_mod_cast Magnitude.unitsPerOne_pos.ne'
  cases x with
  | nan => cases part
  | infinite s => cases part
  | finite s m =>
    have multiple : m.units % unitsPerOne = 0 := by simpa [isWhole] using whole
    have value : m.value = (m.units / unitsPerOne : ℕ) := by
      have exact := Nat.div_mul_cancel (Nat.dvd_of_mod_eq_zero multiple)
      unfold Magnitude.value
      rw [div_eq_iff one]
      exact_mod_cast exact.symm
    cases s with
    | false =>
      obtain rfl := Option.some.inj part
      simp only [value?, signedValue, value, Bool.false_eq_true, ↓reduceIte, Int.cast_natCast]
    | true =>
      obtain rfl := Option.some.inj part
      simp only [value?, signedValue, value, ↓reduceIte, Int.cast_neg, Int.cast_natCast]

/- Whole doubles below the limit are shown as integers. -/
theorem result_of_whole (whole : x.value? = some (n : ℚ)) (small : n.natAbs < wholeLimit) :
    x.result = integerText n := by
  obtain ⟨isWhole, part⟩ := truncate?_of_value? whole
  unfold result
  simp only [part, isWhole, decide_eq_true small, Bool.and_self, ↓reduceIte]

/- All others are shown as they are displayed. -/
theorem result_of_other (other : ∀ n : ℤ, x.value? = some (n : ℚ) → wholeLimit ≤ n.natAbs) :
    x.result = x.display := by
  unfold result
  split
  · rename_i n part
    split
    · rename_i shown
      simp only [Bool.and_eq_true, decide_eq_true_eq] at shown
      exact absurd shown.2 (Nat.not_lt.mpr (other n (value?_of_truncate? shown.1 part)))
    · rfl
  · rfl

/- The numeral of an integer: its digits without leading zeros, behind a minus sign if it is
   negative. -/
def IsNumeral (n : ℤ) (text : List Char) : Prop :=
  ∃ digits, text = (if n < 0 then ['-'] else []) ++ digits ∧ digits ≠ [] ∧
    (∀ c ∈ digits, c.isDigit) ∧ Nat.ofDigitChars 10 digits 0 = n.natAbs ∧
    (digits.head? = some '0' → digits = ['0'])

theorem head?_toDigits (n : ℕ) (zero : (Nat.toDigits 10 n).head? = some '0') :
    Nat.toDigits 10 n = ['0'] := by
  induction n using Nat.strongRecOn with
  | ind n ih =>
    rcases Nat.lt_or_ge n 10 with small | large
    · rw [Nat.toDigits_of_lt_base small] at zero ⊢
      exact congrArg (fun c => [c]) (Option.some.inj zero)
    · rw [Nat.toDigits_of_base_le (by decide) large,
        List.head?_append_of_ne_nil _ Nat.toDigits_ne_nil] at zero
      have front := ih (n / 10) (by omega) zero
      have none : Nat.ofDigitChars 10 (Nat.toDigits 10 (n / 10)) 0 = n / 10 :=
        Nat.ofDigitChars_ten_toDigits
      rw [front] at none
      have : 0 = n / 10 := by simpa [Nat.ofDigitChars_cons] using none
      omega

theorem isNumeral_integerText (n : ℤ) : IsNumeral n (integerText n).toList := by
  refine ⟨Nat.toDigits 10 n.natAbs, ?_, Nat.toDigits_ne_nil, ?_, Nat.ofDigitChars_ten_toDigits,
    head?_toDigits n.natAbs⟩
  · unfold integerText
    rw [String.toList_ofList]
    split <;> rfl
  · intro c digit
    exact Nat.isDigit_of_mem_toDigits (by decide) (by decide) digit

theorem toList_integerText (n : ℤ) : (integerText n).toList =
    (if n < 0 then ['-'] else []) ++ (⟨n.natAbs, 0⟩ : Decimal).plain := by
  have digits : (⟨n.natAbs, 0⟩ : Decimal).plain = Nat.toDigits 10 n.natAbs := by
    simp [Decimal.plain, Decimal.digits]
  unfold integerText
  rw [String.toList_ofList, digits]
  split <;> rfl

theorem writtenValue?_integerText (n : ℤ) :
    writtenValue? (integerText n).toList = some (decide (n < 0), (n.natAbs : ℚ)) := by
  have value : (⟨n.natAbs, 0⟩ : Decimal).value = n.natAbs := by simp [Decimal.value]
  have written := writtenValue?_of_spells (decide (n < 0)) (Decimal.spells_plain ⟨n.natAbs, 0⟩)
  simp only [decide_eq_true_eq] at written
  rw [toList_integerText, written, value]

/- A double is shown as this integer. -/
def ShownAs (x : Binary64) (n : ℤ) : Prop := x.value? = some (n : ℚ) ∧ n.natAbs < wholeLimit

theorem result_of_not_shownAs (other : ¬ ∃ n, x.ShownAs n) : x.result = x.display :=
  result_of_other fun n whole => Nat.le_of_not_lt fun small => other ⟨n, whole, small⟩

theorem exists_shownAs {s : Bool} {m : Magnitude} {k : ℕ} (whole : m.value = k)
    (small : k < wholeLimit) : ∃ n, (finite s m).ShownAs n := by
  cases s with
  | false => exact ⟨k, by simp [value?, signedValue, whole], by simpa using small⟩
  | true => exact ⟨-k, by simp [value?, signedValue, whole], by simpa using small⟩

/- A display that ends so would be of a whole number that is not large. -/
theorem not_pointZero_display (other : ¬ ∃ n, x.ShownAs n) : ¬ PointZero <:+ x.display.toList := by
  cases x with
  | nan => decide
  | infinite s => cases s <;> decide
  | finite s m =>
    rw [toList_display]
    by_cases inside : -4 ≤ m.shortest.leading ∧ m.shortest.leading ≤ 15
    · rw [Layout.display_of_inside inside]
      intro ends
      -- The decimal would be whole and narrow, and so would be the double that it rounds to.
      obtain ⟨n, whole⟩ := Decimal.whole_of_pointZero ends
      have rounds := rounds_shortest m
      have small : m.shortest.value < 10 ^ 16 :=
        Decimal.value_lt_of_leading (Int.lt_add_one_iff.mpr inside.2)
      have bound := Magnitude.value_le_of_rounds (whole ▸ Nat.cast_nonneg n) rounds
      rw [whole] at rounds
      obtain ⟨k, value⟩ := Magnitude.whole_of_rounds rounds
      have least : (k : ℚ) < wholeLimit :=
        calc (k : ℚ) = m.value := value.symm
          _ ≤ 2 * m.shortest.value := bound
          _ < 2 * 10 ^ 16 := (mul_lt_mul_iff_of_pos_left two_pos).mpr small
          _ < wholeLimit := by norm_num [wholeLimit]
      exact other (exists_shownAs value (by exact_mod_cast least))
    · rw [Layout.display_of_outside inside]
      exact Decimal.not_pointZero_scientific (by decide) _

theorem not_pointZero_result (x : Binary64) : ¬ PointZero <:+ x.result.toList := by
  by_cases shown : ∃ n, x.ShownAs n
  · obtain ⟨n, whole, small⟩ := shown
    rw [result_of_whole whole small]
    obtain ⟨digits, text, _, digit, _⟩ := isNumeral_integerText n
    intro ends
    have point : '.' ∈ (integerText n).toList := ends.subset (by simp)
    rw [text] at point
    rcases List.mem_append.mp point with sign | member
    · split at sign <;> simp at sign
    · cases digit '.' member
  · rw [result_of_not_shownAs shown]
    exact not_pointZero_display shown

/- A reader that rounds correctly gives the double that is displayed. -/
theorem read_display {read : List Char → Option Binary64} (correct : RoundsCorrectly read)
    (number : x ≠ .nan) : read x.display.toList = some x := by
  cases x with
  | nan => exact absurd rfl number
  | infinite s =>
    cases s with
    | false => exact correct.infinite
    | true => exact correct.negativeInfinite
  | finite s m => exact correct.finite (writtenValue?_display s m) (rounds_shortest m)

/- What is read back from a result is the double but for the sign of zero. -/
theorem read_result {read : List Char → Option Binary64} (correct : RoundsCorrectly read)
    (number : x ≠ .nan) : ∃ y, read x.result.toList = some y ∧ x.equals y := by
  by_cases shown : ∃ n, x.ShownAs n
  · obtain ⟨n, whole, small⟩ := shown
    rw [result_of_whole whole small]
    cases x with
    | nan => cases whole
    | infinite s => cases whole
    | finite s m =>
      have exact := Option.some.inj whole
      have size : m.value = |(n : ℚ)| := by rw [← abs_signedValue s m, exact]
      have rounds : Rounds n.natAbs m := by
        rw [Nat.cast_natAbs, Int.cast_abs, ← size]
        exact m.rounds_self
      refine ⟨_, correct.finite (writtenValue?_integerText n) rounds, ?_⟩
      rw [equals_finite_iff, exact]
      unfold signedValue
      by_cases negative : n < 0
      · rw [if_pos (decide_eq_true negative), size, abs_of_neg (Int.cast_lt_zero.mpr negative),
          neg_neg]
      · rw [if_neg (by simpa using negative), size,
          abs_of_nonneg (Int.cast_nonneg (Int.not_lt.mp negative))]
  · rw [result_of_not_shownAs shown]
    exact ⟨x, read_display correct number, equals_self number⟩

/- Only not-a-number is shown by its name. -/
theorem eq_nan_of_result (same : x.result = result .nan) : x = .nan := by
  by_contra number
  obtain ⟨y, read, equal⟩ := read_result roundsCorrectly_read? number
  rw [same] at read
  obtain rfl : .nan = y := Option.some.inj read
  rw [equals_iff] at equal
  rcases equal with ⟨r, _, ⟨⟩⟩ | ⟨s, _, ⟨⟩⟩

/-- A whole double below the limit is shown as the numeral of its integer, no double with a point
    and a zero at the end, and every correct reader gives back a double that is numerically the
    same. So doubles with one text are numerically the same, or neither is a number. -/
theorem result_faithful (x : Binary64) :
    (∀ n : ℤ, x.value? = some (n : ℚ) → |(n : ℚ)| < 10 ^ 21 → IsNumeral n x.result.toList) ∧
    ¬ ['.', '0'] <:+ x.result.toList ∧
    (x ≠ .nan → ∀ read, RoundsCorrectly read → ∃ y, read x.result.toList = some y ∧ x.equals y) ∧
    ∀ y : Binary64, x.result = y.result → x.equals y ∨ x = .nan ∧ y = .nan := by
  refine ⟨?_, not_pointZero_result x, fun number read correct => read_result correct number, ?_⟩
  · intro n whole small
    have below : n.natAbs < wholeLimit := by
      unfold wholeLimit
      have size : |n| < 1000000000000000000000 := by exact_mod_cast small
      rw [Int.abs_eq_natAbs] at size
      exact_mod_cast size
    rw [result_of_whole whole below]
    exact isNumeral_integerText n
  · intro y same
    by_cases number : x = .nan
    · subst number
      exact .inr ⟨rfl, eq_nan_of_result same.symm⟩
    · by_cases number' : y = .nan
      · subst number'
        exact .inr ⟨eq_nan_of_result same, rfl⟩
      · obtain ⟨z, read, first⟩ := read_result roundsCorrectly_read? number
        obtain ⟨z', read', second⟩ := read_result roundsCorrectly_read? number'
        rw [same, read'] at read
        obtain rfl := Option.some.inj read
        exact .inl (equals_trans first (equals_symm second))

example : (["999999999999999868928", "1e21", "-0.0", "0.5"].map fun text =>
    (read? text.toList).map result) =
      [some "999999999999999868928", some "1e+21", some "0", some "0.5"] := by decide +kernel

end Binary64

end LineCalc
