import LineCalc.Proofs.Diagnoses

/-!
The number at a cursor. It is the longest literal there, which is passed whatever comes of it. An
integer is read by its digits, within a limit on how many there are; a decimal is rounded from its
exact value, and to zero only next to zero (`Rounds.eq_zero_iff`). All others are refused with the
place where they begin (`Cursor.number_of_longest`).
-/
namespace LineCalc

namespace Magnitude

theorem one_is_significand : 1 < 0x20000000000000 := by decide

/- The least magnitude that is not zero. -/
def smallest : Magnitude :=
  { zero with significand := 1, significand_lt := one_is_significand, normal := .inr rfl }

theorem value_zero : zero.value = 0 := by
  simp [value, units, zero]

theorem value_smallest : smallest.value = 1 / unitsPerOne := by
  simp [value, units, smallest, zero]

theorem smallest_value_le {m : Magnitude} (positive : m ≠ zero) : smallest.value ≤ m.value := by
  have units : 1 ≤ m.units := by
    rw [Nat.one_le_iff_ne_zero]
    intro none
    exact positive (units_injective (none.trans (by simp [Magnitude.units, zero])))
  have one : (0 : ℚ) < unitsPerOne := by exact_mod_cast unitsPerOne_pos
  rw [value_smallest, value]
  exact (div_le_div_iff_of_pos_right one).mpr (by exact_mod_cast units)

theorem value_injective {m n : Magnitude} (same : m.value = n.value) : m = n := by
  have one : (unitsPerOne : ℚ) ≠ 0 := by exact_mod_cast unitsPerOne_pos.ne'
  have units : (m.units : ℚ) = n.units := (div_left_inj' one).mp same
  exact units_injective (by exact_mod_cast units)

end Magnitude

/- What is at most half the smallest magnitude rounds to zero. Half of it is a tie, and zero is the
   even side. -/
theorem Rounds.eq_zero_iff {r : ℚ} {m : Magnitude} (rounds : Rounds r m) (positive : 0 ≤ r) :
    m = .zero ↔ 2 * r ≤ Magnitude.smallest.value := by
  have distance : |r - Magnitude.zero.value| = r := by
    rw [Magnitude.value_zero, sub_zero, abs_of_nonneg positive]
  constructor
  · rintro rfl
    have least := rounds.least .smallest
    rw [distance] at least
    rcases le_abs.mp least with above | below
    · have one : (0 : ℚ) < unitsPerOne := by exact_mod_cast Magnitude.unitsPerOne_pos
      have step : 0 < Magnitude.smallest.value := by
        rw [Magnitude.value_smallest]
        exact one_div_pos.mpr one
      linarith
    · linarith
  · intro small
    by_contra other
    have large := Magnitude.smallest_value_le other
    have least := rounds.least .zero
    rw [distance] at least
    have near := neg_le_of_abs_le least
    have smallest : m = .smallest := Magnitude.value_injective (by linarith)
    have tie : |r - Magnitude.zero.value| = |r - m.value| := by
      rw [distance, abs_of_nonpos (by linarith)]
      linarith
    have even := rounds.even .zero (Ne.symm other) tie
    rw [smallest] at even
    exact absurd even (by decide)

namespace Literal

variable {l other : Literal} {text rest : List Char} {c : Char}

/- The literal that a text begins with, if it begins with no longer one. -/
structure Longest (l : Literal) (text : List Char) : Prop where
  lexeme : l.IsLexeme
  begins : l.text <+: text
  longest : ∀ other : Literal, other.IsLexeme → other.text <+: text → other.length ≤ l.length

theorem longest_scan (digit : c.isDigit) : (scan (c :: rest)).Longest (c :: rest) := by
  have lexeme : (scan (c :: rest)).IsLexeme := isLexeme_scan digit
  refine ⟨lexeme, text_scan_isPrefix _, ?_⟩
  intro other valid begins
  rw [← text_scan_append_drop (c :: rest)] at begins
  exact length_le_of_endsBefore lexeme (scan_endsBefore _) valid begins

theorem text_injective (lexeme : l.IsLexeme) (valid : other.IsLexeme) (same : l.text = other.text) :
    l = other := by
  have scanned := scan_lexeme lexeme l.endsBefore_nil
  rw [same, scan_lexeme valid other.endsBefore_nil] at scanned
  exact scanned.symm

theorem Longest.unique (first : l.Longest text) (second : other.Longest text) : l = other := by
  have length : l.length = other.length := Nat.le_antisymm
    (second.longest l first.lexeme first.begins) (first.longest other second.lexeme second.begins)
  have same : l.text = other.text := by
    rw [List.prefix_iff_eq_take.mp first.begins, List.prefix_iff_eq_take.mp second.begins]
    exact congrArg text.take length
  exact text_injective first.lexeme second.lexeme same

theorem value_nonneg (l : Literal) : 0 ≤ l.value := by
  unfold value
  positivity

theorem exists_rounds (pointed : l.fraction ≠ none) (lexeme : l.IsLexeme)
    (below : l.value < overflowThreshold) : ∃ m, Rounds l.value m := by
  obtain ⟨fraction, present⟩ := Option.ne_none_iff_exists'.mp pointed
  by_contra outside
  have notInRange : ¬ l.InRange := by
    unfold InRange
    rwa [present]
  have short : ¬ l.Overlong := fun overlong => pointed overlong.1
  rcases past_of_outside lexeme notInRange short with ⟨plain, _⟩ | ⟨_, overflows⟩
  · exact pointed plain
  · exact absurd below (not_lt.mpr overflows)

end Literal

namespace Cursor

open Literal (Longest integerWidth largestInteger)

variable {source : String} {c : Cursor} {l : Literal} {char : Char} {rest : List Char}

/- The error of a literal out of range: it gives the literal and the place where that begins. -/
def outOfRange (source : String) (c : Cursor) (l : Literal) : Failure :=
  .line (.invalidLiteral (some (String.ofList l.text))
    ⟨some source, some c.position.line, some c.position.column⟩)

/-- What is read at a cursor of the literal there. It is passed in any case. Counting the digits of
    an integer behind its leading zeros refuses none that its value does not. -/
structure Reads (source : String) (c : Cursor) (l : Literal) : Prop where
  passed : (c.number source).2 = ⟨c.rest.drop l.length, c.position.along l.length⟩
  integer : l.fraction = none → l.length ≤ mostDigits → (c.number source).1 =
    if Nat.ofDigitChars 10 l.text 0 ≤ largestInteger then
      .ok ⟨.integer, some (.integer (Nat.ofDigitChars 10 l.text 0))⟩
    else .error (outOfRange source c l)
  overlong : l.fraction = none → mostDigits < l.length → (c.number source).1 =
    if integerWidth < (l.text.dropWhile (· == '0')).length then .error (outOfRange source c l)
    else .error (.fault (.digitLimit l.length))
  counted : l.fraction = none →
    (integerWidth < (l.text.dropWhile (· == '0')).length ∨
        largestInteger < Nat.ofDigitChars 10 l.text 0 ↔
      largestInteger < Nat.ofDigitChars 10 l.text 0)
  decimal : l.fraction ≠ none → l.value < overflowThreshold → ∃ m, Rounds l.value m ∧
    (m = .zero ↔ 2 * l.value ≤ Magnitude.smallest.value) ∧
    (c.number source).1 = .ok ⟨.decimal, some (.double (.finite false m))⟩
  overflow : l.fraction ≠ none → overflowThreshold ≤ l.value →
    (c.number source).1 = .error (outOfRange source c l)

/- The limit on digits is one on the length of an integer. -/
theorem token_of_short (lexeme : l.IsLexeme) (plain : l.fraction = none)
    (short : l.whole.length ≤ mostDigits) : l.token (c.site source) =
      if Nat.ofDigitChars 10 l.whole 0 ≤ largestInteger then
        .ok ⟨.integer, some (.integer (Nat.ofDigitChars 10 l.whole 0))⟩
      else .error (outOfRange source c l) := by
  have range : l.InRange ↔ Nat.ofDigitChars 10 l.whole 0 ≤ largestInteger := by
    unfold Literal.InRange
    rw [plain]
    exact and_iff_right short
  split
  · rename_i small
    exact Literal.token_of_integer _ lexeme plain (range.mpr small)
  · rename_i large
    have notOverlong : ¬ l.Overlong := fun overlong => by
      have := overlong.2.2
      omega
    exact Literal.token_of_outside _ lexeme (range.not.mpr large) notOverlong

theorem token_of_long (lexeme : l.IsLexeme) (plain : l.fraction = none)
    (long : mostDigits < l.whole.length) : l.token (c.site source) =
      if integerWidth < l.significant.length then .error (outOfRange source c l)
      else .error (.fault (.digitLimit l.whole.length)) := by
  have outside : ¬ l.InRange := by
    unfold Literal.InRange
    rw [plain]
    intro valid
    have := valid.1
    omega
  split
  · rename_i wide
    have notOverlong : ¬ l.Overlong := fun overlong => by
      have := overlong.2.1
      omega
    exact Literal.token_of_outside _ lexeme outside notOverlong
  · rename_i narrow
    exact Literal.token_of_overlong _ lexeme ⟨plain, Nat.le_of_not_lt narrow, long⟩

theorem reads_of_scan (lexeme : l.IsLexeme) (scanned : Literal.scan c.rest = l) :
    c.Reads source l := by
  have read : c.number source = (l.token (c.site source), c.skip l) := by
    unfold number
    simp only [scanned]
  have text (plain : l.fraction = none) : l.text = l.whole := by
    unfold Literal.text
    rw [plain]
  have first := congrArg Prod.fst read
  refine ⟨congrArg Prod.snd read, ?_, ?_, ?_, ?_, ?_⟩
  · intro plain short
    rw [Literal.length, text plain] at short
    rw [first, text plain, token_of_short lexeme plain short]
  · intro plain long
    rw [Literal.length, text plain] at long
    rw [first, Literal.length, text plain, token_of_long lexeme plain long, Literal.significant]
  · intro plain
    rw [text plain]
    exact or_iff_right_of_imp (Literal.largestInteger_lt_of_width lexeme)
  · intro pointed below
    obtain ⟨m, rounds⟩ := Literal.exists_rounds pointed lexeme below
    refine ⟨m, rounds, rounds.eq_zero_iff l.value_nonneg, ?_⟩
    rw [first, Literal.token_of_decimal _ lexeme pointed rounds]
  · intro pointed reached
    have outside : ¬ l.InRange := by
      obtain ⟨fraction, present⟩ := Option.ne_none_iff_exists'.mp pointed
      unfold Literal.InRange
      rw [present]
      rintro ⟨m, rounds⟩
      exact absurd rounds.below (not_lt.mpr reached)
    have notOverlong : ¬ l.Overlong := fun overlong => pointed overlong.1
    rw [first]
    exact Literal.token_of_outside _ lexeme outside notOverlong

/-- At a digit there is a longest literal, and it is what the number is read as. -/
theorem number_of_longest (source : String) (ahead : c.rest = char :: rest)
    (digit : char.isDigit) :
    (∃ l : Literal, l.Longest c.rest) ∧ ∀ l : Literal, l.Longest c.rest → c.Reads source l := by
  have longest : (Literal.scan c.rest).Longest c.rest := by
    rw [ahead]
    exact Literal.longest_scan digit
  refine ⟨⟨_, longest⟩, ?_⟩
  intro l other
  exact reads_of_scan other.lexeme (longest.unique other)

/- Leading zeros, a point, and a second point behind the digits after it. -/
theorem number_of_two_points :
    (start " 007.50.5").advance.rest = '0' :: "07.50.5".toList ∧ '0'.isDigit ∧
      (∃ l : Literal, l.Longest (start " 007.50.5").advance.rest) ∧
      ∀ l : Literal, l.Longest (start " 007.50.5").advance.rest →
        (start " 007.50.5").advance.Reads "stdin" l := by
  have ahead : (start " 007.50.5").advance.rest = '0' :: "07.50.5".toList := by decide +kernel
  exact ⟨ahead, rfl, number_of_longest "stdin" ahead rfl⟩

end Cursor

end LineCalc
