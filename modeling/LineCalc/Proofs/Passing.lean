import LineCalc.Proofs.Pieces

/-!
The cursor against the division of a text into pieces. Literals have tokens exactly in range, and
over pieces in range the cursor puts their tokens in front of what follows (`tokens_of_division`).
-/
namespace LineCalc

namespace Literal

/- Too many digits, but few of them after the leading zeros. -/
def Overlong (l : Literal) : Prop :=
  l.fraction = none ∧ l.significant.length ≤ integerWidth ∧ mostDigits < l.whole.length

theorem ofDigitChars_dropWhile_zero (digits : List Char) :
    Nat.ofDigitChars 10 (digits.dropWhile (· == '0')) 0 = Nat.ofDigitChars 10 digits 0 := by
  induction digits with
  | nil => rfl
  | cons c digits ih =>
    by_cases zero : c = '0'
    · subst zero
      simpa [Nat.ofDigitChars_cons] using ih
    · simp [zero]

theorem one_le_digit {c : Char} (digit : c.isDigit) (other : c ≠ '0') :
    1 ≤ c.toNat - '0'.toNat := by
  have low : '0'.toNat ≤ c.toNat := by
    simp only [Char.isDigit, Bool.and_eq_true, decide_eq_true_eq] at digit
    exact digit.1
  have apart : c.toNat ≠ '0'.toNat := fun same => other (Char.toNat_inj.mp same)
  omega

/- More significant digits than the largest integer has are past it. -/
theorem largestInteger_lt_of_width {l : Literal} (lexeme : l.IsLexeme)
    (wide : integerWidth < l.significant.length) :
    largestInteger < Nat.ofDigitChars 10 l.whole 0 := by
  unfold significant at wide
  rw [← ofDigitChars_dropWhile_zero]
  cases digits : l.whole.dropWhile (· == '0') with
  | nil => simp [digits] at wide
  | cons c rest =>
    have head : (l.whole.dropWhile (· == '0')).head? = some c := by rw [digits]; rfl
    have other := head_dropWhile_false head
    have member : c ∈ l.whole.dropWhile (· == '0') := by simp [digits]
    have digit := lexeme.whole c (List.dropWhile_subset _ member)
    have leading := one_le_digit digit (by simpa using other)
    rw [digits, List.length_cons] at wide
    unfold integerWidth at wide
    have power : 10 ^ 10 ≤ 10 ^ rest.length := Nat.pow_le_pow_right (by decide) (by omega)
    have scaled := Nat.mul_le_mul power leading
    rw [Nat.ofDigitChars_cons, Nat.mul_zero, Nat.zero_add, Nat.ofDigitChars_eq_ofDigitChars_zero]
    unfold largestInteger
    omega

theorem significant_le_of_inRange {l : Literal} (lexeme : l.IsLexeme) (plain : l.fraction = none)
    (valid : l.InRange) : l.significant.length ≤ integerWidth := by
  unfold InRange at valid
  rw [plain] at valid
  by_contra wide
  have past := largestInteger_lt_of_width lexeme (Nat.lt_of_not_le wide)
  omega

theorem convertDigits_eq {digits : List Char} (present : digits ≠ [])
    (short : digits.length ≤ mostDigits) :
    convertDigits digits = .ok (Nat.ofDigitChars 10 digits 0) := by
  unfold convertDigits
  rw [if_neg present, if_neg (Nat.not_lt.mpr short)]

theorem token_of_integer {l : Literal} (site : Site) (lexeme : l.IsLexeme)
    (plain : l.fraction = none) (valid : l.InRange) :
    l.token site = .ok ⟨.integer, some (.integer (Nat.ofDigitChars 10 l.whole 0))⟩ := by
  have width := significant_le_of_inRange lexeme plain valid
  unfold InRange at valid
  rw [plain] at valid
  unfold token
  simp only [plain, if_neg (Nat.not_lt.mpr width), convertDigits_eq lexeme.present valid.1,
    if_neg (Nat.not_lt.mpr valid.2)]

theorem digits_ne_nil {l : Literal} (lexeme : l.IsLexeme) : l.digits ≠ [] := by
  intro none
  exact lexeme.present (List.append_eq_nil_iff.mp none).1

theorem token_of_decimal {l : Literal} {m : Magnitude} (site : Site) (lexeme : l.IsLexeme)
    (pointed : l.fraction ≠ none) (rounds : Rounds l.value m) :
    l.token site = .ok ⟨.decimal, some (.double (.finite false m))⟩ := by
  obtain ⟨fraction, present⟩ := Option.ne_none_iff_exists'.mp pointed
  have nearest : l.decimal.nearest = some m := by
    rw [Decimal.nearest_eq_some_iff, decimal_value]
    exact rounds
  unfold token
  simp only [present, if_neg (digits_ne_nil lexeme), nearest]

theorem token_of_overlong {l : Literal} (site : Site) (lexeme : l.IsLexeme)
    (overlong : l.Overlong) : l.token site = .error (.fault (.digitLimit l.whole.length)) := by
  obtain ⟨plain, width, long⟩ := overlong
  have refused : convertDigits l.whole = .error (.digitLimit l.whole.length) := by
    unfold convertDigits
    rw [if_neg lexeme.present, if_pos long]
  unfold token
  simp only [plain, if_neg (Nat.not_lt.mpr width), refused]

theorem Overlong.not_inRange {l : Literal} (overlong : l.Overlong) : ¬ l.InRange := by
  obtain ⟨plain, _, long⟩ := overlong
  intro valid
  unfold InRange at valid
  rw [plain] at valid
  omega

theorem length_le_of_short {l : Literal} (plain : l.fraction = none)
    (width : l.significant.length ≤ integerWidth) (short : ¬ l.Overlong) :
    l.whole.length ≤ mostDigits := by
  by_contra long
  exact short ⟨plain, width, Nat.lt_of_not_le long⟩

theorem past_of_outside {l : Literal} (lexeme : l.IsLexeme) (outside : ¬ l.InRange)
    (short : ¬ l.Overlong) :
    (l.fraction = none ∧ largestInteger < Nat.ofDigitChars 10 l.whole 0) ∨
      (l.fraction ≠ none ∧ overflowThreshold ≤ l.value) := by
  unfold InRange at outside
  cases pointed : l.fraction with
  | none =>
    rw [pointed] at outside
    left
    constructor
    · rfl
    · by_cases wide : integerWidth < l.significant.length
      · exact largestInteger_lt_of_width lexeme wide
      · have fits := length_le_of_short pointed (Nat.le_of_not_lt wide) short
        by_contra small
        exact outside ⟨fits, Nat.le_of_not_lt small⟩
  | some fraction =>
    rw [pointed] at outside
    right
    constructor
    · exact nofun
    · rw [← decimal_value, ← Decimal.nearest_eq_none_iff, Option.eq_none_iff_forall_ne_some]
      intro m found
      rw [Decimal.nearest_eq_some_iff, decimal_value] at found
      exact outside ⟨m, found⟩

theorem token_of_outside {l : Literal} (site : Site) (lexeme : l.IsLexeme) (outside : ¬ l.InRange)
    (short : ¬ l.Overlong) :
    l.token site = .error (.line (.invalidLiteral (String.ofList l.text) site)) := by
  unfold token
  rcases past_of_outside lexeme outside short with ⟨plain, large⟩ | ⟨pointed, overflows⟩
  · by_cases wide : integerWidth < l.significant.length
    · simp only [plain, if_pos wide]
    · have fits := length_le_of_short plain (Nat.le_of_not_lt wide) short
      simp only [plain, if_neg wide, convertDigits_eq lexeme.present fits, if_pos large]
  · obtain ⟨fraction, present⟩ := Option.ne_none_iff_exists'.mp pointed
    rw [← decimal_value, ← Decimal.nearest_eq_none_iff] at overflows
    simp only [present, if_neg (digits_ne_nil lexeme), overflows]

end Literal

namespace Cursor

/- Passes so many characters of one line. -/
def pass (n : Nat) (c : Cursor) : Cursor := ⟨c.rest.drop n, c.position.along n⟩

theorem along_along (p : Position) (m n : Nat) : (p.along m).along n = p.along (m + n) := by
  simp [Position.along, Int.add_assoc]

theorem pass_pass (m n : Nat) (c : Cursor) : (c.pass m).pass n = c.pass (m + n) := by
  simp [pass, along_along]

theorem pass_zero (c : Cursor) : c.pass 0 = c := by
  simp [pass, Position.along]

theorem advance_eq_pass {c : Cursor} (sameLine : c.current ≠ '\n') : c.advance = c.pass 1 := by
  simp [advance, pass, Position.advance, Position.along, sameLine]

theorem current_of_ahead {c : Cursor} {char : Char} {rest : List Char}
    (ahead : c.rest = char :: rest) : c.current = char := by
  rw [current, ahead]
  rfl

/- Puts several tokens in front of those that follow. -/
def prependAll (ts : List Token) (following : Except Failure (List Token) × Cursor) :
    Except Failure (List Token) × Cursor :=
  (following.1.map (ts ++ ·), following.2)

theorem prependAll_nil (following : Except Failure (List Token) × Cursor) :
    prependAll [] following = following := by
  obtain ⟨outcome, c⟩ := following
  cases outcome <;> rfl

theorem prepend_prependAll (t : Token) (ts : List Token)
    (following : Except Failure (List Token) × Cursor) :
    prepend t (prependAll ts following) = prependAll (t :: ts) following := by
  obtain ⟨outcome, c⟩ := following
  cases outcome <;> rfl

theorem number_eq {c : Cursor} {l : Literal} {rest : List Char} (source : String)
    (ahead : c.rest = l.text ++ rest) (lexeme : l.IsLexeme) (ends : l.EndsBefore rest) :
    c.number source = (l.token (c.site source), c.pass l.length) := by
  have scanned : Literal.scan c.rest = l := by rw [ahead, Literal.scan_lexeme lexeme ends]
  unfold number
  simp only [scanned]
  rfl

/-- Over a division into pieces in range the cursor yields their tokens and goes on behind them. -/
theorem tokens_of_division {text rest : List Char} {pieces : List Piece} {ts : List Token}
    (source : String) (division : Division text pieces rest) (reads : ReadAs pieces ts)
    (c : Cursor) (ahead : c.rest = text) :
    c.tokens source =
      prependAll ts ((c.pass (pieces.flatMap Piece.text).length).tokens source) := by
  induction division generalizing c ts with
  | done rest =>
    cases reads
    simp [pass_zero, prependAll_nil]
  | @blank char text rest pieces blank tail ih =>
    cases reads with
    | blank _ reads =>
      have sameLine : c.current ≠ '\n' := by
        rw [current_of_ahead ahead]
        rcases blank with rfl | rfl <;> decide
      have moved := advance_eq_pass sameLine
      have following := ih reads c.advance (by simp [advance, ahead])
      rw [tokens_of_blank source ahead (isBlank_iff.mpr blank), following, moved, pass_pass]
      simp [Piece.text, Nat.add_comm]
  | @symbol char kind text rest pieces symbol tail ih =>
    cases reads with
    | symbol _ reads =>
      have sameLine : c.current ≠ '\n' := by
        rw [current_of_ahead ahead]
        exact symbol_ne_lineFeed symbol
      have moved := advance_eq_pass sameLine
      have following := ih reads c.advance (by simp [advance, ahead])
      rw [tokens_of_symbol source ahead (Kind.ofSymbol?_eq_some_iff.mpr symbol), following, moved,
        pass_pass, prepend_prependAll]
      simp [Piece.text, symbol, Nat.add_comm]
  | @number l text rest pieces lexeme ends tail ih =>
    obtain ⟨char, more, head, digit⟩ := lexeme_text_head lexeme
    have ahead' : c.rest = char :: (more ++ text) := by rw [ahead, head]; rfl
    have number := number_eq source ahead lexeme ends
    have skipped : (c.pass l.length).rest = text := by
      simp [pass, ahead, Literal.length]
    have length : (Piece.number l).text.length = l.length := rfl
    rw [tokens_of_digit source ahead' digit, number]
    cases reads with
    | integer plain valid reads =>
      rw [Literal.token_of_integer _ lexeme plain valid]
      simp only [ih reads _ skipped, pass_pass, prepend_prependAll, List.flatMap_cons,
        List.length_append, length]
    | decimal pointed rounds reads =>
      rw [Literal.token_of_decimal _ lexeme pointed rounds]
      simp only [ih reads _ skipped, pass_pass, prepend_prependAll, List.flatMap_cons,
        List.length_append, length]

theorem tokens_of_outside {c : Cursor} {l : Literal} {rest : List Char} {failure : Failure}
    (source : String) (ahead : c.rest = l.text ++ rest) (lexeme : l.IsLexeme)
    (ends : l.EndsBefore rest) (refused : l.token (c.site source) = .error failure) :
    c.tokens source = (.error failure, c.pass l.length) := by
  obtain ⟨char, more, head, digit⟩ := lexeme_text_head lexeme
  have ahead' : c.rest = char :: (more ++ rest) := by rw [ahead, head]; rfl
  rw [tokens_of_digit source ahead' digit, number_eq source ahead lexeme ends, refused]

end Cursor

end LineCalc
