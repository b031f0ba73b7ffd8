import LineCalc.Proofs.Running

/-!
Source texts of tokens. Each well-formed token is written as one piece, which is read as the token;
blanks keep the pieces of neighbours apart. So the lexer reads the source text of a line back, and
the line runs as before.
-/
namespace LineCalc

namespace Decimal

/- The plain digits with a point, as a literal. -/
def pointedLiteral (d : Decimal) : Literal :=
  if 0 ≤ d.exponent then ⟨d.digits ++ List.replicate d.exponent.toNat '0', some ['0']⟩
  else
    let places := (-d.exponent).toNat
    let padded := List.replicate (places + 1 - d.digits.length) '0' ++ d.digits
    ⟨padded.take (padded.length - places), some (padded.drop (padded.length - places))⟩

theorem pointedLiteral_text (d : Decimal) : d.pointedLiteral.text = d.pointed := by
  unfold pointedLiteral pointed plain
  split <;> simp [Literal.text]

theorem isDigit_of_mem_digits {d : Decimal} {c : Char} (member : c ∈ d.digits) : c.isDigit :=
  Nat.isDigit_of_mem_toDigits (by decide) (by decide) member

theorem isDigit_of_mem_padded {d : Decimal} {n : Nat} {c : Char}
    (member : c ∈ List.replicate n '0' ++ d.digits) : c.isDigit := by
  rcases List.mem_append.mp member with zero | digit
  · obtain rfl := List.eq_of_mem_replicate zero
    rfl
  · exact isDigit_of_mem_digits digit

theorem pointedLiteral_isLexeme (d : Decimal) : d.pointedLiteral.IsLexeme := by
  have present : d.digits ≠ [] := Nat.toDigits_ne_nil
  unfold pointedLiteral
  split
  · refine ⟨by simp [present], ?_, by simp⟩
    intro c member
    rcases List.mem_append.mp member with digit | zero
    · exact isDigit_of_mem_digits digit
    · obtain rfl := List.eq_of_mem_replicate zero
      rfl
  · refine ⟨?_, ?_, ?_⟩
    · apply List.ne_nil_of_length_pos
      simp
      omega
    · intro c member
      exact isDigit_of_mem_padded (List.mem_of_mem_take member)
    · intro c member
      exact isDigit_of_mem_padded (List.mem_of_mem_drop member)

theorem ofDigitChars_digits (d : Decimal) : Nat.ofDigitChars 10 d.digits 0 = d.coefficient :=
  Nat.ofDigitChars_ten_toDigits

theorem decimal_of_places {padded : List Char} {places : Nat} (short : places ≤ padded.length) :
    Literal.decimal ⟨padded.take (padded.length - places),
      some (padded.drop (padded.length - places))⟩ =
        ⟨Nat.ofDigitChars 10 padded 0, -(places : Int)⟩ := by
  have length : padded.length - (padded.length - places) = places := by omega
  simp only [Literal.decimal, Literal.digits, Option.getD_some, List.take_append_drop,
    List.length_drop, length]

theorem pointedLiteral_value (d : Decimal) : d.pointedLiteral.value = d.value := by
  rw [← Literal.decimal_value]
  unfold pointedLiteral
  split
  · rename_i whole
    have power : (10 : ℚ) ^ d.exponent = 10 ^ d.exponent.toNat := by
      rw [← zpow_natCast]
      congr 1
      omega
    have zero : Nat.ofDigitChars 10 ['0'] (10 ^ d.exponent.toNat * d.coefficient) =
        10 * (10 ^ d.exponent.toNat * d.coefficient) := by
      simp [Nat.ofDigitChars_cons]
    simp only [Literal.decimal, Literal.digits, Option.getD_some, Nat.ofDigitChars_append,
      ofDigitChars_digits, Nat.ofDigitChars_replicate_zero, zero, value, power]
    push_cast
    norm_num
    ring
  · rename_i fractional
    have exponent : -(((-d.exponent).toNat : Nat) : Int) = d.exponent := by omega
    rw [decimal_of_places (by simp; omega), Nat.ofDigitChars_append,
      Nat.ofDigitChars_replicate_zero, Nat.mul_zero, ofDigitChars_digits, exponent]

end Decimal

/- A blank stands behind, or nothing. -/
def Apart (after : List Char) : Prop := ∀ c, after.head? = some c → c = ' '

theorem endsBefore_of_apart (l : Literal) {after : List Char} (apart : Apart after) :
    l.EndsBefore after := by
  intro c head
  obtain rfl := apart c head
  exact ⟨rfl, fun point => by cases point⟩

/- The source text of a token is a piece that is read as the token. -/
structure Stands (t : Token) (p : Piece) : Prop where
  written : t.source = .ok (String.ofList p.text)
  divides : ∀ {after rest : List Char} {pieces : List Piece}, Apart after →
    Division after pieces rest → Division (p.text ++ after) (p :: pieces) rest
  reads : ∀ {pieces : List Piece} {ts : List Token}, ReadAs pieces ts →
    ReadAs (p :: pieces) (t :: ts)

theorem stands_of_integer {n : Nat} (small : n ≤ Literal.largestInteger) :
    Stands ⟨.integer, some (.integer n)⟩ (.number ⟨Nat.toDigits 10 n, none⟩) where
  written := by
    have finite := Numeral.natAbs_lt_of_finite (Numeral.finite_of_small small)
    have text : integerText n = String.ofList (Nat.toDigits 10 n) := by
      unfold integerText
      rw [if_neg (by omega), Int.natAbs_natCast]
    simp only [Token.source, Option.mapM_some, Numeral.write, writeInteger_of_lt finite, text]
    rfl
  divides := by
    intro after rest pieces apart tail
    have lexeme : Literal.IsLexeme ⟨Nat.toDigits 10 n, none⟩ :=
      ⟨Nat.toDigits_ne_nil, fun c => Nat.isDigit_of_mem_toDigits (by decide) (by decide), by simp⟩
    exact .number lexeme (endsBefore_of_apart _ apart) tail
  reads := by
    intro pieces ts tail
    have finite := Numeral.natAbs_lt_of_finite (Numeral.finite_of_small small)
    have valid : Literal.InRange ⟨Nat.toDigits 10 n, none⟩ :=
      ⟨length_toDigits_le finite, by rw [Nat.ofDigitChars_ten_toDigits]; exact small⟩
    have read := ReadAs.integer rfl valid tail
    rwa [Nat.ofDigitChars_ten_toDigits] at read

theorem stands_of_decimal (m : Magnitude) :
    Stands ⟨.decimal, some (.double (.finite false m))⟩ (.number m.shortest.pointedLiteral) where
  written := by
    simp only [Piece.text, Decimal.pointedLiteral_text]
    rfl
  divides := fun apart tail =>
    .number (Decimal.pointedLiteral_isLexeme _) (endsBefore_of_apart _ apart) tail
  reads := by
    intro pieces ts tail
    have pointed : m.shortest.pointedLiteral.fraction ≠ none := by
      unfold Decimal.pointedLiteral
      split <;> simp
    have rounds : Rounds m.shortest.pointedLiteral.value m := by
      rw [Decimal.pointedLiteral_value, ← Decimal.nearest_eq_some_iff]
      exact m.nearest_shortest
    exact .decimal pointed rounds tail

theorem stands_of_symbol {kind : Kind} (symbolic : kind.isNumber = false) :
    Stands ⟨kind, none⟩ (.symbol kind) where
  written := by cases kind <;> first | rfl | cases symbolic
  divides := by
    intro after rest pieces _ tail
    obtain ⟨c, symbol⟩ : ∃ c, kind.symbol? = some c := by
      cases kind <;> first | exact ⟨_, rfl⟩ | cases symbolic
    simp only [Piece.text, symbol]
    exact .symbol symbol tail
  reads := fun tail => .symbol kind tail

theorem stands_of_wellFormed {t : Token} (valid : t.WellFormed) : ∃ p, Stands t p := by
  cases valid with
  | integer small => exact ⟨_, stands_of_integer small⟩
  | decimal m => exact ⟨_, stands_of_decimal m⟩
  | symbol symbolic => exact ⟨_, stands_of_symbol symbolic⟩

/-- The source text of well-formed tokens divides into pieces that are read as the tokens. -/
theorem division_of_sources {ts : List Token} (valid : ∀ t ∈ ts, t.WellFormed) :
    ∃ texts pieces, ts.mapM Token.source = .ok texts ∧
      Division (" ".intercalate texts).toList pieces [] ∧ ReadAs pieces ts := by
  induction ts with
  | nil => exact ⟨[], [], rfl, by simpa using Division.done [], .nil⟩
  | cons t ts ih =>
    obtain ⟨p, stands⟩ := stands_of_wellFormed (valid t (by simp))
    obtain ⟨texts, pieces, written, division, reads⟩ :=
      ih fun u member => valid u (by simp [member])
    have all : (t :: ts).mapM Token.source = .ok (String.ofList p.text :: texts) := by
      rw [List.mapM_cons, stands.written, written]
      rfl
    cases texts with
    | nil =>
      have last := stands.divides (by simp [Apart]) division
      exact ⟨_, p :: pieces, all, by simpa using last, stands.reads reads⟩
    | cons text texts =>
      have blank := Division.blank (.inl rfl) division
      have more := stands.divides (by simp [Apart]) blank
      refine ⟨_, p :: .blank ' ' :: pieces, all, ?_, stands.reads (.blank ' ' reads)⟩
      rw [String.intercalate_cons_of_ne_nil (by simp)]
      simpa using more

namespace Outcome

/- What is recorded of a line depends on its tokens alone. -/
theorem records_congr {strict : Bool} {line : Option Int} {text other : String} {ts : List Token}
    {o u : Outcome} (first : Records strict line text ts o)
    (second : Records strict line other ts u) : u = { o with source := other } := by
  cases first with
  | error refused _ =>
    cases second with
    | error refused' _ =>
      cases refused.symm.trans refused'
      rfl
    | value read _ _ => cases refused.symm.trans read
  | value read _ evaluated =>
    cases second with
    | error refused _ => cases refused.symm.trans read
    | value read' _ evaluated' =>
      cases read.symm.trans read'
      cases evaluated.symm.trans evaluated'
      rfl

end Outcome

theorem tokenize_sources_of_wellFormed (source : String) {ts : List Token}
    (valid : ∀ t ∈ ts, t.WellFormed) :
    ∃ text, Token.sources ts = .ok text ∧ tokenize source text = .ok ts := by
  obtain ⟨texts, pieces, written, division, reads⟩ := division_of_sources valid
  refine ⟨" ".intercalate texts, ?_, tokenize_of_full source division reads⟩
  unfold Token.sources
  rw [written]
  rfl

/-- Well-formed tokens are read back from their source text, and the lexer makes no others. So the
    source text of a line has the tokens of the line, and runs as the line does. -/
theorem tokenize_sources (source : String) :
    (∀ ts : List Token, (∀ t ∈ ts, t.WellFormed) →
      ∃ text, Token.sources ts = .ok text ∧ tokenize source text = .ok ts) ∧
    (∀ text ts, tokenize source text = .ok ts → ∀ t ∈ ts, t.WellFormed) ∧
    (∀ text ts, tokenize source text = .ok ts →
      ∃ normal, Token.sources ts = .ok normal ∧ tokenize source normal = .ok ts ∧
        ∀ mode line, ∃ o, (Outcome.run mode source line text).outcome = .ok o ∧
          (Outcome.run mode source line normal).outcome = .ok { o with source := normal }) := by
  refine ⟨fun ts => tokenize_sources_of_wellFormed source,
    fun text ts => wellFormed_of_tokenize, ?_⟩
  intro text ts read
  obtain ⟨normal, written, readBack⟩ :=
    tokenize_sources_of_wellFormed source (wellFormed_of_tokenize read)
  refine ⟨normal, written, readBack, ?_⟩
  intro mode line
  obtain ⟨o, outcome, records⟩ := Outcome.records_of_tokenize mode line read
  obtain ⟨u, outcome', records'⟩ := Outcome.records_of_tokenize mode line readBack
  obtain rfl := Outcome.records_congr records records'
  exact ⟨o, outcome, outcome'⟩

end LineCalc
