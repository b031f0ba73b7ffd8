import LineCalc.Proofs.Yields

/-!
The tokens of a line. A text is read in full, or it has a lexical error, or it is fatal
(`tokenize_cases`); and it has tokens exactly if it divides into pieces in range
(`tokenize_eq_ok_iff_division`).
-/
namespace LineCalc

theorem tokenize_of_full {text : String} {pieces : List Piece} {ts : List Token} (source : String)
    (division : Division text.toList pieces []) (reads : ReadAs pieces ts) :
    tokenize source text = .ok ts :=
  tokenize_of_yields (.full division reads)

/- The errors of the lexer. -/
inductive LineError.OfText : LineError → Prop where
  | character (c : Char) (site : Site) :
      OfText (.unexpectedCharacter (some (String.singleton c)) site)
  | literal (text : List Char) (site : Site) :
      OfText (.invalidLiteral (some (String.ofList text)) site)

theorem LineError.OfText.isLexical {error : LineError} (ofText : error.OfText) :
    error.isLexical := by
  cases ofText <;> rfl

theorem LineError.OfText.message_ne {error : LineError} (ofText : error.OfText) :
    error.message ≠ "" := by
  intro empty
  cases ofText with
  | character c site =>
    have wording := (String.append_eq_empty_iff.mp (String.append_eq_empty_iff.mp empty).1).1
    exact absurd wording (by decide)
  | literal text site =>
    have wording := (String.append_eq_empty_iff.mp (String.append_eq_empty_iff.mp empty).1).1
    exact absurd wording (by decide)

/- The first literal out of range is an overlong one. -/
def Fatal (text : List Char) (n : Nat) : Prop :=
  ∃ (pieces : List Piece) (l : Literal) (rest : List Char),
    Division text pieces (l.text ++ rest) ∧ (∀ p ∈ pieces, p.InRange) ∧
    l.IsLexeme ∧ l.EndsBefore rest ∧ l.Overlong ∧ l.whole.length = n

def Safe (text : List Char) : Prop := ∀ n, ¬ Fatal text n

theorem tokenize_of_fatal {text : String} {n : Nat} (source : String)
    (fatal : Fatal text.toList n) : tokenize source text = .error (.fault (.digitLimit n)) := by
  obtain ⟨pieces, l, rest, division, inRange, lexeme, ends, overlong, rfl⟩ := fatal
  have first : FirstOutside text.toList pieces l rest :=
    ⟨division, inRange, lexeme, ends, overlong.not_inRange⟩
  exact tokenize_of_yields (.overlong first overlong)

/-- A text is read in full, or it has a lexical error, or it is fatal. -/
theorem tokenize_cases (source text : String) :
    (∃ pieces ts, Division text.toList pieces [] ∧ ReadAs pieces ts ∧
      tokenize source text = .ok ts) ∨
    (∃ error, tokenize source text = .error (.line error) ∧ error.OfText) ∨
    (∃ n, Fatal text.toList n) := by
  obtain ⟨n, yields⟩ := tokenize_yields source text
  generalize tokenize source text = outcome at yields ⊢
  cases yields with
  | full division reads => exact .inl ⟨_, _, division, reads, rfl⟩
  | stray first => exact .inr (.inl ⟨_, rfl, .character _ _⟩)
  | invalid first short => exact .inr (.inl ⟨_, rfl, .literal _ _⟩)
  | @overlong pieces l rest first overlong =>
    exact .inr (.inr ⟨_, pieces, l, rest, first.division, first.inRange, first.lexeme, first.ends,
      overlong, rfl⟩)

/- Nothing but a full division gives tokens. -/
theorem division_of_tokenize {source text : String} {ts : List Token}
    (read : tokenize source text = .ok ts) :
    ∃ pieces, Division text.toList pieces [] ∧ ReadAs pieces ts := by
  rcases tokenize_cases source text with ⟨pieces, us, division, reads, found⟩ |
    ⟨error, refused, _⟩ | ⟨n, fatal⟩
  · obtain rfl := Except.ok.inj (found.symm.trans read)
    exact ⟨pieces, division, reads⟩
  · cases refused.symm.trans read
  · cases (tokenize_of_fatal source fatal).symm.trans read

/-- A line gives tokens exactly if it divides into pieces in range. It then does so in one way, the
    pieces make up the line, and the tokens are theirs. -/
theorem tokenize_eq_ok_iff_division (source text : String) :
    (∀ ts, tokenize source text = .ok ts ↔
      ∃ pieces, Division text.toList pieces [] ∧ ReadAs pieces ts) ∧
    ((∃ ts, tokenize source text = .ok ts) ↔
      ∃ pieces, Division text.toList pieces [] ∧ ∀ p ∈ pieces, p.InRange) ∧
    (∀ pieces others, Division text.toList pieces [] → Division text.toList others [] →
      pieces = others) ∧
    (∀ pieces, Division text.toList pieces [] → pieces.flatMap Piece.text = text.toList) ∧
    ((¬ ∃ pieces, Division text.toList pieces [] ∧ ∀ p ∈ pieces, p.InRange) →
      ∃ failure, tokenize source text = .error failure) := by
  have exact : ∀ ts, tokenize source text = .ok ts ↔
      ∃ pieces, Division text.toList pieces [] ∧ ReadAs pieces ts := by
    intro ts
    constructor
    · exact division_of_tokenize
    · rintro ⟨pieces, division, reads⟩
      exact tokenize_of_full source division reads
  have accepted : (∃ ts, tokenize source text = .ok ts) ↔
      ∃ pieces, Division text.toList pieces [] ∧ ∀ p ∈ pieces, p.InRange := by
    constructor
    · rintro ⟨ts, read⟩
      obtain ⟨pieces, division, reads⟩ := (exact ts).mp read
      exact ⟨pieces, division, readAs_iff_inRange.mp ⟨ts, reads⟩⟩
    · rintro ⟨pieces, division, inRange⟩
      obtain ⟨ts, reads⟩ := readAs_iff_inRange.mpr inRange
      exact ⟨ts, (exact ts).mpr ⟨pieces, division, reads⟩⟩
  refine ⟨exact, accepted, ?_, ?_, ?_⟩
  · intro pieces others first second
    exact division_unique first second
  · intro pieces division
    simpa using division_text division
  · intro none
    cases outcome : tokenize source text with
    | ok ts => exact absurd (accepted.mp ⟨ts, outcome⟩) none
    | error failure => exact ⟨failure, rfl⟩

end LineCalc
