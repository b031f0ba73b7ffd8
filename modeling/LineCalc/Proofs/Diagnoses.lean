import LineCalc.Proofs.Joints

/-!
Lexical errors and the place that they name. What is in front of it is read, and what stands there
is at fault on its own: no text behind a stray character, and none that does not go on a literal out
of range, leads to another outcome (`diagnosed_of_tokenize`).
-/
namespace LineCalc

variable {source : String} {text rest more : List Char} {pieces : List Piece} {l other : Literal}

namespace Literal

theorem count_point_of_digits {digits : List Char} (all : ∀ c ∈ digits, c.isDigit) :
    digits.count '.' = 0 := by
  rw [List.count_eq_zero]
  intro member
  exact absurd (all '.' member) (by decide)

theorem count_point_text (lexeme : l.IsLexeme) :
    l.text.count '.' = if l.fraction = none then 0 else 1 := by
  have whole := count_point_of_digits lexeme.whole
  have fraction := count_point_of_digits lexeme.fraction
  obtain ⟨digits, places⟩ := l
  cases places with
  | none => simpa [text] using whole
  | some places =>
    simp only [Option.getD_some] at fraction
    simp [text, whole, fraction]

/- No lexeme at a place is longer than one that ends before the rest. -/
theorem length_le_of_endsBefore (lexeme : l.IsLexeme) (ends : l.EndsBefore rest)
    (valid : other.IsLexeme) (begins : other.text <+: l.text ++ rest) :
    other.length ≤ l.length := by
  obtain ⟨behind, parts⟩ := begins
  rcases List.append_eq_append_iff.mp parts with ⟨left, same, _⟩ | ⟨left, same, next⟩
  · rw [length, length, same, List.length_append]
    omega
  · cases left with
    | nil => rw [length, length, same, List.append_nil]
    | cons c left =>
      -- one character more is a point, and the literal has one already
      obtain ⟨notDigit, pointed⟩ := ends c (by rw [next]; rfl)
      have member : c ∈ other.text := by simp [same]
      have point : c = '.' := by
        rcases mem_text member with digit | point
        · rw [valid.isDigit_of_mem_digits c digit] at notDigit
          cases notDigit
        · exact point
      have one := count_point_text lexeme
      have most := count_point_text valid
      rw [if_neg (pointed point)] at one
      rw [same, point, List.count_append, List.count_cons_self, one] at most
      split at most <;> omega

end Literal

/- `Diagnosed source text error`: the error names its place `c`, and what stands there is at fault,
   a stray character or the longest literal there. -/
inductive Diagnosed (source : String) (text : List Char) : LineError → Prop where
  | stray {c : Nat} {char : Char} {ts : List Token}
      (before : tokenize source (String.ofList (text.take c)) = .ok ts)
      (here : text[c]? = some char)
      (other : char ≠ ' ' ∧ char ≠ '\t' ∧ char.isDigit = false ∧
        ∀ kind, Kind.symbol? kind ≠ some char)
      (lasting : ∀ more, tokenize source (String.ofList (text.take (c + 1) ++ more)) =
        .error (.line (.unexpectedCharacter (some (String.singleton char))
          ⟨some source, some 0, some c⟩))) :
      Diagnosed source text (.unexpectedCharacter (some (String.singleton char))
        ⟨some source, some 0, some c⟩)
  | literal {c : Nat} {l : Literal} {ts : List Token}
      (before : tokenize source (String.ofList (text.take c)) = .ok ts)
      (lexeme : l.IsLexeme) (here : (text.drop c).take l.length = l.text)
      (longest : ∀ other : Literal, other.IsLexeme → other.text <+: text.drop c →
        other.length ≤ l.length)
      (outside : (l.fraction = none ∧ Literal.largestInteger < Nat.ofDigitChars 10 l.whole 0) ∨
        (l.fraction ≠ none ∧ overflowThreshold ≤ l.value))
      (lasting : ∀ more, (∀ char, more.head? = some char → ¬ Numeric char) →
        tokenize source (String.ofList (text.take (c + l.length) ++ more)) =
          .error (.line (.invalidLiteral (some (String.ofList l.text))
            ⟨some source, some 0, some c⟩))) :
      Diagnosed source text (.invalidLiteral (some (String.ofList l.text))
        ⟨some source, some 0, some c⟩)

theorem tokenize_ofList_of_yields {outcome : Except Failure (List Token)} {n : Nat}
    (yields : Yields source .origin text outcome n) :
    tokenize source (String.ofList text) = outcome := by
  rw [← String.toList_ofList (l := text)] at yields
  exact tokenize_of_yields yields

/- Pieces in range are read on their own. -/
theorem tokenize_pieces (source : String) (division : Division text pieces rest)
    (inRange : ∀ p ∈ pieces, p.InRange) :
    ∃ ts, tokenize source (String.ofList (text.take (Piece.width pieces))) = .ok ts := by
  obtain ⟨ts, reads⟩ := readAs_iff_inRange.mpr inRange
  have alone := division_onto division (lastEndsBefore_nil pieces)
  rw [List.append_nil, ← take_of_division division] at alone
  exact ⟨ts, tokenize_ofList_of_yields (.full alone reads)⟩

theorem siteAlong_origin (source : String) (n : Nat) :
    Position.origin.siteAlong source n = ⟨some source, some 0, some n⟩ := by
  simp [Position.siteAlong, Position.origin]

theorem stray_iff {char : Char} : (Cursor.isBlank char = false ∧ Kind.ofSymbol? char = none) ↔
    char ≠ ' ' ∧ char ≠ '\t' ∧ ∀ kind, Kind.symbol? kind ≠ some char := by
  simp [Cursor.isBlank, Option.eq_none_iff_forall_ne_some, Kind.ofSymbol?_eq_some_iff, and_assoc]

theorem diagnosed_of_firstStray {char : Char} (source : String)
    (first : FirstStray text pieces char rest) :
    Diagnosed source text (.unexpectedCharacter (some (String.singleton char))
      (Position.origin.siteAlong source (Piece.width pieces))) := by
  obtain ⟨ts, before⟩ := tokenize_pieces source first.division first.inRange
  obtain ⟨notSpace, notTab, notSymbol⟩ := stray_iff.mp ⟨first.notBlank, first.notSymbol⟩
  have parts := division_text first.division
  rw [siteAlong_origin]
  refine .stray before ?_ ⟨notSpace, notTab, first.notDigit, notSymbol⟩ ?_
  · simp [← parts, Piece.width]
  · intro more
    have passed : text.take (Piece.width pieces + 1) = pieces.flatMap Piece.text ++ [char] := by
      simp [← parts, Piece.width, List.take_append]
    rw [passed, List.append_assoc, List.singleton_append, ← siteAlong_origin]
    exact tokenize_ofList_of_yields (.stray (firstStray_onto first more))

theorem diagnosed_of_firstOutside (source : String) (first : FirstOutside text pieces l rest)
    (short : ¬ l.Overlong) :
    Diagnosed source text (.invalidLiteral (some (String.ofList l.text))
      (Position.origin.siteAlong source (Piece.width pieces))) := by
  obtain ⟨ts, before⟩ := tokenize_pieces source first.division first.inRange
  have parts := division_text first.division
  have ahead : text.drop (Piece.width pieces) = l.text ++ rest := by simp [← parts, Piece.width]
  rw [siteAlong_origin]
  refine .literal before first.lexeme ?_ ?_ ?_ ?_
  · rw [ahead, Literal.length, List.take_left]
  · intro other valid begins
    rw [ahead] at begins
    exact Literal.length_le_of_endsBefore first.lexeme first.ends valid begins
  · exact Literal.past_of_outside first.lexeme first.outside short
  · intro more apart
    have ends := endsBefore_of_not_numeric l apart
    rw [take_of_firstOutside first, List.append_assoc, ← siteAlong_origin]
    exact tokenize_ofList_of_yields (.invalid (firstOutside_onto first ends) short)

/-- A lexical error names its place, up to which the text is read. There stands a stray character or
    the longest literal, out of range, and the error is the same whatever follows, unless it makes
    the literal longer. -/
theorem diagnosed_of_tokenize {text : String} {error : LineError}
    (refused : tokenize source text = .error (.line error)) :
    Diagnosed source text.toList error := by
  obtain ⟨n, yields⟩ := tokenize_yields source text
  rw [refused] at yields
  cases yields with
  | stray first => exact diagnosed_of_firstStray source first
  | invalid first short => exact diagnosed_of_firstOutside source first short

/- An integer out of range. -/
theorem diagnosed_of_large_integer :
    tokenize "stdin" "8.5 *\t3000000000)" = .error (.line (.invalidLiteral (some "3000000000")
      ⟨some "stdin", some 0, some 6⟩)) ∧
    Diagnosed "stdin" "8.5 *\t3000000000)".toList (.invalidLiteral (some "3000000000")
      ⟨some "stdin", some 0, some 6⟩) := by
  have refused : tokenize "stdin" "8.5 *\t3000000000)" = .error (.line
      (.invalidLiteral (some "3000000000") ⟨some "stdin", some 0, some 6⟩)) := by
    decide +kernel
  exact ⟨refused, diagnosed_of_tokenize refused⟩

end LineCalc
