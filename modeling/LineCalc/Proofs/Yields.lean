import LineCalc.Proofs.Passing

/-!
What a text yields from a position on. `Yields` says which tokens or which error come of it, and how
many characters are passed; a cursor does what it says (`tokens_yields`) and nothing else
(`tokens_of_yields`). The position enters errors alone, so a cursor in the middle of a text yields
what one at the start of the rest does, with the errors relocated (`tokens_relocated`).
-/
namespace LineCalc

/- Changes where an error is. -/
def LineError.mapSite (f : Site → Site) : LineError → LineError
  | .unexpectedCharacter character site => .unexpectedCharacter character (f site)
  | .invalidLiteral literal site => .invalidLiteral literal (f site)
  | .lexical text site => .lexical text (f site)
  | error => error

def Failure.mapSite (f : Site → Site) : Failure → Failure
  | .line error => .line (error.mapSite f)
  | .fault reason => .fault reason

/- The place of an error in a text that starts at the position, from its place in the text alone. -/
def Position.relocate (p : Position) (site : Site) : Site :=
  { site with line := some p.line, column := site.column.map (p.column + ·) }

/- The place so many characters behind a position on its line. -/
def Position.siteAlong (p : Position) (source : String) (n : Nat) : Site :=
  ⟨some source, some p.line, some (p.column + n)⟩

theorem Position.relocate_siteAlong (p q : Position) (origin : q.column = 0) (source : String)
    (n : Nat) : p.relocate (q.siteAlong source n) = p.siteAlong source n := by
  simp [relocate, siteAlong, origin]

/- The number of characters of pieces. -/
def Piece.width (pieces : List Piece) : Nat := (pieces.flatMap Piece.text).length

/- The first literal out of range, between pieces in range and the rest. -/
structure FirstOutside (text : List Char) (pieces : List Piece) (l : Literal) (rest : List Char) :
    Prop where
  division : Division text pieces (l.text ++ rest)
  inRange : ∀ p ∈ pieces, p.InRange
  lexeme : l.IsLexeme
  ends : l.EndsBefore rest
  outside : ¬ l.InRange

/- The first character that begins no piece, behind pieces in range. -/
structure FirstStray (text : List Char) (pieces : List Piece) (char : Char) (rest : List Char) :
    Prop where
  division : Division text pieces (char :: rest)
  inRange : ∀ p ∈ pieces, p.InRange
  notBlank : Cursor.isBlank char = false
  notSymbol : Kind.ofSymbol? char = none
  notDigit : char.isDigit = false

/-- What comes of a text that starts at a position, and how many characters are passed: all of
    them, those in front of a stray character, or those up to the end of a literal out of range. -/
inductive Yields (source : String) (p : Position) (text : List Char) :
    Except Failure (List Token) → Nat → Prop where
  | full {pieces : List Piece} {ts : List Token} (division : Division text pieces [])
      (reads : ReadAs pieces ts) : Yields source p text (.ok ts) text.length
  | stray {pieces : List Piece} {char : Char} {rest : List Char}
      (first : FirstStray text pieces char rest) :
      Yields source p text (.error (.line (.unexpectedCharacter (some (String.singleton char))
        (p.siteAlong source (Piece.width pieces))))) (Piece.width pieces)
  | invalid {pieces : List Piece} {l : Literal} {rest : List Char}
      (first : FirstOutside text pieces l rest) (short : ¬ l.Overlong) :
      Yields source p text (.error (.line (.invalidLiteral (some (String.ofList l.text))
        (p.siteAlong source (Piece.width pieces))))) (Piece.width pieces + l.length)
  | overlong {pieces : List Piece} {l : Literal} {rest : List Char}
      (first : FirstOutside text pieces l rest) (overlong : l.Overlong) :
      Yields source p text (.error (.fault (.digitLimit l.whole.length)))
        (Piece.width pieces + l.length)

variable {source : String} {p : Position} {text rest : List Char} {pieces : List Piece}
  {outcome : Except Failure (List Token)} {n : Nat}

theorem yields_exists (source : String) (p : Position) (text : List Char) :
    ∃ outcome n, Yields source p text outcome n := by
  obtain ⟨pieces, rest, division, inRange, blocked⟩ := division_exists text
  cases blocked with
  | atEnd =>
    obtain ⟨ts, reads⟩ := readAs_iff_inRange.mpr inRange
    exact ⟨_, _, .full division reads⟩
  | character notBlank notSymbol notDigit =>
    exact ⟨_, _, .stray ⟨division, inRange, notBlank, notSymbol, notDigit⟩⟩
  | @literal l rest lexeme ends outside =>
    have first : FirstOutside text pieces l rest := ⟨division, inRange, lexeme, ends, outside⟩
    by_cases overlong : l.Overlong
    · exact ⟨_, _, .overlong first overlong⟩
    · exact ⟨_, _, .invalid first overlong⟩

theorem length_of_division (division : Division text pieces rest) :
    text.length = Piece.width pieces + rest.length := by
  rw [← division_text division, List.length_append, Piece.width]

theorem take_of_division (division : Division text pieces rest) :
    text.take (Piece.width pieces) = pieces.flatMap Piece.text := by
  rw [← division_text division, Piece.width, List.take_left]

theorem take_of_firstOutside {l : Literal} (first : FirstOutside text pieces l rest) :
    text.take (Piece.width pieces + l.length) = pieces.flatMap Piece.text ++ l.text := by
  rw [← division_text first.division, Piece.width, Literal.length, ← List.length_append,
    ← List.append_assoc, List.take_left]

theorem yields_le_length (yields : Yields source p text outcome n) : n ≤ text.length := by
  cases yields with
  | full division reads => exact Nat.le_refl _
  | stray first =>
    rw [length_of_division first.division]
    omega
  | invalid first _ | overlong first _ =>
    rw [length_of_division first.division, List.length_append, Literal.length]
    omega

/- Positions matter to the places of errors alone. -/
theorem yields_relocate (yields : Yields source p text outcome n) (q : Position)
    (origin : p.column = 0) :
    Yields source q text (outcome.mapError (Failure.mapSite q.relocate)) n := by
  cases yields with
  | full division reads => exact .full division reads
  | stray first =>
    have moved : Yields source q text _ _ := .stray first
    rwa [← Position.relocate_siteAlong q p origin] at moved
  | invalid first short =>
    have moved : Yields source q text _ _ := .invalid first short
    rwa [← Position.relocate_siteAlong q p origin] at moved
  | overlong first overlong => exact .overlong first overlong

namespace Cursor

theorem rest_pass_of_division {c : Cursor} (division : Division c.rest pieces rest) :
    (c.pass (Piece.width pieces)).rest = rest := by
  have parts := division_text division
  simp [pass, Piece.width, ← parts]

/- Pieces in range are passed. -/
theorem tokens_of_inRange {c : Cursor} (source : String) (division : Division c.rest pieces rest)
    (inRange : ∀ p ∈ pieces, p.InRange) :
    ∃ ts, c.tokens source = prependAll ts ((c.pass (Piece.width pieces)).tokens source) := by
  obtain ⟨ts, reads⟩ := readAs_iff_inRange.mpr inRange
  exact ⟨ts, tokens_of_division source division reads c rfl⟩

theorem tokens_of_firstOutside {c : Cursor} {l : Literal} {failure : Failure} (source : String)
    (first : FirstOutside c.rest pieces l rest)
    (refused : l.token (c.position.siteAlong source (Piece.width pieces)) = .error failure) :
    c.tokens source = (.error failure, c.pass (Piece.width pieces + l.length)) := by
  obtain ⟨ts, passed⟩ := tokens_of_inRange source first.division first.inRange
  have ahead := rest_pass_of_division first.division
  rw [passed, tokens_of_outside source ahead first.lexeme first.ends refused, pass_pass]
  rfl

theorem tokens_of_yields {c : Cursor} (yields : Yields source c.position c.rest outcome n) :
    c.tokens source = (outcome, c.pass n) := by
  cases yields with
  | @full pieces ts division reads =>
    have behind := tokens_of_atEnd source (rest_pass_of_division division)
    have passed := tokens_of_division source division reads c rfl
    rw [← Piece.width, behind, ← Nat.add_zero (Piece.width pieces), ← List.length_nil,
      ← length_of_division division] at passed
    simpa [prependAll, Except.map] using passed
  | stray first =>
    obtain ⟨ts, passed⟩ := tokens_of_inRange source first.division first.inRange
    have ahead := rest_pass_of_division first.division
    rw [passed, tokens_of_other source ahead first.notBlank first.notSymbol first.notDigit]
    rfl
  | invalid first short =>
    exact tokens_of_firstOutside source first
      (Literal.token_of_outside _ first.lexeme first.outside short)
  | overlong first overlong =>
    exact tokens_of_firstOutside source first (Literal.token_of_overlong _ first.lexeme overlong)

theorem tokens_yields (source : String) (c : Cursor) :
    ∃ n, Yields source c.position c.rest (c.tokens source).1 n ∧
      (c.tokens source).2 = c.pass n := by
  obtain ⟨outcome, n, yields⟩ := yields_exists source c.position c.rest
  have tokens := tokens_of_yields yields
  rw [tokens]
  exact ⟨n, yields, rfl⟩

/-- What is yielded from any position is what the rest of the text yields on its own, with the
    errors relocated. -/
theorem tokens_relocated (source : String) (c : Cursor) :
    (c.tokens source).1 = (tokenize source (String.ofList c.rest)).mapError
      (Failure.mapSite c.position.relocate) := by
  obtain ⟨n, yields, _⟩ := tokens_yields source (start (String.ofList c.rest))
  have relocated := yields_relocate yields c.position rfl
  have same : (start (String.ofList c.rest)).rest = c.rest := String.toList_ofList
  rw [same] at relocated
  rw [tokens_of_yields relocated]
  rfl

end Cursor

theorem tokenize_of_yields {text : String} (yields : Yields source .origin text.toList outcome n) :
    tokenize source text = outcome := by
  have cursor : (Cursor.start text).tokens source = (outcome, (Cursor.start text).pass n) :=
    Cursor.tokens_of_yields yields
  rw [tokenize, cursor]

theorem tokenize_yields (source text : String) :
    ∃ n, Yields source .origin text.toList (tokenize source text) n := by
  obtain ⟨n, yields, _⟩ := Cursor.tokens_yields source (Cursor.start text)
  exact ⟨n, yields⟩

/-- Behind pieces in range a text yields what the rest does on its own, with the errors moved on. -/
theorem tokenize_of_division {text : String} {ts : List Token} (source : String)
    (division : Division text.toList pieces rest) (reads : ReadAs pieces ts) :
    tokenize source text = ((tokenize source (String.ofList rest)).mapError
      (Failure.mapSite (Position.origin.along (Piece.width pieces)).relocate)).map (ts ++ ·) := by
  have passed := Cursor.tokens_of_division source division reads (Cursor.start text) rfl
  have ahead : ((Cursor.start text).pass (Piece.width pieces)).rest = rest :=
    Cursor.rest_pass_of_division division
  have relocated := Cursor.tokens_relocated source ((Cursor.start text).pass (Piece.width pieces))
  rw [ahead] at relocated
  rw [tokenize, passed, Cursor.prependAll, ← Piece.width, relocated]
  rfl

end LineCalc
