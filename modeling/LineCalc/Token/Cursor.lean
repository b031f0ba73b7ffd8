import LineCalc.Position
import LineCalc.Token.Number

/-!
A cursor moves over a text from its start and splits what is ahead into tokens. Each move
returns where the cursor is left, also when it fails.
-/
namespace LineCalc

structure Cursor where
  /-- The text from the cursor on. -/
  rest : List Char
  position : Position
  deriving DecidableEq, Repr

namespace Cursor

def start (text : String) : Cursor := ⟨text.toList, .origin⟩

/-- The character under the cursor; behind the text there are blanks. -/
def current (c : Cursor) : Char := c.rest.headD ' '

def atEnd (c : Cursor) : Bool := c.rest.isEmpty

/-- Passes one character, or one blank behind the text. -/
def advance (c : Cursor) : Cursor := ⟨c.rest.tail, c.position.advance [c.current]⟩

/-- Passes one character and tells whether the text goes on there. -/
def advanceWithin (c : Cursor) : Bool × Cursor := (!c.advance.atEnd, c.advance)

/-- Passes a literal. -/
def skip (c : Cursor) (l : Literal) : Cursor :=
  ⟨c.rest.drop l.length, c.position.along l.length⟩

def site (c : Cursor) (source : String) : Site :=
  ⟨some source, some c.position.line, some c.position.column⟩

/-- Passes the literal ahead and reads it; it is passed even if it cannot be read. -/
def number (source : String) (c : Cursor) : Except Failure Token × Cursor :=
  let literal := Literal.scan c.rest
  (literal.token (c.site source), c.skip literal)

def isBlank (char : Char) : Bool := char == ' ' || char == '\t'

theorem length_advance_lt {c : Cursor} {char : Char} {rest : List Char}
    (ahead : c.rest = char :: rest) : c.advance.rest.length < c.rest.length := by
  simp [advance, ahead]

theorem length_number_lt {c : Cursor} {char : Char} {rest : List Char} (source : String)
    (ahead : c.rest = char :: rest) (digit : char.isDigit) :
    (c.number source).2.rest.length < c.rest.length := by
  have positive : 0 < (Literal.scan (char :: rest)).length := by
    unfold Literal.length Literal.text Literal.scan
    simp only [List.takeWhile_cons, digit]
    split <;> simp
  simp only [number, skip, ahead, List.length_drop, List.length_cons]
  omega

/-- Puts a token in front of those that follow. -/
def prepend (t : Token) (following : Except Failure (List Token) × Cursor) :
    Except Failure (List Token) × Cursor :=
  (following.1.map (t :: ·), following.2)

/-- All tokens ahead. The cursor stops at a character that belongs to no token, and behind a
    literal that cannot be read. -/
def tokens (source : String) (c : Cursor) : Except Failure (List Token) × Cursor :=
  match _ahead : c.rest with
  | [] => (.ok [], c)
  | char :: _ =>
    if isBlank char then tokens source c.advance
    else match Kind.ofSymbol? char with
      | some kind => prepend ⟨kind, none⟩ (tokens source c.advance)
      | none =>
        if _digit : char.isDigit then
          match (c.number source).1 with
          | .ok t => prepend t (tokens source (c.number source).2)
          | .error failure => (.error failure, (c.number source).2)
        else
          (.error (.line (.unexpectedCharacter (some (String.singleton char)) (c.site source))), c)
termination_by c.rest.length
decreasing_by
  · exact length_advance_lt _ahead
  · exact length_advance_lt _ahead
  · exact length_number_lt source _ahead _digit

theorem tokens_of_atEnd {c : Cursor} (source : String) (ahead : c.rest = []) :
    c.tokens source = (.ok [], c) := by
  rw [tokens]
  split <;> simp_all

theorem tokens_of_blank {c : Cursor} {char : Char} {rest : List Char} (source : String)
    (ahead : c.rest = char :: rest) (blank : isBlank char) :
    c.tokens source = c.advance.tokens source := by
  rw [tokens]
  split <;> simp_all

theorem isBlank_of_symbol {char : Char} {kind : Kind} (symbol : Kind.ofSymbol? char = some kind) :
    isBlank char = false := by
  rw [Kind.ofSymbol?_eq_some_iff] at symbol
  cases kind <;> simp [Kind.symbol?] at symbol <;> subst symbol <;> rfl

theorem tokens_of_symbol {c : Cursor} {char : Char} {rest : List Char} {kind : Kind}
    (source : String) (ahead : c.rest = char :: rest)
    (symbol : Kind.ofSymbol? char = some kind) :
    c.tokens source = prepend ⟨kind, none⟩ (c.advance.tokens source) := by
  have notBlank := isBlank_of_symbol symbol
  rw [tokens]
  split <;> simp_all

theorem isBlank_of_digit {char : Char} (digit : char.isDigit) : isBlank char = false := by
  simp only [isBlank, Bool.or_eq_false_iff, beq_eq_false_iff_ne]
  constructor <;> rintro rfl <;> simp at digit

theorem ofSymbol?_of_digit {char : Char} (digit : char.isDigit) : Kind.ofSymbol? char = none := by
  unfold Kind.ofSymbol?
  split <;> simp_all

theorem tokens_of_digit {c : Cursor} {char : Char} {rest : List Char} (source : String)
    (ahead : c.rest = char :: rest) (digit : char.isDigit) :
    c.tokens source =
      match (c.number source).1 with
      | .ok t => prepend t ((c.number source).2.tokens source)
      | .error failure => (.error failure, (c.number source).2) := by
  have notBlank := isBlank_of_digit digit
  have notSymbol := ofSymbol?_of_digit digit
  rw [tokens]
  split <;> simp_all

theorem tokens_of_other {c : Cursor} {char : Char} {rest : List Char} (source : String)
    (ahead : c.rest = char :: rest) (notBlank : isBlank char = false)
    (notSymbol : Kind.ofSymbol? char = none) (notDigit : char.isDigit = false) :
    c.tokens source = (.error (.line
      (.unexpectedCharacter (some (String.singleton char)) (c.site source))), c) := by
  rw [tokens]
  split <;> simp_all

end Cursor

/-- The tokens of a text; the source is the name that errors give. -/
def tokenize (source text : String) : Except Failure (List Token) :=
  ((Cursor.start text).tokens source).1

end LineCalc
