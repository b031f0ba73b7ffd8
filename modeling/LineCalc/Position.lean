import LineCalc.Decimal.Conversion

/-!
Positions in a text: how many characters were passed, and the line and column reached, all
counted from zero.
-/
namespace LineCalc

structure Position where
  index : Int
  line : Int
  column : Int
  deriving DecidableEq, Repr

namespace Position

def origin : Position := ⟨0, 0, 0⟩

/-- Passing one piece of text. Only a piece that is exactly a line feed starts a line. -/
def advance (p : Position) (piece : List Char) : Position :=
  if piece = ['\n'] then ⟨p.index + 1, p.line + 1, 0⟩
  else ⟨p.index + 1, p.line, p.column + 1⟩

/-- Passing so many characters of one line. -/
def along (p : Position) (n : Nat) : Position := ⟨p.index + n, p.line, p.column + n⟩

def describe (p : Position) (source : String) : Except Fault String := do
  let line ← writeInteger p.line
  let column ← writeInteger p.column
  return "Position(" ++ source ++ ", line=" ++ line ++ ", col=" ++ column ++ ")"

end Position

end LineCalc
