import LineCalc.Decimal.Basic

/-!
Literals of digits with at most one point, and how much of a text belongs to one.
-/
namespace LineCalc

structure Literal where
  whole : List Char
  /-- The digits after the point, if there is a point. -/
  fraction : Option (List Char)
  deriving DecidableEq, Repr

namespace Literal

/-- The longest literal that a text starts with; it may be empty. -/
def scan (text : List Char) : Literal :=
  ⟨text.takeWhile Char.isDigit,
    match text.dropWhile Char.isDigit with
    | '.' :: rest => some (rest.takeWhile Char.isDigit)
    | _ => none⟩

/-- The characters of the literal. -/
def text (l : Literal) : List Char :=
  match l.fraction with
  | none => l.whole
  | some fraction => l.whole ++ '.' :: fraction

def length (l : Literal) : Nat := l.text.length

/-- The digits on both sides of the point. -/
def digits (l : Literal) : List Char := l.whole ++ l.fraction.getD []

/-- The exact value, which is zero without any digit. -/
def decimal (l : Literal) : Decimal :=
  ⟨Nat.ofDigitChars 10 l.digits 0, -((l.fraction.getD []).length : Int)⟩

/-- The digits of the whole part from the first that is not zero. -/
def significant (l : Literal) : List Char := l.whole.dropWhile (· == '0')

theorem text_scan_isPrefix (text : List Char) : (scan text).text <+: text := by
  have parts := List.takeWhile_append_dropWhile (p := Char.isDigit) (l := text)
  unfold Literal.text scan
  split
  case h_1 absent => exact ⟨_, parts⟩
  case h_2 fraction present =>
    simp only at present
    split at present
    case h_1 rest point =>
      rw [point] at parts
      obtain rfl : rest.takeWhile Char.isDigit = fraction := Option.some.inj present
      exact ⟨rest.dropWhile Char.isDigit, by simp [parts]⟩
    case h_2 => cases present

/-- Scanning loses nothing. -/
theorem text_scan_append_drop (text : List Char) :
    (scan text).text ++ text.drop (scan text).length = text :=
  List.prefix_iff_eq_append.mp (text_scan_isPrefix text)

theorem isDigit_of_mem_digits_scan {text : List Char} {c : Char}
    (member : c ∈ (scan text).digits) : c.isDigit := by
  have digits (t : List Char) : ∀ d ∈ t.takeWhile Char.isDigit, d.isDigit :=
    List.all_eq_true.mp List.all_takeWhile
  rcases List.mem_append.mp member with whole | fraction
  · exact digits text c whole
  · simp only [scan] at fraction
    split at fraction
    · exact digits _ c fraction
    · cases fraction

end Literal

end LineCalc
