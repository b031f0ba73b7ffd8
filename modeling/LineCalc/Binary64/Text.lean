import LineCalc.Binary64.Basic
import LineCalc.Decimal.Integer
import LineCalc.Decimal.Shortest

/-!
The texts of a double. All but `threePlaces` and whole results write the shortest decimal and
differ in its layout only.
-/
namespace LineCalc

/-- The magnitude rounded to so many places, a half to the even neighbour. -/
def Magnitude.toPlaces (places : Nat) (m : Magnitude) : Decimal :=
  ⟨roundHalfEven (m.units * Nat.pow 10 places) unitsPerOne, -(places : Int)⟩

namespace Binary64

/-- A finite double is written by its magnitude after its sign; the others have names. -/
def write (magnitude : Magnitude → List Char) : Binary64 → List Char
  | .nan => ['n', 'a', 'n']
  | .infinite true => ['-', 'i', 'n', 'f']
  | .infinite false => ['i', 'n', 'f']
  | .finite true m => '-' :: magnitude m
  | .finite false m => magnitude m

/-- The text that shows a double. -/
def display (x : Binary64) : String :=
  String.ofList (x.write fun m => Layout.display.write m.shortest)

/-- The text of a table cell. -/
def cell (x : Binary64) : String :=
  String.ofList (x.write fun m => Layout.cell.write m.shortest)

/-- The shortest digits without an exponent. A point and a place follow whole numbers, and also
    the names of numbers that are not finite. -/
def plain (x : Binary64) : String :=
  match x with
  | .finite _ _ => String.ofList (x.write fun m => m.shortest.pointed)
  | _ => String.ofList (x.write fun m => m.shortest.pointed) ++ ".0"

/-- The double rounded to three places, without an exponent. -/
def threePlaces (x : Binary64) : String :=
  String.ofList (x.write fun m => (m.toPlaces 3).plain)

/-- The integer part of a finite double. -/
def truncate? : Binary64 → Option Int
  | .finite true m => some (-((m.units / unitsPerOne : Nat) : Int))
  | .finite false m => some (m.units / unitsPerOne : Nat)
  | _ => none

/-- Whole magnitudes are shown as integers below this one. -/
def wholeLimit : Nat := 1000000000000000000000

/-- The text of a result: whole numbers below the limit as integers, others as they show. -/
def result (x : Binary64) : String :=
  match x.truncate? with
  | some n => if x.isWhole && n.natAbs < wholeLimit then integerText n else x.display
  | none => x.display

end Binary64

end LineCalc
