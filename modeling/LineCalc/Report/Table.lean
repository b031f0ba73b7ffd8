import LineCalc.Line.Outcome

/-!
The table of outcomes: one row per line, one column per part of an outcome.
-/
namespace LineCalc

inductive Cell where
  | null
  | integer (n : Int)
  | text (s : String)
  | number (x : Binary64)
  deriving DecidableEq, Repr

structure Row where
  line : Cell
  source : Cell
  tokens : Cell
  tree : Cell
  value : Cell
  error : Cell
  deriving DecidableEq, Repr

namespace Row

/-- The names of the columns and the types of their cells that are not null. -/
def columns : List (String × String) :=
  [("line", "int64"), ("source", "string"), ("tokens", "string"), ("tree", "string"),
    ("value", "double"), ("error", "string")]

/-- The cells in the order of the columns. -/
def cells (r : Row) : List Cell := [r.line, r.source, r.tokens, r.tree, r.value, r.error]

end Row

namespace Cell

def ofText (text : Option String) : Cell := (text.map Cell.text).getD .null

/-- A line number has to fit 64 bits. -/
def ofLine : Option Int → Except Fault Cell
  | none => .ok .null
  | some n =>
    if -0x8000000000000000 ≤ n ∧ n < 0x8000000000000000 then .ok (.integer n)
    else .error .lineOutOfRange

def ofValue : Option Numeral → Except Fault Cell
  | none => .ok .null
  | some v => v.toDouble.map .number

end Cell

/-- The row of an outcome, with null for the parts that it lacks. -/
def Outcome.row (o : Outcome) : Except Fault Row := do
  let tokens ← o.tokenLabels
  let tree ← o.treeLabel
  let line ← Cell.ofLine o.line
  let value ← Cell.ofValue o.value
  return ⟨line, .text o.source, .ofText tokens, .ofText tree, value, .ofText o.error⟩

def Outcome.table (outcomes : List Outcome) : Except Fault (List Row) :=
  outcomes.mapM Outcome.row

/-- The number of null cells of each column. -/
def Row.nullCounts (rows : List Row) : List (String × Nat) :=
  columns.mapIdx fun i column => (column.1, rows.countP fun row => row.cells[i]? == some .null)

end LineCalc
