import LineCalc.Operator
import LineCalc.Token.Basic

/-!
Expression trees: numbers under operators. Trees have a value, a label that shows the kinds of
their numbers, a description that shows the values alone, and an equality that ignores kinds.
-/
namespace LineCalc

inductive Tree where
  | number (value : Binary64) (kind : Kind)
  | operation (op : Operator) (left right : Tree)
  /-- A place without an expression, which has no value. What it shows for itself is not laid
      down. -/
  | hole (text : String)
  deriving DecidableEq, Repr

namespace Tree

/-- A number holds its value as a double. -/
def ofNumeral (v : Numeral) (kind : Kind) : Except Fault Tree :=
  v.toDouble.map fun x => .number x kind

def ofToken (t : Token) : Except Fault Tree :=
  match t.value with
  | some v => ofNumeral v t.kind
  | none => .error .missingValue

def evaluate : Tree → Except Fault Binary64
  | number value _ => .ok value
  | operation op left right => do
    let x ← left.evaluate
    let y ← right.evaluate
    return op.apply x y
  | hole _ => .error .notEvaluable

/-- A number of integer kind is shown by its integer part, and any other to three places. -/
def numberLabel (x : Binary64) : Kind → Except Fault String
  | .integer =>
    match x, x.truncate? with
    | _, some n => .ok (Kind.integer.name ++ ":" ++ integerText n)
    | .nan, none => .error .nanToInteger
    | _, none => .error .infinityToInteger
  | kind => .ok (kind.name ++ ":" ++ x.threePlaces)

def label : Tree → Except Fault String
  | number value kind => numberLabel value kind
  | operation op left right => do
    let x ← left.label
    let y ← right.label
    return "(" ++ x ++ "," ++ op.kind.name ++ "," ++ y ++ ")"
  | hole text => .ok text

def describe : Tree → String
  | number value _ => "Number(" ++ value.display ++ ")"
  | operation op left right =>
    "BinaryOp(" ++ left.describe ++ ", " ++ op.name ++ ", " ++ right.describe ++ ")"
  | hole text => text

/-- The same shape and operators over numbers of equal values. Holes equal nothing. -/
def equals : Tree → Tree → Bool
  | number x _, number y _ => x.equals y
  | operation op left right, operation op' left' right' =>
    op == op' && left.equals left' && right.equals right'
  | _, _ => false

end Tree

end LineCalc
