import LineCalc.Tree.Basic

/-!
What is recorded of one line: its number and text, and either what the line was read as and its
value, or the message of its error.
-/
namespace LineCalc

structure Outcome where
  line : Option Int
  source : String
  tokens : Option (List Token) := none
  tree : Option Tree := none
  value : Option Numeral := none
  error : Option String := none
  deriving DecidableEq, Repr

namespace Outcome

def isOk (o : Outcome) : Bool := o.error.isNone

def describe (o : Outcome) : String :=
  "LineResult(line=" ++ orNone (o.line.map integerText) ++
    match o.error with
    | some message => ", error=" ++ Text.quoted message ++ ")"
    | none => ", value=" ++ orNone (o.value.map Numeral.display) ++ ")"

def tokenLabels (o : Outcome) : Except Fault (Option String) := o.tokens.mapM Token.labels

def treeLabel (o : Outcome) : Except Fault (Option String) := o.tree.mapM Tree.label

/-- The lines shown for the outcome: the error, or the tree, the tokens and the value. Nothing is
    shown for a line without tokens. -/
def block (o : Outcome) : Except Fault String :=
  match o.error, o.tree with
  | some message, _ => .ok ("Error: " ++ message ++ "\n")
  | none, none => .ok ""
  | none, some tree => do
    let tree ← tree.label
    let tokens ← o.tokenLabels
    return tree ++ "\n" ++ orNone tokens ++ "\n" ++ orNone (o.value.map Numeral.result) ++ "\n"

end Outcome

end LineCalc
