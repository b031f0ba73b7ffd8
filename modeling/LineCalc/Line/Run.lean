import LineCalc.Line.Outcome
import LineCalc.Line.Transcript
import LineCalc.Text.Lines
import LineCalc.Token.Cursor
import LineCalc.Tree.Reading

/-!
Running lines. Each line is taken apart, read and evaluated by itself; an error of the line
becomes its outcome.
-/
namespace LineCalc

structure Mode where
  /-- Refuses tokens after the expression. -/
  strict : Bool := false
  /-- Prints each stage. -/
  debug : Bool := false
  deriving DecidableEq, Repr

/-- Prints a stage under its name, in debug mode only. -/
def Mode.stage (mode : Mode) (name : String) (text : Except Fault String) : Transcript Unit :=
  if mode.debug then do
    let text ← Transcript.ofExcept text
    Transcript.print (name ++ ": " ++ text ++ "\n")
  else pure ()

namespace Outcome

/-- The outcome of a line with an error. -/
def recover (mode : Mode) (line : Option Int) (text : String) :
    Failure → Transcript Outcome
  | .fault fault => .ofExcept (.error fault)
  | .line error => do
    mode.stage "Error" (.ok (error.title ++ ": " ++ error.message))
    return { line, source := text, error := some error.message }

/-- Runs one line. The source is the name that lexical errors give. -/
def run (mode : Mode) (source : String) (line : Option Int) (text : String) :
    Transcript Outcome := do
  mode.stage "Input" (.ok (Text.quoted text))
  match tokenize source text with
  | .error failure => recover mode line text failure
  | .ok tokens =>
    mode.stage "Tokens" (Token.labels tokens)
    match parse mode.strict tokens with
    | .error failure => recover mode line text failure
    | .ok tree =>
      mode.stage "Tree" ((tree.mapM Tree.label).map orNone)
      let value ← Transcript.ofExcept (tree.mapM Tree.evaluate)
      return { line, source := text, tokens := some tokens, tree, value := value.map .double }

/-- Runs lines that are numbered from `first` on, without the line ends at their ends. -/
def runFrom (mode : Mode) (source : String) (first : Nat) :
    List String → Transcript (List Outcome)
  | [] => return []
  | text :: texts => do
    let outcome ← run mode source (some first) (Text.stripLineEnds text)
    let others ← runFrom mode source (first + 1) texts
    return outcome :: others

/-- Runs lines that are numbered from one. -/
def runAll (mode : Mode) (source : String) (texts : List String) : Transcript (List Outcome) :=
  runFrom mode source 1 texts

end Outcome

end LineCalc
