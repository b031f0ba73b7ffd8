import LineCalc.Line.Run
import LineCalc.Text.Utf8

/-!
The interactive session: a prompt in front of each line, and its outcome behind it.
-/
namespace LineCalc.Console

def prompt : String := "Basic > "

def source : String := "stdin"

/-- The answer to one line. -/
def answer (mode : Mode) (line : Nat) (text : List Char) : Transcript Unit := do
  let outcome ← Outcome.run mode source (some line) (String.ofList text)
  let shown ← Transcript.ofExcept outcome.block
  Transcript.print shown

/-- Answers lines that are numbered from `first` on; the last prompt meets the end. -/
def session (mode : Mode) (first : Nat) : List (List Char) → Transcript Unit
  | [] => Transcript.print (prompt ++ "\n")
  | text :: texts => do
    Transcript.print prompt
    answer mode first text
    session mode (first + 1) texts

/-- The session on all the bytes of its input, which are cut into lines. Unless told otherwise they
    are cut as those of a file are; input that comes by a pipe may end its lines at line feeds
    alone. -/
def run (mode : Mode) (input : List UInt8) (cut : List Char → List (List Char) := Text.lines) :
    Transcript Unit :=
  session mode 1 (cut (Text.Utf8.decode input))

end LineCalc.Console
