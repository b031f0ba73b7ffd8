import LineCalc.Session.Arguments
import LineCalc.Session.Console
import LineCalc.Session.FileRun

/-!
The whole program on its arguments, its input and a store of files.
-/
namespace LineCalc.Program

def usage : String := "usage: basic [-h] [--strict] [--debug] [filename]\n"

def helpText : String :=
  usage ++ "
Basic arithmetic interpreter

positional arguments:
  filename    File with one expression per line; reads stdin when omitted

options:
  -h, --help  show this help message and exit
  --strict    Reject tokens left after the expression
  --debug     Print each stage and save file results as CSV
"

/-- What a refused command line prints as its error. -/
def refusal (complaint : String) : String := usage ++ "basic: error: " ++ complaint ++ "\n"

/-- What a run leaves: a status, unless a fault ended it, its two outputs, and the files. -/
structure Run where
  status : Except Fault Nat
  stdout : String
  stderr : String
  store : Store

/-- The run on a command line. How the lines of the input are cut matters only to a session. -/
def run (arguments : List String) (input : List UInt8) (store : Store)
    (cut : List Char → List (List Char) := Text.lines) : Run :=
  match Invocation.ofTexts arguments with
  | .help => ⟨.ok 0, helpText, "", store⟩
  | .refused complaint => ⟨.ok 2, "", refusal complaint, store⟩
  | .run mode none =>
    let transcript := Console.run mode input cut
    ⟨transcript.outcome.map fun _ => 0, transcript.printed, "", store⟩
  | .run mode (some filename) =>
    let (ending, store) := FileRun.run mode filename store
    ⟨.ok ending.status, ending.printed, "", store⟩

end LineCalc.Program
