import LineCalc.Line.Run
import LineCalc.Report.Csv
import LineCalc.Session.Store

/-!
Running all lines of a file. In debug mode the table of outcomes is saved under the name of the
file with another extension.
-/
namespace LineCalc

/-- The status and the printed text with which a run ends. -/
structure Ending where
  status : Nat
  printed : String
  deriving DecidableEq, Repr

namespace FileRun

/-- The file name with `.csv` for its extension. The extension begins at the last point of the
    last name in the path, unless only points are in front of it there. -/
def tableName (filename : String) : String :=
  let reversed := filename.toList.reverse
  let base := reversed.takeWhile (· != '/')
  match base.dropWhile (· != '.') with
  | _ :: stem =>
    if stem.any (· != '.') then
      String.ofList ((stem ++ reversed.drop base.length).reverse) ++ ".csv"
    else filename ++ ".csv"
  | [] => filename ++ ".csv"

def linesOf (content : List UInt8) : List String :=
  (Text.lines (Text.Utf8.decode content)).map String.ofList

def blocks : List Outcome → Except Fault String
  | [] => .ok ""
  | outcome :: outcomes => do
    let first ← outcome.block
    let others ← blocks outcomes
    return first ++ others

/-- Runs all lines, and only then shows their outcomes. In debug mode the text of the table is
    returned. -/
def evaluate (mode : Mode) (filename : String) (content : List UInt8) :
    Transcript (Option String) := do
  let outcomes ← Outcome.runAll mode filename (linesOf content)
  let shown ← Transcript.ofExcept (blocks outcomes)
  Transcript.print shown
  if mode.debug then
    let rows ← Transcript.ofExcept (Outcome.table outcomes)
    return some (Row.csvTable rows)
  else return none

/-- What is left to do once the lines have run. -/
inductive Plan where
  | finished (ending : Ending)
  | saving (printed table : String)
  deriving DecidableEq, Repr

def failed (printed message : String) : Ending := ⟨1, printed ++ "Error: " ++ message ++ "\n"⟩

def plan (mode : Mode) (filename : String) (content : Except OpenFault (List UInt8)) : Plan :=
  match content with
  | .error fault => .finished (failed "" (fault.message filename))
  | .ok content =>
    let transcript := evaluate mode filename content
    match transcript.outcome with
    | .error fault => .finished (failed transcript.printed fault.message)
    | .ok none => .finished ⟨0, transcript.printed⟩
    | .ok (some table) => .saving transcript.printed table

/-- Where the table is saved, which is not beside the file if the name begins with a home
    directory. -/
def target (homes : Homes) (filename : String) : String := homes.expand (tableName filename)

/-- The ending after the table was saved, or was not. If there is no directory for it, the message
    is that of a missing file. -/
def saved (homes : Homes) (filename printed : String) (failure : Option OpenFault) : Ending :=
  match failure with
  | none => ⟨0, printed ++ "\nResults saved to: " ++ tableName filename ++ "\n"⟩
  | some .missing => failed printed (OpenFault.missing.message filename)
  | some fault => failed printed (fault.savingMessage (target homes filename))

def run (mode : Mode) (filename : String) (store : Store) : Ending × Store :=
  match plan mode filename (store.readFile filename) with
  | .finished ending => (ending, store)
  | .saving printed table =>
    match store.writeFile (target store.homes filename) (Text.Utf8.encode table) with
    | .ok after => (saved store.homes filename printed none, after)
    | .error fault => (saved store.homes filename printed (some fault), store)

end FileRun

end LineCalc
