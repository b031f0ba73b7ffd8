import LineCalc.Session.Program

/-!
The program on the console and the files of the machine. What it prints and decides is in
`LineCalc.Program` and the modules that it joins; here its parts meet the outside.
-/
namespace LineCalc

/-- The fault that an error in opening a file stands for. -/
def OpenFault.ofError : IO.Error → OpenFault
  | .noFileOrDirectory .. => .missing
  | .inappropriateType _ code _ =>
    if code = 20 ∨ code = -20 then .notDirectory else .isDirectory
  | .invalidArgument .. => .nameTooLong
  | _ => .missing

def readContent (name : String) : IO (Except OpenFault (List UInt8)) := do
  if name.toList.contains '\x00' then return .error .embeddedNul
  try
    return .ok (← IO.FS.readBinFile name).toList
  catch error => return .error (OpenFault.ofError error)

def writeContent (name text : String) : IO (Option OpenFault) := do
  try
    IO.FS.writeFile name text
    return none
  catch error => return some (OpenFault.ofError error)

/-- The home directories of the machine. Without a table of accounts there are no others than the
    program's own. -/
def knownHomes : IO Homes := do
  let own := match ← IO.getEnv "HOME" with
    | some home => [("", home)]
    | none => []
  try
    return own ++ Homes.ofTable (← IO.FS.readFile "/etc/passwd")
  catch _ => return own

/-- The bytes of the input up to and with the next line feed. -/
partial def readThroughLineFeed (input : IO.FS.Stream) (line : Array UInt8) :
    IO (Array UInt8) := do
  let bytes ← input.read 1
  match bytes.toList with
  | [] => return line
  | byte :: _ =>
    let line := line.push byte
    if byte = 10 then return line else readThroughLineFeed input line

/-- Answers lines as they come. A carriage return may divide what came into several. -/
partial def interact (mode : Mode) (first : Nat) : IO UInt32 := do
  let input ← IO.getStdin
  let output ← IO.getStdout
  output.putStr Console.prompt
  output.flush
  let bytes ← readThroughLineFeed input #[]
  match Text.lines (Text.Utf8.decode bytes.toList) with
  | [] =>
    output.putStr "\n"
    return 0
  | text :: texts =>
    let mut number := first
    let mut following := false
    for text in text :: texts do
      if following then output.putStr Console.prompt
      let answer := Console.answer mode number text
      output.putStr answer.printed
      match answer.outcome with
      | .ok _ => number := number + 1
      | .error fault =>
        (← IO.getStderr).putStrLn fault.message
        return 1
      following := true
    interact mode number

def finish (ending : Ending) : IO UInt32 := do
  IO.print ending.printed
  return ending.status.toUInt32

def start (arguments : List String) : IO UInt32 := do
  match Invocation.ofTexts arguments with
  | .help =>
    IO.print Program.helpText
    return 0
  | .refused complaint =>
    IO.eprint (Program.refusal complaint)
    return 2
  | .run mode none => interact mode 1
  | .run mode (some filename) =>
    match FileRun.plan mode filename (← readContent filename) with
    | .finished ending => finish ending
    | .saving printed table =>
      let homes ← knownHomes
      let failure ← writeContent (FileRun.target homes filename) table
      finish (FileRun.saved homes filename printed failure)

end LineCalc

def main (arguments : List String) : IO UInt32 := LineCalc.start arguments
