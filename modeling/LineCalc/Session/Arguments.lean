import LineCalc.Line.Run
import LineCalc.Text.DecimalDigit

/-!
The command line: flags in any place and at most one file name. Each argument is first taken by
itself, which can fail, and then all are gone through in order.
-/
namespace LineCalc

inductive Flag where
  | help
  | strict
  | debug
  deriving DecidableEq, Repr

namespace Flag

def all : List Flag := [help, strict, debug]

/-- The flag in full. -/
def long : Flag → String
  | help => "--help"
  | strict => "--strict"
  | debug => "--debug"

/-- All spellings of the flag, as messages name it. -/
def name : Flag → String
  | help => "-h/--help"
  | strict => "--strict"
  | debug => "--debug"

end Flag

inductive Argument where
  /-- Something that may be the file name. -/
  | operand (text : String)
  /-- The first `--`, behind which there are only operands. -/
  | mark
  | flag (flag : Flag)
  /-- A flag with a value, which no flag takes. -/
  | valued (flag : Flag) (value : String)
  /-- Something like a flag that is none. -/
  | unknown (text : String)
  deriving DecidableEq, Repr

namespace Argument

/-- A minus sign, digits of any script, and perhaps a point in front of the last of them. -/
def isNegativeNumber (text : List Char) : Bool :=
  match text with
  | '-' :: body =>
    let body := if body.getLast? = some '\n' then body.dropLast else body
    match body.dropWhile Text.isDecimalDigit with
    | [] => !body.isEmpty
    | '.' :: places => !places.isEmpty && places.all Text.isDecimalDigit
    | _ => false
  | _ => false

/-- A word that begins like a flag and is none is an operand if it is a negative number or holds
    a space. -/
def ofOther (text : List Char) : Argument :=
  if isNegativeNumber text || text.contains ' ' then .operand (String.ofList text)
  else .unknown (String.ofList text)

/-- What follows a short help flag in the same word: the flag again, any number of times, and
    all else is a value. -/
def ofTail : List Char → Argument
  | [] => .flag .help
  | 'h' :: tail => ofTail tail
  | value => .valued .help (String.ofList value)

def ambiguity (text : List Char) (flags : List Flag) : String :=
  "ambiguous option: " ++ String.ofList text ++ " could match " ++
    ", ".intercalate (flags.map Flag.long)

/-- One argument in front of the mark. A long flag may be shortened as long as it is no other,
    and what follows a `=` is its value. Behind a short flag a `=` may be left out or not. -/
def ofText (text : List Char) : Except String Argument :=
  match text with
  | '-' :: '-' :: _ =>
    let name := text.takeWhile (· != '=')
    match Flag.all.filter fun f => name.isPrefixOf f.long.toList with
    | [] => .ok (ofOther text)
    | [only] =>
      match text.drop name.length with
      | [] => .ok (.flag only)
      | _ :: value => .ok (.valued only (String.ofList value))
    | flags => .error (ambiguity text flags)
  | ['-', 'h', '='] => .ok (.valued .help "")
  | '-' :: 'h' :: '=' :: tail | '-' :: 'h' :: tail => .ok (ofTail tail)
  | '-' :: _ :: _ => .ok (ofOther text)
  | _ => .ok (.operand (String.ofList text))

def ofTexts : List String → Except String (List Argument)
  | [] => .ok []
  | text :: texts =>
    if text = "--" then .ok (.mark :: texts.map .operand)
    else do
      let argument ← ofText text.toList
      let arguments ← ofTexts texts
      return argument :: arguments

end Argument

inductive Invocation where
  | help
  /-- A command line that is not understood, and why. -/
  | refused (complaint : String)
  | run (mode : Mode) (filename : Option String)
  deriving DecidableEq, Repr

namespace Invocation

/-- What the arguments so far came to. -/
structure Progress where
  mode : Mode := {}
  filename : Option String := none
  /-- Whether the place for a file name is used up; a mark can do that without a name. -/
  isNamed : Bool := false
  leftover : List String := []
  deriving DecidableEq, Repr

def Progress.finish (p : Progress) : Invocation :=
  if p.leftover = [] then .run p.mode p.filename
  else .refused ("unrecognized arguments: " ++ " ".intercalate p.leftover)

def Progress.leave (p : Progress) (text : String) : Progress :=
  { p with leftover := p.leftover ++ [text] }

def Progress.take (p : Progress) (filename : Option String) : Progress :=
  { p with filename, isNamed := true }

/-- Goes through the arguments. Help and values of flags end it at once; all that has no place
    is left over. The file name takes a mark on either side of it along. -/
def ofArguments (p : Progress) : List Argument → Invocation
  | [] => p.finish
  | .flag .help :: _ => .help
  | .flag .strict :: rest => ofArguments { p with mode.strict := true } rest
  | .flag .debug :: rest => ofArguments { p with mode.debug := true } rest
  | .valued flag value :: _ =>
    .refused ("argument " ++ flag.name ++ ": ignored explicit argument " ++ Text.quoted value)
  | .unknown text :: rest => ofArguments (p.leave text) rest
  | .operand text :: rest =>
    if p.isNamed then ofArguments (p.leave text) rest
    else match rest with
      | .mark :: rest => ofArguments (p.take (some text)) rest
      | rest => ofArguments (p.take (some text)) rest
  | .mark :: rest =>
    if p.isNamed then ofArguments (p.leave "--") rest
    else match rest with
      | .operand text :: rest => ofArguments (p.take (some text)) rest
      | rest => ofArguments (p.take none) rest

def ofTexts (texts : List String) : Invocation :=
  match Argument.ofTexts texts with
  | .ok arguments => ofArguments {} arguments
  | .error complaint => .refused complaint

end Invocation

end LineCalc
