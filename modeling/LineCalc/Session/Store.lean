import LineCalc.Session.Homes
import LineCalc.Text.Quoted
import LineCalc.Text.Utf8

/-!
Named files. A store holds directories and files by their paths from the root. A file is found by
walking a path name, from the root if it begins with a slash and else from the directory in which the
program runs. All names of a file are ways to its path, so there are no links, and every file can be
read and written.
-/
namespace LineCalc

inductive OpenFault where
  | missing
  | notDirectory
  | isDirectory
  | nameTooLong
  | embeddedNul
  deriving DecidableEq, Repr

/-- The message of the fault, without its number for the commonest one. -/
def OpenFault.message (name : String) : OpenFault → String
  | missing => "File '" ++ name ++ "' not found"
  | notDirectory => "[Errno 20] Not a directory: " ++ Text.quoted name
  | isDirectory => "[Errno 21] Is a directory: " ++ Text.quoted name
  | nameTooLong => "[Errno 36] File name too long: " ++ Text.quoted name
  | embeddedNul => "embedded null byte"

/-- The message if the file was to be written. -/
def OpenFault.savingMessage (name : String) : OpenFault → String
  | isDirectory => "Expected file path, but " ++ name ++ " is a directory"
  | notDirectory => refused "20" "Not a directory"
  | nameTooLong => refused "36" "File name too long"
  | fault => fault.message name
where
  refused (number reason : String) : String :=
    "[Errno " ++ number ++ "] Failed to open local file '" ++ name ++ "'. Detail: [errno " ++
      number ++ "] " ++ reason

/-- Names downwards from the root. -/
abbrev Path := List String

structure Store where
  /-- The directory in which the program runs. -/
  working : Path := []
  /-- Directories, without all that are above them. -/
  directories : List Path := []
  files : List (Path × List UInt8) := []
  homes : Homes := []
  deriving DecidableEq, Repr

/-- Where a path name leads. A name that nothing has yet is `vacant`. -/
inductive Place where
  | directory (path : Path)
  | file (path : Path)
  | vacant (path : Path)
  deriving DecidableEq, Repr

namespace Store

/-- An empty directory on a system with nothing but its standard directories and accounts. -/
def fresh : Store where
  working := ["tmp", "work"]
  directories := [["bin"], ["dev"], ["etc"], ["home"], ["root"], ["usr", "games"],
    ["usr", "sbin"], ["var", "backups"], ["var", "mail"]]
  homes := Homes.standard

def longestName : Nat := 255

def longestPath : Nat := 4095

def read? (store : Store) (path : Path) : Option (List UInt8) := store.files.lookup path

/-- The directory of the program and those above a directory are directories too. -/
def hasDirectory (store : Store) (path : Path) : Bool :=
  (store.working :: store.directories).any path.isPrefixOf

def place (store : Store) (path : Path) : Place :=
  if store.hasDirectory path then .directory path
  else if (store.read? path).isSome then .file path
  else .vacant path

/-- Where a name leads from a directory. An empty name stays there, as a single point does, and
    nothing is above the root. -/
def follow (path : Path) (name : String) : Path :=
  if name = "" ∨ name = "." then path
  else if name = ".." then path.dropLast
  else path ++ [name]

/-- Follows names one after the other, each from the directory to which those before it lead. -/
def walk (store : Store) (path : Path) : List String → Except OpenFault Place
  | [] => .ok (store.place path)
  | name :: names =>
    match store.place path with
    | .file _ => .error .notDirectory
    | .vacant _ => .error .missing
    | .directory _ =>
      if longestName < name.utf8ByteSize then .error .nameTooLong
      else store.walk (follow path name) names

/-- The names in a path name, which are divided by slashes. -/
def names (path : List Char) : List String :=
  match path with
  | [] => [""]
  | '/' :: rest => "" :: names rest
  | c :: rest =>
    match names rest with
    | [] => [String.singleton c]
    | name :: more => (String.singleton c ++ name) :: more

/-- The directory from which a path name leads for a program in `working`. -/
def start (working : Path) (name : String) : Path :=
  if name.toList.head? = some '/' then [] else working

def find (store : Store) (name : String) : Except OpenFault Place :=
  if name.toList.contains '\x00' then .error .embeddedNul
  else if name = "" then .error .missing
  else if longestPath < name.utf8ByteSize then .error .nameTooLong
  else store.walk (start store.working name) (names name.toList)

/-- The content of an existing file. -/
def readFile (store : Store) (name : String) : Except OpenFault (List UInt8) :=
  match store.find name with
  | .error fault => .error fault
  | .ok (.file path) =>
    match store.read? path with
    | some content => .ok content
    | none => .error .missing
  | .ok (.vacant _) => .error .missing
  | .ok (.directory _) => .error .isDirectory

/-- The store in which a file has a content, and all others are as before. -/
def put (store : Store) (path : Path) (content : List UInt8) : Store :=
  { store with files := (path, content) :: store.files.filter fun file => file.1 != path }

/-- Writes a file anew, in place of one of the same name. -/
def writeFile (store : Store) (name : String) (content : List UInt8) : Except OpenFault Store :=
  match store.find name with
  | .error fault => .error fault
  | .ok (.file path) | .ok (.vacant path) => .ok (store.put path content)
  | .ok (.directory _) => .error .isDirectory

/-- The files in the directory of the program that a later store has and an earlier one lacks or
    holds otherwise, by their names from there. -/
def changes (before after : Store) : List (String × List UInt8) :=
  let changed := after.files.filter fun file =>
    before.working.isPrefixOf file.1 && before.read? file.1 != some file.2
  let named := changed.map fun file =>
    ("/".intercalate (file.1.drop before.working.length), file.2)
  named.mergeSort fun a b => a.1 ≤ b.1

/-- Adds a directory and those on the way to it. -/
def addDirectory (store : Store) (name : String) : Store :=
  { store with
    directories := store.directories ++ (names name.toList).scanl follow (start store.working name) }

end Store

end LineCalc
