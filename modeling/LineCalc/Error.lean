import LineCalc.Decimal.Integer
import LineCalc.Text.Quoted
import LineCalc.Token.Kind

/-!
What can go wrong. A `LineError` is the fault of a line and becomes part of its outcome; a
`Fault` is a request that has no answer and ends what is under way.
-/
namespace LineCalc

inductive Fault where
  /-- An integer literal has more digits than are ever converted. -/
  | digitLimit (length : Nat)
  /-- An integer has more digits than are ever written. -/
  | unwritable
  | noDigits
  | notAnOperator (kind : Kind)
  | nanToInteger
  | infinityToInteger
  | integerTooLarge
  | quotientTooLarge
  /-- A number is wanted of a token without a value. -/
  | missingValue
  /-- A decimal literal is wanted of a token without a value. -/
  | missingLiteral
  | pastLastToken
  | notEvaluable
  | immutable
  | lineOutOfRange
  deriving DecidableEq, Repr

def Fault.message : Fault → String
  | digitLimit length =>
    "Exceeds the limit (4300 digits) for integer string conversion: value has " ++
      integerText length ++
      " digits; use sys.set_int_max_str_digits() to increase the limit"
  | unwritable =>
    "Exceeds the limit (4300 digits) for integer string conversion; " ++
      "use sys.set_int_max_str_digits() to increase the limit"
  | noDigits => "invalid literal for int() with base 10: ''"
  | notAnOperator kind => "'" ++ kind.name ++ "' is not a valid Operator"
  | nanToInteger => "cannot convert float NaN to integer"
  | infinityToInteger => "cannot convert float infinity to integer"
  | integerTooLarge => "int too large to convert to float"
  | quotientTooLarge => "integer division result too large for a float"
  | missingValue => "float() argument must be a string or a real number, not 'NoneType'"
  | missingLiteral => "[<class 'decimal.ConversionSyntax'>]"
  | pastLastToken => "list index out of range"
  | notEvaluable => ""
  | immutable => "Token is immutable"
  | lineOutOfRange => "Python int too large to convert to C long"

/-- The place that a lexical error names. A part that is not known is absent. -/
structure Site where
  source : Option String
  line : Option Int
  column : Option Int
  deriving DecidableEq, Repr

inductive LineError where
  | unexpectedCharacter (character : Option String) (site : Site)
  | invalidLiteral (literal : Option String) (site : Site)
  /-- Some other lexical error. -/
  | lexical (text : Option String) (site : Site)
  /-- No number at the index of a token, whose label is given, or behind the last token. -/
  | expectedNumber (index : Nat) (found : Option String)
  /-- A token, whose label is given, is left at this index. -/
  | unexpectedToken (index : Nat) (found : Option String)
  /-- Some other error in the order of tokens. -/
  | syntactic (text : Option String) (index : Option Int)
  deriving DecidableEq, Repr

/-- An absent part is written `None`. -/
def orNone (part : Option String) : String := part.getD "None"

def Site.text (site : Site) : String :=
  " in " ++ orNone site.source ++ " at line " ++ orNone (site.line.map integerText) ++
    ", column " ++ orNone (site.column.map integerText)

namespace LineError

/-- Where a token was found, as the end of a message. Tokens are counted from one. -/
def whereFound (index : Nat) : Option String → String
  | some label => " at token " ++ integerText (index + 1) ++ " (" ++ label ++ ")"
  | none => " at end of input"

def message : LineError → String
  | unexpectedCharacter character site =>
    "Unexpected character " ++ orNone (character.map Text.quoted) ++ site.text
  | invalidLiteral literal site =>
    "Invalid number literal " ++ orNone (literal.map Text.quoted) ++ site.text
  | lexical text _ => orNone text
  | expectedNumber index found => "Expected number" ++ whereFound index found
  | unexpectedToken index found => "Unexpected token" ++ whereFound index found
  | syntactic text _ => orNone text

def isLexical : LineError → Bool
  | unexpectedCharacter .. | invalidLiteral .. | lexical .. => true
  | expectedNumber .. | unexpectedToken .. | syntactic .. => false

/-- The name of the class of errors. -/
def title : LineError → String
  | unexpectedCharacter .. => "UnexpectedCharacterError"
  | invalidLiteral .. => "InvalidLiteralError"
  | lexical .. => "LexError"
  | expectedNumber .. | unexpectedToken .. | syntactic .. => "ParseError"

end LineError

/-- The two ways in which reading a line can stop. -/
inductive Failure where
  | line (error : LineError)
  | fault (fault : Fault)
  deriving DecidableEq, Repr

end LineCalc
