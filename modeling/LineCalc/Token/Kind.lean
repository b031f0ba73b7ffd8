/-!
The kinds of tokens, their names, and the symbols of those that are one character.
-/
namespace LineCalc

inductive Kind where
  | integer
  | decimal
  | plus
  | minus
  | times
  | divide
  | leftParen
  | rightParen
  deriving DecidableEq, Repr

namespace Kind

def name : Kind → String
  | integer => "INT"
  | decimal => "FLOAT"
  | plus => "PLUS"
  | minus => "MINUS"
  | times => "MUL"
  | divide => "DIV"
  | leftParen => "LP"
  | rightParen => "RP"

def all : List Kind := [integer, decimal, plus, minus, times, divide, leftParen, rightParen]

def ofName? (name : String) : Option Kind := all.find? fun kind => kind.name == name

def isNumber : Kind → Bool
  | integer | decimal => true
  | _ => false

/-- The character that stands for the kind, unless it is a number. -/
def symbol? : Kind → Option Char
  | integer | decimal => none
  | plus => some '+'
  | minus => some '-'
  | times => some '*'
  | divide => some '/'
  | leftParen => some '('
  | rightParen => some ')'

/-- The kind that a single character stands for. -/
def ofSymbol? : Char → Option Kind
  | '+' => some plus
  | '-' => some minus
  | '*' => some times
  | '/' => some divide
  | '(' => some leftParen
  | ')' => some rightParen
  | _ => none

theorem ofSymbol?_eq_some_iff {c : Char} {kind : Kind} :
    ofSymbol? c = some kind ↔ kind.symbol? = some c := by
  constructor
  · intro read
    unfold ofSymbol? at read
    split at read <;> simp_all [symbol?] <;> subst read <;> rfl
  · intro written
    cases kind <;> simp [symbol?] at written <;> subst written <;> rfl

end Kind

end LineCalc
