import LineCalc.Hash

/-!
Tokens, their equality and their texts: the label that results and messages show, the
description that shows the parts, and the source text that could stand for the token.
-/
namespace LineCalc

/-- The lexer gives a value to the number kinds only, but any kind may carry or lack one. -/
structure Token where
  kind : Kind
  value : Option Numeral := none
  deriving DecidableEq, Repr

namespace Token

def isNumber (t : Token) : Bool := t.kind.isNumber

/-- The same kind, and either no values or values that are the same number. -/
def equals (t u : Token) : Bool :=
  t.kind == u.kind &&
    match t.value, u.value with
    | none, none => true
    | some v, some w => v.equals w
    | _, _ => false

/-- A token is compared with tokens only. -/
def compare? (t : Token) (other : Option Token) : Option Bool := other.map t.equals

/-- Whether something that may not be a token at all equals the token. Where they do not compare, it
    does not. -/
def sameAs (t : Token) (other : Option Token) : Bool :=
  match t.compare? other with
  | some same => same
  | none => false

def differs (t : Token) (other : Option Token) : Bool :=
  match t.compare? other with
  | some same => !same
  | none => true

/-- The hash of the kind and the value, unless the value is not-a-number. -/
def hash? (hashing : Hashing) (t : Token) : Option Int :=
  match t.value with
  | none => some (hashing.pair (hashing.kind t.kind) hashing.absent)
  | some v => v.hash?.map (hashing.pair (hashing.kind t.kind))

/-- Tokens never change. -/
def assign (_ : Token) (_ : String) : Except Fault Token := .error .immutable

/-- The kind and the value, which a decimal token shows to three places. -/
def label (t : Token) : Except Fault String :=
  match t.value, t.kind with
  | none, kind => .ok kind.name
  | some v, .decimal =>
    v.toDouble.map fun x => Kind.decimal.name ++ ":" ++ x.threePlaces
  | some v, kind => v.write.map fun value => kind.name ++ ":" ++ value

def describe (t : Token) : Except Fault String :=
  match t.value with
  | none => .ok ("Token(" ++ t.kind.name ++ ")")
  | some v => v.write.map fun value => "Token(" ++ t.kind.name ++ ", " ++ value ++ ")"

def source (t : Token) : Except Fault String :=
  match t.kind with
  | .integer => (t.value.mapM Numeral.write).map orNone
  | .decimal =>
    match t.value with
    | some v => v.writePlain
    | none => .error .missingLiteral
  | kind => .ok (String.ofList kind.symbol?.toList)

/-- The labels of a line of tokens, with single spaces between them. -/
def labels (ts : List Token) : Except Fault String :=
  (ts.mapM label).map (" ".intercalate ·)

/-- The source texts of a line of tokens, with single spaces between them. -/
def sources (ts : List Token) : Except Fault String :=
  (ts.mapM source).map (" ".intercalate ·)

def describeAll (ts : List Token) : Except Fault String :=
  (ts.mapM describe).map fun parts => "[" ++ ", ".intercalate parts ++ "]"

/-- Equality of lines of tokens, place by place. -/
def allEqual : List Token → List Token → Bool
  | [], [] => true
  | t :: ts, u :: us => t.equals u && allEqual ts us
  | _, _ => false

/-- A token as an object at some place in memory. Objects can be one token at two places. -/
structure Placed where
  place : Nat
  token : Token

namespace Placed

/-- Whether a set that holds one object takes another for it: it is the same object, or it is equal
    and has the same hash. -/
def standsFor (hashing : Hashing) (p q : Placed) : Bool :=
  p.place == q.place ||
    p.token.hash? hashing == q.token.hash? hashing && p.token.equals q.token

/-- A set with one more object, unless it has a member that stands for it. -/
def insertInto (hashing : Hashing) (members : List Placed) (p : Placed) : List Placed :=
  if members.any (standsFor hashing · p) then members else members ++ [p]

/-- The members of the set of some objects. -/
def distinct (hashing : Hashing) (objects : List Placed) : List Placed :=
  objects.foldl (insertInto hashing) []

end Placed

/-- The number of members of the set of a token and another thing, apart from it in memory. -/
def countTogether (t : Token) (other : Option Token) (hashing : Hashing := .inOrder) : Nat :=
  match other with
  | some u => (Placed.distinct hashing [⟨0, t⟩, ⟨1, u⟩]).length
  | none => 2

end Token

end LineCalc
