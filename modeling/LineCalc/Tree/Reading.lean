import LineCalc.Tree.Basic

/-!
Reading a line of tokens as a tree. An expression is one term, or two with a plus or minus
between them; a term is one number, or two with a times or divide between them. There is no rule
for parentheses. Each rule returns the tokens that it leaves, also when it fails.
-/
namespace LineCalc

structure Reading where
  /-- The tokens that are not read yet. -/
  rest : List Token
  /-- How many tokens were read. -/
  index : Nat
  deriving DecidableEq, Repr

namespace Reading

def start (tokens : List Token) : Reading := ⟨tokens, 0⟩

/-- Reads one token. -/
def take (r : Reading) : Except Failure Token × Reading :=
  match r.rest with
  | [] => (.error (.fault .pastLastToken), r)
  | t :: rest => (.ok t, ⟨rest, r.index + 1⟩)

/-- Whether there is a token ahead that satisfies a test. -/
def sees (r : Reading) (test : Token → Bool) : Bool := r.rest.head?.any test

/-- An error about the token ahead. If that has no label, there is no error to report. -/
def complain (r : Reading) (error : Nat → Option String → LineError) : Failure :=
  match r.rest with
  | [] => .line (error r.index none)
  | t :: _ =>
    match t.label with
    | .ok label => .line (error r.index (some label))
    | .error fault => .fault fault

/-- A number token is read even if it holds no value. -/
def factor (r : Reading) : Except Failure Tree × Reading :=
  if r.sees Token.isNumber then
    match r.take with
    | (.error failure, r) => (.error failure, r)
    | (.ok t, r) => ((Tree.ofToken t).mapError .fault, r)
  else (.error (r.complain .expectedNumber), r)

/-- One operand, or two with an operator of one of some kinds between them. -/
def operation (kinds : List Kind) (operand : Reading → Except Failure Tree × Reading)
    (r : Reading) : Except Failure Tree × Reading :=
  match operand r with
  | (.error failure, r) => (.error failure, r)
  | (.ok left, r) =>
    if r.sees fun t => kinds.contains t.kind then
      match r.take with
      | (.error failure, r) => (.error failure, r)
      | (.ok t, r) =>
        match Operator.ofKind t.kind with
        | .error fault => (.error (.fault fault), r)
        | .ok op =>
          match operand r with
          | (.error failure, r) => (.error failure, r)
          | (.ok right, r) => (.ok (.operation op left right), r)
    else (.ok left, r)

def term (r : Reading) : Except Failure Tree × Reading :=
  operation Operator.multiplicative factor r

def expression (r : Reading) : Except Failure Tree × Reading :=
  operation Operator.additive term r

/-- Whether there was never a token to read. -/
def isBlank (r : Reading) : Bool := r.rest.isEmpty && r.index == 0

/-- The tree of the tokens, which a line without tokens does not have. Strict reading refuses
    tokens after the expression, lenient reading leaves them. -/
def parse (strict : Bool) (r : Reading) : Except Failure (Option Tree) × Reading :=
  if r.isBlank then (.ok none, r)
  else
    match r.expression with
    | (.error failure, r) => (.error failure, r)
    | (.ok tree, r) =>
      if strict && !r.rest.isEmpty then (.error (r.complain .unexpectedToken), r)
      else (.ok (some tree), r)

end Reading

def parse (strict : Bool) (tokens : List Token) : Except Failure (Option Tree) :=
  ((Reading.start tokens).parse strict).1

end LineCalc
