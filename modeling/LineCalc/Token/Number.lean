import LineCalc.Decimal.Literal
import LineCalc.Token.Basic

/-!
Number literals as tokens, within the ranges of the calculator.
-/
namespace LineCalc.Literal

def largestInteger : Nat := 2147483647

/-- As many digits as the largest integer has. -/
def integerWidth : Nat := 10

/-- The token of a literal found at a site. Without a point it is an integer, whose digits are
    counted before they are converted; with one it is the nearest double. -/
def token (l : Literal) (site : Site) : Except Failure Token :=
  let invalid := Failure.line (.invalidLiteral (String.ofList l.text) site)
  match l.fraction with
  | none =>
    if integerWidth < l.significant.length then .error invalid
    else
      match convertDigits l.whole with
      | .error fault => .error (.fault fault)
      | .ok n =>
        if largestInteger < n then .error invalid
        else .ok ⟨.integer, some (.integer n)⟩
  | some _ =>
    if l.digits = [] then .error invalid
    else
      match l.decimal.nearest with
      | some m => .ok ⟨.decimal, some (.double (.finite false m))⟩
      | none => .error invalid

end LineCalc.Literal
