import LineCalc.Binary64.Magnitude

/-!
Binary64 numbers as data: not-a-number, the two infinities, and signed finite magnitudes.
Identity of doubles is `=`, which tells the zeros apart; `equals` is the numeric comparison.
-/
namespace LineCalc

inductive Binary64 where
  | nan
  | infinite (negative : Bool)
  | finite (negative : Bool) (magnitude : Magnitude)
  deriving DecidableEq, Repr

namespace Binary64

/-- The double of a rounded magnitude with the given sign. Where the rounding has none, it is
    infinite. -/
def ofRounded (negative : Bool) : Option Magnitude → Binary64
  | some m => .finite negative m
  | none => .infinite negative

/-- The double nearest to `a / d` smallest units with the given sign, for a positive `d`;
    past the largest finite double it is infinite. -/
def round (negative : Bool) (a d : Nat) : Binary64 := ofRounded negative (Magnitude.nearest a d)

/-- The double nearest to an integer, unless that is past the largest finite double. -/
def ofInt? (n : Int) : Option Binary64 :=
  (Magnitude.nearest (n.natAbs * unitsPerOne) 1).map (.finite (decide (n < 0)))

def isNaN : Binary64 → Bool
  | .nan => true
  | _ => false

def isZero : Binary64 → Bool
  | .finite _ m => m.isZero
  | _ => false

/-- The sign bit; not-a-number counts as unsigned. -/
def isNegative : Binary64 → Bool
  | .nan => false
  | .infinite negative => negative
  | .finite negative _ => negative

/-- A signed magnitude as a count of smallest units. -/
def signedUnits (negative : Bool) (m : Magnitude) : Int :=
  if negative then -(m.units : Int) else m.units

/-- The exact value of a finite double in smallest units. -/
def units? : Binary64 → Option Int
  | .finite negative m => some (signedUnits negative m)
  | _ => none

/-- Numeric equality: the zeros are equal, and not-a-number equals nothing. -/
def equals : Binary64 → Binary64 → Bool
  | .infinite s, .infinite t => s == t
  | .finite s m, .finite t n => m == n && (s == t || m.isZero)
  | _, _ => false

/-- Whether a double is exactly the integer `n`. -/
def isInt (x : Binary64) (n : Int) : Bool := x.units? == some (n * unitsPerOne)

/-- A finite double without a fractional part. -/
def isWhole : Binary64 → Bool
  | .finite _ m => m.units % unitsPerOne == 0
  | _ => false

end Binary64

end LineCalc
