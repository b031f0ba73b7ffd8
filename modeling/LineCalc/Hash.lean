import LineCalc.Numeral
import LineCalc.Token.Kind

/-!
Hashes. A number is hashed by its remainder at a prime, and fractions have remainders too, so an
integer and a double that are equal have one hash. Integers of any size are hashed exactly: they are
not rounded to doubles first.
-/
namespace LineCalc

/-- The modulus of the hashes of numbers: one less than `2 ^ 61`, which makes doubling a number 61
    times leave its remainder as it was. -/
def hashPrime : Nat := 0x1fffffffffffffff

/-- The hash of a number of either sign with the given remainder of its size. The hash cannot be
    minus one, which stands for failure. -/
def signedHash (negative : Bool) (remainder : Nat) : Int :=
  if negative then
    if remainder = 1 then -2 else -remainder
  else remainder

/-- The remainder of a magnitude. Its power of two counts from one, not from the smallest unit, and a
    power below one is moved up by whole periods. -/
def Magnitude.remainder (m : Magnitude) : Nat :=
  m.significand * Nat.pow 2 (((m.exponent : Int) - smallestPower) % 61).toNat % hashPrime

/-- The hash of a numeral. Not-a-number has none of its own: each of its objects is hashed by its
    address. -/
def Numeral.hash? : Numeral → Option Int
  | integer n => some (signedHash (decide (n < 0)) (n.natAbs % hashPrime))
  | double .nan => none
  | double (.infinite negative) => some (if negative then -314159 else 314159)
  | double (.finite negative m) => some (signedHash negative m.remainder)

/-- The hashes that are not those of numbers: of the kinds, which are drawn anew in each run, and of
    a missing value. `pair` makes one hash of two. -/
structure Hashing where
  kind : Kind → Int
  absent : Int
  pair : Int → Int → Int

/-- A hashing with the kinds in their order. -/
def Hashing.inOrder : Hashing where
  kind kind := Kind.all.idxOf kind
  absent := 0
  pair first second := 31 * first + second

end LineCalc
