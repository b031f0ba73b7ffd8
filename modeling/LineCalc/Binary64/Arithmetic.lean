import LineCalc.Binary64.Basic

/-!
Binary64 arithmetic: each operation is the exact result, rounded once. `div` is division as
the format defines it for all operands; `divide` is the rule of the calculator, which treats a
zero divisor apart.
-/
namespace LineCalc.Binary64

def neg : Binary64 → Binary64
  | .nan => .nan
  | .infinite s => .infinite !s
  | .finite s m => .finite (!s) m

/-- An exact sum of zero is negative only when both terms are. -/
def add : Binary64 → Binary64 → Binary64
  | .nan, _ | _, .nan => .nan
  | .infinite s, .infinite t => if s = t then .infinite s else .nan
  | .infinite s, .finite _ _ => .infinite s
  | .finite _ _, .infinite t => .infinite t
  | .finite s m, .finite t n =>
    let total := signedUnits s m + signedUnits t n
    if total = 0 then .finite (s && t) .zero
    else round (decide (total < 0)) total.natAbs 1

def sub (x y : Binary64) : Binary64 := x.add y.neg

def mul : Binary64 → Binary64 → Binary64
  | .nan, _ | _, .nan => .nan
  | .infinite s, .infinite t => .infinite (s ^^ t)
  | .infinite s, .finite t n => if n.isZero then .nan else .infinite (s ^^ t)
  | .finite s m, .infinite t => if m.isZero then .nan else .infinite (s ^^ t)
  | .finite s m, .finite t n => round (s ^^ t) (m.units * n.units) unitsPerOne

/-- Division of the format, zero and infinite divisors included. -/
def div : Binary64 → Binary64 → Binary64
  | .nan, _ | _, .nan => .nan
  | .infinite _, .infinite _ => .nan
  | .infinite s, .finite t _ => .infinite (s ^^ t)
  | .finite s _, .infinite t => .finite (s ^^ t) .zero
  | .finite s m, .finite t n =>
    if n.isZero then
      if m.isZero then .nan else .infinite (s ^^ t)
    else round (s ^^ t) (m.units * unitsPerOne) n.units

/-- A zero divisor gives not-a-number for zero or not-a-number, and otherwise an infinity
    whose sign combines the signs of both. -/
def divide (x y : Binary64) : Binary64 :=
  if !y.isZero then x.div y
  else if x.isZero || x.isNaN then .nan
  else .infinite (x.isNegative ^^ y.isNegative)

end LineCalc.Binary64
