import LineCalc.Proofs.Values
import LineCalc.Token.Basic
import Mathlib.Data.Nat.ModEq

/-!
Equality of tokens. Each numeral but not-a-number stands for an exact number (`Numeral.number?`), and
numerals are equal when they stand for the same one (`Numeral.equals_iff`). That equality goes both
ways and on follows from there alone, however integers and doubles are compared. Equal numerals have
one hash, because doubling can be undone among the remainders (`Magnitude.remainder_of_units`), so a
set takes tokens for each other when they are equal.
-/
namespace LineCalc

/-- What a numeral can stand for. -/
inductive Number where
  | finite (r : ℚ)
  | infinite (negative : Bool)
  deriving DecidableEq

/- Powers of two come around. -/
theorem two_pow_modEq (a : ℕ) : 2 ^ a ≡ 2 ^ (a % 61) [MOD hashPrime] := by
  have period : 2 ^ 61 ≡ 1 [MOD hashPrime] := by decide
  calc
    2 ^ a = (2 ^ 61) ^ (a / 61) * 2 ^ (a % 61) := by rw [← pow_mul, ← pow_add, Nat.div_add_mod]
    _ ≡ 1 ^ (a / 61) * 2 ^ (a % 61) [MOD hashPrime] := (period.pow _).mul_right _
    _ = 2 ^ (a % 61) := by rw [one_pow, one_mul]

/-- The remainder of a whole magnitude is that of the integer. -/
theorem Magnitude.remainder_of_units {m : Magnitude} {size : ℕ} (units : m.units = size * unitsPerOne) :
    m.remainder = size % hashPrime := by
  have coprime : Nat.gcd hashPrime (2 ^ smallestPower) = 1 :=
    Nat.Coprime.pow_right smallestPower (by decide)
  have moved : ((((m.exponent : ℤ) - smallestPower) % 61).toNat + smallestPower) % 61 =
      m.exponent % 61 := by omega
  change _ ≡ size [MOD hashPrime]
  -- Both sides are counted in smallest units, where the power of two is a whole one.
  apply Nat.ModEq.cancel_right_of_coprime coprime
  generalize (((m.exponent : ℤ) - smallestPower) % 61).toNat = power at moved ⊢
  calc
    m.significand * 2 ^ power * 2 ^ smallestPower = m.significand * 2 ^ (power + smallestPower) := by
      rw [mul_assoc, ← pow_add]
    _ ≡ m.significand * 2 ^ (m.exponent % 61) [MOD hashPrime] :=
      moved ▸ (two_pow_modEq _).mul_left _
    _ ≡ m.significand * 2 ^ m.exponent [MOD hashPrime] := (two_pow_modEq _).symm.mul_left _
    _ = size * 2 ^ smallestPower := units

theorem Magnitude.remainder_zero : zero.remainder = 0 := by
  simp [remainder, zero]

theorem signedHash_zero (s t : Bool) : signedHash s 0 = signedHash t 0 := by
  cases s <;> cases t <;> rfl

namespace Numeral

variable {v w : Numeral} {x y : Binary64} {n : ℤ}

/-- The exact number that a numeral stands for, unless it is not-a-number. -/
def number? : Numeral → Option Number
  | integer n => some (.finite n)
  | double .nan => none
  | double (.infinite negative) => some (.infinite negative)
  | double (.finite negative m) => some (.finite (Binary64.signedValue negative m))

theorem number?_eq_none_iff : v.number? = none ↔ v = double .nan := by
  rcases v with n | _ | s | ⟨s, m⟩ <;> simp [number?]

theorem number?_eq_finite_iff {r : ℚ} :
    (double x).number? = some (.finite r) ↔ x.value? = some r := by
  cases x <;> simp [number?, Binary64.value?]

theorem number?_eq_infinite_iff {s : Bool} :
    (double x).number? = some (.infinite s) ↔ x = .infinite s := by
  cases x <;> simp [number?]

theorem isInt_iff : x.isInt n ↔ (double x).number? = some (.finite n) := by
  cases x with
  | nan => simp [Binary64.isInt, Binary64.units?, number?]
  | infinite s => simp [Binary64.isInt, Binary64.units?, number?]
  | finite s m =>
    simp only [Binary64.isInt, Binary64.units?, number?, beq_iff_eq, Option.some.injEq,
      Number.finite.injEq]
    exact Binary64.signedValue_eq_integer_iff.symm

theorem double_equals_iff : x.equals y ↔
    ∃ number, (double x).number? = some number ∧ (double y).number? = some number := by
  rw [Binary64.equals_iff]
  constructor
  · intro same
    rcases same with ⟨r, first, second⟩ | ⟨s, rfl, rfl⟩
    · exact ⟨.finite r, number?_eq_finite_iff.mpr first, number?_eq_finite_iff.mpr second⟩
    · exact ⟨.infinite s, rfl, rfl⟩
  · intro ⟨number, first, second⟩
    cases number with
    | finite r => exact .inl ⟨r, number?_eq_finite_iff.mp first, number?_eq_finite_iff.mp second⟩
    | infinite s =>
      exact .inr ⟨s, number?_eq_infinite_iff.mp first, number?_eq_infinite_iff.mp second⟩

/-- Numerals are equal when they stand for one number. -/
theorem equals_iff : v.equals w ↔ ∃ number, v.number? = some number ∧ w.number? = some number := by
  cases v with
  | integer m =>
    cases w with
    | integer n => simpa [equals, number?] using eq_comm
    | double y =>
      constructor
      · intro same
        exact ⟨.finite m, rfl, isInt_iff.mp same⟩
      · intro ⟨number, first, second⟩
        cases first
        exact isInt_iff.mpr second
  | double x =>
    cases w with
    | integer n =>
      constructor
      · intro same
        exact ⟨.finite n, isInt_iff.mp same, rfl⟩
      · intro ⟨number, first, second⟩
        cases second
        exact isInt_iff.mpr first
    | double y => exact double_equals_iff

/- Two integers that round to one double: it is equal to the one that it is. -/
example :
    let x := double (.finite false ⟨0x10000000000000, 1075, by decide, .inl (by decide), by decide⟩)
    Binary64.ofInt? 9007199254740992 = Binary64.ofInt? 9007199254740993 ∧
      (integer 9007199254740992).equals x ∧ ¬ (integer 9007199254740993).equals x := by
  decide +kernel

theorem equals_self_iff : v.equals v ↔ v ≠ double .nan := by
  rw [equals_iff, ne_eq, ← number?_eq_none_iff, ← ne_eq, Option.ne_none_iff_exists']
  simp

theorem hash?_of_isInt (whole : x.isInt n) : (double x).hash? = (integer n).hash? := by
  cases x with
  | nan => cases whole
  | infinite s => cases whole
  | finite s m =>
    have value : Binary64.signedValue s m = n := by simpa [number?] using isInt_iff.mp whole
    obtain ⟨units, sign⟩ := Binary64.units_of_signedValue value
    simp only [hash?, Magnitude.remainder_of_units units, Option.some.injEq]
    by_cases zero : n = 0
    · subst zero
      exact signedHash_zero _ _
    · have same : s = decide (n < 0) := by
        cases s with
        | false =>
          simp only [Bool.false_eq_true, ↓reduceIte] at sign
          exact (decide_eq_false (by omega)).symm
        | true =>
          simp only [↓reduceIte] at sign
          exact (decide_eq_true (by omega)).symm
      rw [same]

/- Equal numerals have one hash. -/
theorem hash?_of_equals (same : v.equals w) : v.hash? = w.hash? := by
  cases v with
  | integer m =>
    cases w with
    | integer n => rw [eq_of_beq same]
    | double y => exact (hash?_of_isInt same).symm
  | double x =>
    cases w with
    | integer n => exact hash?_of_isInt same
    | double y =>
      rcases Binary64.eq_or_zeros_of_equals same with rfl | ⟨s, t, rfl, rfl⟩
      · rfl
      · simp only [hash?, Magnitude.remainder_zero, signedHash_zero s t]

end Numeral

namespace Token

variable {t u w : Token} {hashing : Hashing}

/- The exact number that the value stands for, if there is one. -/
def number? (t : Token) : Option Number := t.value.bind Numeral.number?

theorem equals_iff : t.equals u ↔ t.kind = u.kind ∧
    (t.value = none ∧ u.value = none ∨
      ∃ number, t.number? = some number ∧ u.number? = some number) := by
  obtain ⟨kind, value⟩ := t
  obtain ⟨kind', value'⟩ := u
  cases value <;> cases value' <;> simp [equals, number?, Numeral.equals_iff]

theorem equals_self_iff : t.equals t ↔ t.value ≠ some (.double .nan) := by
  obtain ⟨kind, value⟩ := t
  cases value with
  | none => simp [equals]
  | some v => simpa [equals] using Numeral.equals_self_iff

theorem equals_symm (same : t.equals u) : u.equals t := by
  rw [equals_iff] at same ⊢
  obtain ⟨kind, ⟨first, second⟩ | ⟨number, first, second⟩⟩ := same
  · exact ⟨kind.symm, .inl ⟨second, first⟩⟩
  · exact ⟨kind.symm, .inr ⟨number, second, first⟩⟩

theorem number?_of_absent (absent : t.value = none) : t.number? = none := by
  simp [number?, absent]

theorem equals_trans (first : t.equals u) (second : u.equals w) : t.equals w := by
  rw [equals_iff] at first second ⊢
  obtain ⟨kind, ⟨left, middle⟩ | ⟨number, left, middle⟩⟩ := first
  · obtain ⟨kind', ⟨-, right⟩ | ⟨number, middle', -⟩⟩ := second
    · exact ⟨kind.trans kind', .inl ⟨left, right⟩⟩
    · rw [number?_of_absent middle] at middle'
      cases middle'
  · obtain ⟨kind', ⟨middle', -⟩ | ⟨number', middle', right⟩⟩ := second
    · rw [number?_of_absent middle'] at middle
      cases middle
    · obtain rfl : number = number' := Option.some.inj (middle.symm.trans middle')
      exact ⟨kind.trans kind', .inr ⟨number, left, right⟩⟩

theorem hash?_of_equals (same : t.equals u) : t.hash? hashing = u.hash? hashing := by
  obtain ⟨kind, value⟩ := t
  obtain ⟨kind', value'⟩ := u
  simp only [equals, Bool.and_eq_true, beq_iff_eq] at same
  obtain ⟨rfl, values⟩ := same
  cases value with
  | none =>
    cases value' with
    | none => rfl
    | some w => cases values
  | some v =>
    cases value' with
    | none => cases values
    | some w => simp only [hash?, Numeral.hash?_of_equals values]

namespace Placed

variable {p q : Placed}

/-- Only equality decides which objects stand for each other, if no object is at two places and none
    holds not-a-number. -/
theorem standsFor_eq_equals (place : p.place = q.place → p.token = q.token)
    (number : p.token.value ≠ some (.double .nan)) :
    p.standsFor hashing q = p.token.equals q.token := by
  rw [Bool.eq_iff_iff]
  simp only [standsFor, Bool.or_eq_true, Bool.and_eq_true, beq_iff_eq]
  constructor
  · intro found
    rcases found with one | ⟨-, same⟩
    · rw [← place one]
      exact equals_self_iff.mpr number
    · exact same
  · intro same
    exact .inr ⟨hash?_of_equals same, same⟩

theorem length_distinct_pair :
    (distinct hashing [p, q]).length = if p.standsFor hashing q then 1 else 2 := by
  simp only [distinct, List.foldl_cons, List.foldl_nil, insertInto, List.any_nil, List.nil_append,
    Bool.false_eq_true, ↓reduceIte, List.any_cons, Bool.or_false]
  split <;> rfl

end Placed

/-- Equality is exact across integers and doubles: tokens of one kind are equal when both lack a
    value or both stand for one exact number. It goes both ways and on, a token without not-a-number
    is equal to itself, and inequality is its negation, also against what is no token. However kinds
    are hashed and wherever the tokens are in memory, equal tokens have one hash and a set counts
    two tokens without not-a-number as one when they are equal. -/
theorem equality_exact (t u : Token) :
    (t.equals u ↔ t.kind = u.kind ∧
      (t.value = none ∧ u.value = none ∨
        ∃ number, t.number? = some number ∧ u.number? = some number)) ∧
    (t.equals u → u.equals t) ∧ (∀ w, t.equals u → u.equals w → t.equals w) ∧
    (t.equals t ↔ t.value ≠ some (.double .nan)) ∧
    t.sameAs (some u) = t.equals u ∧ (∀ other, t.differs other = !t.sameAs other) ∧
    ∀ hashing, (t.equals u → t.hash? hashing = u.hash? hashing) ∧
      (t.value ≠ some (.double .nan) → ∀ place place', (place = place' → t = u) →
          ((Placed.distinct hashing [⟨place, t⟩, ⟨place', u⟩]).length = 1 ↔ t.equals u)) := by
  refine ⟨equals_iff, equals_symm, fun w => equals_trans, equals_self_iff, rfl, ?_, ?_⟩
  · intro other
    cases other <;> rfl
  · intro hashing
    refine ⟨hash?_of_equals, ?_⟩
    intro number place place' apart
    rw [Placed.length_distinct_pair, Placed.standsFor_eq_equals apart number]
    cases t.equals u <;> simp

end Token

end LineCalc
