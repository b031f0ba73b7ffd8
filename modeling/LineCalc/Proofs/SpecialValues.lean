import LineCalc.Proofs.Evaluation
import LineCalc.Proofs.States

/-!
The special values of lines. Literals are finite and have no sign, so that a term has none either,
and it is no number only as a quotient of zeros. A sign comes from a difference alone, and it comes
exactly if the first term is below the second: what is left of two unequal doubles does not round to
zero (`signed_of_difference`). So the terms say which values a line can have (`special_values`).
-/
namespace LineCalc

namespace Binary64

/- The numeric order. Not-a-number is on neither side of anything. -/
def Below : Binary64 → Binary64 → Prop
  | .infinite true, .infinite false => True
  | .infinite true, .finite _ _ => True
  | .finite _ _, .infinite false => True
  | .finite s m, .finite t n => signedValue s m < signedValue t n
  | _, _ => False

/- Not-a-number, and what has no sign. -/
inductive Unsigned : Binary64 → Prop where
  | nan : Unsigned .nan
  | infinite : Unsigned (.infinite false)
  | finite (m : Magnitude) : Unsigned (.finite false m)

theorem unsigned_iff {x : Binary64} : Unsigned x ↔ x = .nan ∨ x.isNegative = false := by
  constructor
  · intro unsigned
    cases unsigned with
    | nan => exact .inl rfl
    | infinite => exact .inr rfl
    | finite m => exact .inr rfl
  · intro clear
    cases clear with
    | inl number =>
      subst number
      exact .nan
    | inr clear =>
      cases x with
      | nan => exact .nan
      | infinite s =>
        obtain rfl : s = false := clear
        exact .infinite
      | finite s m =>
        obtain rfl : s = false := clear
        exact .finite m

theorem Approximates.unsigned {r : ℚ} {x : Binary64} (approximates : Approximates false r x) :
    Unsigned x :=
  unsigned_iff.mpr (.inr approximates.isNegative_eq)

/- The units of the format leave no room between two unequal magnitudes for a difference that is
   lost. -/
theorem smallest_le_abs_sub {m n : Magnitude} (unequal : m.value - n.value ≠ 0) :
    Magnitude.smallest.value ≤ |m.value - n.value| := by
  have one : (0 : ℚ) < unitsPerOne := by exact_mod_cast Magnitude.unitsPerOne_pos
  have units : m.value - n.value = ((m.units : ℤ) - n.units : ℤ) / (unitsPerOne : ℚ) := by
    unfold Magnitude.value
    push_cast
    ring
  rw [units] at unequal
  have nonzero : (m.units : ℤ) - n.units ≠ 0 := by
    intro none
    exact unequal (by rw [none, Int.cast_zero, zero_div])
  rw [units, Magnitude.value_smallest, abs_div, abs_of_pos one]
  refine (div_le_div_iff_of_pos_right one).mpr ?_
  exact_mod_cast Int.one_le_abs nonzero

theorem abs_sub_lt_threshold (m n : Magnitude) : |m.value - n.value| < overflowThreshold := by
  have first := m.value_lt_threshold
  have second := n.value_lt_threshold
  have nonneg := m.value_nonneg
  have nonneg' := n.value_nonneg
  rw [abs_lt]
  constructor <;> linarith

/-- The difference of finite magnitudes is finite, and it has a sign exactly if the first is below
    the second. Then it is not zero. -/
theorem signed_of_difference {m n : Magnitude} {z : Binary64}
    (difference : Difference (.finite false m) (.finite false n) z) :
    ∃ k, z = .finite (decide (m.value < n.value)) k ∧ (m.value < n.value → k ≠ .zero) := by
  cases difference with
  | zero none =>
    have same : m.value = n.value := sub_eq_zero.mp none
    exact ⟨.zero, by simp [same], fun below => absurd same below.ne⟩
  | rounded rest nonzero rounds =>
    obtain rfl : m.value - n.value = _ := rest
    have sign : decide (m.value - n.value < 0) = decide (m.value < n.value) :=
      decide_eq_decide.mpr sub_neg
    rw [sign] at rounds
    cases rounds with
    | infinite past => exact absurd (abs_sub_lt_threshold m n) (not_lt.mpr past)
    | @finite k rounds =>
      refine ⟨k, rfl, fun _ none => ?_⟩
      have small := (rounds.eq_zero_iff (abs_nonneg _)).mp none
      have least := smallest_le_abs_sub nonzero
      have positive : 0 < Magnitude.smallest.value := by
        have one : (0 : ℚ) < unitsPerOne := by exact_mod_cast Magnitude.unitsPerOne_pos
        rw [Magnitude.value_smallest]
        exact one_div_pos.mpr one
      linarith

/- What the terms say of the value. There is one term, or a second one behind an operator. -/
structure Special (x : Binary64) (second : Option (Operator × Binary64)) (z : Binary64) : Prop where
  zero : z ≠ .finite true .zero
  nan : z = .nan ↔ x = .nan ∨ ∃ op y, second = some (op, y) ∧
    (y = .nan ∨ op = .sub ∧ x.IsInfinite ∧ y.IsInfinite)
  infinite : z = .infinite true ↔ ∃ y, second = some (.sub, y) ∧ y.IsInfinite ∧ x.IsFinite
  negative : z.Below (.finite false .zero) ↔
    ∃ y, second = some (.sub, y) ∧ x ≠ .nan ∧ y ≠ .nan ∧ x.Below y

variable {x y z : Binary64}

theorem Unsigned.not_below (unsigned : Unsigned z) : ¬ z.Below (.finite false .zero) := by
  cases unsigned with
  | nan => exact id
  | infinite => exact id
  | finite m =>
    change ¬ m.value < Magnitude.zero.value
    rw [Magnitude.value_zero]
    exact not_lt.mpr m.value_nonneg

theorem special_of_unsigned {second : Option (Operator × Binary64)} (unsigned : Unsigned z)
    (nan : z = .nan ↔ x = .nan ∨ ∃ op y, second = some (op, y) ∧
      (y = .nan ∨ op = .sub ∧ x.IsInfinite ∧ y.IsInfinite))
    (plain : ∀ y, second ≠ some (.sub, y)) : Special x second z where
  zero := by cases unsigned <;> simp
  nan := nan
  infinite := by
    refine iff_of_false (by cases unsigned <;> simp) ?_
    rintro ⟨y, sub, _⟩
    exact plain y sub
  negative := by
    refine iff_of_false unsigned.not_below ?_
    rintro ⟨y, sub, _⟩
    exact plain y sub

theorem special_of_term (unsigned : Unsigned x) : Special x none x :=
  special_of_unsigned unsigned (by simp) (by simp)

theorem unsigned_of_sum (first : Unsigned x) (second : Unsigned y) (sum : Sum x y z) :
    Unsigned z ∧ (z = .nan ↔ x = .nan ∨ y = .nan) := by
  cases sum with
  | nanLeft => exact ⟨.nan, by simp⟩
  | nanRight => exact ⟨.nan, by simp⟩
  | infinite s => exact ⟨first, by simp⟩
  | opposite s =>
    cases first
    cases second
  | infiniteLeft => exact ⟨first, by simp⟩
  | infiniteRight => exact ⟨second, by simp⟩
  | zero total =>
    cases first
    exact ⟨.finite _, by simp⟩
  | @rounded s t m n r _ total nonzero rounds =>
    cases first
    cases second
    have positive : ¬ r < 0 := by
      rw [← total]
      exact not_lt.mpr (add_nonneg m.value_nonneg n.value_nonneg)
    rw [decide_eq_false positive] at rounds
    exact ⟨rounds.unsigned, by simp [rounds.ne_nan]⟩

theorem unsigned_of_product {m n : Magnitude}
    (product : Product (.finite false m) (.finite false n) z) : Unsigned z ∧ z ≠ .nan := by
  cases product with
  | rounded rounds => exact ⟨rounds.unsigned, rounds.ne_nan⟩

theorem unsigned_of_quotient {m n : Magnitude}
    (quotient : Quotient (.finite false m) (.finite false n) z) :
    Unsigned z ∧ (z = .nan ↔ m.isZero ∧ n.isZero) := by
  refine ⟨unsigned_iff.mpr quotient.sign, ?_⟩
  rw [quotient.eq_nan_iff]
  simp [isZero, IsInfinite]

theorem special_of_sum (first : Unsigned x) (second : Unsigned y) (sum : Sum x y z) :
    Special x (some (.add, y)) z := by
  obtain ⟨unsigned, nan⟩ := unsigned_of_sum first second sum
  exact special_of_unsigned unsigned (by rw [nan]; simp) (by simp)

theorem special_sub (zero : z ≠ .finite true .zero)
    (nan : z = .nan ↔ x = .nan ∨ y = .nan ∨ x.IsInfinite ∧ y.IsInfinite)
    (infinite : z = .infinite true ↔ y.IsInfinite ∧ x.IsFinite)
    (negative : z.Below (.finite false .zero) ↔ x ≠ .nan ∧ y ≠ .nan ∧ x.Below y) :
    Special x (some (.sub, y)) z where
  zero := zero
  nan := by simpa using nan
  infinite := by simpa using infinite
  negative := by simpa using negative

theorem special_of_finite {m n : Magnitude}
    (difference : Difference (.finite false m) (.finite false n) z) :
    Special (.finite false m) (some (.sub, .finite false n)) z := by
  obtain ⟨k, rfl, nonzero⟩ := signed_of_difference difference
  by_cases below : m.value < n.value
  · have positive : 0 < k.value :=
      k.value_nonneg.lt_of_ne' (Magnitude.value_eq_zero_iff.not.mpr (nonzero below))
    rw [decide_eq_true below]
    apply special_sub
    · simp [nonzero below]
    · simp [IsInfinite]
    · simp [IsInfinite]
    · simp [Below, signedValue, Magnitude.value_zero, below, positive]
  · rw [decide_eq_false below]
    apply special_sub
    · simp
    · simp [IsInfinite]
    · simp [IsInfinite]
    · simp [Below, signedValue, Magnitude.value_zero, below, k.value_nonneg]

theorem special_of_difference (first : Unsigned x) (second : Unsigned y)
    (difference : Difference x y z) : Special x (some (.sub, y)) z := by
  obtain rfl : x.sub y = z := difference_iff.mp difference
  -- Only the difference of finite operands is rounded. The others compute.
  cases first with
  | nan =>
    change Special _ _ .nan
    apply special_sub <;> simp [IsFinite, Below]
  | infinite =>
    cases second with
    | nan =>
      change Special _ _ .nan
      apply special_sub <;> simp [IsInfinite, IsFinite, Below]
    | infinite =>
      change Special _ _ .nan
      apply special_sub <;> simp [IsInfinite, IsFinite, Below]
    | finite n =>
      change Special _ _ (.infinite false)
      apply special_sub <;> simp [IsInfinite, IsFinite, Below]
  | finite m =>
    cases second with
    | nan =>
      change Special _ _ .nan
      apply special_sub <;> simp [IsInfinite, IsFinite, Below]
    | infinite =>
      change Special _ _ (.infinite true)
      apply special_sub <;> simp [IsInfinite, IsFinite, Below]
    | finite n => exact special_of_finite difference

end Binary64

namespace Grammar

variable {kinds : List Kind} {ops : List Operator} {Operand : Type}

theorem joins_of_denotes {denotes : Operand → Tree → Prop} {operand : Tree → Prop}
    (among : ∀ op : Operator, op.kind ∈ kinds → op ∈ ops)
    (each : ∀ d tree, denotes d tree → operand tree) (d : Level kinds Operand) (tree : Tree)
    (meaning : Level.Denotes denotes d tree) : Joins ops operand tree := by
  cases meaning with
  | one meaning => exact .one (each _ _ meaning)
  | @two _ _ _ sign op _ _ same first second =>
    exact .two (among op (same ▸ sign)) (each _ _ first) (each _ _ second)

theorem isFactor_of_denotes (d : Factor) (tree : Tree) (meaning : d.Denotes tree) :
    IsFactor tree := by
  cases meaning with
  | number => exact .number d.numeric

theorem isTerm_of_denotes (d : Term) (tree : Tree) (meaning : d.Denotes tree) : IsTerm tree :=
  joins_of_denotes (fun op among => by cases op <;> simp_all [Operator.kind]) isFactor_of_denotes
    d tree meaning

/- What is read has the two levels of the grammar. -/
theorem isExpression_of_denotes (d : Expression) (tree : Tree) (meaning : d.Denotes tree) :
    IsExpression tree :=
  joins_of_denotes (fun op among => by cases op <;> simp_all [Operator.kind]) isTerm_of_denotes
    d tree meaning

end Grammar

theorem exists_magnitude_of_leaf {x : Binary64} {kind : Kind}
    (leaf : (Tree.number x kind).Every InLexerRange) : ∃ m, x = .finite false m := by
  cases leaf with
  | number range => cases range <;> exact ⟨_, rfl⟩

/- A term with its value. It has no sign, and it is a number unless it divides zero by zero. -/
structure TermValue (term : Tree) (x : Binary64) : Prop where
  shape : Grammar.IsTerm term
  value : term.evaluate = .ok x
  unsigned : x = .nan ∨ x.isNegative = false
  nan : x = .nan ↔ ∃ y z kind kind',
    term = .operation .div (.number y kind) (.number z kind') ∧ y.isZero ∧ z.isZero

/- The values of the terms of an expression, with the operator between them. -/
inductive TermValues : Tree → Binary64 → Option (Operator × Binary64) → Prop where
  | one {term : Tree} {x : Binary64} (first : TermValue term x) : TermValues term x none
  | two {op : Operator} {left right : Tree} {x y : Binary64} (among : op ∈ [.add, .sub])
      (first : TermValue left x) (second : TermValue right y) :
      TermValues (.operation op left right) x (some (op, y))

theorem termValue_of_isTerm {term : Tree} (shape : Grammar.IsTerm term)
    (leaves : term.Every InLexerRange) : ∃ x, TermValue term x := by
  cases shape with
  | one factor =>
    cases factor with
    | number numeric =>
      obtain ⟨m, rfl⟩ := exists_magnitude_of_leaf leaves
      exact ⟨_, .one (.number numeric), rfl, .inr rfl, by simp⟩
  | @two op _ _ among first second =>
    have shape : Grammar.IsTerm _ := .two among first second
    cases first with
    | @number x kind numeric =>
      cases second with
      | @number y kind' numeric' =>
        cases leaves with
        | operation left right =>
          obtain ⟨m, rfl⟩ := exists_magnitude_of_leaf left
          obtain ⟨n, rfl⟩ := exists_magnitude_of_leaf right
          have result : op.Gives (.finite false m) (.finite false n) _ := Operator.gives_iff.mpr rfl
          simp only [List.mem_cons, List.not_mem_nil, or_false] at among
          rcases among with rfl | rfl
          · obtain ⟨unsigned, number⟩ := Binary64.unsigned_of_product result
            exact ⟨_, shape, rfl, Binary64.unsigned_iff.mp unsigned, by simp [number]⟩
          · obtain ⟨unsigned, nan⟩ := Binary64.unsigned_of_quotient result
            refine ⟨_, shape, rfl, Binary64.unsigned_iff.mp unsigned, ?_⟩
            rw [nan]
            simp [Binary64.isZero]

theorem special_of_isExpression {tree : Tree} (shape : Grammar.IsExpression tree)
    (leaves : tree.Every InLexerRange) :
    ∃ x second z, TermValues tree x second ∧ tree.evaluate = .ok z ∧ x.Special second z := by
  cases shape with
  | one term =>
    obtain ⟨x, first⟩ := termValue_of_isTerm term leaves
    have unsigned := Binary64.unsigned_iff.mpr first.unsigned
    exact ⟨x, none, x, .one first, first.value, Binary64.special_of_term unsigned⟩
  | @two op _ _ among left right =>
    cases leaves with
    | operation leaves leaves' =>
      obtain ⟨x, first⟩ := termValue_of_isTerm left leaves
      obtain ⟨y, second⟩ := termValue_of_isTerm right leaves'
      have unsigned := Binary64.unsigned_iff.mpr first.unsigned
      have unsigned' := Binary64.unsigned_iff.mpr second.unsigned
      have value := Tree.evaluate_operation_eq_ok_iff.mpr
        ⟨x, y, first.value, second.value, @rfl _ (op.apply x y)⟩
      have result : op.Gives x y (op.apply x y) := Operator.gives_iff.mpr rfl
      refine ⟨x, some (op, y), op.apply x y, .two among first second, value, ?_⟩
      simp only [List.mem_cons, List.not_mem_nil, or_false] at among
      rcases among with rfl | rfl
      · exact Binary64.special_of_sum unsigned unsigned' result
      · exact Binary64.special_of_difference unsigned unsigned' result

namespace Outcome

variable {mode : Mode} {source text : String} {line : Option Int} {o : Outcome} {v : Numeral}

/-- The value of a line by the values of its terms. No term has a sign. -/
theorem special_values (returned : (run mode source line text).outcome = .ok o)
    (present : o.value = some v) :
    ∃ tree x second z, o.tree = some tree ∧ TermValues tree x second ∧
      tree.evaluate = .ok z ∧ v = .double z ∧ x.Special second z := by
  obtain ⟨s, is⟩ := inState_of_outcome returned
  cases is with
  | failed => cases present
  | blank => cases present
  | @evaluated ts tree w _ _ _ _ parsed value leaves _ _ =>
    obtain ⟨d, rest, _, meaning⟩ := derivation_of_parse parsed
    obtain ⟨x, second, z, terms, value', special⟩ :=
      special_of_isExpression (Grammar.isExpression_of_denotes d tree meaning) leaves
    obtain rfl := Except.ok.inj (value.symm.trans value')
    exact ⟨tree, x, second, w, rfl, terms, value, (Option.some.inj present).symm, special⟩

/- A finite term less an infinite one. -/
theorem special_values_of_zero_divisor :
    ∃ o v, (run {} "stdin" (some 1) "1-2/0.0").outcome = .ok o ∧ o.value = some v ∧
      ∃ tree x second z, o.tree = some tree ∧ TermValues tree x second ∧
        tree.evaluate = .ok z ∧ v = .double z ∧ x.Special second z := by
  have returned : (run {} "stdin" (some 1) "1-2/0.0").outcome.isOk := by decide +kernel
  have valued : ((run {} "stdin" (some 1) "1-2/0.0").outcome.toOption.bind value).isSome := by
    decide +kernel
  obtain ⟨o, outcome⟩ := exists_of_isOk returned
  rw [outcome] at valued
  obtain ⟨v, present⟩ := Option.isSome_iff_exists.mp valued
  exact ⟨o, v, outcome, present, special_values outcome present⟩

end Outcome

end LineCalc
