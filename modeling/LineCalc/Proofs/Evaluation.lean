import LineCalc.Tree.Basic
import LineCalc.Proofs.Operations

/-!
Values of trees. A tree with an empty place has no value, and that is the only reason. Every other
tree has the value that the operations of the format give, from its numbers up (`evaluate_exact`).
Infinities, not-a-number and both zeros are operands like any others.
-/
namespace LineCalc

namespace Binary64

variable {x y z : Binary64}

theorem Quotient.eq_nan_iff (quotient : Quotient x y z) :
    z = .nan ↔ x = .nan ∨ y = .nan ∨ (x.isZero ∧ y.isZero) ∨ (x.IsInfinite ∧ y.IsInfinite) := by
  cases quotient with
  | nanLeft => simp
  | nanRight => simp
  | infinities s t => simp [IsInfinite]
  | infiniteLeft => simp [isZero, IsInfinite]
  | infiniteRight => simp [isZero, IsInfinite]
  | zeros => simp [isZero, Magnitude.isZero_zero]
  | zeroDivisor s t nonzero =>
    simp [isZero, IsInfinite, Magnitude.isZero_eq_false_iff.mpr nonzero]
  | rounded nonzero rounds =>
    simp [isZero, IsInfinite, Magnitude.isZero_eq_false_iff.mpr nonzero, rounds.ne_nan]

/- The signs of the operands combine, whatever their sizes. -/
theorem Quotient.sign (quotient : Quotient x y z) :
    z = .nan ∨ z.isNegative = (x.isNegative ^^ y.isNegative) := by
  cases quotient with
  | nanLeft => exact .inl rfl
  | nanRight => exact .inl rfl
  | infinities => exact .inl rfl
  | infiniteLeft => exact .inr rfl
  | infiniteRight => exact .inr rfl
  | zeros => exact .inl rfl
  | zeroDivisor => exact .inr rfl
  | rounded nonzero rounds => exact .inr rounds.isNegative_eq

theorem Quotient.isInfinite (quotient : Quotient x y z) (divisor : y.isZero)
    (dividend : x.isZero = false) (number : x ≠ .nan) : z.IsInfinite := by
  cases quotient with
  | nanLeft => exact absurd rfl number
  | nanRight => cases divisor
  | infinities => cases divisor
  | infiniteLeft => exact ⟨_, rfl⟩
  | infiniteRight => cases divisor
  | zeros => exact absurd Magnitude.isZero_zero (Bool.not_eq_true _ ▸ dividend)
  | zeroDivisor => exact ⟨_, rfl⟩
  | rounded nonzero => exact absurd (Magnitude.isZero_iff.mp divisor) nonzero

end Binary64

namespace Tree

/- A place in the tree is empty. -/
inductive HasHole : Tree → Prop where
  | hole (text : String) : HasHole (.hole text)
  | left {op : Operator} {left right : Tree} (inside : HasHole left) :
      HasHole (.operation op left right)
  | right {op : Operator} {left right : Tree} (inside : HasHole right) :
      HasHole (.operation op left right)

/- The value of a tree by the operations of the format. -/
inductive HasValue : Tree → Binary64 → Prop where
  | number (x : Binary64) (kind : Kind) : HasValue (.number x kind) x
  | operation {op : Operator} {left right : Tree} {x y z : Binary64} (first : HasValue left x)
      (second : HasValue right y) (result : op.Gives x y z) :
      HasValue (.operation op left right) z

variable {op : Operator} {left right tree : Tree} {z : Binary64} {fault : Fault}

theorem evaluate_operation_eq_ok_iff :
    (operation op left right).evaluate = .ok z ↔
      ∃ x y, left.evaluate = .ok x ∧ right.evaluate = .ok y ∧ op.apply x y = z := by
  simp only [evaluate]
  cases left.evaluate with
  | error fault => simp [bind, Except.bind]
  | ok x =>
    cases right.evaluate with
    | error fault => simp [bind, Except.bind]
    | ok y => simp [bind, Except.bind, pure, Except.pure]

theorem evaluate_operation_eq_error_iff :
    (operation op left right).evaluate = .error fault ↔
      left.evaluate = .error fault ∨
        (∃ x, left.evaluate = .ok x) ∧ right.evaluate = .error fault := by
  simp only [evaluate]
  cases left.evaluate with
  | error fault' => simp [bind, Except.bind]
  | ok x =>
    cases right.evaluate with
    | error fault' => simp [bind, Except.bind]
    | ok y => simp [bind, Except.bind, pure, Except.pure]

theorem evaluate_eq_ok_iff : tree.evaluate = .ok z ↔ tree.HasValue z := by
  induction tree generalizing z with
  | number x kind =>
    constructor
    · intro value
      obtain rfl : x = z := Except.ok.inj value
      exact .number x kind
    · intro value
      cases value with
      | number => rfl
  | operation op left right ihLeft ihRight =>
    rw [evaluate_operation_eq_ok_iff]
    constructor
    · intro value
      obtain ⟨x, y, first, second, result⟩ := value
      exact .operation (ihLeft.mp first) (ihRight.mp second) (Operator.gives_iff.mpr result)
    · intro value
      cases value with
      | @operation _ _ _ x y _ first second result =>
        exact ⟨x, y, ihLeft.mpr first, ihRight.mpr second, Operator.gives_iff.mp result⟩
  | hole text =>
    constructor
    · intro value
      cases value
    · intro value
      cases value

theorem hasHole_operation_iff :
    (operation op left right).HasHole ↔ left.HasHole ∨ right.HasHole := by
  constructor
  · intro inside
    cases inside with
    | left inside => exact .inl inside
    | right inside => exact .inr inside
  · intro inside
    cases inside with
    | inl inside => exact .left inside
    | inr inside => exact .right inside

/- An empty place ends the evaluation, and nothing else does. -/
theorem evaluate_eq_error_iff :
    tree.evaluate = .error fault ↔ fault = .notEvaluable ∧ tree.HasHole := by
  induction tree generalizing fault with
  | number x kind =>
    constructor
    · intro failed
      cases failed
    · intro failed
      cases failed.2
  | operation op left right ihLeft ihRight =>
    rw [evaluate_operation_eq_error_iff, hasHole_operation_iff, ihLeft, ihRight]
    constructor
    · intro failed
      rcases failed with ⟨same, inside⟩ | ⟨_, same, inside⟩
      · exact ⟨same, .inl inside⟩
      · exact ⟨same, .inr inside⟩
    · intro failed
      obtain ⟨same, inside⟩ := failed
      -- The right operand is evaluated only behind a left one that has a value.
      cases first : left.evaluate with
      | error fault' => exact .inl ⟨same, (ihLeft.mp first).2⟩
      | ok x =>
        have full : ¬ left.HasHole := by
          intro inside
          cases first.symm.trans (ihLeft.mpr ⟨rfl, inside⟩)
        exact .inr ⟨⟨x, rfl⟩, same, inside.resolve_left full⟩
  | hole text =>
    constructor
    · intro failed
      exact ⟨(Except.error.inj failed).symm, .hole text⟩
    · intro failed
      rw [failed.1]
      rfl

theorem exists_value_iff : (∃ z, tree.evaluate = .ok z) ↔ ¬ tree.HasHole := by
  cases evaluated : tree.evaluate with
  | error fault =>
    have inside := (evaluate_eq_error_iff.mp evaluated).2
    simp [inside]
  | ok z =>
    have full : ¬ tree.HasHole := by
      intro inside
      cases evaluated.symm.trans (evaluate_eq_error_iff.mpr ⟨rfl, inside⟩)
    simp [full]

/-- A tree has no value exactly if a place in it is empty, and then for that reason. Any other tree
    has the one value by the operations of the format, among which is division by every double: it
    gives no number only where the format has none, and else the signs combine. -/
theorem evaluate_exact (tree : Tree) :
    (∀ fault, tree.evaluate = .error fault ↔ fault = .notEvaluable ∧ tree.HasHole) ∧
    ((∃ z, tree.evaluate = .ok z) ↔ ¬ tree.HasHole) ∧
    (∀ z, tree.evaluate = .ok z ↔ tree.HasValue z) ∧
    ∀ x y : Binary64, x.Quotient y (x.divide y) ∧
      (x.divide y = .nan ↔
        x = .nan ∨ y = .nan ∨ (x.isZero ∧ y.isZero) ∨ (x.IsInfinite ∧ y.IsInfinite)) ∧
      (x.divide y = .nan ∨ (x.divide y).isNegative = (x.isNegative ^^ y.isNegative)) ∧
      (y.isZero → x.isZero = false → x ≠ .nan → (x.divide y).IsInfinite) := by
  refine ⟨fun fault => evaluate_eq_error_iff, exists_value_iff, fun z => evaluate_eq_ok_iff, ?_⟩
  intro x y
  have quotient : x.Quotient y (x.divide y) := Binary64.quotient_iff.mpr rfl
  exact ⟨quotient, quotient.eq_nan_iff, quotient.sign, quotient.isInfinite⟩

end Tree

end LineCalc
