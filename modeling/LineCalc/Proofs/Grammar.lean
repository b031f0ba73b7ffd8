import LineCalc.Proofs.WellFormed
import LineCalc.Tree.Basic

/-!
The grammar of lines: an expression is one term or two around a plus or minus, a term is one number
or two around a times or divide. Derivations are data, and both levels are one definition. Tokens
have one derivation at most (`yield_injective`), and the tokens of a tree of two levels, in order,
have one that denotes the tree (`expression_of_inOrder`).
-/
namespace LineCalc

/- Finite doubles under operators, with no place empty. -/
inductive Tree.Finite : Tree → Prop where
  | number (negative : Bool) (m : Magnitude) (kind : Kind) :
      Finite (.number (.finite negative m) kind)
  | operation {op : Operator} {left right : Tree} (first : Finite left) (second : Finite right) :
      Finite (.operation op left right)

namespace Tree

theorem label_of_finite {tree : Tree} (finite : tree.Finite) : ∃ text, tree.label = .ok text := by
  induction finite with
  | number negative m kind =>
    cases kind with
    | integer => cases negative <;> exact ⟨_, rfl⟩
    | _ => exact ⟨_, rfl⟩
  | operation first second ihFirst ihSecond =>
    obtain ⟨left, shown⟩ := ihFirst
    obtain ⟨right, shown'⟩ := ihSecond
    exact ⟨_, by simp only [label, shown, shown']; rfl⟩

theorem evaluate_of_finite {tree : Tree} (finite : tree.Finite) :
    ∃ x, tree.evaluate = .ok x := by
  induction finite with
  | number negative m kind => exact ⟨_, rfl⟩
  | @operation op left right first second ihFirst ihSecond =>
    obtain ⟨x, value⟩ := ihFirst
    obtain ⟨y, value'⟩ := ihSecond
    exact ⟨op.apply x y, by simp only [evaluate, value, value']; rfl⟩

end Tree

namespace Grammar

/-- One operand, or two around a token of one of some kinds. -/
inductive Level (kinds : List Kind) (Operand : Type) where
  | one (operand : Operand)
  | two (left : Operand) (sign : Token) (among : sign.kind ∈ kinds) (right : Operand)

structure Factor where
  token : Token
  numeric : token.kind = .integer ∨ token.kind = .decimal

abbrev Term : Type := Level [.times, .divide] Factor

abbrev Expression : Type := Level [.plus, .minus] Term

variable {kinds : List Kind} {Operand : Type}

/- The tokens that a derivation is a derivation of. -/
def Level.yield (yield : Operand → List Token) : Level kinds Operand → List Token
  | one operand => yield operand
  | two left sign _ right => yield left ++ sign :: yield right

def Factor.yield (d : Factor) : List Token := [d.token]

def Term.yield (d : Term) : List Token := Level.yield Factor.yield d

def Expression.yield (d : Expression) : List Token := Level.yield Term.yield d

/- The tree of a derivation. One operand makes no node. -/
inductive Level.Denotes (denotes : Operand → Tree → Prop) : Level kinds Operand → Tree → Prop where
  | one {operand : Operand} {tree : Tree} (meaning : denotes operand tree) :
      Denotes denotes (.one operand) tree
  | two {left right : Operand} {sign : Token} {among : sign.kind ∈ kinds} {op : Operator}
      {leftTree rightTree : Tree} (same : op.kind = sign.kind) (leftMeaning : denotes left leftTree)
      (rightMeaning : denotes right rightTree) :
      Denotes denotes (.two left sign among right) (.operation op leftTree rightTree)

inductive Factor.Denotes : Factor → Tree → Prop where
  | number {d : Factor} {v : Numeral} {x : Binary64} (value : d.token.value = some v)
      (converted : v.toDouble = .ok x) : Denotes d (.number x d.token.kind)

def Term.Denotes (d : Term) (tree : Tree) : Prop := Level.Denotes Factor.Denotes d tree

def Expression.Denotes (d : Expression) (tree : Tree) : Prop := Level.Denotes Term.Denotes d tree

/- The next token is of none of these kinds. -/
def Stops (kinds : List Kind) (rest : List Token) : Prop :=
  ∀ t, rest.head? = some t → t.kind ∉ kinds

/- In front of what may follow, tokens are those of one derivation at most. -/
def Unambiguous (yield : Operand → List Token) (follow : List Token → Prop) : Prop :=
  ∀ d e rest rest', follow rest → follow rest' → yield d ++ rest = yield e ++ rest' →
    d = e ∧ rest = rest'

theorem factor_unambiguous : Unambiguous Factor.yield fun _ => True := by
  intro d e rest rest' _ _ same
  obtain ⟨t, numeric⟩ := d
  obtain ⟨u, numeric'⟩ := e
  obtain ⟨rfl, rfl⟩ := List.cons.inj same
  exact ⟨rfl, rfl⟩

/-- A level keeps derivations unique if operands may be followed by its signs. -/
theorem level_unambiguous {yield : Operand → List Token} {follow : List Token → Prop}
    (operand : Unambiguous yield follow)
    (signs : ∀ t rest, t.kind ∈ kinds → follow (t :: rest)) :
    Unambiguous (@Level.yield kinds Operand yield) fun rest => follow rest ∧ Stops kinds rest := by
  intro d e rest rest' ⟨follows, stops⟩ ⟨follows', stops'⟩ same
  cases d with
  | one d =>
    cases e with
    | one e =>
      obtain ⟨rfl, rfl⟩ := operand d e rest rest' follows follows' same
      exact ⟨rfl, rfl⟩
    | two left sign among right =>
      have same' : yield d ++ rest = yield left ++ sign :: (yield right ++ rest') := by
        simpa [Level.yield] using same
      obtain ⟨_, rfl⟩ := operand d left _ _ follows (signs sign _ among) same'
      exact absurd among (stops sign rfl)
  | two left sign among right =>
    cases e with
    | one e =>
      have same' : yield left ++ sign :: (yield right ++ rest) = yield e ++ rest' := by
        simpa [Level.yield] using same
      obtain ⟨_, rfl⟩ := operand left e _ _ (signs sign _ among) follows' same'
      exact absurd among (stops' sign rfl)
    | two left' sign' among' right' =>
      have same' : yield left ++ sign :: (yield right ++ rest) =
          yield left' ++ sign' :: (yield right' ++ rest') := by
        simpa [Level.yield] using same
      obtain ⟨rfl, behind⟩ :=
        operand left left' _ _ (signs sign _ among) (signs sign' _ among') same'
      obtain ⟨rfl, after⟩ := List.cons.inj behind
      obtain ⟨rfl, rfl⟩ := operand right right' rest rest' follows follows' after
      exact ⟨rfl, rfl⟩

theorem term_unambiguous :
    Unambiguous Term.yield fun rest => True ∧ Stops [.times, .divide] rest :=
  level_unambiguous factor_unambiguous fun _ _ _ => trivial

/- What may follow a whole expression. -/
def Follows (rest : List Token) : Prop :=
  (True ∧ Stops [.times, .divide] rest) ∧ Stops [.plus, .minus] rest

theorem additive_stops {t : Token} (rest : List Token) (sign : t.kind ∈ [Kind.plus, .minus]) :
    Stops [.times, .divide] (t :: rest) := by
  intro u head
  obtain rfl : t = u := Option.some.inj head
  intro multiplicative
  simp only [List.mem_cons, List.not_mem_nil, or_false] at sign multiplicative
  rcases sign with plus | minus <;> rcases multiplicative with times | divide <;> simp_all

theorem expression_unambiguous : Unambiguous Expression.yield Follows :=
  level_unambiguous term_unambiguous fun _ rest sign => ⟨trivial, additive_stops rest sign⟩

theorem follows_nil : Follows [] := by
  have stops (kinds : List Kind) : Stops kinds [] := fun t head => by cases head
  exact ⟨⟨trivial, stops _⟩, stops _⟩

theorem yield_injective {d e : Expression} (same : d.yield = e.yield) : d = e :=
  (expression_unambiguous d e [] [] follows_nil follows_nil (by rw [same])).1

theorem factor_denotes (d : Factor) (valued : ∀ t ∈ d.yield, t.Valued) :
    ∃ tree, d.Denotes tree := by
  obtain ⟨⟨kind, value⟩, numeric⟩ := d
  have token := valued ⟨kind, value⟩ (List.mem_singleton_self _)
  cases token with
  | number _ finite =>
    obtain ⟨negative, m, converted⟩ := finite
    exact ⟨_, .number rfl converted⟩
  | symbol symbolic =>
    simp only at numeric
    rcases numeric with same | same <;> simp [same, Kind.isNumber] at symbolic

theorem level_denotes {yield : Operand → List Token} {denotes : Operand → Tree → Prop}
    (operators : ∀ kind ∈ kinds, ∃ op : Operator, op.kind = kind)
    (operand : ∀ d, (∀ t ∈ yield d, t.Valued) → ∃ tree, denotes d tree)
    (d : Level kinds Operand) (valued : ∀ t ∈ d.yield yield, t.Valued) :
    ∃ tree, Level.Denotes denotes d tree := by
  cases d with
  | one d =>
    obtain ⟨tree, meaning⟩ := operand d valued
    exact ⟨tree, .one meaning⟩
  | two left sign among right =>
    obtain ⟨op, same⟩ := operators sign.kind among
    obtain ⟨first, meaning⟩ := operand left fun t member => valued t (by simp [Level.yield, member])
    obtain ⟨second, meaning'⟩ :=
      operand right fun t member => valued t (by simp [Level.yield, member])
    exact ⟨.operation op first second, .two same meaning meaning'⟩

theorem factor_finite (d : Factor) (tree : Tree) (meaning : d.Denotes tree)
    (valued : ∀ t ∈ d.yield, t.Valued) : tree.Finite := by
  cases meaning with
  | @number v x value converted =>
    have token := valued d.token (List.mem_singleton_self _)
    generalize d.token = t at *
    cases token with
    | number _ finite =>
      obtain ⟨negative, m, same⟩ := finite
      obtain rfl := Option.some.inj value
      obtain rfl := Except.ok.inj (same.symm.trans converted)
      exact .number negative m _
    | symbol _ => cases value

theorem level_finite {yield : Operand → List Token} {denotes : Operand → Tree → Prop}
    (operand : ∀ d tree, denotes d tree → (∀ t ∈ yield d, t.Valued) → tree.Finite)
    (d : Level kinds Operand) (tree : Tree) (meaning : Level.Denotes denotes d tree)
    (valued : ∀ t ∈ d.yield yield, t.Valued) : tree.Finite := by
  cases meaning with
  | one meaning => exact operand _ _ meaning valued
  | two same first second =>
    have left := operand _ _ first fun t member => valued t (by simp [Level.yield, member])
    have right := operand _ _ second fun t member => valued t (by simp [Level.yield, member])
    exact .operation left right

theorem term_finite (d : Term) (tree : Tree) (meaning : d.Denotes tree)
    (valued : ∀ t ∈ d.yield, t.Valued) : tree.Finite :=
  level_finite factor_finite d tree meaning valued

theorem expression_finite (d : Expression) (tree : Tree) (meaning : d.Denotes tree)
    (valued : ∀ t ∈ d.yield, t.Valued) : tree.Finite :=
  level_finite term_finite d tree meaning valued

theorem operator_of_mem (ops : List Operator) :
    ∀ kind ∈ ops.map Operator.kind, ∃ op : Operator, op.kind = kind := by
  intro kind among
  obtain ⟨op, _, same⟩ := List.mem_map.mp among
  exact ⟨op, same⟩

theorem term_denotes (d : Term) (valued : ∀ t ∈ d.yield, t.Valued) : ∃ tree, d.Denotes tree :=
  level_denotes (operator_of_mem [.mul, .div]) factor_denotes d valued

/- Derivations of valued tokens denote trees. -/
theorem expression_denotes (d : Expression) (valued : ∀ t ∈ d.yield, t.Valued) :
    ∃ tree, d.Denotes tree :=
  level_denotes (operator_of_mem [.add, .sub]) term_denotes d valued

/- Trees with at most one node of the level, over operands. -/
inductive Joins (ops : List Operator) (operand : Tree → Prop) : Tree → Prop where
  | one {tree : Tree} (whole : operand tree) : Joins ops operand tree
  | two {op : Operator} {left right : Tree} (among : op ∈ ops) (first : operand left)
      (second : operand right) : Joins ops operand (.operation op left right)

inductive IsFactor : Tree → Prop where
  | number {x : Binary64} {kind : Kind} (numeric : kind = .integer ∨ kind = .decimal) :
      IsFactor (.number x kind)

def IsTerm : Tree → Prop := Joins [.mul, .div] IsFactor

def IsExpression : Tree → Prop := Joins [.add, .sub] IsTerm

/- The tokens of a tree from left to right. A number may be given by any numeral that becomes it. -/
inductive InOrder : Tree → List Token → Prop where
  | number {v : Numeral} {x : Binary64} {kind : Kind} (converted : v.toDouble = .ok x) :
      InOrder (.number x kind) [⟨kind, some v⟩]
  | operation {op : Operator} {left right : Tree} {before after : List Token}
      (first : InOrder left before) (second : InOrder right after) :
      InOrder (.operation op left right) (before ++ ⟨op.kind, none⟩ :: after)

theorem inOrder_exists_of_joins {operand : Tree → Prop} {ops : List Operator}
    (each : ∀ {tree}, operand tree → ∃ ts, InOrder tree ts) {tree : Tree}
    (joins : Joins ops operand tree) : ∃ ts, InOrder tree ts := by
  cases joins with
  | one whole => exact each whole
  | two among first second =>
    obtain ⟨before, order⟩ := each first
    obtain ⟨after, order'⟩ := each second
    exact ⟨_, .operation order order'⟩

theorem inOrder_exists {tree : Tree} (expression : IsExpression tree) :
    ∃ ts, InOrder tree ts := by
  have number {tree : Tree} (factor : IsFactor tree) : ∃ ts, InOrder tree ts := by
    cases factor with
    | @number x kind numeric =>
      have converted : (Numeral.double x).toDouble = .ok x := rfl
      exact ⟨_, .number converted⟩
  exact inOrder_exists_of_joins (inOrder_exists_of_joins number) expression

theorem factor_of_inOrder {tree : Tree} {ts : List Token} (factor : IsFactor tree)
    (order : InOrder tree ts) : ∃ d, Factor.yield d = ts ∧ d.Denotes tree := by
  cases factor with
  | number numeric =>
    cases order with
    | number converted => exact ⟨⟨_, numeric⟩, rfl, .number rfl converted⟩

theorem level_of_inOrder {operand : Tree → Prop} {yield : Operand → List Token}
    {denotes : Operand → Tree → Prop} {ops : List Operator}
    (derive : ∀ {tree ts}, operand tree → InOrder tree ts → ∃ d, yield d = ts ∧ denotes d tree)
    {tree : Tree} {ts : List Token} (joins : Joins ops operand tree) (order : InOrder tree ts) :
    ∃ d : Level (ops.map Operator.kind) Operand,
      d.yield yield = ts ∧ Level.Denotes denotes d tree := by
  cases joins with
  | one whole =>
    obtain ⟨d, rfl, meaning⟩ := derive whole order
    exact ⟨.one d, rfl, .one meaning⟩
  | @two op left right among first second =>
    cases order with
    | operation before after =>
      obtain ⟨d, rfl, meaning⟩ := derive first before
      obtain ⟨e, rfl, meaning'⟩ := derive second after
      have sign : op.kind ∈ ops.map Operator.kind := List.mem_map_of_mem among
      exact ⟨.two d ⟨op.kind, none⟩ sign e, rfl, .two rfl meaning meaning'⟩

theorem term_of_inOrder {tree : Tree} {ts : List Token} (term : IsTerm tree)
    (order : InOrder tree ts) : ∃ d : Term, d.yield = ts ∧ d.Denotes tree :=
  level_of_inOrder factor_of_inOrder term order

theorem expression_of_inOrder {tree : Tree} {ts : List Token} (expression : IsExpression tree)
    (order : InOrder tree ts) : ∃ d : Expression, d.yield = ts ∧ d.Denotes tree :=
  level_of_inOrder term_of_inOrder expression order

end Grammar

end LineCalc
