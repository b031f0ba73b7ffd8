import LineCalc.Proofs.ResultTexts
import LineCalc.Proofs.SpecialValues

/-!
Lines of integers without division. Sums, differences and products of whole doubles are exact as long
as they are at most `2 ^ 53` in size (`value?_add`, `value?_sub`, `value?_mul`), so that a line whose
results stay within that has the value of integer arithmetic and is shown as its numeral
(`Outcome.integers_exact`). The integers and the results on the way to them are read off the
derivation of the tokens.
-/
namespace LineCalc

namespace Magnitude

/- One more than the largest significand still has a magnitude. -/
theorem exists_value_of_narrow {n : ℕ} (narrow : n ≤ 0x20000000000000) :
    ∃ w : Magnitude, w.value = n := by
  by_cases below : n < 0x20000000000000
  · exact exists_value_of_whole below
  · obtain rfl : n = 0x20000000000000 := by omega
    have fits : smallestPower + 1 ≤ 2045 := by
      unfold smallestPower
      decide
    have double : Nat.pow 2 (smallestPower + 1) = Nat.pow 2 smallestPower * 2 := Nat.pow_succ ..
    have units : 0x10000000000000 * Nat.pow 2 (smallestPower + 1) =
        0x20000000000000 * unitsPerOne := by
      unfold unitsPerOne
      omega
    have one : (unitsPerOne : ℚ) ≠ 0 := by exact_mod_cast unitsPerOne_pos.ne'
    refine ⟨⟨0x10000000000000, smallestPower + 1, by decide, .inl (by decide), fits⟩, ?_⟩
    change ((0x10000000000000 * Nat.pow 2 (smallestPower + 1) : ℕ) : ℚ) / unitsPerOne = _
    rw [units, Nat.cast_mul, mul_div_cancel_right₀ _ one]

end Magnitude

namespace Binary64

variable {x y z : Binary64} {m n : ℤ} {negative : Bool}

/- An exact result that is a magnitude is not changed by rounding. -/
theorem eq_finite_of_approximates {w : Magnitude} (approximates : Approximates negative w.value z) :
    z = .finite negative w :=
  approximates.unique w.value_nonneg (.finite w.rounds_self)

theorem exists_value_of_abs {r : ℚ} (whole : |r| = |(n : ℚ)|) (narrow : |n| ≤ 2 ^ 53) :
    ∃ w : Magnitude, w.value = |r| := by
  have size : n.natAbs ≤ 0x20000000000000 := by
    have cast : (n.natAbs : ℤ) ≤ 0x20000000000000 := by
      rw [Int.natCast_natAbs]
      exact narrow
    exact_mod_cast cast
  obtain ⟨w, value⟩ := Magnitude.exists_value_of_narrow size
  refine ⟨w, ?_⟩
  rw [value, whole, Nat.cast_natAbs, Int.cast_abs]

theorem value?_neg (whole : x.value? = some (n : ℚ)) : x.neg.value? = some ((-n : ℤ) : ℚ) := by
  cases x with
  | nan => cases whole
  | infinite s => cases whole
  | finite s w =>
    have exact : signedValue s w = n := Option.some.inj whole
    refine congrArg some ?_
    rw [signedValue_not, exact, Int.cast_neg]

/-- A sum of whole doubles is exact up to `2 ^ 53`. -/
theorem value?_add (first : x.value? = some (m : ℚ)) (second : y.value? = some (n : ℚ))
    (narrow : |m + n| ≤ 2 ^ 53) : (x.add y).value? = some ((m + n : ℤ) : ℚ) := by
  have sum := sum_add x y
  generalize x.add y = z at sum
  cases sum with
  | nanLeft => cases first
  | nanRight => cases second
  | infinite => cases first
  | opposite => cases first
  | infiniteLeft => cases first
  | infiniteRight => cases second
  | @zero s t w w' total =>
    have exact : signedValue s w = m := Option.some.inj first
    have exact' : signedValue t w' = n := Option.some.inj second
    have none : ((m + n : ℤ) : ℚ) = 0 := by rw [Int.cast_add, ← exact, ← exact', total]
    rw [none]
    cases s <;> cases t <;> simp [value?, signedValue, Magnitude.value_zero]
  | @rounded s t w w' r z total nonzero rounds =>
    have exact : signedValue s w = m := Option.some.inj first
    have exact' : signedValue t w' = n := Option.some.inj second
    have whole : r = ((m + n : ℤ) : ℚ) := by rw [Int.cast_add, ← exact, ← exact', total]
    obtain ⟨v, size⟩ := exists_value_of_abs (congrArg abs whole) narrow
    rw [← size] at rounds
    obtain rfl := eq_finite_of_approximates rounds
    refine congrArg some ?_
    rw [← whole]
    unfold signedValue
    by_cases below : r < 0
    · simp [below, size, abs_of_neg below]
    · simp [below, size, abs_of_nonneg (not_lt.mp below)]

theorem value?_sub (first : x.value? = some (m : ℚ)) (second : y.value? = some (n : ℚ))
    (narrow : |m - n| ≤ 2 ^ 53) : (x.sub y).value? = some ((m - n : ℤ) : ℚ) := by
  have opposite : m - n = m + -n := sub_eq_add_neg m n
  rw [opposite] at narrow ⊢
  exact value?_add first (value?_neg second) narrow

theorem signedValue_mul {s t : Bool} {w w' v : Magnitude} (size : v.value = w.value * w'.value) :
    signedValue (s ^^ t) v = signedValue s w * signedValue t w' := by
  cases s <;> cases t <;> simp [signedValue, size]

theorem value?_mul (first : x.value? = some (m : ℚ)) (second : y.value? = some (n : ℚ))
    (narrow : |m * n| ≤ 2 ^ 53) : (x.mul y).value? = some ((m * n : ℤ) : ℚ) := by
  have product := product_mul x y
  generalize x.mul y = z at product
  cases product with
  | nanLeft => cases first
  | nanRight => cases second
  | infinite => cases first
  | infiniteLeft => cases first
  | infiniteRight => cases second
  | infiniteZero => cases first
  | zeroInfinite => cases second
  | @rounded s t w w' z rounds =>
    have exact : signedValue s w = m := Option.some.inj first
    have exact' : signedValue t w' = n := Option.some.inj second
    have nonneg : 0 ≤ w.value * w'.value := mul_nonneg w.value_nonneg w'.value_nonneg
    have whole : |w.value * w'.value| = |((m * n : ℤ) : ℚ)| := by
      rw [Int.cast_mul, ← exact, ← exact', abs_mul, abs_mul, abs_signedValue, abs_signedValue,
        abs_of_nonneg w.value_nonneg, abs_of_nonneg w'.value_nonneg]
    obtain ⟨v, size⟩ := exists_value_of_abs whole narrow
    rw [abs_of_nonneg nonneg] at size
    rw [← size] at rounds
    obtain rfl := eq_finite_of_approximates rounds
    refine congrArg some ?_
    rw [signedValue_mul size, exact, exact', Int.cast_mul]

end Binary64

/- What a sign makes of two integers. Only these three stay among the integers. -/
def Kind.combine? : Kind → ℤ → ℤ → Option ℤ
  | .plus, m, n => some (m + n)
  | .minus, m, n => some (m - n)
  | .times, m, n => some (m * n)
  | _, _, _ => none

/- The kinds of tokens in lines of integers. -/
def Kind.integral : List Kind := [.integer, .plus, .minus, .times]

theorem Operator.exact_of_integral {op : Operator} (integral : op.kind ∈ Kind.integral) (m n : ℤ) :
    ∃ k, op.kind.combine? m n = some k ∧ ∀ x y : Binary64, x.value? = some (m : ℚ) →
      y.value? = some (n : ℚ) → |k| ≤ 2 ^ 53 → (op.apply x y).value? = some (k : ℚ) := by
  cases op with
  | add => exact ⟨m + n, rfl, fun x y => Binary64.value?_add⟩
  | sub => exact ⟨m - n, rfl, fun x y => Binary64.value?_sub⟩
  | mul => exact ⟨m * n, rfl, fun x y => Binary64.value?_mul⟩
  | div => simp [kind, Kind.integral] at integral

namespace Grammar

variable {kinds : List Kind} {Operand : Type} {yield : Operand → List Token}
  {denotes : Operand → Tree → Prop} {totals : Operand → ℤ → List ℤ → Prop}

inductive Factor.Totals : Factor → ℤ → List ℤ → Prop where
  | number {d : Factor} {n : ℤ} (value : d.token.value = some (.integer n)) : Totals d n []

/- The exact integer of a derivation, and the results of all its operations. -/
inductive Level.Totals (totals : Operand → ℤ → List ℤ → Prop) :
    Level kinds Operand → ℤ → List ℤ → Prop where
  | one {operand : Operand} {n : ℤ} {results : List ℤ} (whole : totals operand n results) :
      Totals totals (.one operand) n results
  | two {left right : Operand} {sign : Token} {among : sign.kind ∈ kinds} {m n k : ℤ}
      {before after : List ℤ} (first : totals left m before) (second : totals right n after)
      (result : sign.kind.combine? m n = some k) :
      Totals totals (.two left sign among right) k (before ++ after ++ [k])

def Term.Totals (d : Term) (n : ℤ) (results : List ℤ) : Prop :=
  Level.Totals Factor.Totals d n results

def Expression.Totals (d : Expression) (n : ℤ) (results : List ℤ) : Prop :=
  Level.Totals Term.Totals d n results

def IsIntegral (t : Token) : Prop := t.WellFormed ∧ t.kind ∈ Kind.integral

/- Derivations of such tokens have an exact integer. If no result is past the limit, the integer is
   not past it either, and it is the value of the tree. -/
def Computes (yield : Operand → List Token) (denotes : Operand → Tree → Prop)
    (totals : Operand → ℤ → List ℤ → Prop) : Prop :=
  ∀ d tree, denotes d tree → (∀ t ∈ yield d, IsIntegral t) → ∃ n results, totals d n results ∧
    ((∀ k ∈ results, |k| ≤ 2 ^ 53) →
      |n| ≤ 2 ^ 53 ∧ ∃ x, tree.evaluate = .ok x ∧ x.value? = some (n : ℚ))

theorem factor_computes : Computes Factor.yield Factor.Denotes Factor.Totals := by
  intro d tree meaning all
  obtain ⟨t, numeric⟩ := d
  obtain ⟨valid, integral⟩ : IsIntegral t := all t (List.mem_singleton_self _)
  cases meaning with
  | number value converted =>
    cases valid with
    | @integer n small =>
      obtain rfl := Option.some.inj value
      obtain ⟨w, exact, whole⟩ := Numeral.toDouble_of_small small
      obtain rfl := Except.ok.inj (exact.symm.trans converted)
      have one : (unitsPerOne : ℚ) ≠ 0 := by exact_mod_cast Magnitude.unitsPerOne_pos.ne'
      have size : w.value = n := by
        unfold Magnitude.value
        rw [whole, Nat.cast_mul, mul_div_cancel_right₀ _ one]
      refine ⟨n, [], .number rfl, fun _ => ⟨?_, _, rfl, ?_⟩⟩
      · unfold Literal.largestInteger at small
        rw [Nat.abs_cast]
        omega
      · simp [Binary64.value?, Binary64.signedValue, size]
    | decimal => simp [Kind.integral] at integral
    | symbol => cases value

/-- A level computes if its operands do. -/
theorem level_computes (operand : Computes yield denotes totals) :
    Computes (@Level.yield kinds Operand yield) (Level.Denotes denotes) (Level.Totals totals) := by
  intro d tree meaning all
  cases meaning with
  | one meaning =>
    obtain ⟨n, results, total, computed⟩ := operand _ _ meaning all
    exact ⟨n, results, .one total, computed⟩
  | @two left right sign among op leftTree rightTree same first second =>
    obtain ⟨m, before, total, computed⟩ :=
      operand _ _ first fun t member => all t (by simp [Level.yield, member])
    obtain ⟨n, after, total', computed'⟩ :=
      operand _ _ second fun t member => all t (by simp [Level.yield, member])
    have integral : op.kind ∈ Kind.integral := same ▸ (all sign (by simp [Level.yield])).2
    obtain ⟨k, result, exact⟩ := op.exact_of_integral integral m n
    refine ⟨k, before ++ after ++ [k], .two total total' (same ▸ result), ?_⟩
    intro narrow
    obtain ⟨_, x, value, whole⟩ := computed fun r member => narrow r (by simp [member])
    obtain ⟨_, y, value', whole'⟩ := computed' fun r member => narrow r (by simp [member])
    have last : |k| ≤ 2 ^ 53 := narrow k (by simp)
    have evaluated := Tree.evaluate_operation_eq_ok_iff.mpr
      ⟨x, y, value, value', @rfl _ (op.apply x y)⟩
    exact ⟨last, _, evaluated, exact x y whole whole' last⟩

theorem expression_computes :
    Computes Expression.yield Expression.Denotes Expression.Totals :=
  level_computes (level_computes factor_computes)

/- A term without a product is a literal. -/
theorem term_of_plain {d : Term} {n : ℤ} {results : List ℤ} (total : d.Totals n results)
    (all : ∀ t ∈ d.yield, t.WellFormed) (plain : ∀ t ∈ d.yield, t.kind ≠ .times) :
    results = [] ∧ 0 ≤ n ∧ n ≤ Literal.largestInteger := by
  cases total with
  | @one d _ _ whole =>
    cases whole with
    | number value =>
      have valid := all d.token (List.mem_singleton_self _)
      generalize d.token = t at *
      cases valid with
      | @integer n small =>
        cases value
        exact ⟨rfl, Int.natCast_nonneg n, by exact_mod_cast small⟩
      | decimal => cases value
      | symbol => cases value
  | @two left right sign among m n k before after first second result =>
    have other := plain sign (by simp [Term.yield, Level.yield])
    simp only [List.mem_cons, List.not_mem_nil, or_false] at among
    rcases among with times | divide
    · exact absurd times other
    · rw [divide] at result
      cases result

/- Without products there is one result at most, of two literals. -/
theorem narrow_of_plain {d : Expression} {k : ℤ} {results : List ℤ} (total : d.Totals k results)
    (all : ∀ t ∈ d.yield, t.WellFormed) (plain : ∀ t ∈ d.yield, t.kind ≠ .times) :
    ∀ k ∈ results, |k| ≤ 2 ^ 53 := by
  cases total with
  | one whole =>
    obtain ⟨rfl, _⟩ := term_of_plain whole all plain
    simp
  | @two left right sign among m n _ before after first second result =>
    have member (t : Token) (inside : t ∈ left.yield ∨ t ∈ right.yield) :
        t ∈ Expression.yield (.two left sign among right) := by
      rcases inside with before | behind
      · exact List.mem_append_left _ before
      · exact List.mem_append_right _ (List.mem_cons_of_mem _ behind)
    obtain ⟨rfl, nonneg, small⟩ := term_of_plain first (fun t inside => all t (member t (.inl inside)))
      fun t inside => plain t (member t (.inl inside))
    obtain ⟨rfl, nonneg', small'⟩ := term_of_plain second
      (fun t inside => all t (member t (.inr inside)))
      fun t inside => plain t (member t (.inr inside))
    unfold Literal.largestInteger at small small'
    have narrow : |k| ≤ 2 ^ 53 := by
      simp only [List.mem_cons, List.not_mem_nil, or_false] at among
      rcases among with plus | minus
      · rw [plus] at result
        obtain rfl : m + n = k := Option.some.inj result
        exact abs_le.mpr ⟨by omega, by omega⟩
      · rw [minus] at result
        obtain rfl : m - n = k := Option.some.inj result
        exact abs_le.mpr ⟨by omega, by omega⟩
    simpa using narrow

end Grammar

namespace Outcome

/- The outcome of a line with tokens whose value is exactly this integer. What is shown for it ends in
   the numeral. -/
structure IsInteger (o : Outcome) (ts : List Token) (n : ℤ) : Prop where
  value : ∃ x, o.value = some (.double x) ∧ x.value? = some (n : ℚ)
  shown : ∃ tree label labels numeral, o.tree = some tree ∧ tree.label = .ok label ∧
    Token.labels ts = .ok labels ∧ Binary64.IsNumeral n numeral.toList ∧
    o.block = .ok (label ++ "\n" ++ labels ++ "\n" ++ numeral ++ "\n")

variable {mode : Mode} {source text : String} {line : Option Int} {o : Outcome} {ts : List Token}

/-- A line of integers without division that is read strictly. It is blank, or it has the exact value
    of its derivation if no product is past `2 ^ 53` in size, nor the sum or difference. Without
    products nothing is past it. -/
theorem integers_exact (strict : mode.strict = true)
    (returned : (run mode source line text).outcome = .ok o) (tokens : o.tokens = some ts)
    (integral : ∀ t ∈ ts, t.kind ∈ [.integer, .plus, .minus, .times]) :
    (ts = [] ∧ o.value = none ∧ o.block = .ok "") ∨
    ∃ (d : Grammar.Expression) (n : ℤ) (results : List ℤ), d.yield = ts ∧ d.Totals n results ∧
      ((∀ k ∈ results, |k| ≤ 2 ^ 53) → o.IsInteger ts n) ∧
      ((∀ t ∈ ts, t.kind ≠ .times) → ∀ k ∈ results, |k| ≤ 2 ^ 53) := by
  obtain ⟨s, is⟩ := inState_of_outcome returned
  cases is with
  | failed => cases tokens
  | blank read =>
    cases tokens
    exact .inl ⟨rfl, rfl, rfl⟩
  | @evaluated ts tree x labels label present read parsed value leaves tokensShown treeShown =>
    cases tokens
    rw [strict] at parsed
    obtain ⟨d, rfl, meaning⟩ := (parse_iff_derivation present).mp parsed
    have wellFormed := wellFormed_of_tokenize read
    obtain ⟨n, results, total, computed⟩ := Grammar.expression_computes d tree meaning
      fun t member => ⟨wellFormed t member, integral t member⟩
    refine .inr ⟨d, n, results, rfl, total, ?_, Grammar.narrow_of_plain total wellFormed⟩
    intro narrow
    obtain ⟨last, y, value', whole⟩ := computed narrow
    obtain rfl := Except.ok.inj (value.symm.trans value')
    have small : n.natAbs < Binary64.wholeLimit := by
      unfold Binary64.wholeLimit
      rw [abs_le] at last
      omega
    refine ⟨⟨x, rfl, whole⟩, tree, label, labels, integerText n, rfl, treeShown, tokensShown,
      Binary64.isNumeral_integerText n, ?_⟩
    rw [← Binary64.result_of_whole whole small]
    simp only [block, treeShown, tokenLabels, Option.mapM_some, tokensShown]
    rfl

/- A product of exactly the limit, behind leading zeros and blanks. -/
theorem integers_exact_at_limit :
    ∃ o ts, (run { strict := true } "stdin" (some 1) "1-0134217728 *\t67108864").outcome = .ok o ∧
      o.tokens = some ts ∧ (∀ t ∈ ts, t.kind ∈ [Kind.integer, .plus, .minus, .times]) ∧
      ((ts = [] ∧ o.value = none ∧ o.block = .ok "") ∨
      ∃ (d : Grammar.Expression) (n : ℤ) (results : List ℤ), d.yield = ts ∧ d.Totals n results ∧
        ((∀ k ∈ results, |k| ≤ 2 ^ 53) → o.IsInteger ts n) ∧
        ((∀ t ∈ ts, t.kind ≠ .times) → ∀ k ∈ results, |k| ≤ 2 ^ 53)) := by
  have returned :
      (run { strict := true } "stdin" (some 1) "1-0134217728 *\t67108864").outcome.isOk := by
    decide +kernel
  have read : (run { strict := true } "stdin" (some 1)
      "1-0134217728 *\t67108864").outcome.toOption.bind tokens =
        some [⟨.integer, some (.integer 1)⟩, ⟨.minus, none⟩,
          ⟨.integer, some (.integer 134217728)⟩, ⟨.times, none⟩,
          ⟨.integer, some (.integer 67108864)⟩] := by
    decide +kernel
  obtain ⟨o, outcome⟩ := exists_of_isOk returned
  rw [outcome] at read
  have integral : ∀ t ∈ [Token.mk .integer (some (.integer 1)), ⟨.minus, none⟩,
      ⟨.integer, some (.integer 134217728)⟩, ⟨.times, none⟩, ⟨.integer, some (.integer 67108864)⟩],
      t.kind ∈ [Kind.integer, .plus, .minus, .times] := by
    decide
  exact ⟨o, _, outcome, read, integral, integers_exact rfl outcome read integral⟩

end Outcome

end LineCalc
