import LineCalc.Proofs.Lookahead

/-!
Any calls on one parser. A rule goes on from where the one before it has stopped, also if that has
failed, so the parser only moves forward and stays in its tokens; and what a rule returns is made of
exactly the tokens that it has passed (`Reading.cursor_of_calls`).
-/
namespace LineCalc

namespace Tree

/- What stands in a tree, from left to right. -/
inductive Part where
  | number (value : Binary64) (kind : Kind)
  | operator (op : Operator)
  | hole
  deriving DecidableEq, Repr

def inOrder : Tree → List Part
  | number value kind => [.number value kind]
  | operation op left right => left.inOrder ++ .operator op :: right.inOrder
  | hole _ => [.hole]

/- The token that a part is made of. A number has its kind, and its value as a double. -/
inductive Part.MadeOf : Part → Token → Prop where
  | number {t : Token} {v : Numeral} {x : Binary64} (value : t.value = some v)
      (converted : v.toDouble = .ok x) : MadeOf (.number x t.kind) t
  | operator {t : Token} {op : Operator} (same : op.kind = t.kind) : MadeOf (.operator op) t

/- A tree that is made of exactly these tokens, in order. -/
def MadeOf (tree : Tree) (ts : List Token) : Prop := List.Forall₂ Part.MadeOf tree.inOrder ts

end Tree

namespace Grammar

variable {kinds : List Kind} {Operand : Type} {yield : Operand → List Token}
  {denotes : Operand → Tree → Prop} {lengths : List Nat}

/- Derivations denote trees of their tokens, which are of certain numbers. -/
def Spans (yield : Operand → List Token) (denotes : Operand → Tree → Prop) (lengths : List Nat) :
    Prop :=
  ∀ d tree, denotes d tree → tree.MadeOf (yield d) ∧ (yield d).length ∈ lengths

theorem factor_spans : Spans Factor.yield Factor.Denotes [1] := by
  intro d tree meaning
  cases meaning with
  | number value converted =>
    exact ⟨.cons (.number value converted) .nil, List.mem_singleton_self 1⟩

/- A level has as many tokens as one operand, or as two and a sign. -/
theorem level_spans (operand : Spans yield denotes lengths) :
    Spans (@Level.yield kinds Operand yield) (Level.Denotes denotes)
      (lengths ++ lengths.flatMap fun m => lengths.map fun n => m + 1 + n) := by
  intro d tree meaning
  cases meaning with
  | one meaning =>
    obtain ⟨made, size⟩ := operand _ _ meaning
    exact ⟨made, List.mem_append_left _ size⟩
  | @two left right sign among op leftTree rightTree same first second =>
    obtain ⟨made, size⟩ := operand _ _ first
    obtain ⟨made', size'⟩ := operand _ _ second
    refine ⟨List.rel_append made (.cons (.operator same) made'), List.mem_append_right _ ?_⟩
    refine List.mem_flatMap.mpr ⟨_, size, List.mem_map.mpr ⟨_, size', ?_⟩⟩
    simp only [Level.yield, List.length_append, List.length_cons]
    omega

end Grammar

namespace Reading

open Grammar

variable {kinds : List Kind} {rule operand : Reading → Except Failure Tree × Reading}
  {r left : Reading} {most miss : Nat} {lengths : List Nat} {ts : List Token}

/- Where an error of the line says that it is: a number is missing where the rule stops, at most so
   many tokens on, and what stands there is shown. -/
def Misses (most : Nat) (rule : Reading → Except Failure Tree × Reading) : Prop :=
  ∀ {r left : Reading} {error : LineError}, rule r = (.error (.line error), left) →
    ∃ found, left.rest.head?.mapM Token.label = .ok found ∧
      error = .expectedNumber left.index found ∧ left.index ≤ r.index + most

theorem factor_misses : Misses 0 factor := by
  intro r left error refused
  by_cases seen : r.sees Token.isNumber
  · obtain ⟨t, rest, ahead, numeric, taken⟩ := take_of_sees seen
    rw [ahead, factor_of_number numeric] at refused
    -- a number that is read fails for want of a value, which is no error of the line
    cases made : Tree.ofToken t with
    | error fault =>
      rw [made] at refused
      cases refused
    | ok tree =>
      rw [made] at refused
      cases refused
  · unfold factor at refused
    rw [if_neg seen] at refused
    obtain ⟨complaint, rfl⟩ := Prod.mk.inj refused
    obtain ⟨found, shown, same⟩ := (complain_eq_line_iff _).mp (Except.error.inj complaint)
    exact ⟨found, shown, same, Nat.le_refl _⟩

/- A level misses a number in its first operand, or in its second behind the sign. -/
theorem operation_misses (operands : Local most operand) (misses : Misses miss operand) :
    Misses (most + 1 + miss) (operation kinds operand) := by
  intro r left error refused
  rcases begun : operand r with ⟨failure | first, middle⟩
  · rw [operation_of_error begun] at refused
    obtain ⟨rfl, rfl⟩ : failure = .line error ∧ middle = left := by simpa using refused
    obtain ⟨found, shown, same, near⟩ := misses begun
    exact ⟨found, shown, same, by omega⟩
  · by_cases stops : Stops kinds middle.rest
    · rw [operation_of_stops begun stops] at refused
      cases refused
    · obtain ⟨sign, ahead, among⟩ : ∃ t, middle.rest.head? = some t ∧ t.kind ∈ kinds := by
        simpa [Stops] using stops
      obtain ⟨rest, index⟩ := middle
      obtain ⟨behind, rfl⟩ := List.head?_eq_some_iff.mp ahead
      obtain ⟨before, consumed⟩ := operands begun
      have reached : index = r.index + before.length := consumed.index
      have bounded := consumed.bounded
      rw [operation_of_sign begun among] at refused
      cases converted : Operator.ofKind sign.kind with
      | error fault =>
        rw [converted] at refused
        cases refused
      | ok op =>
        rw [converted] at refused
        rcases ended : operand ⟨behind, index + 1⟩ with ⟨failure | second, last⟩
        · rw [ended] at refused
          obtain ⟨rfl, rfl⟩ : failure = .line error ∧ last = left := by
            simpa [Except.map] using refused
          obtain ⟨found, shown, same, near⟩ := misses ended
          exact ⟨found, shown, same, by simp only at near; omega⟩
        · rw [ended] at refused
          cases refused

/- Where a parser of some tokens can be: it has the tokens left that are behind its place. -/
structure Within (ts : List Token) (r : Reading) : Prop where
  rest : r.rest = ts.drop r.index
  inside : r.index ≤ ts.length

/- What a rule makes of the tokens from a place on. Whatever comes of it, it goes forward; a tree is
   made of the tokens that it has passed, and an error names the place where it stops. -/
structure Passes (ts : List Token) (lengths : List Nat)
    (rule : Reading → Except Failure Tree × Reading) : Prop where
  forward : ∀ {r left : Reading} {outcome : Except Failure Tree}, Within ts r →
    rule r = (outcome, left) → Within ts left ∧ r.index ≤ left.index
  yields : ∀ {r left : Reading} {tree : Tree}, Within ts r → rule r = (.ok tree, left) →
    tree.MadeOf ((ts.take left.index).drop r.index) ∧ left.index - r.index ∈ lengths
  misses : Misses 6 rule

theorem within_of_parts {before : List Token} (within : Within ts r)
    (parts : r.rest = before ++ left.rest) (index : left.index = r.index + before.length) :
    Within ts left ∧ (ts.take left.index).drop r.index = before := by
  have length := congrArg List.length parts
  have inside := within.inside
  rw [within.rest] at parts length
  simp only [List.length_drop, List.length_append] at length
  refine ⟨⟨?_, by omega⟩, ?_⟩
  · rw [index, ← List.drop_drop, parts, List.drop_left]
  · rw [List.drop_take, parts, index, Nat.add_sub_cancel_left, List.take_left]

theorem passes_of_exact {D : Type} {yield : D → List Token} {denotes : D → Tree → Prop}
    {follow : List Token → Prop} (exact : Exact yield denotes follow rule)
    (spans : Spans yield denotes lengths) (reads : Local most rule) (misses : Misses miss rule)
    (near : miss ≤ 6) : Passes ts lengths rule where
  forward := by
    intro r left outcome within read
    obtain ⟨before, consumed⟩ := reads read
    have index := consumed.index
    exact ⟨(within_of_parts within consumed.parts index).1, by omega⟩
  yields := by
    intro r left tree within read
    obtain ⟨d, parts, meaning⟩ := exact.sound read
    obtain ⟨before, consumed⟩ := reads read
    have same : before = yield d := List.append_cancel_right (consumed.parts.symm.trans parts)
    have index := consumed.index
    rw [same] at index
    obtain ⟨made, size⟩ := spans d tree meaning
    rw [(within_of_parts within parts index).2, index, Nat.add_sub_cancel_left]
    exact ⟨made, size⟩
  misses := by
    intro r left error refused
    obtain ⟨found, shown, same, bound⟩ := misses refused
    exact ⟨found, shown, same, by omega⟩

theorem factor_passes (ts : List Token) : Passes ts [1] factor :=
  passes_of_exact factor_exact factor_spans factor_local factor_misses (by decide)

theorem term_passes (ts : List Token) : Passes ts [1, 3] term :=
  passes_of_exact term_exact (level_spans factor_spans) (operation_local factor_local)
    (operation_misses factor_local factor_misses) (by decide)

theorem expression_passes (ts : List Token) : Passes ts [1, 3, 5, 7] expression := by
  have spans : Spans Expression.yield Expression.Denotes [1, 3, 5, 7] := by
    intro d tree meaning
    obtain ⟨made, size⟩ := level_spans (level_spans factor_spans) d tree meaning
    have same : ∀ n ∈ [1, 3, 3, 5, 5, 7], n ∈ [1, 3, 5, 7] := by decide
    exact ⟨made, same _ size⟩
  exact passes_of_exact expression_exact spans expression_local
    (operation_misses (operation_local factor_local)
      (operation_misses factor_local factor_misses)) (by decide)

/- What can be asked of a parser. -/
inductive Call where
  | parse
  | expression
  | term
  | factor
  | advance
  deriving DecidableEq, Repr

/- What a call returns: a tree, or for no tokens none, or a token. -/
inductive Answer where
  | tree (tree : Option Tree)
  | token (t : Token)
  deriving DecidableEq, Repr

namespace Call

/- The numbers of tokens in a tree that a call returns. -/
def sizes : Call → List Nat
  | parse | expression => [1, 3, 5, 7]
  | term => [1, 3]
  | factor => [1]
  | advance => []

/- A rule that is called by itself. -/
def ofRule (rule : Reading → Except Failure Tree × Reading) (r : Reading) :
    Except Failure Answer × Reading :=
  ((rule r).1.map fun tree => .tree (some tree), (rule r).2)

/- The answer to a call and where it leaves the parser, also if it fails. -/
def apply (strict : Bool) : Call → Reading → Except Failure Answer × Reading
  | .parse, r => ((r.parse strict).1.map .tree, (r.parse strict).2)
  | .expression, r => ofRule Reading.expression r
  | .term, r => ofRule Reading.term r
  | .factor, r => ofRule Reading.factor r
  | .advance, r => (r.take.1.map .token, r.take.2)

end Call

/- The parser of some tokens that has been called so often. -/
def after (strict : Bool) (ts : List Token) (calls : List Call) : Reading :=
  calls.foldl (fun r call => (call.apply strict r).2) (start ts)

theorem after_concat (strict : Bool) (ts : List Token) (calls : List Call) (call : Call) :
    after strict ts (calls ++ [call]) = (call.apply strict (after strict ts calls)).2 := by
  simp [after]

/-- What a call does to a parser that stands within its tokens. A tree is made of exactly the tokens
    between the two places. An error of the line names the place where the call has stopped: a
    number is missing there, few tokens on, or a token is left behind the expression of strict
    reading. Reading one token fails at the end only. -/
structure Step (strict : Bool) (ts : List Token) (call : Call) (r : Reading)
    (outcome : Except Failure Answer) (left : Reading) : Prop where
  within : Within ts left
  forward : r.index ≤ left.index
  yields : ∀ tree, outcome = .ok (.tree (some tree)) →
    tree.MadeOf ((ts.take left.index).drop r.index) ∧ left.index - r.index ∈ call.sizes
  blank : outcome = .ok (.tree none) → call = .parse ∧ ts = [] ∧ left = r
  refuses : ∀ error, outcome = .error (.line error) →
    ∃ found, left.rest.head?.mapM Token.label = .ok found ∧
      (error = .expectedNumber left.index found ∧ left.index ≤ r.index + 6 ∨
        error = .unexpectedToken left.index found ∧ call = .parse ∧ strict ∧
          left.index < ts.length)
  advances : call = .advance →
    (outcome = .error (.fault .pastLastToken) ↔ r.index = ts.length) ∧
      (r.index = ts.length → left = r) ∧
      ∀ t, ts[r.index]? = some t → outcome = .ok (.token t) ∧ left.index = r.index + 1

variable {strict : Bool} {call : Call}

theorem step_of_rule (passes : Passes ts call.sizes rule) (within : Within ts r)
    (other : call ≠ .advance) :
    Step strict ts call r (Call.ofRule rule r).1 (Call.ofRule rule r).2 := by
  rcases read : rule r with ⟨outcome, left⟩
  obtain ⟨inside, forward⟩ := passes.forward within read
  unfold Call.ofRule
  rw [read]
  refine ⟨inside, forward, ?_, ?_, ?_, fun advance => absurd advance other⟩
  · intro tree answered
    cases outcome with
    | error failure => cases answered
    | ok first =>
      cases answered
      exact passes.yields within read
  · intro answered
    cases outcome <;> cases answered
  · intro error answered
    cases outcome with
    | ok first => cases answered
    | error failure =>
      cases answered
      obtain ⟨found, shown, same, near⟩ := passes.misses read
      exact ⟨found, shown, .inl ⟨same, near⟩⟩

theorem isBlank_iff (within : Within ts r) : r.isBlank ↔ ts = [] := by
  have rest := within.rest
  have inside := within.inside
  constructor
  · intro blank
    obtain ⟨none, index⟩ : r.rest = [] ∧ r.index = 0 := by simpa [isBlank] using blank
    rwa [none, index, List.drop_zero, eq_comm] at rest
  · rintro rfl
    simp_all [isBlank]

theorem index_of_ended (within : Within ts r) : r.rest = [] ↔ r.index = ts.length := by
  have inside := within.inside
  rw [within.rest, List.drop_eq_nil_iff]
  omega

/- In front of a token: it is the one at the place of the parser. -/
theorem within_of_cons {t : Token} {rest : List Token} {index : Nat}
    (within : Within ts ⟨t :: rest, index⟩) :
    ts[index]? = some t ∧ Within ts ⟨rest, index + 1⟩ := by
  have ahead : t :: rest = ts.drop index := within.rest
  have found : ts[index]? = some t := by
    rw [← List.head?_drop, ← ahead, List.head?_cons]
  obtain ⟨short, _⟩ := List.getElem?_eq_some_iff.mp found
  refine ⟨found, ?_, short⟩
  rw [← List.tail_drop, ← ahead, List.tail_cons]

theorem step_of_parse (within : Within ts r) :
    Step strict ts .parse r (Call.apply strict .parse r).1 (Call.apply strict .parse r).2 := by
  change Step strict ts .parse r ((r.parse strict).1.map .tree) (r.parse strict).2
  by_cases blank : r.isBlank
  · have answered : r.parse strict = (.ok none, r) := if_pos blank
    rw [answered]
    refine ⟨within, Nat.le_refl _, nofun, ?_, nofun, nofun⟩
    intro _
    exact ⟨rfl, (isBlank_iff within).mp blank, rfl⟩
  have present := Bool.eq_false_iff.mpr blank
  have whole : Step strict ts .parse r (Call.ofRule Reading.expression r).1
      (Call.ofRule Reading.expression r).2 :=
    step_of_rule (expression_passes ts) within nofun
  unfold Call.ofRule at whole
  rcases read : r.expression with ⟨failure | tree, left⟩
  · -- the expression fails, and so does the line
    rw [read] at whole
    rw [parse_of_error present read]
    exact whole
  rw [read] at whole
  rw [parse_of_tree present read]
  by_cases leftover : (strict && !left.rest.isEmpty) = true
  · obtain ⟨strictly, ahead⟩ : strict = true ∧ left.rest ≠ [] := by simpa using leftover
    rw [if_pos leftover]
    refine ⟨whole.within, whole.forward, nofun, nofun, ?_, nofun⟩
    intro error answered
    obtain ⟨found, shown, same⟩ := (complain_eq_line_iff _).mp (Except.error.inj answered)
    have short := Nat.lt_of_le_of_ne whole.within.inside
      fun ended => ahead ((index_of_ended whole.within).mpr ended)
    exact ⟨found, shown, .inr ⟨same, rfl, strictly, short⟩⟩
  · rw [if_neg leftover]
    exact whole

theorem step_of_advance (within : Within ts r) :
    Step strict ts .advance r (Call.apply strict .advance r).1
      (Call.apply strict .advance r).2 := by
  obtain ⟨rest, index⟩ := r
  cases rest with
  | nil =>
    have ended : index = ts.length := (index_of_ended within).mp rfl
    refine ⟨within, Nat.le_refl _, nofun, nofun, nofun, ?_⟩
    intro _
    refine ⟨iff_of_true rfl ended, fun _ => rfl, ?_⟩
    intro t found
    simp [ended] at found
  | cons first rest =>
    obtain ⟨found, behind⟩ := within_of_cons within
    have before : index ≠ ts.length := Nat.ne_of_lt behind.inside
    refine ⟨behind, Nat.le_succ _, nofun, nofun, nofun, ?_⟩
    intro _
    refine ⟨iff_of_false nofun before, fun ended => absurd ended before, ?_⟩
    intro t there
    cases found.symm.trans there
    exact ⟨rfl, rfl⟩

/- One case for each call. -/
theorem step_of_call (within : Within ts r) :
    Step strict ts call r (call.apply strict r).1 (call.apply strict r).2 := by
  cases call with
  | parse => exact step_of_parse within
  | expression => exact step_of_rule (expression_passes ts) within nofun
  | term => exact step_of_rule (term_passes ts) within nofun
  | factor => exact step_of_rule (factor_passes ts) within nofun
  | advance => exact step_of_advance within

theorem within_start (ts : List Token) : Within ts (start ts) := ⟨rfl, Nat.zero_le _⟩

/- The invariant, by induction on the calls from the last one. -/
theorem within_after (strict : Bool) (ts : List Token) (calls : List Call) :
    Within ts (after strict ts calls) := by
  induction calls using List.reverseRecOn with
  | nil => exact within_start ts
  | append_singleton calls call ih =>
    rw [after_concat]
    exact (step_of_call ih).within

theorem index_le_after (strict : Bool) (ts : List Token) (calls more : List Call) :
    (after strict ts calls).index ≤ (after strict ts (calls ++ more)).index := by
  induction more using List.reverseRecOn with
  | nil => rw [List.append_nil]
  | append_singleton more call ih =>
    rw [← List.append_assoc, after_concat]
    exact Nat.le_trans ih (step_of_call (within_after strict ts (calls ++ more))).forward

/-- Whatever is asked of one parser, in whatever order and with whatever outcome: it stays within
    its tokens and never goes back. The next call takes it on from there, and does what `Step`
    says. -/
theorem cursor_of_calls (strict : Bool) (ts : List Token) (calls : List Call) :
    Within ts (after strict ts calls) ∧
      (∀ more, (after strict ts calls).index ≤ (after strict ts (calls ++ more)).index) ∧
      ∀ call : Call, Step strict ts call (after strict ts calls)
        (call.apply strict (after strict ts calls)).1 (after strict ts (calls ++ [call])) := by
  refine ⟨within_after strict ts calls, index_le_after strict ts calls, ?_⟩
  intro call
  rw [after_concat]
  exact step_of_call (within_after strict ts calls)

/- The first factor takes the number without a value, and the next one goes on behind it. -/
example : (after true [⟨.integer, none⟩, ⟨.plus, none⟩] [.factor]).index = 1 ∧
    (Call.factor.apply true (after true [⟨.integer, none⟩, ⟨.plus, none⟩] [.factor])).1 =
      .error (.line (.expectedNumber 1 (some "PLUS"))) := by
  decide +kernel

end Reading

end LineCalc
