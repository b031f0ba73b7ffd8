import LineCalc.Proofs.Parsing

/-!
How far the parser looks. A rule depends on the tokens that it reads and the one behind them, and
on none behind as many as it can read (`operation_local` serves both levels). A rule that fails
waits for a number. So strict and lenient reading differ in nothing but what they make of tokens
that are left, and no token behind the seventh matters.
-/
namespace LineCalc

namespace Reading

open Grammar

variable {kinds : List Kind} {operand : Reading → Except Failure Tree × Reading} {r left : Reading}

/- An operation by what its first operand comes to, and by the token behind that. -/
theorem operation_of_error {failure : Failure} (begun : operand r = (.error failure, left)) :
    operation kinds operand r = (.error failure, left) := by
  unfold operation
  rw [begun]

theorem operation_of_stops {first : Tree} (begun : operand r = (.ok first, left))
    (stops : Stops kinds left.rest) : operation kinds operand r = (.ok first, left) := by
  have unseen := sees_of_stops left.index stops
  unfold operation
  rw [begun]
  simp only [unseen]
  rfl

theorem operation_of_sign {first : Tree} {sign : Token} {rest : List Token} {index : Nat}
    (begun : operand r = (.ok first, ⟨sign :: rest, index⟩)) (among : sign.kind ∈ kinds) :
    operation kinds operand r = match Operator.ofKind sign.kind with
      | .error fault => (.error (.fault fault), ⟨rest, index + 1⟩)
      | .ok op =>
        ((operand ⟨rest, index + 1⟩).1.map (.operation op first),
          (operand ⟨rest, index + 1⟩).2) := by
  have seen : (Reading.mk (sign :: rest) index).sees (fun t => kinds.contains t.kind) := by
    simpa [sees] using among
  unfold operation
  rw [begun]
  simp only [if_pos seen, take]
  cases Operator.ofKind sign.kind with
  | error fault => rfl
  | ok op =>
    dsimp only
    rcases operand ⟨rest, index + 1⟩ with ⟨_ | second, last⟩ <;> rfl

/- What a rule has read of the tokens ahead of it, at most so many, and that it answers alike with
   others behind them. If it could have read more, it has looked at the next one. -/
structure Consumed (most : Nat) (rule : Reading → Except Failure Tree × Reading) (r left : Reading)
    (outcome : Except Failure Tree) (before : List Token) : Prop where
  parts : r.rest = before ++ left.rest
  index : left.index = r.index + before.length
  bounded : before.length ≤ most
  alike : ∀ rest, (before.length < most → rest.head? = left.rest.head?) →
    rule ⟨before ++ rest, r.index⟩ = (outcome, ⟨rest, left.index⟩)

def Local (most : Nat) (rule : Reading → Except Failure Tree × Reading) : Prop :=
  ∀ {r left : Reading} {outcome : Except Failure Tree}, rule r = (outcome, left) →
    ∃ before, Consumed most rule r left outcome before

theorem complain_congr {rest others : List Token} (index : Nat)
    (error : Nat → Option String → LineError) (same : rest.head? = others.head?) :
    (Reading.mk rest index).complain error = (Reading.mk others index).complain error := by
  cases rest <;> cases others <;> cases same <;> rfl

/- A number is read, whether a tree can be made of it or not. -/
theorem factor_of_number {t : Token} (numeric : t.isNumber) (rest : List Token) (index : Nat) :
    factor ⟨t :: rest, index⟩ = ((Tree.ofToken t).mapError .fault, ⟨rest, index + 1⟩) := by
  have seen : (Reading.mk (t :: rest) index).sees Token.isNumber := numeric
  unfold factor
  rw [if_pos seen]
  rfl

theorem factor_local : Local 1 factor := by
  intro r left outcome read
  by_cases seen : r.sees Token.isNumber
  · obtain ⟨t, rest, ahead, numeric, taken⟩ := take_of_sees seen
    rw [ahead, factor_of_number numeric] at read
    cases read
    exact ⟨[t], by rw [ahead]; rfl, rfl, Nat.le_refl 1,
      fun others _ => factor_of_number numeric others r.index⟩
  · have missing (others : List Token) (same : others.head? = r.rest.head?) :
        factor ⟨others, r.index⟩ = (.error (r.complain .expectedNumber), ⟨others, r.index⟩) := by
      have unseen : ¬ (Reading.mk others r.index).sees Token.isNumber := by
        simpa [sees, same] using seen
      unfold factor
      rw [if_neg unseen, complain_congr r.index .expectedNumber same]
    rw [missing r.rest rfl] at read
    cases read
    exact ⟨[], rfl, rfl, Nat.zero_le 1, fun others same => missing others (same Nat.one_pos)⟩

section Levels

variable {most : Nat} {first : Tree} {before : List Token}

theorem consumed_of_error {failure : Failure}
    (whole : Consumed most operand r left (.error failure) before) :
    Consumed (2 * most + 1) (operation kinds operand) r left (.error failure) before := by
  have bounded := whole.bounded
  refine ⟨whole.parts, whole.index, by omega, ?_⟩
  intro rest same
  exact operation_of_error (whole.alike rest fun _ => same (by omega))

theorem consumed_of_stops (whole : Consumed most operand r left (.ok first) before)
    (stops : Stops kinds left.rest) :
    Consumed (2 * most + 1) (operation kinds operand) r left (.ok first) before := by
  have bounded := whole.bounded
  refine ⟨whole.parts, whole.index, by omega, ?_⟩
  intro rest same
  have head := same (by omega)
  refine operation_of_stops (whole.alike rest fun _ => head) ?_
  intro t ahead
  exact stops t (by rw [← head, ahead])

variable {sign : Token} {after : List Token} {index : Nat}

/- The first operand stops in front of the sign, whatever stands behind that. -/
theorem operand_again (whole : Consumed most operand r ⟨sign :: after, index⟩ (.ok first) before)
    (rest : List Token) :
    operand ⟨before ++ sign :: rest, r.index⟩ = (.ok first, ⟨sign :: rest, index⟩) :=
  whole.alike (sign :: rest) fun _ => rfl

theorem consumed_of_other {fault : Fault}
    (whole : Consumed most operand r ⟨sign :: after, index⟩ (.ok first) before)
    (among : sign.kind ∈ kinds) (other : Operator.ofKind sign.kind = .error fault) :
    Consumed (2 * most + 1) (operation kinds operand) r ⟨after, index + 1⟩ (.error (.fault fault))
      (before ++ [sign]) := by
  have bounded := whole.bounded
  have reached : index = r.index + before.length := whole.index
  refine ⟨?_, ?_, ?_, ?_⟩
  · simp [whole.parts]
  · simp [reached, Nat.add_assoc]
  · simp only [List.length_append, List.length_singleton]
    omega
  · intro rest _
    rw [List.append_assoc, List.singleton_append,
      operation_of_sign (operand_again whole rest) among, other]

theorem consumed_of_sign {op : Operator} {later : List Token} {outcome : Except Failure Tree}
    (whole : Consumed most operand r ⟨sign :: after, index⟩ (.ok first) before)
    (among : sign.kind ∈ kinds) (converted : Operator.ofKind sign.kind = .ok op)
    (tail : Consumed most operand ⟨after, index + 1⟩ left outcome later) :
    Consumed (2 * most + 1) (operation kinds operand) r left (outcome.map (.operation op first))
      (before ++ sign :: later) := by
  have bounded := whole.bounded
  have bounded' := tail.bounded
  have reached : index = r.index + before.length := whole.index
  have ended : left.index = index + 1 + later.length := tail.index
  have parts : after = later ++ left.rest := tail.parts
  refine ⟨?_, ?_, ?_, ?_⟩
  · simp [whole.parts, parts]
  · simp only [ended, reached, List.length_append, List.length_cons]
    omega
  · simp only [List.length_append, List.length_cons]
    omega
  · intro rest same
    have answered := tail.alike rest fun short => same (by
      simp only [List.length_append, List.length_cons]
      omega)
    rw [List.append_assoc, List.cons_append,
      operation_of_sign (operand_again whole (later ++ rest)) among, converted]
    simp only [answered]

end Levels

/-- A level keeps the parser local: it reads two operands and the sign between them at most. -/
theorem operation_local {most : Nat} (operands : Local most operand) :
    Local (2 * most + 1) (operation kinds operand) := by
  intro r left outcome read
  rcases begun : operand r with ⟨failure | first, middle⟩
  · obtain ⟨before, whole⟩ := operands begun
    rw [operation_of_error begun] at read
    cases read
    exact ⟨before, consumed_of_error whole⟩
  · obtain ⟨before, whole⟩ := operands begun
    by_cases stops : Stops kinds middle.rest
    · rw [operation_of_stops begun stops] at read
      cases read
      exact ⟨before, consumed_of_stops whole stops⟩
    · obtain ⟨sign, ahead, among⟩ : ∃ t, middle.rest.head? = some t ∧ t.kind ∈ kinds := by
        simpa [Stops] using stops
      obtain ⟨rest, index⟩ := middle
      obtain ⟨after, rfl⟩ := List.head?_eq_some_iff.mp ahead
      rw [operation_of_sign begun among] at read
      cases converted : Operator.ofKind sign.kind with
      | error fault =>
        rw [converted] at read
        cases read
        exact ⟨_, consumed_of_other whole among converted⟩
      | ok op =>
        obtain ⟨later, tail⟩ := operands (r := ⟨after, index + 1⟩) rfl
        rw [converted] at read
        cases read
        exact ⟨_, consumed_of_sign whole among converted tail⟩

theorem expression_local : Local 7 expression :=
  operation_local (operation_local factor_local)

/- A rule that fails is not in front of a number. With one there, tokens of a derivation would be
   complete. -/
def Awaits {D : Type} (yield : D → List Token) (rule : Reading → Except Failure Tree × Reading) :
    Prop :=
  ∀ {r left : Reading} {failure : Failure}, (∀ t ∈ r.rest, t.Valued) →
    rule r = (.error failure, left) → failure = left.complain .expectedNumber ∧
      ∃ before, r.rest = before ++ left.rest ∧ ∀ t, t.isNumber → ∃ d, yield d = before ++ [t]

theorem factor_awaits : Awaits Factor.yield factor := by
  intro r left failure valued refused
  by_cases seen : r.sees Token.isNumber
  · obtain ⟨t, rest, ahead, numeric, taken⟩ := take_of_sees seen
    obtain ⟨tree, made⟩ := ofToken_of_valued (valued t (by rw [ahead]; simp)) numeric
    unfold factor at refused
    rw [if_pos seen, taken] at refused
    simp only [made] at refused
    cases refused
  · unfold factor at refused
    rw [if_neg seen] at refused
    cases refused
    exact ⟨rfl, [], rfl, fun t numeric => ⟨⟨t, isNumber_iff.mp numeric⟩, rfl⟩⟩

theorem operation_awaits {D : Type} {yield : D → List Token} {denotes : D → Tree → Prop}
    {follow : List Token → Prop} (exact : Exact yield denotes follow operand)
    (operators : ∀ kind ∈ kinds, ∃ op : Operator, op.kind = kind) (awaits : Awaits yield operand) :
    Awaits (@Level.yield kinds D yield) (operation kinds operand) := by
  intro r left failure valued refused
  rcases operation_error operators refused with whole |
    ⟨first, sign, rest, index, begun, among, ended⟩
  · obtain ⟨complaint, before, parts, complete⟩ := awaits valued whole
    refine ⟨complaint, before, parts, ?_⟩
    intro t numeric
    obtain ⟨d, yields⟩ := complete t numeric
    exact ⟨.one d, yields⟩
  · obtain ⟨d, parts, _⟩ := exact.sound begun
    have valued' : ∀ t ∈ rest, t.Valued := fun t member => valued t (by simp [parts, member])
    obtain ⟨complaint, before, parts', complete⟩ := awaits valued' ended
    have behind : rest = before ++ left.rest := parts'
    refine ⟨complaint, yield d ++ sign :: before, by simp [parts, behind], ?_⟩
    intro t numeric
    obtain ⟨e, yields⟩ := complete t numeric
    exact ⟨.two d sign among e, by simp [Level.yield, yields]⟩

theorem expression_awaits : Awaits Expression.yield expression :=
  operation_awaits term_exact (operator_of_mem [.add, .sub])
    (operation_awaits factor_exact (operator_of_mem [.mul, .div]) factor_awaits)

end Reading

section Answers

open Grammar

variable {ts us : List Token}

/- What reading tokens comes to, and how many of them were read. -/
def answer (strict : Bool) (ts : List Token) : Except Failure (Option Tree) × Nat :=
  (((Reading.start ts).parse strict).1, ((Reading.start ts).parse strict).2.index)

theorem answer_lenient (present : ts ≠ []) :
    answer false ts =
      ((Reading.start ts).expression.1.map some, (Reading.start ts).expression.2.index) := by
  unfold answer
  rcases read : (Reading.start ts).expression with ⟨failure | tree, r⟩
  · rw [Reading.parse_of_error (isBlank_start present) read]
    rfl
  · rw [Reading.parse_of_tree (isBlank_start present) read]
    rfl

/- Two lists that have the tokens in front and the next one in common. -/
theorem exists_append_of_take {before rest : List Token}
    (same : us.take (before.length + 1) = (before ++ rest).take (before.length + 1)) :
    ∃ others, us = before ++ others ∧ others.head? = rest.head? := by
  refine ⟨us.drop before.length, ?_, ?_⟩
  · have beginning := congrArg (List.take before.length) same
    rw [List.take_take, List.take_take, Nat.min_eq_left (Nat.le_succ _),
      List.take_left] at beginning
    rw [← List.take_append_drop before.length us, beginning, List.drop_left]
  · have next := congrArg (fun tokens : List Token => tokens[before.length]?) same
    simpa [List.getElem?_take, List.getElem?_append_right, List.head?_eq_getElem?] using next

/- The tokens that the lenient parser has read, and its answer in front of others. -/
theorem lenient_consumed (present : ts ≠ []) :
    ∃ before rest, ts = before ++ rest ∧ (answer false ts).2 = before.length ∧
      before.length ≤ 7 ∧ ∀ others, before ++ others ≠ [] →
        (before.length < 7 → others.head? = rest.head?) →
        answer false (before ++ others) = answer false ts := by
  rcases read : (Reading.start ts).expression with ⟨outcome, left⟩
  obtain ⟨before, whole⟩ := Reading.expression_local read
  have index : left.index = before.length := whole.index.trans (Nat.zero_add _)
  refine ⟨before, left.rest, whole.parts, ?_, whole.bounded, ?_⟩
  · rw [answer_lenient present, read]
    exact index
  · intro others present' same
    have again : (Reading.start (before ++ others)).expression =
        (outcome, ⟨others, left.index⟩) := whole.alike others same
    rw [answer_lenient present', answer_lenient present, read, again]

/-- Lenient reading looks at one token behind those that it reads. Where the tokens end there,
    others with as many in common end there too. -/
theorem lenient_congr
    (same : us.take ((answer false ts).2 + 1) = ts.take ((answer false ts).2 + 1)) :
    answer false us = answer false ts := by
  by_cases present : ts = []
  · subst present
    have none : us = [] := by
      simpa [answer, Reading.parse, Reading.isBlank, Reading.start] using same
    rw [none]
  · obtain ⟨before, rest, parts, read, _, alike⟩ := lenient_consumed present
    rw [read] at same
    have present' : us ≠ [] := by
      rintro rfl
      simp [present] at same
    have common : us.take (before.length + 1) = (before ++ rest).take (before.length + 1) := by
      rw [← parts, same]
    obtain ⟨others, rfl, head⟩ := exists_append_of_take common
    exact alike others present' fun _ => head

theorem lenient_take_seven (ts : List Token) : answer false (ts.take 7) = answer false ts := by
  by_cases present : ts = []
  · subst present
    rfl
  · obtain ⟨before, rest, parts, _, bounded, alike⟩ := lenient_consumed present
    have first : ts.take 7 = before ++ rest.take (7 - before.length) := by
      rw [parts, List.take_append, List.take_of_length_le bounded]
    have present' : before ++ rest.take (7 - before.length) ≠ [] := by
      rw [← first]
      simp [present]
    rw [first]
    refine alike _ present' ?_
    intro short
    simp only [List.head?_take]
    rw [if_neg (by omega)]

/- How reading valued tokens ends, in both ways of reading them. -/
inductive Verdict (ts : List Token) : Prop where
  | accepted {tree : Tree} (lenient : answer false ts = (.ok (some tree), ts.length))
      (strict : parse true ts = .ok (some tree)) : Verdict ts
  | leftover {before rest : List Token} {t : Token} {tree : Tree} {label : String}
      (parts : ts = before ++ t :: rest) (derived : ∃ d : Expression, d.yield = before)
      (shown : t.label = .ok label) (lenient : answer false ts = (.ok (some tree), before.length))
      (strict : parse true ts = .error (.line (.unexpectedToken before.length (some label)))) :
      Verdict ts
  | missing {before rest : List Token} {found : Option String} (parts : ts = before ++ rest)
      (awaited : ∀ t, t.isNumber → ∃ d : Expression, d.yield = before ++ [t])
      (shown : rest.head?.mapM Token.label = .ok found)
      (lenient : answer false ts =
        (.error (.line (.expectedNumber before.length found)), before.length))
      (strict : parse true ts = .error (.line (.expectedNumber before.length found))) : Verdict ts

/- The parser counts what it reads. -/
theorem index_of_parts {outcome : Except Failure Tree} {left : Reading} {before : List Token}
    (read : (Reading.start ts).expression = (outcome, left)) (parts : ts = before ++ left.rest) :
    left.index = before.length := by
  obtain ⟨consumed, whole⟩ := Reading.expression_local read
  have same : before ++ left.rest = consumed ++ left.rest := parts.symm.trans whole.parts
  rw [List.append_cancel_right same]
  exact whole.index.trans (Nat.zero_add _)

/-- Valued tokens are read in both ways alike, up to what is left. -/
theorem verdict (present : ts ≠ []) (valued : ∀ t ∈ ts, t.Valued) : Verdict ts := by
  have strict := parse_eq true present
  have lenient := answer_lenient present
  rcases read : (Reading.start ts).expression with ⟨failure | tree, left⟩
  · obtain ⟨complaint, before, parts, awaited⟩ := Reading.expression_awaits valued read
    change ts = before ++ left.rest at parts
    have counted := index_of_parts read parts
    rw [parts] at valued
    obtain ⟨found, shown, complained⟩ := Reading.complain_eq_line .expectedNumber
      (List.forall_mem_append.mp valued).2
    rw [complained, counted] at complaint
    rw [read, complaint] at strict lenient
    rw [counted] at lenient
    exact .missing parts awaited shown lenient strict
  · obtain ⟨d, parts, _⟩ := Reading.expression_exact.sound read
    change ts = d.yield ++ left.rest at parts
    have counted := index_of_parts read parts
    rw [read] at strict lenient
    rw [counted] at lenient
    obtain ⟨rest, index⟩ := left
    cases rest with
    | nil =>
      have whole : d.yield = ts := by simpa using parts.symm
      rw [whole] at lenient
      exact .accepted lenient strict
    | cons t rest =>
      obtain ⟨label, shown⟩ := Token.label_of_valued (valued t (by simp [parts]))
      change index = d.yield.length at counted
      have complained : (Reading.mk (t :: rest) index).complain .unexpectedToken =
          .line (.unexpectedToken d.yield.length (some label)) := by
        simp only [Reading.complain, shown, counted]
      exact .leftover parts ⟨d, rfl⟩ shown lenient (strict.trans (congrArg Except.error complained))

/- Both ways of reading refuse tokens with two errors only. -/
theorem error_of_parse {strict : Bool} {error : LineError} (valued : ∀ t ∈ ts, t.Valued)
    (refused : parse strict ts = .error (.line error)) :
    ∃ i found, error = .expectedNumber i found ∨ error = .unexpectedToken i found := by
  have present : ts ≠ [] := by
    rintro rfl
    cases refused
  have lenient : parse false ts = (answer false ts).1 := rfl
  cases verdict present valued with
  | accepted read read' =>
    rw [read] at lenient
    cases strict
    · cases lenient.symm.trans refused
    · cases read'.symm.trans refused
  | leftover _ _ _ read refused' =>
    rw [read] at lenient
    cases strict
    · cases lenient.symm.trans refused
    · cases refused'.symm.trans refused
      exact ⟨_, _, .inr rfl⟩
  | missing _ _ _ refused' refused'' =>
    rw [refused'] at lenient
    cases strict
    · cases lenient.symm.trans refused
      exact ⟨_, _, .inl rfl⟩
    · cases refused''.symm.trans refused
      exact ⟨_, _, .inl rfl⟩

theorem strict_ok_iff (present : ts ≠ []) (valued : ∀ t ∈ ts, t.Valued) (tree : Tree) :
    parse true ts = .ok (some tree) ↔ answer false ts = (.ok (some tree), ts.length) := by
  cases verdict present valued with
  | accepted lenient strict => simp [lenient, strict]
  | @leftover before _ _ _ _ parts _ _ lenient strict =>
    have short : before.length ≠ ts.length := by simp [parts]
    simp [lenient, strict, short]
  | missing _ _ _ lenient strict => simp [lenient, strict]

theorem strict_missing_iff (present : ts ≠ []) (valued : ∀ t ∈ ts, t.Valued) (i : Nat)
    (found : Option String) :
    parse true ts = .error (.line (.expectedNumber i found)) ↔
      parse false ts = .error (.line (.expectedNumber i found)) := by
  change _ ↔ (answer false ts).1 = _
  cases verdict present valued with
  | accepted lenient strict => simp [lenient, strict]
  | leftover _ _ _ lenient strict => simp [lenient, strict]
  | missing _ _ _ lenient strict => simp [lenient, strict]

theorem strict_leftover_iff (present : ts ≠ []) (valued : ∀ t ∈ ts, t.Valued) (i : Nat) :
    (∃ found, parse true ts = .error (.line (.unexpectedToken i found))) ↔
      i < ts.length ∧ ∃ tree, answer false ts = (.ok (some tree), i) := by
  cases verdict present valued with
  | accepted lenient strict =>
    simp only [lenient, strict]
    refine iff_of_false (by simp) ?_
    rintro ⟨short, tree, same⟩
    exact absurd (Prod.mk.inj same).2 (Nat.ne_of_gt short)
  | @leftover before _ _ first label parts _ _ lenient strict =>
    have short : before.length < ts.length := by simp [parts]
    simp only [lenient, strict]
    constructor
    · rintro ⟨found, same⟩
      simp only [Except.error.injEq, Failure.line.injEq, LineError.unexpectedToken.injEq] at same
      exact ⟨same.1 ▸ short, first, by rw [same.1]⟩
    · rintro ⟨_, tree, same⟩
      exact ⟨some label, by rw [(Prod.mk.inj same).2]⟩
  | missing _ _ _ lenient strict => simp [lenient, strict]

/- Lenient reading fails where it stops. -/
theorem answer_of_missing {i : Nat} {found : Option String} (present : ts ≠ [])
    (valued : ∀ t ∈ ts, t.Valued)
    (refused : parse false ts = .error (.line (.expectedNumber i found))) :
    answer false ts = (.error (.line (.expectedNumber i found)), i) := by
  change (answer false ts).1 = _ at refused
  cases verdict present valued with
  | accepted lenient _ => simp [lenient] at refused
  | leftover _ _ _ lenient _ => simp [lenient] at refused
  | missing _ _ _ lenient _ =>
    simp only [lenient, Except.error.injEq, Failure.line.injEq,
      LineError.expectedNumber.injEq] at refused
    obtain ⟨rfl, rfl⟩ := refused
    exact lenient

/-- Lenient reading accepts what strict reading accepts, and stops at what strict reading finds
    left. The two miss a number in the same place. What lenient reading comes to is settled by the
    tokens up to the one behind those that it reads, and by the first seven. -/
theorem lenient_and_strict :
    (∀ ts : List Token, ts ≠ [] → (∀ t ∈ ts, t.WellFormed) →
      (∀ tree, parse true ts = .ok (some tree) ↔ answer false ts = (.ok (some tree), ts.length)) ∧
      (∀ i found, parse true ts = .error (.line (.expectedNumber i found)) ↔
        parse false ts = .error (.line (.expectedNumber i found))) ∧
      (∀ i, (∃ found, parse true ts = .error (.line (.unexpectedToken i found))) ↔
        i < ts.length ∧ ∃ tree, answer false ts = (.ok (some tree), i)) ∧
      ((∃ tree i, answer false ts = (.ok (some tree), i)) ∨
        ∃ i found, answer false ts = (.error (.line (.expectedNumber i found)), i)) ∧
      (∀ tree i us, answer false ts = (.ok (some tree), i) → us.take (i + 1) = ts.take (i + 1) →
        answer false us = (.ok (some tree), i)) ∧
      (∀ i found us, parse false ts = .error (.line (.expectedNumber i found)) →
        us.take (i + 1) = ts.take (i + 1) →
        parse false us = .error (.line (.expectedNumber i found)))) ∧
    (∀ ts : List Token, answer false (ts.take 7) = answer false ts) := by
  refine ⟨?_, lenient_take_seven⟩
  intro ts present wellFormed
  have valued : ∀ t ∈ ts, t.Valued := fun t member => (wellFormed t member).valued
  refine ⟨strict_ok_iff present valued, strict_missing_iff present valued,
    strict_leftover_iff present valued, ?_, ?_, ?_⟩
  · cases verdict present valued with
    | accepted lenient _ => exact .inl ⟨_, _, lenient⟩
    | leftover _ _ _ lenient _ => exact .inl ⟨_, _, lenient⟩
    | missing _ _ _ lenient _ => exact .inr ⟨_, _, lenient⟩
  · intro tree i us read same
    rw [← read]
    exact lenient_congr (by rw [read, same])
  · intro i found us refused same
    have stopped := answer_of_missing present valued refused
    have again : answer false us = answer false ts := lenient_congr (by rw [stopped, same])
    exact (congrArg Prod.fst again).trans refused

/- The second plus is left, and it makes no difference what stands behind it. -/
theorem lenient_and_strict_of_leftover :
    ∃ ts : List Token, ts = [⟨.integer, some (.integer 1)⟩, ⟨.plus, none⟩,
        ⟨.integer, some (.integer 2)⟩, ⟨.plus, none⟩, ⟨.integer, some (.integer 3)⟩] ∧
      ts ≠ [] ∧ (∀ t ∈ ts, t.WellFormed) ∧ ∃ tree, answer false ts = (.ok (some tree), 3) ∧
        answer false (ts.take 4 ++ [⟨.leftParen, none⟩]) = (.ok (some tree), 3) := by
  have wellFormed : ∀ t ∈ [Token.mk .integer (some (.integer 1)), ⟨.plus, none⟩,
      ⟨.integer, some (.integer 2)⟩, ⟨.plus, none⟩, ⟨.integer, some (.integer 3)⟩],
      t.WellFormed := by
    have number {n : Nat} (small : n ≤ 3) : Token.WellFormed ⟨.integer, some (.integer n)⟩ :=
      .integer (Nat.le_trans small (by decide))
    have plus : Token.WellFormed ⟨.plus, none⟩ := .symbol rfl
    simpa using ⟨number (n := 1) (by decide), plus, number (n := 2) (by decide), plus,
      number (n := 3) (by decide)⟩
  obtain ⟨_, _, leftover, _, ahead, _⟩ := lenient_and_strict.1 _ (by simp) wellFormed
  obtain ⟨_, tree, read⟩ := (leftover 3).mp ⟨some "PLUS", by decide +kernel⟩
  exact ⟨_, rfl, by simp, wellFormed, tree, read, ahead tree 3 _ read rfl⟩

end Answers

end LineCalc
