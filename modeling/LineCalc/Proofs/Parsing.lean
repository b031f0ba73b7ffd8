import LineCalc.Proofs.Grammar
import LineCalc.Proofs.WellFormed
import LineCalc.Tree.Reading

/-!
The parser against the grammar. Each rule is exact for its level (`operation_exact` serves both):
it returns the tree of a derivation, and refuses all other tokens with an error of the line. So
strict reading accepts the derivable lines only, and no lookup or conversion in it can fail.
-/
namespace LineCalc

theorem Operator.ofKind_eq_ok_iff {kind : Kind} {op : Operator} :
    Operator.ofKind kind = .ok op ↔ op.kind = kind := by
  cases kind <;> cases op <;> simp [Operator.ofKind, Operator.kind]

namespace Reading

open Grammar

/- A token that is seen can be read. -/
theorem take_of_sees {r : Reading} {test : Token → Bool} (seen : r.sees test) :
    ∃ t rest, r = ⟨t :: rest, r.index⟩ ∧ test t ∧ r.take = (.ok t, ⟨rest, r.index + 1⟩) := by
  obtain ⟨rest, index⟩ := r
  cases rest with
  | nil => cases seen
  | cons t rest => exact ⟨t, rest, rfl, seen, rfl⟩

theorem sees_of_stops {kinds : List Kind} {rest : List Token} (index : Nat)
    (stops : Stops kinds rest) :
    (Reading.mk rest index).sees (fun t => kinds.contains t.kind) = false := by
  cases rest with
  | nil => rfl
  | cons t rest =>
    have other := stops t rfl
    simpa [sees] using other

theorem stops_of_sees {kinds : List Kind} {r : Reading}
    (unseen : r.sees (fun t => kinds.contains t.kind) = false) : Stops kinds r.rest := by
  intro t head
  simpa [sees, head] using unseen

/- A complaint is an error of the line if the token ahead has a label. -/
theorem complain_eq_line_iff {r : Reading} {error : LineError}
    (complaint : Nat → Option String → LineError) : r.complain complaint = .line error ↔
      ∃ found, r.rest.head?.mapM Token.label = .ok found ∧ error = complaint r.index found := by
  obtain ⟨rest, index⟩ := r
  cases rest with
  | nil => simp [complain, pure, Except.pure, eq_comm]
  | cons t rest =>
    cases shown : t.label with
    | error fault => simp [complain, shown, Functor.map, Except.map]
    | ok label => simp [complain, shown, Functor.map, Except.map, eq_comm]

theorem complain_eq_line {r : Reading} (error : Nat → Option String → LineError)
    (valued : ∀ t ∈ r.rest, t.Valued) :
    ∃ found, r.rest.head?.mapM Token.label = .ok found ∧
      r.complain error = .line (error r.index found) := by
  have known : ∃ found, r.rest.head?.mapM Token.label = .ok found := by
    cases ahead : r.rest with
    | nil => exact ⟨none, rfl⟩
    | cons t rest =>
      obtain ⟨label, shown⟩ := Token.label_of_valued (valued t (by simp [ahead]))
      exact ⟨some label, by rw [List.head?_cons, Option.mapM_some, shown]; rfl⟩
  obtain ⟨found, shown⟩ := known
  exact ⟨found, shown, (complain_eq_line_iff error).mpr ⟨found, shown, rfl⟩⟩

/-- What a rule of the parser has to do with derivations: it returns the tree of a derivation in
    front of what may follow, whatever it returns is such a tree, and all else is an error of the
    line. -/
structure Exact {D : Type} (yield : D → List Token) (denotes : D → Tree → Prop)
    (follow : List Token → Prop) (rule : Reading → Except Failure Tree × Reading) : Prop where
  complete : ∀ {d : D} {tree : Tree} {rest : List Token} (index : Nat), denotes d tree →
    follow rest → rule ⟨yield d ++ rest, index⟩ = (.ok tree, ⟨rest, index + (yield d).length⟩)
  sound : ∀ {r left : Reading} {tree : Tree}, rule r = (.ok tree, left) →
    ∃ d, r.rest = yield d ++ left.rest ∧ denotes d tree
  refuses : ∀ {r left : Reading} {failure : Failure}, (∀ t ∈ r.rest, t.Valued) →
    rule r = (.error failure, left) → ∃ error, failure = .line error ∧ error.title = "ParseError"

theorem ofToken_eq_ok_iff {t : Token} {tree : Tree} :
    Tree.ofToken t = .ok tree ↔
      ∃ v x, t.value = some v ∧ v.toDouble = .ok x ∧ tree = .number x t.kind := by
  unfold Tree.ofToken Tree.ofNumeral
  cases value : t.value with
  | none => simp
  | some v =>
    dsimp only
    constructor
    · intro made
      cases converted : v.toDouble with
      | error fault =>
        rw [converted] at made
        cases made
      | ok x =>
        rw [converted] at made
        exact ⟨v, x, rfl, converted, (Except.ok.inj made).symm⟩
    · rintro ⟨w, x, same, converted, rfl⟩
      obtain rfl := Option.some.inj same
      rw [converted]
      rfl

theorem ofToken_of_valued {t : Token} (valued : t.Valued) (numeric : t.isNumber) :
    ∃ tree, Tree.ofToken t = .ok tree := by
  cases valued with
  | number _ finite =>
    obtain ⟨negative, m, converted⟩ := finite
    exact ⟨_, ofToken_eq_ok_iff.mpr ⟨_, _, rfl, converted, rfl⟩⟩
  | symbol symbolic => exact absurd numeric (by simp [Token.isNumber, symbolic])

theorem isNumber_iff {t : Token} :
    t.isNumber ↔ t.kind = .integer ∨ t.kind = .decimal := by
  unfold Token.isNumber
  cases t.kind <;> simp [Kind.isNumber]

theorem factor_exact : Exact Factor.yield Factor.Denotes (fun _ => True) factor where
  complete := by
    intro d tree rest index meaning _
    cases meaning with
    | number value converted =>
      have made := ofToken_eq_ok_iff.mpr ⟨_, _, value, converted, rfl⟩
      have seen : (Reading.mk (d.token :: rest) index).sees Token.isNumber :=
        isNumber_iff.mpr d.numeric
      change factor ⟨d.token :: rest, index⟩ = _
      unfold factor
      rw [if_pos seen]
      simp only [take, made]
      rfl
  sound := by
    intro r left tree read
    unfold factor at read
    split at read
    · rename_i seen
      obtain ⟨t, rest, ahead, numeric, taken⟩ := take_of_sees seen
      rw [taken] at read
      obtain ⟨made, rfl⟩ := Prod.mk.inj read
      cases value : Tree.ofToken t with
      | error fault =>
        rw [value] at made
        cases made
      | ok number =>
        rw [value] at made
        obtain rfl := Except.ok.inj made
        obtain ⟨v, x, held, converted, rfl⟩ := ofToken_eq_ok_iff.mp value
        rw [ahead]
        exact ⟨⟨t, isNumber_iff.mp numeric⟩, rfl, .number held converted⟩
    · cases read
  refuses := by
    intro r left failure valued refused
    unfold factor at refused
    split at refused
    · rename_i seen
      obtain ⟨t, rest, ahead, numeric, taken⟩ := take_of_sees seen
      have member : t ∈ r.rest := by
        rw [ahead]
        simp
      obtain ⟨tree, made⟩ := ofToken_of_valued (valued t member) numeric
      rw [taken] at refused
      simp only [made] at refused
      cases refused
    · obtain ⟨found, _, complaint⟩ := complain_eq_line .expectedNumber valued
      rw [complaint] at refused
      cases refused
      exact ⟨_, rfl, rfl⟩

variable {D : Type} {yield : D → List Token} {denotes : D → Tree → Prop}
  {follow : List Token → Prop} {operand : Reading → Except Failure Tree × Reading}
  {kinds : List Kind} {r left : Reading}

/- The two ways in which an operation succeeds. -/
theorem operation_ok {tree : Tree} (read : operation kinds operand r = (.ok tree, left)) :
    (operand r = (.ok tree, left) ∧ Stops kinds left.rest) ∨
      ∃ first second sign rest index op, operand r = (.ok first, ⟨sign :: rest, index⟩) ∧
        sign.kind ∈ kinds ∧ op.kind = sign.kind ∧
        operand ⟨rest, index + 1⟩ = (.ok second, left) ∧ tree = .operation op first second := by
  unfold operation at read
  split at read
  · cases read
  · rename_i first middle begun
    split at read
    · rename_i seen
      obtain ⟨sign, rest, ahead, among, taken⟩ := take_of_sees seen
      rw [taken] at read
      dsimp only at read
      split at read
      · cases read
      · rename_i op converted
        split at read
        · cases read
        · rename_i second last ended
          cases read
          rw [ahead] at begun
          exact .inr ⟨first, second, sign, rest, middle.index, op, begun, by simpa using among,
            Operator.ofKind_eq_ok_iff.mp converted, ended, rfl⟩
    · rename_i unseen
      cases read
      exact .inl ⟨begun, stops_of_sees (by simpa using unseen)⟩

/- The two ways in which an operation fails, if its kinds are those of operators. -/
theorem operation_error {failure : Failure}
    (operators : ∀ kind ∈ kinds, ∃ op : Operator, op.kind = kind)
    (refused : operation kinds operand r = (.error failure, left)) :
    operand r = (.error failure, left) ∨
      ∃ first sign rest index, operand r = (.ok first, ⟨sign :: rest, index⟩) ∧
        sign.kind ∈ kinds ∧ operand ⟨rest, index + 1⟩ = (.error failure, left) := by
  unfold operation at refused
  split at refused
  · rename_i begun
    cases refused
    exact .inl begun
  · rename_i first middle begun
    split at refused
    · rename_i seen
      obtain ⟨sign, rest, ahead, among, taken⟩ := take_of_sees seen
      rw [taken] at refused
      dsimp only at refused
      split at refused
      · rename_i fault converted
        obtain ⟨op, same⟩ := operators sign.kind (by simpa using among)
        rw [Operator.ofKind_eq_ok_iff.mpr same] at converted
        cases converted
      · split at refused
        · rename_i ended
          cases refused
          rw [ahead] at begun
          exact .inr ⟨first, sign, rest, middle.index, begun, by simpa using among, ended⟩
        · cases refused
    · cases refused

/-- A level of operations is exact over an exact operand. -/
theorem operation_exact (exact : Exact yield denotes follow operand)
    (operators : ∀ kind ∈ kinds, ∃ op : Operator, op.kind = kind)
    (signs : ∀ t rest, t.kind ∈ kinds → follow (t :: rest)) :
    Exact (@Level.yield kinds D yield) (Level.Denotes denotes)
      (fun rest => follow rest ∧ Stops kinds rest) (operation kinds operand) where
  complete := by
    intro d tree rest index meaning follows
    obtain ⟨follows, stops⟩ := follows
    cases meaning with
    | @one operand _ meaning =>
      have begun := exact.complete index meaning follows
      have unseen := sees_of_stops (index + (yield operand).length) stops
      unfold operation
      simp only [Level.yield, begun, unseen]
      rfl
    | @two first second sign among op _ _ same firstMeaning secondMeaning =>
      have begun := exact.complete index firstMeaning (signs sign (yield second ++ rest) among)
      have ended := exact.complete (index + (yield first).length + 1) secondMeaning follows
      have converted := Operator.ofKind_eq_ok_iff.mpr same
      have seen : (Reading.mk (sign :: (yield second ++ rest)) (index + (yield first).length)).sees
          (fun t => kinds.contains t.kind) := by simpa [sees] using among
      unfold operation
      simp only [Level.yield, List.append_assoc, List.cons_append, begun, if_pos seen, take,
        converted, ended, List.length_append, List.length_cons]
      congr 2
      omega
  sound := by
    intro r left tree read
    rcases operation_ok read with ⟨whole, _⟩ | ⟨first, second, sign, rest, index, op, begun, among,
      same, ended, rfl⟩
    · obtain ⟨d, parts, meaning⟩ := exact.sound whole
      exact ⟨.one d, parts, .one meaning⟩
    · obtain ⟨d, parts, meaning⟩ := exact.sound begun
      obtain ⟨e, others, meaning'⟩ := exact.sound ended
      refine ⟨.two d sign among e, ?_, .two same meaning meaning'⟩
      simp only at parts others
      simp [Level.yield, parts, others]
  refuses := by
    intro r left failure valued refused
    rcases operation_error operators refused with whole |
      ⟨first, sign, rest, index, begun, _, ended⟩
    · exact exact.refuses valued whole
    · obtain ⟨d, parts, _⟩ := exact.sound begun
      have valued' : ∀ t ∈ rest, t.Valued := by
        intro t member
        exact valued t (by simp [parts, member])
      exact exact.refuses valued' ended

theorem term_exact :
    Exact Term.yield Term.Denotes (fun rest => True ∧ Stops [.times, .divide] rest) term :=
  operation_exact factor_exact (operator_of_mem [.mul, .div]) fun _ _ _ => trivial

theorem expression_exact : Exact Expression.yield Expression.Denotes Follows expression :=
  operation_exact term_exact (operator_of_mem [.add, .sub]) fun _ rest sign =>
    ⟨trivial, additive_stops rest sign⟩

variable {strict : Bool} {r left : Reading}

theorem parse_of_error {failure : Failure} (present : r.isBlank = false)
    (read : r.expression = (.error failure, left)) : r.parse strict = (.error failure, left) := by
  unfold Reading.parse
  rw [present, if_neg Bool.false_ne_true, read]

theorem parse_of_tree {tree : Tree} (present : r.isBlank = false)
    (read : r.expression = (.ok tree, left)) :
    r.parse strict = if strict && !left.rest.isEmpty then
      (.error (left.complain .unexpectedToken), left) else (.ok (some tree), left) := by
  unfold Reading.parse
  rw [present, if_neg Bool.false_ne_true, read]

end Reading

section Parse

open Grammar

variable {ts : List Token}

theorem isBlank_start (present : ts ≠ []) : (Reading.start ts).isBlank = false := by
  cases ts with
  | nil => exact absurd rfl present
  | cons t ts => rfl

theorem parse_eq (strict : Bool) (present : ts ≠ []) :
    parse strict ts = match (Reading.start ts).expression with
      | (.error failure, _) => .error failure
      | (.ok tree, r) =>
        if strict && !r.rest.isEmpty then .error (r.complain .unexpectedToken)
        else .ok (some tree) := by
  unfold parse
  rcases read : (Reading.start ts).expression with ⟨failure | tree, r⟩
  · rw [Reading.parse_of_error (isBlank_start present) read]
  · rw [Reading.parse_of_tree (isBlank_start present) read]
    cases more : strict && !r.rest.isEmpty <;> simp [more]

/- Strict reading needs the expression to take all tokens. -/
theorem parse_eq_ok_iff (present : ts ≠ []) {tree : Tree} :
    parse true ts = .ok (some tree) ↔
      ∃ index, (Reading.start ts).expression = (.ok tree, ⟨[], index⟩) := by
  rw [parse_eq true present]
  rcases (Reading.start ts).expression with ⟨failure | first, rest, index⟩
  · simp
  · cases rest <;> simp

theorem exists_tree_of_parse {strict : Bool} {tree : Option Tree} (present : ts ≠ [])
    (read : parse strict ts = .ok tree) : ∃ found, tree = some found := by
  rw [parse_eq strict present] at read
  split at read
  · cases read
  · split at read
    · cases read
    · exact ⟨_, (Except.ok.inj read).symm⟩

theorem ne_nil_of_inOrder {tree : Tree} (order : InOrder tree ts) : ts ≠ [] := by
  cases order <;> simp

theorem parse_iff_derivation (present : ts ≠ []) {tree : Tree} :
    parse true ts = .ok (some tree) ↔ ∃ d : Expression, d.yield = ts ∧ d.Denotes tree := by
  rw [parse_eq_ok_iff present]
  constructor
  · rintro ⟨index, read⟩
    obtain ⟨d, parts, meaning⟩ := Reading.expression_exact.sound read
    exact ⟨d, by simpa [Reading.start] using parts.symm, meaning⟩
  · rintro ⟨d, rfl, meaning⟩
    have read := Reading.expression_exact.complete 0 meaning follows_nil
    rw [List.append_nil] at read
    exact ⟨_, read⟩

/- Reading an expression parts valued tokens into those of a derivation and those behind it. -/
theorem parts_of_expression {r : Reading} {tree : Tree} (valued : ∀ t ∈ ts, t.Valued)
    (read : (Reading.start ts).expression = (.ok tree, r)) :
    ∃ d : Expression, d.Denotes tree ∧ (∀ t ∈ d.yield, t.Valued) ∧ ∀ t ∈ r.rest, t.Valued := by
  obtain ⟨d, parts, meaning⟩ := Reading.expression_exact.sound read
  have all : ∀ t ∈ d.yield ++ r.rest, t.Valued := by
    rw [← parts]
    exact valued
  exact ⟨d, meaning, List.forall_mem_append.mp all⟩

/-- Valued tokens are refused with errors of the line only. -/
theorem title_of_parse_error {strict : Bool} {failure : Failure} (valued : ∀ t ∈ ts, t.Valued)
    (refused : parse strict ts = .error failure) :
    ∃ error, failure = .line error ∧ error.title = "ParseError" := by
  have present : ts ≠ [] := by
    rintro rfl
    cases refused
  rw [parse_eq strict present] at refused
  split at refused
  · rename_i early _ read
    obtain rfl := Except.error.inj refused
    exact Reading.expression_exact.refuses valued read
  · rename_i tree r read
    obtain ⟨_, _, _, behind⟩ := parts_of_expression valued read
    split at refused
    · obtain ⟨found, _, complaint⟩ := Reading.complain_eq_line .unexpectedToken behind
      rw [complaint] at refused
      cases refused
      exact ⟨_, rfl, rfl⟩
    · cases refused

/- A tree that is read is that of a derivation of the first tokens, in strict reading of all. -/
theorem derivation_of_parse {strict : Bool} {tree : Tree}
    (read : parse strict ts = .ok (some tree)) :
    ∃ (d : Expression) (rest : List Token), ts = d.yield ++ rest ∧ d.Denotes tree := by
  have present : ts ≠ [] := by
    rintro rfl
    cases read
  rw [parse_eq strict present] at read
  split at read
  · cases read
  · rename_i first r begun
    obtain ⟨d, parts, meaning⟩ := Reading.expression_exact.sound begun
    split at read
    · cases read
    · obtain rfl := Option.some.inj (Except.ok.inj read)
      exact ⟨d, r.rest, parts, meaning⟩

/- The trees of valued tokens are finite. -/
theorem finite_of_parse {strict : Bool} {tree : Tree} (valued : ∀ t ∈ ts, t.Valued)
    (read : parse strict ts = .ok (some tree)) : tree.Finite := by
  obtain ⟨d, rest, rfl, meaning⟩ := derivation_of_parse read
  exact expression_finite d tree meaning (List.forall_mem_append.mp valued).1

/-- Strict reading is the grammar. Tokens with the values that their kinds call for have a tree
    exactly if they are derivable, which they are in one way, and it is the tree that the derivation
    denotes. The tokens of a tree of two levels are read as the tree. All other lines are errors of
    the line. -/
theorem strict_parse_exact :
    (∀ ts : List Token, ts ≠ [] → (∀ t ∈ ts, t.Valued) →
      (∀ tree, parse true ts = .ok (some tree) ↔ ∃ d : Expression, d.yield = ts ∧ d.Denotes tree) ∧
      ((∃ tree, parse true ts = .ok (some tree)) ↔ ∃ d : Expression, d.yield = ts) ∧
      (∀ d e : Expression, d.yield = ts → e.yield = ts → d = e) ∧
      ((¬ ∃ d : Expression, d.yield = ts) →
        ∃ error, parse true ts = .error (.line error) ∧ error.title = "ParseError")) ∧
    (∀ tree, IsExpression tree → (∃ ts, InOrder tree ts) ∧
      ∀ ts, InOrder tree ts → parse true ts = .ok (some tree)) := by
  refine ⟨?_, ?_⟩
  · intro ts present valued
    have derivable :
        (∃ tree, parse true ts = .ok (some tree)) ↔ ∃ d : Expression, d.yield = ts := by
      constructor
      · rintro ⟨tree, read⟩
        obtain ⟨d, yields, _⟩ := (parse_iff_derivation present).mp read
        exact ⟨d, yields⟩
      · rintro ⟨d, rfl⟩
        obtain ⟨tree, meaning⟩ := expression_denotes d valued
        exact ⟨tree, (parse_iff_derivation present).mpr ⟨d, rfl, meaning⟩⟩
    refine ⟨fun tree => parse_iff_derivation present, derivable, ?_, ?_⟩
    · intro d e yields yields'
      exact yield_injective (yields.trans yields'.symm)
    · intro underivable
      cases read : parse true ts with
      | error failure =>
        obtain ⟨error, rfl, title⟩ := title_of_parse_error valued read
        exact ⟨error, rfl, title⟩
      | ok tree =>
        obtain ⟨tree, rfl⟩ := exists_tree_of_parse present read
        exact absurd (derivable.mp ⟨tree, read⟩) underivable
  · intro tree expression
    refine ⟨inOrder_exists expression, ?_⟩
    intro ts order
    obtain ⟨d, yields, meaning⟩ := expression_of_inOrder expression order
    exact (parse_iff_derivation (ne_nil_of_inOrder order)).mpr ⟨d, yields, meaning⟩

theorem strict_parse_of_two_numbers :
    ∃ ts : List Token, ts = [⟨.integer, some (.integer 1)⟩, ⟨.plus, none⟩,
        ⟨.integer, some (.integer 2)⟩] ∧ ts ≠ [] ∧ (∀ t ∈ ts, t.Valued) ∧
      ∃ tree, parse true ts = .ok (some tree) := by
  have one : Token.Valued ⟨.integer, some (.integer 1)⟩ :=
    .number rfl (Numeral.finite_of_small (by decide))
  have two : Token.Valued ⟨.integer, some (.integer 2)⟩ :=
    .number rfl (Numeral.finite_of_small (by decide))
  have plus : Token.Valued ⟨.plus, none⟩ := .symbol rfl
  have valued : ∀ t ∈ [Token.mk .integer (some (.integer 1)), ⟨.plus, none⟩,
      ⟨.integer, some (.integer 2)⟩], t.Valued := by
    simpa using ⟨one, plus, two⟩
  have derivation : ∃ d : Expression, d.yield = [⟨.integer, some (.integer 1)⟩, ⟨.plus, none⟩,
      ⟨.integer, some (.integer 2)⟩] :=
    ⟨.two (.one ⟨⟨.integer, some (.integer 1)⟩, .inl rfl⟩) ⟨.plus, none⟩ (by decide)
      (.one ⟨⟨.integer, some (.integer 2)⟩, .inl rfl⟩), rfl⟩
  have exact := (strict_parse_exact.1 _ (by simp) valued).2.1.mpr derivation
  exact ⟨_, rfl, by simp, valued, exact⟩

end Parse

end LineCalc
