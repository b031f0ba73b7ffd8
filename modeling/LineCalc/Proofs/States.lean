import LineCalc.Proofs.Lookahead
import LineCalc.Proofs.Running

/-!
The states of an outcome: a line has failed, it is blank, or it has a value. Each outcome is in
exactly one of them (`run_in_one_state`), and the state fixes which parts it has and what they are.
What the lexer knows of its numbers holds of the leaves of the tree, so that all parts can be shown.
-/
namespace LineCalc

/- No place of the tree is empty, and all its numbers are such. -/
inductive Tree.Every (holds : Binary64 → Kind → Prop) : Tree → Prop where
  | number {x : Binary64} {kind : Kind} (leaf : holds x kind) : Every holds (.number x kind)
  | operation {op : Operator} {left right : Tree} (first : Every holds left)
      (second : Every holds right) : Every holds (.operation op left right)

/- Numbers as the lexer makes them: finite and without a sign, and an integer exactly if it is to be
   shown as one. -/
inductive InLexerRange : Binary64 → Kind → Prop where
  | integer {n : Nat} {m : Magnitude} (small : n ≤ Literal.largestInteger)
      (whole : m.units = n * unitsPerOne) : InLexerRange (.finite false m) .integer
  | decimal (m : Magnitude) : InLexerRange (.finite false m) .decimal

namespace Grammar

variable {kinds : List Kind} {Operand : Type} {yield : Operand → List Token}
  {denotes : Operand → Tree → Prop} {holds : Binary64 → Kind → Prop} {valid : Token → Prop}

theorem level_every
    (operand : ∀ d tree, denotes d tree → (∀ t ∈ yield d, valid t) → tree.Every holds)
    (d : Level kinds Operand) (tree : Tree) (meaning : Level.Denotes denotes d tree)
    (all : ∀ t ∈ d.yield yield, valid t) : tree.Every holds := by
  cases meaning with
  | one meaning => exact operand _ _ meaning all
  | two same first second =>
    have left := operand _ _ first fun t member => all t (by simp [Level.yield, member])
    have right := operand _ _ second fun t member => all t (by simp [Level.yield, member])
    exact .operation left right

theorem factor_inLexerRange (d : Factor) (tree : Tree) (meaning : d.Denotes tree)
    (all : ∀ t ∈ d.yield, t.WellFormed) : tree.Every InLexerRange := by
  cases meaning with
  | @number v x value converted =>
    have token := all d.token (List.mem_singleton_self _)
    generalize d.token = t at *
    cases token with
    | integer small =>
      obtain rfl := Option.some.inj value
      obtain ⟨m, exact, whole⟩ := Numeral.toDouble_of_small small
      obtain rfl := Except.ok.inj (exact.symm.trans converted)
      exact .number (.integer small whole)
    | decimal m =>
      obtain rfl := Option.some.inj value
      obtain rfl := Except.ok.inj converted
      exact .number (.decimal m)
    | symbol _ => cases value

theorem expression_inLexerRange (d : Expression) (tree : Tree) (meaning : d.Denotes tree)
    (all : ∀ t ∈ d.yield, t.WellFormed) : tree.Every InLexerRange :=
  level_every (level_every factor_inLexerRange) d tree meaning all

end Grammar

/- Texts without tokens. -/
theorem blank_iff_division {text : List Char} :
    (∃ pieces, Division text pieces [] ∧ ReadAs pieces []) ↔ ∀ c ∈ text, c = ' ' ∨ c = '\t' := by
  constructor
  · rintro ⟨pieces, division, reads⟩
    generalize ended : ([] : List Char) = rest at division
    induction division with
    | done rest => simp [← ended]
    | blank blank tail ih =>
      cases reads with
      | blank _ reads => exact List.forall_mem_cons.mpr ⟨blank, ih reads ended⟩
    | symbol symbol tail ih => cases reads
    | number lexeme ends tail ih => cases reads
  · intro blank
    induction text with
    | nil => exact ⟨[], .done [], .nil⟩
    | cons c text ih =>
      obtain ⟨first, others⟩ := List.forall_mem_cons.mp blank
      obtain ⟨pieces, division, reads⟩ := ih others
      exact ⟨.blank c :: pieces, .blank first division, .blank c reads⟩

theorem tokenize_eq_nil_iff {source text : String} :
    tokenize source text = .ok [] ↔ ∀ c ∈ text.toList, c = ' ' ∨ c = '\t' := by
  rw [← blank_iff_division]
  constructor
  · exact division_of_tokenize
  · rintro ⟨pieces, division, reads⟩
    exact tokenize_of_full source division reads

theorem message_ne_of_parse {strict : Bool} {ts : List Token} {error : LineError}
    (valued : ∀ t ∈ ts, t.Valued) (refused : parse strict ts = .error (.line error)) :
    error.message ≠ "" := by
  obtain ⟨i, found, wording⟩ := error_of_parse valued refused
  intro empty
  rcases wording with rfl | rfl <;> exact absurd (String.append_eq_empty_iff.mp empty).1 (by decide)

namespace Outcome

inductive State where
  | failed
  | blank
  | evaluated
  deriving DecidableEq, Repr

/- The state of an outcome by its parts. -/
def state (o : Outcome) : State :=
  if o.error.isSome then .failed else if o.tokens = some [] then .blank else .evaluated

/- What an outcome of a line is in each state. The line and its text are kept in all of them. -/
inductive InState (strict : Bool) (source : String) (line : Option Int) (text : String) :
    Outcome → State → Prop where
  | failed {error : LineError} (present : error.message ≠ "")
      (cause : tokenize source text = .error (.line error) ∨
        ∃ ts, tokenize source text = .ok ts ∧ parse strict ts = .error (.line error)) :
      InState strict source line text
        { line, source := text, error := some error.message } .failed
  | blank (read : tokenize source text = .ok []) :
      InState strict source line text { line, source := text, tokens := some [] } .blank
  | evaluated {ts : List Token} {tree : Tree} {x : Binary64} {tokenLabels treeLabel : String}
      (present : ts ≠ []) (read : tokenize source text = .ok ts)
      (parsed : parse strict ts = .ok (some tree)) (value : tree.evaluate = .ok x)
      (leaves : tree.Every InLexerRange) (tokensShown : Token.labels ts = .ok tokenLabels)
      (treeShown : tree.label = .ok treeLabel) :
      InState strict source line text
        { line, source := text, tokens := some ts, tree := some tree, value := some (.double x) }
        .evaluated

variable {strict : Bool} {source text : String} {line : Option Int} {o : Outcome}

theorem state_of_inState {s : State} (is : InState strict source line text o s) : s = o.state := by
  cases is with
  | failed present cause => rfl
  | blank read => rfl
  | evaluated present => simp [state, present]

theorem inState_of_records {ts : List Token} (read : tokenize source text = .ok ts)
    (records : Records strict line text ts o) : ∃ s, InState strict source line text o s := by
  have wellFormed := wellFormed_of_tokenize read
  have valued : ∀ t ∈ ts, t.Valued := fun t member => (wellFormed t member).valued
  cases records with
  | error refused _ =>
    exact ⟨_, .failed (message_ne_of_parse valued refused) (.inr ⟨ts, read, refused⟩)⟩
  | @value tree x parsed finite evaluated =>
    by_cases present : ts = []
    · subst present
      cases parsed
      cases evaluated
      exact ⟨_, .blank read⟩
    · obtain ⟨tree, rfl⟩ := exists_tree_of_parse present parsed
      obtain ⟨d, rest, rfl, meaning⟩ := derivation_of_parse parsed
      obtain ⟨tokenLabels, tokensShown⟩ := Token.labels_of_valued valued
      obtain ⟨treeLabel, treeShown⟩ := Tree.label_of_finite (finite tree rfl)
      obtain ⟨y, value⟩ := Tree.evaluate_of_finite (finite tree rfl)
      have leaves := Grammar.expression_inLexerRange d tree meaning
        (List.forall_mem_append.mp wellFormed).1
      rw [Option.mapM_some, value] at evaluated
      cases evaluated
      exact ⟨_, .evaluated present read parsed value leaves tokensShown treeShown⟩

theorem inState_of_outcome {mode : Mode} (returned : (run mode source line text).outcome = .ok o) :
    ∃ s, InState mode.strict source line text o s := by
  rcases tokenize_cases source text with ⟨_, ts, _, _, read⟩ | ⟨error, refused, ofText⟩ |
    ⟨n, fatal⟩
  · obtain ⟨o', outcome, records⟩ := records_of_tokenize mode line read
    obtain rfl := Except.ok.inj (outcome.symm.trans returned)
    exact inState_of_records read records
  · obtain rfl := Except.ok.inj ((run_of_lexical mode line refused).symm.trans returned)
    exact ⟨_, .failed ofText.message_ne (.inl refused)⟩
  · cases (run_of_fatal mode source line fatal).symm.trans returned

/-- An outcome is in exactly one state, and what the state calls for is what the line was read as.
    It is blank exactly if the line is. -/
theorem run_in_one_state {mode : Mode}
    (returned : (run mode source line text).outcome = .ok o) :
    o.line = line ∧ o.source = text ∧ (∃! s, InState mode.strict source line text o s) ∧
      (InState mode.strict source line text o .blank ↔ ∀ c ∈ text.toList, c = ' ' ∨ c = '\t') := by
  obtain ⟨s, is⟩ := inState_of_outcome returned
  refine ⟨by cases is <;> rfl, by cases is <;> rfl, ⟨s, is, ?_⟩, ?_⟩
  · intro other is'
    rw [state_of_inState is, state_of_inState is']
  · rw [← @tokenize_eq_nil_iff source text]
    constructor
    · intro is'
      cases is' with
      | blank read => exact read
    · intro read
      cases is with
      | failed present cause =>
        rcases cause with refused | ⟨ts, read', refused⟩
        · cases refused.symm.trans read
        · obtain rfl := Except.ok.inj (read'.symm.trans read)
          cases refused
      | blank read => exact .blank read
      | evaluated present read' => exact absurd (Except.ok.inj (read'.symm.trans read)) present

/- A line with a value. -/
theorem run_of_quotient :
    ∃ o, (run { strict := true } "stdin" (some 7) "1/0 -\t2.5").outcome = .ok o ∧
      o.line = some 7 ∧ o.source = "1/0 -\t2.5" ∧
      (∃! s, InState true "stdin" (some 7) "1/0 -\t2.5" o s) ∧
      (InState true "stdin" (some 7) "1/0 -\t2.5" o .blank ↔
        ∀ c ∈ "1/0 -\t2.5".toList, c = ' ' ∨ c = '\t') := by
  have returned : (run { strict := true } "stdin" (some 7) "1/0 -\t2.5").outcome.isOk := by
    decide +kernel
  cases outcome : (run { strict := true } "stdin" (some 7) "1/0 -\t2.5").outcome with
  | error fault =>
    rw [outcome] at returned
    cases returned
  | ok o => exact ⟨o, rfl, run_in_one_state outcome⟩

end Outcome

end LineCalc
