import LineCalc.Proofs.Parsing
import LineCalc.Line.Run

/-!
Running one line. Well-formed tokens have labels, and their trees have labels and values, so that
after the lexer only errors of the line are left, which the outcome records. A line ends a run only
if it is fatal to the lexer.
-/
namespace LineCalc

theorem exists_of_isOk {ε α : Type} {result : Except ε α} (ok : result.isOk) :
    ∃ a, result = .ok a := by
  cases result with
  | error e => cases ok
  | ok a => exact ⟨a, rfl⟩

namespace Transcript

variable {α β : Type}

theorem outcome_bind (first : Transcript α) (next : α → Transcript β) :
    (first >>= next).outcome = first.outcome >>= fun a => (next a).outcome := by
  obtain ⟨printed, outcome⟩ := first
  cases outcome <;> rfl

theorem outcome_bind_ok {first : Transcript α} {a : α} (next : α → Transcript β)
    (ok : first.outcome = .ok a) : (first >>= next).outcome = (next a).outcome := by
  rw [outcome_bind, ok]
  rfl

theorem outcome_bind_error {first : Transcript α} {fault : Fault} (next : α → Transcript β)
    (failed : first.outcome = .error fault) : (first >>= next).outcome = .error fault := by
  rw [outcome_bind, failed]
  rfl

/- Steps end well exactly if each of them does. -/
theorem outcome_bind_eq_ok_iff {first : Transcript α} {next : α → Transcript β} {b : β} :
    (first >>= next).outcome = .ok b ↔ ∃ a, first.outcome = .ok a ∧ (next a).outcome = .ok b := by
  cases begun : first.outcome with
  | error fault =>
    rw [outcome_bind_error next begun]
    exact iff_of_false (by simp) (by simp)
  | ok a =>
    rw [outcome_bind_ok next begun]
    simp

end Transcript

theorem Mode.outcome_stage (mode : Mode) (name : String) {text : Except Fault String}
    {shown : String} (ok : text = .ok shown) : (mode.stage name text).outcome = .ok () := by
  subst ok
  unfold stage
  cases mode.debug <;> rfl

theorem mapM_evaluate_of_finite {tree : Option Tree} (finite : ∀ t, tree = some t → t.Finite) :
    ∃ value, tree.mapM Tree.evaluate = .ok value := by
  cases tree with
  | none => exact ⟨none, rfl⟩
  | some t =>
    obtain ⟨x, value⟩ := Tree.evaluate_of_finite (finite t rfl)
    exact ⟨some x, by simp only [Option.mapM_some, value]; rfl⟩

theorem mapM_label_of_finite {tree : Option Tree} (finite : ∀ t, tree = some t → t.Finite) :
    ∃ text, (tree.mapM Tree.label).map orNone = .ok text := by
  cases tree with
  | none => exact ⟨_, rfl⟩
  | some t =>
    obtain ⟨text, shown⟩ := Tree.label_of_finite (finite t rfl)
    exact ⟨text, by simp only [Option.mapM_some, shown]; rfl⟩

namespace Outcome

variable {mode : Mode} {source text : String} {line : Option Int}

theorem outcome_recover (mode : Mode) (line : Option Int) (text : String) (error : LineError) :
    (recover mode line text (.line error)).outcome =
      .ok { line, source := text, error := some error.message } := by
  unfold recover
  rw [Transcript.outcome_bind_ok _ (mode.outcome_stage "Error" rfl)]
  rfl

/- What is recorded of a line with tokens: the error of reading them, or their tree and value. -/
inductive Records (strict : Bool) (line : Option Int) (text : String) (ts : List Token) :
    Outcome → Prop where
  | error {error : LineError} (refused : parse strict ts = .error (.line error))
      (syntactic : error.title = "ParseError") :
      Records strict line text ts { line, source := text, error := some error.message }
  | value {tree : Option Tree} {x : Option Binary64} (read : parse strict ts = .ok tree)
      (finite : ∀ t, tree = some t → t.Finite) (evaluated : tree.mapM Tree.evaluate = .ok x) :
      Records strict line text ts
        { line, source := text, tokens := some ts, tree, value := x.map .double }

/-- A line with tokens has an outcome, in every mode. -/
theorem records_of_tokenize {ts : List Token} (mode : Mode) (line : Option Int)
    (read : tokenize source text = .ok ts) :
    ∃ o, (run mode source line text).outcome = .ok o ∧ Records mode.strict line text ts o := by
  have wellFormed := wellFormed_of_tokenize read
  have valued : ∀ t ∈ ts, t.Valued := fun t member => (wellFormed t member).valued
  obtain ⟨labels, shown⟩ := Token.labels_of_valued valued
  unfold run
  rw [Transcript.outcome_bind_ok _ (mode.outcome_stage "Input" rfl), read]
  dsimp only
  rw [Transcript.outcome_bind_ok _ (mode.outcome_stage "Tokens" shown)]
  cases parsed : parse mode.strict ts with
  | error failure =>
    obtain ⟨error, rfl, title⟩ := title_of_parse_error valued parsed
    exact ⟨_, outcome_recover mode line text error, .error parsed title⟩
  | ok tree =>
    have finite : ∀ t, tree = some t → t.Finite := by
      rintro t rfl
      exact finite_of_parse valued parsed
    obtain ⟨label, shown'⟩ := mapM_label_of_finite finite
    obtain ⟨x, evaluated⟩ := mapM_evaluate_of_finite finite
    dsimp only
    rw [Transcript.outcome_bind_ok _ (mode.outcome_stage "Tree" shown'), evaluated]
    exact ⟨_, rfl, .value parsed finite evaluated⟩

theorem run_of_lexical {error : LineError} (mode : Mode) (line : Option Int)
    (refused : tokenize source text = .error (.line error)) :
    (run mode source line text).outcome =
      .ok { line, source := text, error := some error.message } := by
  unfold run
  rw [Transcript.outcome_bind_ok _ (mode.outcome_stage "Input" rfl), refused]
  exact outcome_recover mode line text error

theorem run_of_fatal {n : Nat} (mode : Mode) (source : String) (line : Option Int)
    (fatal : Fatal text.toList n) :
    (run mode source line text).outcome = .error (.digitLimit n) := by
  unfold run
  rw [Transcript.outcome_bind_ok _ (mode.outcome_stage "Input" rfl), tokenize_of_fatal source fatal]
  rfl

/- What an outcome says of its line. An error is lexical or in the order of the tokens. -/
structure Settles (strict : Bool) (source : String) (line : Option Int) (text : String)
    (o : Outcome) : Prop where
  ofLine : o.line = line
  ofText : o.source = text
  ofError : ∀ message, o.error = some message → ∃ error : LineError, message = error.message ∧
    (tokenize source text = .error (.line error) ∧ error.isLexical ∨
      ∃ ts, tokenize source text = .ok ts ∧ parse strict ts = .error (.line error) ∧
        error.title = "ParseError")
  shown : ∃ shown, o.block = .ok shown

theorem settles_of_records {strict : Bool} {ts : List Token} {o : Outcome}
    (read : tokenize source text = .ok ts) (records : Records strict line text ts o) :
    Settles strict source line text o := by
  cases records with
  | @error error refused title =>
    refine ⟨rfl, rfl, ?_, ⟨_, rfl⟩⟩
    intro message same
    obtain rfl := Option.some.inj same
    exact ⟨error, rfl, .inr ⟨ts, read, refused, title⟩⟩
  | @value tree x parsed finite evaluated =>
    refine ⟨rfl, rfl, ?_, ?_⟩
    · intro message none
      cases none
    · cases tree with
      | none => exact ⟨_, rfl⟩
      | some t =>
        have wellFormed := wellFormed_of_tokenize read
        obtain ⟨label, shown⟩ := Tree.label_of_finite (finite t rfl)
        obtain ⟨labels, shown'⟩ :=
          Token.labels_of_valued fun t member => (wellFormed t member).valued
        exact ⟨_, by simp only [block, shown, tokenLabels, Option.mapM_some, shown']; rfl⟩

/-- A line that is not fatal has an outcome. -/
theorem settles_of_safe (mode : Mode) (source : String) (line : Option Int) {text : String}
    (safe : Safe text.toList) : ∃ o, (run mode source line text).outcome = .ok o ∧
      Settles mode.strict source line text o := by
  rcases tokenize_cases source text with ⟨_, ts, _, _, read⟩ | ⟨error, refused, ofText⟩ |
    ⟨n, fatal⟩
  · obtain ⟨o, outcome, records⟩ := records_of_tokenize mode line read
    exact ⟨o, outcome, settles_of_records read records⟩
  · refine ⟨_, run_of_lexical mode line refused, rfl, rfl, ?_, ⟨_, rfl⟩⟩
    intro message same
    obtain rfl := Option.some.inj same
    exact ⟨error, rfl, .inl ⟨refused, ofText.isLexical⟩⟩
  · exact absurd fatal (safe n)

theorem run_eq_ok_iff (mode : Mode) (source : String) (line : Option Int) (text : String) :
    (∃ o, (run mode source line text).outcome = .ok o) ↔ Safe text.toList := by
  constructor
  · rintro ⟨o, outcome⟩ n fatal
    cases (run_of_fatal mode source line fatal).symm.trans outcome
  · intro safe
    obtain ⟨o, outcome, _⟩ := settles_of_safe mode source line safe
    exact ⟨o, outcome⟩

theorem settles_of_outcome {o : Outcome} (outcome : (run mode source line text).outcome = .ok o) :
    Settles mode.strict source line text o := by
  have safe := (run_eq_ok_iff mode source line text).mp ⟨o, outcome⟩
  obtain ⟨o', outcome', settles⟩ := settles_of_safe mode source line safe
  obtain rfl := Except.ok.inj (outcome'.symm.trans outcome)
  exact settles

end Outcome

end LineCalc
