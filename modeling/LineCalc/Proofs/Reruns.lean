import LineCalc.Proofs.Running
import LineCalc.Proofs.Yields

/-!
Running a line again under another number or another name of its source. What comes of a line is
settled by what it is read as (`run_outcome`), so that its number is recorded and has no other part
in its outcome (`settle_renumbered`), and the name is given by its lexical errors and by nothing
else (`renamed_of_outcome`).
-/
namespace LineCalc

/- The same place under another name of the source. -/
def Site.named (source : String) (site : Site) : Site := { site with source := some source }

variable {source text : String} {p : Position} {characters : List Char}
  {read : Except Failure (List Token)} {n : Nat}

theorem yields_named (yields : Yields source p characters read n) (other : String) :
    Yields other p characters (read.mapError (Failure.mapSite (Site.named other))) n := by
  cases yields with
  | full division reads => exact .full division reads
  | stray first => exact .stray first
  | invalid first short => exact .invalid first short
  | overlong first overlong => exact .overlong first overlong

theorem tokenize_named (source other text : String) :
    tokenize other text =
      (tokenize source text).mapError (Failure.mapSite (Site.named other)) := by
  obtain ⟨n, yields⟩ := tokenize_yields source text
  exact tokenize_of_yields (yields_named yields other)

namespace Outcome

variable {mode : Mode} {strict : Bool} {line other : Option Int} {o : Outcome}

/- What comes of a line, by its tokens or the failure of reading them. -/
def settle (strict : Bool) (line : Option Int) (text : String) :
    Except Failure (List Token) → Except Fault Outcome
  | .error (.fault fault) => .error fault
  | .error (.line error) => .ok { line, source := text, error := some error.message }
  | .ok ts =>
    match parse strict ts with
    | .error (.fault fault) => .error fault
    | .error (.line error) => .ok { line, source := text, error := some error.message }
    | .ok tree => (tree.mapM Tree.evaluate).map fun value =>
        { line, source := text, tokens := some ts, tree, value := value.map .double }

/-- The stages that debug mode prints never fail, so that the mode has no other part in the outcome
    than its strictness. -/
theorem run_outcome (mode : Mode) (source : String) (line : Option Int) (text : String) :
    (run mode source line text).outcome = settle mode.strict line text (tokenize source text) := by
  rcases tokenize_cases source text with ⟨_, ts, _, _, read⟩ | ⟨error, refused, _⟩ | ⟨n, fatal⟩
  · obtain ⟨o, outcome, records⟩ := records_of_tokenize mode line read
    rw [outcome, read]
    cases records with
    | error refused _ => simp only [settle, refused]
    | value parsed _ evaluated =>
      simp only [settle, parsed, evaluated]
      rfl
  · rw [run_of_lexical mode line refused, refused]
    rfl
  · rw [run_of_fatal mode source line fatal, tokenize_of_fatal source fatal]
    rfl

theorem settle_renumbered (strict : Bool) (line other : Option Int) (text : String)
    (read : Except Failure (List Token)) :
    settle strict other text read =
      (settle strict line text read).map fun o => { o with line := other } := by
  unfold settle
  split
  · rfl
  · rfl
  · split
    · rfl
    · rfl
    · cases Option.mapM Tree.evaluate _ <;> rfl

theorem run_renumbered (returned : (run mode source line text).outcome = .ok o)
    (other : Option Int) :
    (run mode source other text).outcome = .ok { o with line := other } := by
  rw [run_outcome] at returned ⊢
  rw [settle_renumbered mode.strict line other, returned]
  rfl

/-- The outcomes of a line under two names of its source. A line with tokens has the same one, and
    otherwise the same error of the lexer gives each name in its message. -/
inductive Renamed (source other : String) : Outcome → Outcome → Prop where
  | same {o : Outcome} {ts : List Token} (read : tokenize source o.source = .ok ts) :
      Renamed source other o o
  | lexical {text : String} {error : LineError} (line : Option Int)
      (refused : tokenize source text = .error (.line error)) (lexical : error.isLexical)
      (named : error.mapSite (Site.named source) = error) :
      Renamed source other { line, source := text, error := some error.message }
        { line, source := text, error := some (error.mapSite (Site.named other)).message }

theorem renamed_of_outcome (returned : (run mode source line text).outcome = .ok o)
    (other : String) :
    ∃ u, (run mode other line text).outcome = .ok u ∧ Renamed source other o u := by
  have ofText := (settles_of_outcome returned).ofText
  have again := tokenize_named source other text
  have itself := tokenize_named source source text
  rw [run_outcome] at returned
  rcases tokenize_cases source text with ⟨_, ts, _, _, read⟩ | ⟨error, refused, lexical⟩ |
    ⟨n, fatal⟩
  · rw [read] at again returned
    refine ⟨o, ?_, .same (ofText ▸ read)⟩
    rw [run_outcome, again]
    exact returned
  · rw [refused] at again returned itself
    obtain rfl := Except.ok.inj returned
    have named : error = error.mapSite (Site.named source) := by
      simpa [Except.mapError, Failure.mapSite] using itself
    refine ⟨_, ?_, .lexical line refused lexical.isLexical named.symm⟩
    rw [run_outcome, again]
    rfl
  · rw [tokenize_of_fatal source fatal] at returned
    cases returned

/- A line that can be run, under some name and number. -/
def Runnable (text : String) : Prop :=
  ∃ mode source line o, (run mode source line text).outcome = .ok o

theorem runnable_of_isOk (mode : Mode) (source : String) (line : Option Int) {texts : List String}
    (returned : ∀ text ∈ texts, (run mode source line text).outcome.isOk) :
    ∀ text ∈ texts, Runnable text := by
  intro text member
  obtain ⟨o, outcome⟩ := exists_of_isOk (returned text member)
  exact ⟨mode, source, line, o, outcome⟩

theorem runnable_iff_safe : Runnable text ↔ Safe text.toList := by
  constructor
  · rintro ⟨mode, source, line, returned⟩
    exact (run_eq_ok_iff mode source line text).mp returned
  · intro safe
    exact ⟨{}, "", none, (run_eq_ok_iff {} "" none text).mpr safe⟩

end Outcome

end LineCalc
