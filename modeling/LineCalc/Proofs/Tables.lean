import LineCalc.Proofs.States
import LineCalc.Report.Csv

/-!
Rows of outcomes. All parts of an outcome can be shown in a row except a line number that does not
fit its cell, so a file has a table unless it has too many lines for that.
-/
namespace LineCalc

variable {α β ε : Type}

theorem mapM_cons_eq_ok_iff {f : α → Except ε β} {a : α} {as : List α} {bs : List β} :
    (a :: as).mapM f = .ok bs ↔ ∃ b others, f a = .ok b ∧ as.mapM f = .ok others ∧
      bs = b :: others := by
  rw [List.mapM_cons]
  cases f a with
  | error failure => simp [bind, Except.bind]
  | ok b =>
    cases as.mapM f with
    | error failure => simp [bind, Except.bind]
    | ok others => simp [bind, Except.bind, pure, Except.pure, eq_comm]

theorem length_of_mapM {f : α → Except ε β} {as : List α} {bs : List β}
    (all : as.mapM f = .ok bs) : bs.length = as.length := by
  induction as generalizing bs with
  | nil =>
    cases all
    rfl
  | cons a as ih =>
    obtain ⟨b, others, _, tail, rfl⟩ := mapM_cons_eq_ok_iff.mp all
    simp [ih tail]

theorem Cell.exists_ofLine_iff {line : Option Int} : (∃ cell, ofLine line = .ok cell) ↔
    ∀ n, line = some n → -0x8000000000000000 ≤ n ∧ n < 0x8000000000000000 := by
  cases line with
  | none => exact iff_of_true ⟨.null, rfl⟩ (by simp)
  | some n =>
    unfold ofLine
    dsimp only
    split
    · simp [*]
    · simp [*]

namespace Outcome

variable {mode : Mode} {strict : Bool} {source text : String} {line : Option Int} {o : Outcome}

/- The line number is the only part that may not fit. -/
theorem exists_row_iff {s : State} (is : InState strict source line text o s) :
    (∃ row, o.row = .ok row) ↔ ∃ cell, Cell.ofLine line = .ok cell := by
  have others : o.line = line ∧ (∃ tokens, o.tokenLabels = .ok tokens) ∧
      (∃ tree, o.treeLabel = .ok tree) ∧ ∃ value, Cell.ofValue o.value = .ok value := by
    cases is with
    | failed present cause => exact ⟨rfl, ⟨_, rfl⟩, ⟨_, rfl⟩, ⟨_, rfl⟩⟩
    | blank read => exact ⟨rfl, ⟨_, rfl⟩, ⟨_, rfl⟩, ⟨_, rfl⟩⟩
    | @evaluated ts tree x tokens label present read parsed value leaves tokensShown treeShown =>
      refine ⟨rfl, ⟨some tokens, ?_⟩, ⟨some label, ?_⟩, ⟨.number x, rfl⟩⟩
      · rw [tokenLabels, Option.mapM_some, tokensShown]
        rfl
      · rw [treeLabel, Option.mapM_some, treeShown]
        rfl
  obtain ⟨rfl, ⟨tokens, tokensShown⟩, ⟨tree, treeShown⟩, ⟨value, valueShown⟩⟩ := others
  unfold row
  rw [tokensShown, treeShown, valueShown]
  cases Cell.ofLine o.line with
  | error fault => simp [bind, Except.bind]
  | ok cell => simp [bind, Except.bind, pure, Except.pure]

/- The runs of lines that are numbered from `first` on. -/
inductive RunsFrom (mode : Mode) (source : String) : Nat → List String → List Outcome → Prop where
  | nil (first : Nat) : RunsFrom mode source first [] []
  | cons {first : Nat} {text : String} {texts : List String} {o : Outcome} {os : List Outcome}
      (head : (run mode source (some first) (Text.stripLineEnds text)).outcome = .ok o)
      (tail : RunsFrom mode source (first + 1) texts os) :
      RunsFrom mode source first (text :: texts) (o :: os)

variable {first : Nat} {texts : List String} {os : List Outcome}

theorem runsFrom_of_outcome (outcomes : (runFrom mode source first texts).outcome = .ok os) :
    RunsFrom mode source first texts os := by
  induction texts generalizing first os with
  | nil =>
    cases outcomes
    exact .nil first
  | cons text texts ih =>
    obtain ⟨o, head, outcomes⟩ := Transcript.outcome_bind_eq_ok_iff.mp outcomes
    obtain ⟨others, tail, outcomes⟩ := Transcript.outcome_bind_eq_ok_iff.mp outcomes
    cases outcomes
    exact .cons head (ih tail)

theorem length_of_runsFrom (runs : RunsFrom mode source first texts os) :
    os.length = texts.length := by
  induction runs with
  | nil first => rfl
  | cons head tail ih => simp [ih]

theorem exists_table_iff (runs : RunsFrom mode source first texts os) :
    (∃ rows, table os = .ok rows) ↔ texts = [] ∨ first + texts.length ≤ 0x8000000000000000 := by
  induction runs with
  | nil first => exact iff_of_true ⟨[], rfl⟩ (.inl rfl)
  | @cons first text texts o os head tail ih =>
    obtain ⟨s, is⟩ := inState_of_outcome head
    have fits := (exists_row_iff is).trans Cell.exists_ofLine_iff
    have parts : (∃ rows, table (o :: os) = .ok rows) ↔
        (∃ row, o.row = .ok row) ∧ ∃ rows, table os = .ok rows := by
      simp only [table, mapM_cons_eq_ok_iff]
      constructor
      · rintro ⟨_, row, rows, first, others, rfl⟩
        exact ⟨⟨row, first⟩, rows, others⟩
      · rintro ⟨⟨row, first⟩, rows, others⟩
        exact ⟨row :: rows, row, rows, first, others, rfl⟩
    rw [parts, fits, ih, List.length_cons]
    constructor
    · rintro ⟨bound, none | rest⟩
      · obtain ⟨_, above⟩ := bound first rfl
        subst none
        exact .inr (by simp; omega)
      · exact .inr (by omega)
    · rintro (none | rest)
      · cases none
      · refine ⟨?_, .inr (by omega)⟩
        intro n same
        obtain rfl := Option.some.inj same
        omega

end Outcome

end LineCalc
