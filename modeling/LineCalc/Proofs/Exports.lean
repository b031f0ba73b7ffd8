import LineCalc.Proofs.Records
import LineCalc.Proofs.Tables

/-!
Tables read back. The fields of a record have the types of their columns, and the field without
quotes that is empty stands for an absent part. So the records of a table are the parts of the
outcomes that it was made of, in order (`Outcome.table_readBack`).
-/
namespace LineCalc

namespace Field

/- The text of a field with quotes. -/
def text? : Field → Option (Option String)
  | bare [] => some none
  | bare _ => none
  | quoted text => some (some (String.ofList text))

/- The number of a field without quotes, by the reader of its column. -/
def number? {α : Type} (read : List Char → Option α) : Field → Option (Option α)
  | bare [] => some none
  | bare text => (read text).map some
  | quoted _ => none

end Field

/- The parts of an outcome that stand in a record. -/
structure Record where
  line : Option Int
  source : Option String
  tokens : Option String
  tree : Option String
  value : Option Binary64
  error : Option String
  deriving DecidableEq, Repr

namespace Record

def ofFields? : List Field → Option Record
  | [line, source, tokens, tree, value, error] => do
    let line ← line.number? readInteger?
    let source ← source.text?
    let tokens ← tokens.text?
    let tree ← tree.text?
    let value ← value.number? Binary64.read?
    let error ← error.text?
    return ⟨line, source, tokens, tree, value, error⟩
  | _ => none

/-- The records of a table, which are behind the names of its columns. -/
def ofTable? (text : String) : Option (List Record) :=
  match Csv.read? text with
  | some (columns :: records) =>
    if columns = Csv.columnFields then records.mapM ofFields? else none
  | _ => none

end Record

namespace Cell

theorem number?_bare {α : Type} {read : List Char → Option α} {text : List Char} {a : α}
    (empty : read [] = none) (found : read text = some a) :
    (Field.bare text).number? read = some (some a) := by
  cases text with
  | nil => cases empty.symm.trans found
  | cons c text => simp [Field.number?, found]

theorem text?_ofText (text : Option String) : (ofText text).field.text? = some text := by
  cases text with
  | none => rfl
  | some text => exact congrArg (fun s => some (some s)) String.ofList_toList

theorem number?_ofLine {line : Option Int} {cell : Cell} (made : ofLine line = .ok cell) :
    cell.field.number? readInteger? = some line := by
  cases line with
  | none =>
    cases made
    rfl
  | some n =>
    unfold ofLine at made
    dsimp only at made
    split at made
    · cases made
      exact number?_bare rfl (readInteger?_integerText n)
    · cases made

theorem number?_ofValue {x : Option Binary64} {cell : Cell}
    (made : ofValue (x.map .double) = .ok cell) :
    cell.field.number? Binary64.read? = some x := by
  cases x with
  | none =>
    cases made
    rfl
  | some x =>
    cases made
    exact number?_bare rfl (Binary64.read?_cell x)

end Cell

namespace Outcome

variable {mode : Mode} {strict : Bool} {source text : String} {line : Option Int} {o : Outcome}

theorem row_eq_ok_iff {row : Row} : o.row = .ok row ↔ ∃ tokens tree line value,
    o.tokenLabels = .ok tokens ∧ o.treeLabel = .ok tree ∧ Cell.ofLine o.line = .ok line ∧
      Cell.ofValue o.value = .ok value ∧
      ⟨line, .text o.source, .ofText tokens, .ofText tree, value, .ofText o.error⟩ = row := by
  unfold Outcome.row
  cases o.tokenLabels <;> cases o.treeLabel <;> cases Cell.ofLine o.line <;>
    cases Cell.ofValue o.value <;> simp [bind, Except.bind, pure, Except.pure]

/-- A record has all that a row shows of an outcome. What is absent has no text, not an empty one,
    and either the tokens or the error is absent, and the tree only with the value. -/
structure Keeps (o : Outcome) (r : Record) : Prop where
  line : r.line = o.line
  source : r.source = some o.source
  tokens : o.tokenLabels = .ok r.tokens
  tree : o.treeLabel = .ok r.tree
  value : r.value.map .double = o.value
  error : r.error = o.error
  tokens_or_error : r.tokens = none ↔ r.error ≠ none
  tree_with_value : r.tree = none ↔ r.value = none

/- Which parts are absent, by state. A value is always a double. -/
theorem absent_of_inState {s : State} {tokens tree : Option String}
    (is : InState strict source line text o s) (tokensShown : o.tokenLabels = .ok tokens)
    (treeShown : o.treeLabel = .ok tree) : ∃ x : Option Binary64, x.map .double = o.value ∧
      (tokens = none ↔ o.error ≠ none) ∧ (tree = none ↔ x = none) := by
  cases is with
  | failed present cause =>
    obtain rfl := Except.ok.inj tokensShown
    obtain rfl := Except.ok.inj treeShown
    exact ⟨none, rfl, by simp, by simp⟩
  | blank read =>
    obtain rfl := Except.ok.inj tokensShown
    obtain rfl := Except.ok.inj treeShown
    exact ⟨none, rfl, by simp, by simp⟩
  | @evaluated ts t x labels label present read parsed value leaves labelled labelled' =>
    rw [tokenLabels, Option.mapM_some, labelled] at tokensShown
    rw [treeLabel, Option.mapM_some, labelled'] at treeShown
    obtain rfl := Except.ok.inj tokensShown
    obtain rfl := Except.ok.inj treeShown
    exact ⟨some x, rfl, by simp, by simp⟩

theorem keeps_of_inState {s : State} {row : Row} (is : InState strict source line text o s)
    (made : o.row = .ok row) :
    ∃ r, Record.ofFields? (row.cells.map Cell.field) = some r ∧ Keeps o r := by
  obtain ⟨tokens, tree, lineCell, valueCell, tokensShown, treeShown, numbered, valued, rfl⟩ :=
    row_eq_ok_iff.mp made
  obtain ⟨x, value, apart, together⟩ := absent_of_inState is tokensShown treeShown
  rw [← value] at valued
  refine ⟨⟨o.line, some o.source, tokens, tree, x, o.error⟩, ?_,
    rfl, rfl, tokensShown, treeShown, value, rfl, apart, together⟩
  have source : (Cell.text o.source).field.text? = some (some o.source) :=
    Cell.text?_ofText (some o.source)
  simp only [Row.cells, List.map_cons, List.map_nil, Record.ofFields?, Cell.text?_ofText,
    Cell.number?_ofLine numbered, Cell.number?_ofValue valued, source]
  rfl

variable {first : Nat} {texts : List String} {os : List Outcome} {rows : List Row}

theorem keeps_of_runsFrom (runs : RunsFrom mode source first texts os)
    (made : table os = .ok rows) :
    ∃ records,
      (rows.map fun row => row.cells.map Cell.field).mapM Record.ofFields? = some records ∧
      List.Forall₂ Keeps os records := by
  induction runs generalizing rows with
  | nil first =>
    cases made
    exact ⟨[], rfl, .nil⟩
  | cons head tail ih =>
    obtain ⟨row, others, shown, rest, rfl⟩ := mapM_cons_eq_ok_iff.mp made
    obtain ⟨s, is⟩ := inState_of_outcome head
    obtain ⟨r, read, keeps⟩ := keeps_of_inState is shown
    obtain ⟨records, readOthers, all⟩ := ih rest
    exact ⟨r :: records, by simp [List.mapM_cons, read, readOthers], .cons keeps all⟩

/-- There is one outcome for each line, in order, and their table is read back as one record for
    each of them that keeps it. Only lines that 64 bits cannot number have no table. -/
structure ReadBack (mode : Mode) (source : String) (texts : List String) (os : List Outcome) :
    Prop where
  runs : RunsFrom mode source 1 texts os
  tabulated : (∃ rows, table os = .ok rows) ↔ texts.length < 0x8000000000000000
  kept : ∀ rows, table os = .ok rows → ∃ records,
    Record.ofTable? (Row.csvTable rows) = some records ∧ List.Forall₂ Keeps os records

/-- A table loses nothing of the outcomes, whatever their texts. -/
theorem table_readBack (returned : (runAll mode source texts).outcome = .ok os) :
    ReadBack mode source texts os := by
  have runs := runsFrom_of_outcome returned
  refine ⟨runs, ?_, ?_⟩
  · rw [exists_table_iff runs]
    cases texts <;> simp
    omega
  · intro rows made
    obtain ⟨records, read, keeps⟩ := keeps_of_runsFrom runs made
    refine ⟨records, ?_, keeps⟩
    unfold Record.ofTable?
    rw [Csv.read?_csvTable]
    exact (if_pos rfl).trans read

/- Separators, quotes and line ends among the texts, a blank line, and one without a value. -/
theorem table_readBack_of_separators : ∃ os,
    (runAll { strict := true } "a,\"b\"\n"
      ["1,\"2\"\r", "", "1/0\n", "\x00", "2.5*4"]).outcome = .ok os ∧
    ReadBack { strict := true } "a,\"b\"\n" ["1,\"2\"\r", "", "1/0\n", "\x00", "2.5*4"] os := by
  have returned : (runAll { strict := true } "a,\"b\"\n"
      ["1,\"2\"\r", "", "1/0\n", "\x00", "2.5*4"]).outcome.isOk := by decide +kernel
  obtain ⟨os, outcome⟩ := exists_of_isOk returned
  exact ⟨os, outcome, table_readBack outcome⟩

end Outcome

end LineCalc
