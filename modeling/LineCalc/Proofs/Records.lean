import LineCalc.Proofs.Readback
import LineCalc.Report.Csv

/-!
Comma-separated text read back. The reader goes over the text once: commas part fields and line ends
part records, unless they stand between quotes, where a quote is written twice. It reads a table as
the line of column names and one record for each row (`read?_csvTable`).
-/
namespace LineCalc

/- A field by what stands between its quotes, or by itself where it has none. -/
inductive Field where
  | bare (text : List Char)
  | quoted (text : List Char)
  deriving DecidableEq, Repr

namespace Csv

/- Where a reader is in a record. -/
inductive Place where
  /- In front of a field. -/
  | start
  /- In a field without quotes. -/
  | bare (text : List Char)
  /- Between the quotes of a field. -/
  | inside (text : List Char)
  /- Behind a quote inside, which closes the field unless another one follows. -/
  | closing (text : List Char)
  deriving DecidableEq, Repr

/- The field that is complete in a place. -/
def Place.field? : Place → Option Field
  | start => some (.bare [])
  | bare text => some (.bare text)
  | inside _ => none
  | closing text => some (.quoted text)

/- The place behind a character that parts nothing. -/
def Place.next? : Place → Char → Option Place
  | start, c => if c = '"' then some (.inside []) else some (.bare [c])
  | bare text, c => if c = '"' then none else some (.bare (text ++ [c]))
  | inside text, c => if c = '"' then some (.closing text) else some (.inside (text ++ [c]))
  | closing text, c => if c = '"' then some (.inside (text ++ [c])) else none

def Place.isInside : Place → Bool
  | inside _ => true
  | _ => false

/- The records from a place on, behind some fields of the first of them. A line feed ends a record,
   also behind a carriage return, and the last record may go without it. -/
def readFrom (fields : List Field) (place : Place) : List Char → Option (List (List Field))
  | [] =>
    if place = .start ∧ fields = [] then some []
    else place.field?.map fun field => [fields ++ [field]]
  | c :: rest =>
    if place.isInside then (place.next? c).bind fun place => readFrom fields place rest
    else if c = ',' then
      place.field?.bind fun field => readFrom (fields ++ [field]) .start rest
    else if c = '\n' then
      place.field?.bind fun field => (readFrom [] .start rest).map ((fields ++ [field]) :: ·)
    else if c = '\r' then
      if rest.head? = some '\n' then readFrom fields place rest else none
    else (place.next? c).bind fun place => readFrom fields place rest

/- The records of a text. -/
def read? (text : String) : Option (List (List Field)) := readFrom [] .start text.toList

variable {fields : List Field} {place : Place} {field : Field}

theorem not_isInside_of_field? (complete : place.field? = some field) : place.isInside = false := by
  cases place with
  | inside text => cases complete
  | _ => rfl

theorem readFrom_comma (complete : place.field? = some field) (rest : List Char) :
    readFrom fields place (',' :: rest) = readFrom (fields ++ [field]) .start rest := by
  simp [readFrom, not_isInside_of_field? complete, complete]

theorem readFrom_lineFeed (complete : place.field? = some field) (rest : List Char) :
    readFrom fields place ('\n' :: rest) =
      (readFrom [] .start rest).map ((fields ++ [field]) :: ·) := by
  simp [readFrom, not_isInside_of_field? complete, complete]

/- A quote is doubled. -/
def doubled (text : List Char) : List Char :=
  text.flatMap fun c => if c = '"' then ['"', '"'] else [c]

theorem readFrom_inside (before text rest : List Char) :
    readFrom fields (.inside before) (doubled text ++ '"' :: rest) =
      readFrom fields (.closing (before ++ text)) rest := by
  induction text generalizing before with
  | nil => simp [doubled, readFrom, Place.isInside, Place.next?]
  | cons c text ih =>
    have tail := ih (before ++ [c])
    by_cases quote : c = '"'
    · subst quote
      simpa [doubled, readFrom, Place.isInside, Place.next?] using tail
    · simpa [doubled, readFrom, Place.isInside, Place.next?, quote] using tail

/- A character that stands for itself without quotes. -/
def IsBare (c : Char) : Prop := c ≠ '"' ∧ c ≠ ',' ∧ c ≠ '\n' ∧ c ≠ '\r'

theorem readFrom_isBare {c : Char} {next : Place} (bare : IsBare c)
    (outside : place.isInside = false) (step : place.next? c = some next) (rest : List Char) :
    readFrom fields place (c :: rest) = readFrom fields next rest := by
  obtain ⟨_, notComma, notFeed, notReturn⟩ := bare
  simp [readFrom, outside, notComma, notFeed, notReturn, step]

theorem readFrom_bare (before : List Char) {text : List Char} (bare : ∀ c ∈ text, IsBare c)
    (rest : List Char) :
    readFrom fields (.bare before) (text ++ rest) =
      readFrom fields (.bare (before ++ text)) rest := by
  induction text generalizing before with
  | nil => simp
  | cons c text ih =>
    obtain ⟨first, others⟩ := List.forall_mem_cons.mp bare
    have step : (Place.bare before).next? c = some (.bare (before ++ [c])) := if_neg first.1
    rw [List.cons_append, readFrom_isBare first rfl step, ih _ others, List.append_assoc]
    rfl

/- A text that the reader takes for a field, whatever stands around it. -/
def Shows (text : List Char) (field : Field) : Prop :=
  ∃ place : Place, place.field? = some field ∧
    ∀ fields rest, readFrom fields .start (text ++ rest) = readFrom fields place rest

theorem shows_bare {text : List Char} (bare : ∀ c ∈ text, IsBare c) : Shows text (.bare text) := by
  cases text with
  | nil => exact ⟨.start, rfl, fun fields rest => rfl⟩
  | cons c text =>
    obtain ⟨first, others⟩ := List.forall_mem_cons.mp bare
    have step : Place.start.next? c = some (.bare [c]) := if_neg first.1
    refine ⟨.bare (c :: text), rfl, fun fields rest => ?_⟩
    rw [List.cons_append, readFrom_isBare first rfl step, readFrom_bare [c] others]
    rfl

theorem shows_doubleQuoted (text : String) :
    Shows (doubleQuoted text).toList (.quoted text.toList) := by
  refine ⟨.closing text.toList, rfl, fun fields rest => ?_⟩
  have written : (doubleQuoted text).toList ++ rest =
      '"' :: (doubled text.toList ++ '"' :: rest) := by
    simp [doubleQuoted, doubled]
  have tail := @readFrom_inside fields [] text.toList rest
  simpa [written, readFrom, Place.isInside, Place.next?] using tail

/- No number has a character that parts fields. -/
theorem isBare_of_inNumber {c : Char} (inside : InNumber c) : IsBare c := by
  refine ⟨?_, ?_, ?_, ?_⟩ <;>
    · rintro rfl
      simp [InNumber] at inside

end Csv

/-- What the reader makes of a cell. Only text has quotes, and a null cell is empty. -/
def Cell.field : Cell → Field
  | null => .bare []
  | integer n => .bare (integerText n).toList
  | text s => .quoted s.toList
  | number x => .bare x.cell.toList

namespace Csv

theorem shows_cell (c : Cell) : Shows c.csv.toList c.field := by
  cases c with
  | null => exact shows_bare (by simp [Cell.csv])
  | integer n => exact shows_bare fun c member => isBare_of_inNumber (inNumber_integerText n c member)
  | text s => exact shows_doubleQuoted s
  | number x => exact shows_bare fun c member => isBare_of_inNumber (x.inNumber_cell c member)

/- Fields with commas between them are one record. -/
theorem readFrom_intercalate {texts : List String} {record : List Field} (present : texts ≠ [])
    (shows : List.Forall₂ (fun text => Shows text.toList) texts record) (fields : List Field)
    (rest : List Char) :
    readFrom fields .start ((",".intercalate texts).toList ++ '\n' :: rest) =
      (readFrom [] .start rest).map ((fields ++ record) :: ·) := by
  induction shows generalizing fields with
  | nil => exact absurd rfl present
  | @cons text field texts record head tail ih =>
    obtain ⟨place, complete, read⟩ := head
    -- Behind the first text the reader is where a comma and the line end both complete its field.
    cases tail with
    | nil =>
      rw [String.intercalate_singleton, read, readFrom_lineFeed complete]
    | @cons second _ texts _ _ _ =>
      have others := ih (by simp) (fields ++ [field])
      rw [← readFrom_comma complete, ← read] at others
      simpa [String.intercalate_cons_cons] using others

theorem readFrom_csvLine {texts : List String} {record : List Field} (present : texts ≠ [])
    (shows : List.Forall₂ (fun text => Shows text.toList) texts record) (rest : List Char) :
    readFrom [] .start ((csvLine texts).toList ++ rest) =
      (readFrom [] .start rest).map (record :: ·) := by
  have line := readFrom_intercalate present shows [] rest
  simpa [csvLine] using line

theorem shows_cells (cells : List Cell) :
    List.Forall₂ (fun text => Shows text.toList) (cells.map Cell.csv) (cells.map Cell.field) := by
  simp [List.forall₂_map_left_iff, List.forall₂_map_right_iff, List.forall₂_same, shows_cell]

/- The names of the columns, as the reader has them. -/
def columnFields : List Field := Row.columns.map fun column => .quoted column.1.toList

/-- A table is read as the names of its columns and the cells of its rows. -/
theorem read?_csvTable (rows : List Row) :
    read? (Row.csvTable rows) =
      some (columnFields :: rows.map fun row => row.cells.map Cell.field) := by
  have columns : List.Forall₂ (fun text => Shows text.toList)
      (Row.columns.map fun column => doubleQuoted column.1) columnFields := by
    simp [columnFields, List.forall₂_map_left_iff, List.forall₂_map_right_iff, List.forall₂_same,
      shows_doubleQuoted]
  have records : readFrom [] .start (String.join (rows.map Row.csv)).toList =
      some (rows.map fun row => row.cells.map Cell.field) := by
    rw [String.toList_join]
    induction rows with
    | nil => rfl
    | cons row rows ih =>
      rw [List.map_cons, List.flatMap_cons, Row.csv,
        readFrom_csvLine (by simp [Row.cells]) (shows_cells row.cells), ih]
      rfl
  rw [read?, Row.csvTable, String.toList_append,
    readFrom_csvLine (by simp [Row.columns]) columns, records]
  rfl

/- An empty text has quotes, and an absent one has none. -/
example : read? "\"a,\"\"b\n\"\"\",,\"\"\r\n-7\n" =
    some [[.quoted ['a', ',', '"', 'b', '\n', '"'], .bare [], .quoted []], [.bare ['-', '7']]] := by
  decide

end Csv

end LineCalc
