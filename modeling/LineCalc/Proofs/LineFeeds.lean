import LineCalc.Report.Csv
import LineCalc.Text.Lines
import LineCalc.Text.Utf8
import Mathlib.Data.String.Basic
import Mathlib.Tactic.SplitIfs

/-!
Counting line feeds. Each that is among the bytes of a file ends one of its lines, whatever else is
among them, and a table has more of them than rows.
-/
namespace LineCalc

def lineFeed : UInt8 := 10

namespace Text

namespace Utf8

/- A state in which no promise can be kept by a byte below 128. -/
def State.Apart : State → Prop
  | .idle => True
  | .awaiting _ lowest _ _ => 0x80 ≤ lowest

theorem start_apart (byte : Nat) : (start byte).2.Apart := by
  unfold start
  split_ifs <;> simp [State.Apart]

theorem step_apart (state : State) (byte : Nat) : (step state byte).2.Apart := by
  cases state with
  | idle => exact start_apart byte
  | awaiting value lowest highest further =>
    rw [step]
    split_ifs
    · cases further with
      | zero => trivial
      | succ further => exact Nat.le_refl _
    · exact start_apart byte

theorem decodeFrom_cons (state : State) (byte : UInt8) (bytes : List UInt8) :
    decodeFrom state (byte :: bytes) =
      (step state byte.toNat).1 ++ decodeFrom (step state byte.toNat).2 bytes := by
  cases state <;> rfl

/- A line feed breaks all promises, as the end would, and is a character by itself. -/
theorem step_lineFeed {state : State} (apart : state.Apart) :
    step state lineFeed.toNat = (decodeFrom state [] ++ ['\n'], .idle) := by
  cases state with
  | idle => rfl
  | awaiting value lowest highest further =>
    have broken : ¬ (lowest ≤ 10 ∧ 10 ≤ highest) := by
      intro kept
      have low : 0x80 ≤ lowest := apart
      omega
    show (if lowest ≤ 10 ∧ 10 ≤ highest then _ else _) = _
    rw [if_neg broken]
    rfl

/- What was read before a line feed has no part in what is read behind it. -/
theorem decodeFrom_lineFeed {state : State} (apart : state.Apart) (bytes : List UInt8) :
    decodeFrom state (lineFeed :: bytes) =
      decodeFrom state [] ++ '\n' :: decodeFrom .idle bytes := by
  rw [decodeFrom_cons, step_lineFeed apart, List.append_assoc]
  rfl

theorem count_decodeFrom (state : State) (apart : state.Apart) (bytes : List UInt8) :
    bytes.count lineFeed ≤ (decodeFrom state bytes).count '\n' := by
  induction bytes generalizing state with
  | nil => simp
  | cons byte bytes ih =>
    by_cases feed : byte = lineFeed
    · subst feed
      have tail := ih .idle trivial
      rw [decodeFrom_lineFeed apart, List.count_append, List.count_cons_self, List.count_cons_self]
      omega
    · have tail := ih (step state byte.toNat).2 (step_apart state byte.toNat)
      rw [decodeFrom_cons, List.count_append, List.count_cons_of_ne feed]
      omega

theorem toList_loop (bytes : ByteArray) (i : Nat) (before : List UInt8) :
    ByteArray.toList.loop bytes i before = before.reverse ++ bytes.data.toList.drop i := by
  fun_induction ByteArray.toList.loop bytes i before with
  | case1 i before inside ih =>
    have short : i < bytes.data.toList.length := by simpa using inside
    rw [ih, List.drop_eq_getElem_cons short]
    simp [ByteArray.get!, inside]
  | case2 i before outside =>
    rw [List.drop_eq_nil_of_le (by simpa using outside), List.append_nil]

theorem encode_eq (text : String) : encode text = text.toList.flatMap String.utf8EncodeChar := by
  have bytes : text.toUTF8 = (text.toList.flatMap String.utf8EncodeChar).toByteArray := by
    rw [String.toUTF8_eq_toByteArray, ← String.ofList_toList (s := text),
      String.toByteArray_ofList, String.ofList_toList]
    rfl
  rw [encode, ByteArray.toList, toList_loop, bytes, List.toList_data_toByteArray]
  rfl

theorem count_encode (text : String) :
    text.toList.count '\n' ≤ (encode text).count lineFeed := by
  rw [encode_eq]
  induction text.toList with
  | nil => simp
  | cons c text ih =>
    rw [List.flatMap_cons, List.count_append]
    by_cases feed : c = '\n'
    · subst feed
      have one : (String.utf8EncodeChar '\n').count lineFeed = 1 := by decide
      rw [List.count_cons_self]
      omega
    · rw [List.count_cons_of_ne feed]
      omega

end Utf8

theorem count_lines (text : List Char) : text.count '\n' ≤ (lines text).length := by
  fun_induction lines text with
  | case1 => simp
  | case2 rest ih =>
    rw [List.count_cons_of_ne (by decide), List.count_cons_self, List.length_cons]
    omega
  | case3 rest _ ih =>
    rw [List.count_cons_of_ne (by decide), List.length_cons]
    omega
  | case4 rest ih =>
    rw [List.count_cons_self, List.length_cons]
    omega
  | case5 c rest _ _ feed none ih =>
    have ne : c ≠ '\n' := by
      rintro rfl
      exact feed rfl
    rw [List.count_cons_of_ne ne, List.length_singleton]
    rw [none] at ih
    exact Nat.le_succ_of_le ih
  | case6 c rest _ _ feed line more known ih =>
    have ne : c ≠ '\n' := by
      rintro rfl
      exact feed rfl
    rw [known] at ih
    rw [List.count_cons_of_ne ne]
    exact ih

end Text

theorem count_csvLine (cells : List String) : 1 ≤ (csvLine cells).toList.count '\n' := by
  rw [csvLine, String.toList_append, List.count_append]
  have ended : "\n".toList.count '\n' = 1 := rfl
  omega

theorem count_csvTable (rows : List Row) :
    rows.length < (Row.csvTable rows).toList.count '\n' := by
  have columns := count_csvLine (Row.columns.map fun column => doubleQuoted column.1)
  have each : rows.length ≤ (String.join (rows.map Row.csv)).toList.count '\n' := by
    induction rows with
    | nil => simp
    | cons row rows ih =>
      have first : 1 ≤ row.csv.toList.count '\n' := count_csvLine (row.cells.map Cell.csv)
      rw [String.toList_join] at ih ⊢
      rw [List.map_cons, List.flatMap_cons, List.count_append, List.length_cons]
      omega
  rw [Row.csvTable, String.toList_append, List.count_append]
  omega

/-- A table has more line feeds than the file whose lines it shows. -/
theorem encode_csvTable_ne {content : List UInt8} {rows : List Row}
    (length : rows.length = (Text.lines (Text.Utf8.decode content)).length) :
    Text.Utf8.encode (Row.csvTable rows) ≠ content := by
  intro same
  have table := count_csvTable rows
  have encoded := Text.Utf8.count_encode (Row.csvTable rows)
  have decoded := Text.Utf8.count_decodeFrom .idle trivial content
  have lines := Text.count_lines (Text.Utf8.decode content)
  rw [same] at encoded
  rw [Text.Utf8.decode] at lines length
  omega

end LineCalc
