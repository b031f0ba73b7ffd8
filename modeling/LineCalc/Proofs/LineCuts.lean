import LineCalc.Proofs.LineFeeds
import LineCalc.Session.FileRun
import Mathlib.Data.List.TakeWhile

/-!
Bytes cut at a line feed. The two sides are read by themselves, whatever bytes are in them, and
their lines stand one behind the other (`linesOf_append`). Bytes without a line end are one line
with a line feed behind them (`linesOf_line`). No line holds a line end.
-/
namespace LineCalc

def carriageReturn : UInt8 := 13

namespace Text

namespace Utf8

/- Bytes behind a line feed are read as if they were the first, and those in front of it as if they
   were the last. -/
theorem decodeFrom_append_lineFeed (state : State) (apart : state.Apart)
    (first second : List UInt8) :
    decodeFrom state (first ++ lineFeed :: second) =
      decodeFrom state first ++ '\n' :: decodeFrom .idle second := by
  induction first generalizing state with
  | nil => exact decodeFrom_lineFeed apart second
  | cons byte bytes ih =>
    have tail := ih _ (step_apart state byte.toNat)
    simp only [List.cons_append, decodeFrom_cons, tail, List.append_assoc]

theorem decode_append_lineFeed (first second : List UInt8) :
    decode (first ++ lineFeed :: second) = decode first ++ '\n' :: decode second :=
  decodeFrom_append_lineFeed .idle trivial first second

/- A number outside of all characters makes the null character. -/
theorem ofNat_ne {n : Nat} {c : Char} (other : n ≠ c.toNat) (present : c ≠ '\x00') :
    Char.ofNat n ≠ c := by
  intro same
  unfold Char.ofNat at same
  by_cases valid : n.isValidChar
  · rw [dif_pos valid] at same
    exact other (congrArg Char.toNat same)
  · rw [dif_neg valid] at same
    exact present same.symm

theorem not_isLineEnd_ofNat {n : Nat} (notFeed : n ≠ 10) (notReturn : n ≠ 13) :
    isLineEnd (Char.ofNat n) = false := by
  have feed : Char.ofNat n ≠ '\n' := ofNat_ne notFeed (by decide)
  have return' : Char.ofNat n ≠ '\r' := ofNat_ne notReturn (by decide)
  simp [isLineEnd, feed, return']

/- A state whose characters will have more than one byte, as its bytes cannot be less. -/
def State.Wide : State → Prop
  | .idle => True
  | .awaiting value lowest _ further =>
    0x80 ≤ lowest ∧ 2 ≤ if further = 0 then value else value * 64 + (lowest - 0x80)

theorem start_wide {byte : Nat} (notFeed : byte ≠ 10) (notReturn : byte ≠ 13) :
    (∀ c ∈ (start byte).1, isLineEnd c = false) ∧ (start byte).2.Wide := by
  have plain := not_isLineEnd_ofNat notFeed notReturn
  have mark : isLineEnd replacement = false := by decide
  unfold start
  split_ifs <;> simp only [State.Wide, List.forall_mem_singleton, List.not_mem_nil] <;> grind

/- Other bytes do not make line ends. -/
theorem step_wide {state : State} (wide : state.Wide) {byte : Nat} (notFeed : byte ≠ 10)
    (notReturn : byte ≠ 13) :
    (∀ c ∈ (step state byte).1, isLineEnd c = false) ∧ (step state byte).2.Wide := by
  have begun := start_wide notFeed notReturn
  have mark : isLineEnd replacement = false := by decide
  cases state with
  | idle => exact begun
  | awaiting value lowest highest further =>
    obtain ⟨low, large⟩ := wide
    by_cases kept : lowest ≤ byte ∧ byte ≤ highest
    · cases further with
      | zero =>
        rw [if_pos rfl] at large
        have plain : isLineEnd (Char.ofNat (value * 64 + (byte - 0x80))) = false :=
          not_isLineEnd_ofNat (by omega) (by omega)
        simp only [step, if_pos kept]
        exact ⟨by simpa using plain, trivial⟩
      | succ further =>
        rw [if_neg (Nat.succ_ne_zero further)] at large
        simp only [step, if_pos kept]
        refine ⟨by simp, Nat.le_refl _, ?_⟩
        split <;> omega
    · simp only [step, if_neg kept]
      exact ⟨List.forall_mem_cons.mpr ⟨mark, begun.1⟩, begun.2⟩

theorem not_isLineEnd_of_mem_decodeFrom (state : State) (wide : state.Wide) {bytes : List UInt8}
    (plain : ∀ byte ∈ bytes, byte ≠ lineFeed ∧ byte ≠ carriageReturn) :
    ∀ c ∈ decodeFrom state bytes, isLineEnd c = false := by
  induction bytes generalizing state with
  | nil => cases state <;> simp [decodeFrom, replacement, isLineEnd]
  | cons byte bytes ih =>
    obtain ⟨⟨notFeed, notReturn⟩, others⟩ := List.forall_mem_cons.mp plain
    have notFeed' : byte.toNat ≠ 10 := fun same => notFeed (UInt8.toNat_inj.mp same)
    have notReturn' : byte.toNat ≠ 13 := fun same => notReturn (UInt8.toNat_inj.mp same)
    obtain ⟨made, wide⟩ := step_wide wide notFeed' notReturn'
    rw [decodeFrom_cons]
    exact List.forall_mem_append.mpr ⟨made, ih _ wide others⟩

end Utf8

theorem lines_return {rest : List Char} (single : rest.head? ≠ some '\n') :
    lines ('\r' :: rest) = [] :: lines rest := by
  refine lines.eq_3 rest ?_
  rintro others rfl
  exact single rfl

theorem lines_plain {c : Char} (plain : isLineEnd c = false) (rest : List Char) :
    lines (c :: rest) = (c :: (lines rest).headD []) :: (lines rest).tail := by
  have other : c ≠ '\r' ∧ c ≠ '\n' := by simpa [isLineEnd] using plain
  obtain ⟨notReturn, notFeed⟩ := other
  rw [lines.eq_5 c rest (fun _ same _ => notReturn same) notReturn notFeed]
  cases lines rest <;> rfl

theorem lines_ne_nil {text : List Char} (present : text ≠ []) : lines text ≠ [] := by
  fun_cases lines text <;> simp_all

/- A character in front goes to the first of several lines. -/
theorem lines_plain_append {c : Char} {first rest : List Char} {others : List (List Char)}
    (plain : isLineEnd c = false) (present : first ≠ [])
    (apart : lines rest = lines first ++ others) :
    lines (c :: rest) = lines (c :: first) ++ others := by
  obtain ⟨line, more, known⟩ := List.exists_cons_of_ne_nil (lines_ne_nil present)
  rw [lines_plain plain, lines_plain plain, apart, known]
  rfl

theorem plain_of_ne {c : Char} (notReturn : c = '\r' → False) (notFeed : c = '\n' → False) :
    isLineEnd c = false := by
  simpa [isLineEnd] using And.intro notReturn notFeed

theorem lines_append_lineFeed (first second : List Char) :
    lines (first ++ '\n' :: second) = lines (first ++ ['\n']) ++ lines second := by
  fun_induction lines first with
  | case1 => rfl
  | case2 rest ih => exact congrArg ([] :: ·) ih
  | case3 rest single ih =>
    -- At its end a carriage return takes the line feed along, on both sides.
    cases rest with
    | nil => rfl
    | cons c rest =>
      have other (others : List Char) : (c :: (rest ++ others)).head? ≠ some '\n' := by
        intro same
        exact single rest (by rw [Option.some.inj same])
      simp only [List.cons_append] at ih ⊢
      rw [lines_return (other _), lines_return (other _), ih]
      rfl
  | case4 rest ih => exact congrArg ([] :: ·) ih
  | case5 c rest _ notReturn notFeed none ih =>
    exact lines_plain_append (plain_of_ne notReturn notFeed) (by simp) ih
  | case6 c rest _ notReturn notFeed line more known ih =>
    exact lines_plain_append (plain_of_ne notReturn notFeed) (by simp) ih

theorem lines_line {text : List Char} (plain : ∀ c ∈ text, isLineEnd c = false) :
    lines (text ++ ['\n']) = [text] := by
  induction text with
  | nil => rfl
  | cons c text ih =>
    obtain ⟨first, others⟩ := List.forall_mem_cons.mp plain
    rw [List.cons_append, lines_plain first, ih others]
    rfl

theorem not_isLineEnd_of_mem_lines (text : List Char) :
    ∀ line ∈ lines text, ∀ c ∈ line, isLineEnd c = false := by
  fun_induction lines text with
  | case1 => simp
  | case2 rest ih => simpa using ih
  | case3 rest single ih => simpa using ih
  | case4 rest ih => simpa using ih
  | case5 c rest _ notReturn notFeed none ih => simpa using plain_of_ne notReturn notFeed
  | case6 c rest _ notReturn notFeed line more known ih =>
    rw [known] at ih
    obtain ⟨first, others⟩ := List.forall_mem_cons.mp ih
    have plain := plain_of_ne notReturn notFeed
    exact List.forall_mem_cons.mpr ⟨List.forall_mem_cons.mpr ⟨plain, first⟩, others⟩

theorem stripLineEnds_of_plain {text : List Char} (plain : ∀ c ∈ text, isLineEnd c = false) :
    stripLineEnds (String.ofList text) = String.ofList text := by
  unfold stripLineEnds
  rw [String.toList_ofList, List.dropWhile_eq_self_iff.mpr, List.reverse_reverse]
  intro present
  have last := plain _ (List.mem_reverse.mp (List.getElem_mem present))
  simpa using last

end Text

namespace FileRun

/-- The lines of bytes on both sides of a cut behind a line feed. -/
theorem linesOf_append {first : List UInt8} (ended : first = [] ∨ first.getLast? = some lineFeed)
    (second : List UInt8) : linesOf (first ++ second) = linesOf first ++ linesOf second := by
  rcases ended with rfl | ended
  · rfl
  · obtain ⟨before, rfl⟩ := List.getLast?_eq_some_iff.mp ended
    unfold linesOf
    rw [List.append_assoc, List.singleton_append, Text.Utf8.decode_append_lineFeed,
      Text.Utf8.decode_append_lineFeed, Text.lines_append_lineFeed, List.map_append]
    rfl

/- A truncated character, a line feed, and a byte that begins none. -/
example : linesOf [0xe2, 0x82, 0x0a, 0xff] = ["\ufffd", "\ufffd"] := by decide

/-- Bytes without a line end are one line, with a line feed behind them. -/
theorem linesOf_line {bytes : List UInt8}
    (plain : ∀ byte ∈ bytes, byte ≠ lineFeed ∧ byte ≠ carriageReturn) :
    linesOf (bytes ++ [lineFeed]) = [String.ofList (Text.Utf8.decode bytes)] := by
  have characters := Text.Utf8.not_isLineEnd_of_mem_decodeFrom .idle trivial plain
  unfold linesOf
  rw [Text.Utf8.decode_append_lineFeed]
  exact congrArg (List.map String.ofList) (Text.lines_line characters)

theorem stripLineEnds_of_mem_linesOf {content : List UInt8} {text : String}
    (member : text ∈ linesOf content) : Text.stripLineEnds text = text := by
  obtain ⟨line, known, rfl⟩ := List.mem_map.mp member
  exact Text.stripLineEnds_of_plain (Text.not_isLineEnd_of_mem_lines _ line known)

theorem plain_of_mem_linesOf {content : List UInt8} {text : String}
    (member : text ∈ linesOf content) : ∀ c ∈ text.toList, c ≠ '\r' ∧ c ≠ '\n' := by
  obtain ⟨line, known, rfl⟩ := List.mem_map.mp member
  intro c inside
  rw [String.toList_ofList] at inside
  simpa [Text.isLineEnd] using Text.not_isLineEnd_of_mem_lines _ line known c inside

end FileRun

end LineCalc
