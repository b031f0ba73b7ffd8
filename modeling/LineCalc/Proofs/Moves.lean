import LineCalc.Proofs.Yields

/-!
Where a cursor is after any moves. Each move passes characters one by one, so that a cursor is
where so many single advances take it (`located_after`): its position tells what was passed, and
what is ahead is the rest of the text.
-/
namespace LineCalc

/- `LastLineFeed text p`: the last line feed is at offset `p`, which is -1 without any. -/
inductive LastLineFeed : List Char → Int → Prop where
  | absent {text : List Char} (none : '\n' ∉ text) : LastLineFeed text (-1)
  | present {before after : List Char} (none : '\n' ∉ after) :
      LastLineFeed (before ++ '\n' :: after) before.length

theorem lastLineFeed_append {text more : List Char} {p : Int} (last : LastLineFeed text p)
    (apart : '\n' ∉ more) : LastLineFeed (text ++ more) p := by
  cases last with
  | absent none => exact .absent (by simp [none, apart])
  | @present before after none =>
    rw [List.append_assoc, List.cons_append]
    exact .present (by simp [none, apart])

theorem lastLineFeed_concat (text : List Char) : LastLineFeed (text ++ ['\n']) text.length :=
  .present (by simp)

namespace Literal

theorem sameLine {l : Literal} (all : ∀ c ∈ l.digits, c.isDigit) : '\n' ∉ l.text := by
  intro member
  rcases mem_text member with digit | point
  · exact absurd (all _ digit) (by decide)
  · cases point

end Literal

theorem sameLine_of_division {text rest : List Char} {pieces : List Piece}
    (division : Division text pieces rest) : '\n' ∉ pieces.flatMap Piece.text := by
  induction division with
  | done rest => simp
  | blank blank tail ih =>
    rcases blank with rfl | rfl <;> simpa [Piece.text] using ih
  | symbol symbol tail ih =>
    simpa [Piece.text, symbol, (symbol_ne_lineFeed symbol).symm] using ih
  | number lexeme ends tail ih =>
    simpa [Piece.text, ih] using Literal.sameLine lexeme.isDigit_of_mem_digits

namespace Cursor

/- What can be asked of a cursor. -/
inductive Move where
  | advance
  | number
  | tokens
  deriving DecidableEq, Repr

/- Where a move leaves the cursor, also if it yields an error. -/
def Move.apply (source : String) : Move → Cursor → Cursor
  | .advance, c => c.advance
  | .number, c => (c.number source).2
  | .tokens, c => (c.tokens source).2

/- The cursor that has made these moves from the start of a text. -/
def after (source text : String) (moves : List Move) : Cursor :=
  moves.foldl (fun c move => move.apply source c) (start text)

theorem after_concat (source text : String) (moves : List Move) (move : Move) :
    after source text (moves ++ [move]) = move.apply source (after source text moves) := by
  simp [after]

/- The cursor that has passed `i` characters, those of the text and then blanks. -/
structure Located (text : List Char) (i : Nat) (c : Cursor) : Prop where
  rest : c.rest = text.drop i
  index : c.position.index = i
  line : c.position.line = (text.take i).count '\n'
  column : ∃ p, LastLineFeed (text.take i) p ∧ c.position.column = i - p - 1

theorem located_start (text : String) : Located text.toList 0 (start text) where
  rest := rfl
  index := rfl
  line := rfl
  column := ⟨-1, .absent (by simp), rfl⟩

/- Behind the text there are blanks. -/
theorem current_ne_lineFeed {c : Cursor} (sameLine : '\n' ∉ c.rest.take 1) :
    c.current ≠ '\n' := by
  intro same
  cases ahead : c.rest with
  | nil => simp [current, ahead] at same
  | cons char rest =>
    rw [current_of_ahead ahead] at same
    simp [ahead, same] at sameLine

theorem rest_advance {text : List Char} {i : Nat} {c : Cursor} (rest : c.rest = text.drop i) :
    c.advance.rest = text.drop (i + 1) := by
  rw [advance, rest, List.tail_drop]

theorem current_of_located {text : List Char} {i : Nat} {c : Cursor}
    (located : Located text i c) : c.current = text.getD i ' ' := by
  simp [current, located.rest]

theorem located_lineFeed {text : List Char} {i : Nat} {c : Cursor} (located : Located text i c)
    (here : text[i]? = some '\n') : Located text (i + 1) c.advance := by
  obtain ⟨inside, _⟩ := List.getElem?_eq_some_iff.mp here
  have passed : text.take (i + 1) = text.take i ++ ['\n'] := by rw [List.take_add_one, here]; rfl
  have length : (text.take i).length = i := List.length_take_of_le (Nat.le_of_lt inside)
  have moved : c.advance.position = ⟨c.position.index + 1, c.position.line + 1, 0⟩ := by
    simp [advance, Position.advance, current_of_located located, here]
  have last := lastLineFeed_concat (text.take i)
  rw [← passed, length] at last
  exact {
    rest := rest_advance located.rest
    index := by simp [moved, located.index]
    line := by simp [moved, located.line, passed]
    column := ⟨i, last, by simp [moved]⟩ }

theorem located_sameLine {text : List Char} {i : Nat} {c : Cursor} (located : Located text i c)
    (other : '\n' ∉ text[i]?.toList) : Located text (i + 1) c.advance := by
  obtain ⟨p, last, column⟩ := located.column
  have passed : text.take (i + 1) = text.take i ++ text[i]?.toList := List.take_add_one
  have sameLine : c.current ≠ '\n' := by
    apply current_ne_lineFeed
    rwa [located.rest, List.take_one, List.head?_drop]
  have moved : c.advance.position = c.position.along 1 := by rw [advance_eq_pass sameLine]; rfl
  have further := lastLineFeed_append last other
  rw [← passed] at further
  exact {
    rest := rest_advance located.rest
    index := by simp [moved, Position.along, located.index]
    line := by simp [moved, Position.along, located.line, passed, List.count_eq_zero.mpr other]
    column := ⟨p, further, by simp only [moved, Position.along]; omega⟩ }

theorem located_advance {text : List Char} {i : Nat} {c : Cursor} (located : Located text i c) :
    Located text (i + 1) c.advance := by
  by_cases lineFeed : text[i]? = some '\n'
  · exact located_lineFeed located lineFeed
  · exact located_sameLine located (by simpa using lineFeed)

theorem located_iterate {text : List Char} {i : Nat} {c : Cursor} (located : Located text i c)
    (n : Nat) : Located text (i + n) (advance^[n] c) := by
  induction n with
  | zero => exact located
  | succ n ih =>
    rw [Function.iterate_succ_apply', ← Nat.add_assoc]
    exact located_advance ih

/- On one line many characters are passed as one by one. -/
theorem pass_eq_iterate {c : Cursor} {n : Nat} (sameLine : '\n' ∉ c.rest.take n) :
    c.pass n = advance^[n] c := by
  induction n with
  | zero => exact pass_zero c
  | succ n ih =>
    rw [List.take_add, List.mem_append, not_or] at sameLine
    obtain ⟨first, last⟩ := sameLine
    have next : (c.pass n).current ≠ '\n' := current_ne_lineFeed last
    rw [Function.iterate_succ_apply', ← ih first, ← pass_pass, advance_eq_pass next]

theorem sameLine_of_yields {source : String} {p : Position} {text : List Char}
    {outcome : Except Failure (List Token)} {n : Nat} (yields : Yields source p text outcome n) :
    '\n' ∉ text.take n := by
  cases yields with
  | full division reads =>
    have passed := sameLine_of_division division
    rw [List.take_length, ← division_text division]
    simpa using passed
  | stray first =>
    rw [take_of_division first.division]
    exact sameLine_of_division first.division
  | invalid first _ | overlong first _ =>
    have literal := Literal.sameLine first.lexeme.isDigit_of_mem_digits
    have passed := sameLine_of_division first.division
    rw [take_of_firstOutside first]
    simp [passed, literal]

/- A literal is passed, which may be empty. -/
theorem number_eq_iterate (source : String) (c : Cursor) :
    ∃ n, (c.number source).2 = advance^[n] c ∧ n ≤ c.rest.length := by
  have ahead := Literal.text_scan_isPrefix c.rest
  have literal : '\n' ∉ (Literal.scan c.rest).text :=
    Literal.sameLine fun _ => Literal.isDigit_of_mem_digits_scan
  have passed : c.rest.take (Literal.scan c.rest).length = (Literal.scan c.rest).text :=
    (List.prefix_iff_eq_take.mp ahead).symm
  exact ⟨(Literal.scan c.rest).length, pass_eq_iterate (by rwa [passed]), ahead.length_le⟩

theorem tokens_eq_iterate (source : String) (c : Cursor) :
    ∃ n, (c.tokens source).2 = advance^[n] c ∧ n ≤ c.rest.length := by
  obtain ⟨n, yields, left⟩ := tokens_yields source c
  refine ⟨n, ?_, yields_le_length yields⟩
  rw [left, pass_eq_iterate (sameLine_of_yields yields)]

/- Each move is some number of advances, and only an advance leaves the text. -/
theorem move_eq_iterate (source : String) (move : Move) (c : Cursor) :
    ∃ n, move.apply source c = advance^[n] c ∧ (move = .advance → n = 1) ∧
      (move ≠ .advance → n ≤ c.rest.length) := by
  cases move with
  | advance => exact ⟨1, rfl, fun _ => rfl, fun other => absurd rfl other⟩
  | number =>
    obtain ⟨n, left, inside⟩ := number_eq_iterate source c
    exact ⟨n, left, nofun, fun _ => inside⟩
  | tokens =>
    obtain ⟨n, left, inside⟩ := tokens_eq_iterate source c
    exact ⟨n, left, nofun, fun _ => inside⟩

theorem located_move (source : String) (move : Move) {text : List Char} {i : Nat} {c : Cursor}
    (located : Located text i c) :
    ∃ j, Located text j (move.apply source c) ∧ i ≤ j ∧ (move = .advance → j = i + 1) ∧
      (move ≠ .advance → j ≤ max i text.length) := by
  obtain ⟨n, moved, single, inside⟩ := move_eq_iterate source move c
  have ahead : c.rest.length = text.length - i := by rw [located.rest, List.length_drop]
  refine ⟨i + n, ?_, by omega, ?_, ?_⟩
  · rw [moved]
    exact located_iterate located n
  · intro advance
    rw [single advance]
  · intro other
    have within := inside other
    omega

theorem exists_located (source text : String) (moves : List Move) :
    ∃ i, Located text.toList i (after source text moves) := by
  induction moves using List.reverseRecOn with
  | nil => exact ⟨0, located_start text⟩
  | append_singleton moves move ih =>
    obtain ⟨i, located⟩ := ih
    obtain ⟨j, moved, _⟩ := located_move source move located
    rw [after_concat]
    exact ⟨j, moved⟩

/-- After any moves the cursor has passed a number of characters, and its position, what is under
    it and whether it is at the end follow from that number. No further move goes back, an advance
    passes one character, and the other moves stay in the text. -/
theorem located_after (source text : String) (moves : List Move) :
    ∃ i, Located text.toList i (after source text moves) ∧
      (after source text moves).current = text.toList.getD i ' ' ∧
      ((after source text moves).atEnd ↔ text.length ≤ i) ∧
      ∀ move, ∃ j, Located text.toList j (after source text (moves ++ [move])) ∧ i ≤ j ∧
        (move = .advance → j = i + 1) ∧ (move ≠ .advance → j ≤ max i text.length) := by
  obtain ⟨i, located⟩ := exists_located source text moves
  refine ⟨i, located, current_of_located located, ?_, ?_⟩
  · rw [← String.length_toList]
    simp [atEnd, located.rest]
  · intro move
    rw [after_concat, ← String.length_toList]
    exact located_move source move located

end Cursor

end LineCalc
