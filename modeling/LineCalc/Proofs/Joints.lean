import LineCalc.Proofs.Yields

/-!
What may stand behind the pieces of a text. Only the literal that ends them, if one does, asks
something of what follows, so the pieces divide any text that they begin in which that literal does
not go on (`division_onto`). It does not if the rest begins as before, nor if the texts are parted
(`lastEndsBefore_of_parted`).
-/
namespace LineCalc

namespace Piece

/- What follows does not make the piece longer. -/
def EndsBefore : Piece → List Char → Prop
  | number l, rest => l.EndsBefore rest
  | _, _ => True

/- What follows does not make the last of the pieces longer. -/
def LastEndsBefore (pieces : List Piece) (rest : List Char) : Prop :=
  ∀ p, pieces.getLast? = some p → p.EndsBefore rest

end Piece

/- Characters of literals. -/
def Numeric (c : Char) : Prop := c.isDigit ∨ c = '.'

/- No literal goes on from one text into the next. An empty text is parted from all others. -/
def Parted (a b : List Char) : Prop :=
  (∀ c, a.getLast? = some c → ¬ Numeric c) ∨ ∀ c, b.head? = some c → ¬ Numeric c

variable {text rest more : List Char} {p : Piece} {pieces front back : List Piece} {l : Literal}

theorem endsBefore_congr (ends : l.EndsBefore rest) (same : more.head? = rest.head?) :
    l.EndsBefore more := by
  intro c head
  exact ends c (same ▸ head)

theorem endsBefore_of_not_numeric (l : Literal) (apart : ∀ c, rest.head? = some c → ¬ Numeric c) :
    l.EndsBefore rest := by
  intro c head
  have other := apart c head
  simp only [Numeric, not_or, Bool.not_eq_true] at other
  exact ⟨other.1, fun point => absurd point other.2⟩

theorem pieceEndsBefore_congr (ends : p.EndsBefore rest) (same : more.head? = rest.head?) :
    p.EndsBefore more := by
  cases p with
  | number l => exact endsBefore_congr ends same
  | _ => trivial

theorem lastEndsBefore_congr (ends : Piece.LastEndsBefore pieces rest)
    (same : more.head? = rest.head?) : Piece.LastEndsBefore pieces more :=
  fun p last => pieceEndsBefore_congr (ends p last) same

theorem lastEndsBefore_nil (pieces : List Piece) : Piece.LastEndsBefore pieces [] := by
  intro p _
  cases p with
  | number l => exact l.endsBefore_nil
  | _ => trivial

theorem lastEndsBefore_cons_iff : Piece.LastEndsBefore (p :: pieces) rest ↔
    (pieces = [] → p.EndsBefore rest) ∧ Piece.LastEndsBefore pieces rest := by
  cases pieces <;> simp [Piece.LastEndsBefore]

theorem flatMap_text_ne_nil (division : Division text pieces rest) (present : pieces ≠ []) :
    pieces.flatMap Piece.text ≠ [] := by
  cases pieces with
  | nil => exact absurd rfl present
  | cons p pieces =>
    obtain ⟨after, first, _⟩ := leading_of_division division
    simp [text_ne_nil_of_leading first]

theorem lastEndsBefore_of_division (division : Division text pieces rest) :
    Piece.LastEndsBefore pieces rest := by
  induction division with
  | done rest => simp [Piece.LastEndsBefore]
  | blank blank tail ih => exact lastEndsBefore_cons_iff.mpr ⟨fun _ => trivial, ih⟩
  | symbol symbol tail ih => exact lastEndsBefore_cons_iff.mpr ⟨fun _ => trivial, ih⟩
  | number lexeme ends tail ih =>
    refine lastEndsBefore_cons_iff.mpr ⟨?_, ih⟩
    intro none
    subst none
    cases tail
    exact ends

/-- Pieces of one text divide any other that they begin, if the last does not go on there. -/
theorem division_onto (division : Division text pieces rest)
    (ends : Piece.LastEndsBefore pieces more) :
    Division (pieces.flatMap Piece.text ++ more) pieces more := by
  induction division with
  | done rest => exact .done more
  | blank blank tail ih => exact .blank blank (ih (lastEndsBefore_cons_iff.mp ends).2)
  | symbol symbol tail ih =>
    have following := ih (lastEndsBefore_cons_iff.mp ends).2
    simpa [Piece.text, symbol] using Division.symbol symbol following
  | @number l text rest pieces lexeme ends' tail ih =>
    obtain ⟨last, others⟩ := lastEndsBefore_cons_iff.mp ends
    have stops : l.EndsBefore (pieces.flatMap Piece.text ++ more) := by
      by_cases none : pieces = []
      · subst none
        exact last rfl
      · -- the next piece begins as before
        have present := flatMap_text_ne_nil tail none
        apply endsBefore_congr ends'
        rw [← division_text tail, List.head?_append_of_ne_nil _ present,
          List.head?_append_of_ne_nil _ present]
    simpa [Piece.text] using Division.number lexeme stops (ih others)

theorem division_append (first : Division text front more) (last : Division more back rest) :
    Division text (front ++ back) rest := by
  induction first with
  | done => exact last
  | blank blank _ ih => exact .blank blank (ih last)
  | symbol symbol _ ih => exact .symbol symbol (ih last)
  | number lexeme ends _ ih => exact .number lexeme ends (ih last)

theorem division_append_iff : Division text (front ++ back) rest ↔
    ∃ middle, Division text front middle ∧ Division middle back rest := by
  constructor
  · intro division
    induction front generalizing text with
    | nil => exact ⟨text, .done text, division⟩
    | cons p front ih =>
      obtain ⟨after, first, tail⟩ := leading_of_division division
      obtain ⟨middle, left, right⟩ := ih tail
      exact ⟨middle, division_of_leading first left, right⟩
  · rintro ⟨middle, left, right⟩
    exact division_append left right

/- Pieces divide any text that they begin and that goes on as before. -/
theorem division_onto_of_head (division : Division text pieces rest)
    (same : more.head? = rest.head?) : Division (pieces.flatMap Piece.text ++ more) pieces more :=
  division_onto division (lastEndsBefore_congr (lastEndsBefore_of_division division) same)

theorem firstStray_onto {char : Char} (first : FirstStray text pieces char rest)
    (more : List Char) :
    FirstStray (pieces.flatMap Piece.text ++ char :: more) pieces char more where
  division := division_onto_of_head first.division rfl
  inRange := first.inRange
  notBlank := first.notBlank
  notSymbol := first.notSymbol
  notDigit := first.notDigit

theorem firstOutside_onto (first : FirstOutside text pieces l rest) (ends : l.EndsBefore more) :
    FirstOutside (pieces.flatMap Piece.text ++ (l.text ++ more)) pieces l more where
  division := by
    obtain ⟨c, tail, head, _⟩ := lexeme_text_head first.lexeme
    apply division_onto_of_head first.division
    rw [head]
    rfl
  inRange := first.inRange
  lexeme := first.lexeme
  ends := ends
  outside := first.outside

theorem lexeme_of_division (division : Division text pieces rest)
    (member : .number l ∈ pieces) : l.IsLexeme := by
  induction division with
  | done rest => cases member
  | blank blank tail ih => exact ih (by simpa using member)
  | symbol symbol tail ih => exact ih (by simpa using member)
  | number lexeme ends tail ih =>
    rcases List.mem_cons.mp member with same | later
    · obtain rfl := Piece.number.inj same
      exact lexeme
    · exact ih later

theorem getLast?_text_numeric (lexeme : l.IsLexeme) :
    ∃ c, l.text.getLast? = some c ∧ Numeric c := by
  obtain ⟨c, tail, head, _⟩ := lexeme_text_head lexeme
  have present : l.text ≠ [] := by simp [head]
  refine ⟨l.text.getLast present, List.getLast?_eq_some_getLast present, ?_⟩
  rcases Literal.mem_text (List.getLast_mem present) with digit | point
  · exact .inl (lexeme.isDigit_of_mem_digits _ digit)
  · exact .inr point

/- A literal that ends a text parted from the next does not go on there. -/
theorem endsBefore_of_parted {before : List Char} (lexeme : l.IsLexeme)
    (parted : Parted (before ++ l.text) more) : l.EndsBefore more := by
  obtain ⟨c, last, numeric⟩ := getLast?_text_numeric lexeme
  rcases parted with apart | apart
  · exact absurd numeric (apart c (by rw [List.getLast?_append, last]; rfl))
  · exact endsBefore_of_not_numeric l apart

theorem lastEndsBefore_of_parted (division : Division text pieces []) (parted : Parted text more) :
    Piece.LastEndsBefore pieces more := by
  intro p last
  cases p with
  | number l =>
    obtain ⟨front, rfl⟩ := List.getLast?_eq_some_iff.mp last
    have parts := division_text division
    rw [List.append_nil, List.flatMap_append] at parts
    rw [← parts] at parted
    have parted' : Parted (front.flatMap Piece.text ++ l.text) more := by
      simpa [Piece.text] using parted
    exact endsBefore_of_parted (lexeme_of_division division (by simp)) parted'
  | _ => trivial

end LineCalc
