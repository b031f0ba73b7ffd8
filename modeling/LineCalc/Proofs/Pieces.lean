import LineCalc.Proofs.Rounding
import LineCalc.Token.Cursor

/-!
Texts in pieces: blanks, symbols, and number literals that are as long as they can be. The division
of a text is a relation here, without a cursor. A text has at most one (`division_unique`), and
each can be taken up to its end or to what stands in the way (`division_exists`).
-/
namespace LineCalc

namespace Literal

/- Digits, and perhaps a point with further digits behind it. -/
structure IsLexeme (l : Literal) : Prop where
  present : l.whole ≠ []
  whole : ∀ c ∈ l.whole, c.isDigit
  fraction : ∀ c ∈ l.fraction.getD [], c.isDigit

/- What follows does not make the literal longer. -/
def EndsBefore (l : Literal) (rest : List Char) : Prop :=
  ∀ c, rest.head? = some c → c.isDigit = false ∧ (c = '.' → l.fraction ≠ none)

/- Integers are within the limit on digits and at most the largest one, and decimals round to a
   magnitude. -/
def InRange (l : Literal) : Prop :=
  match l.fraction with
  | none => l.whole.length ≤ mostDigits ∧ Nat.ofDigitChars 10 l.whole 0 ≤ largestInteger
  | some _ => ∃ m, Rounds l.value m

theorem IsLexeme.isDigit_of_mem_digits {l : Literal} (lexeme : l.IsLexeme) :
    ∀ c ∈ l.digits, c.isDigit :=
  List.forall_mem_append.mpr ⟨lexeme.whole, lexeme.fraction⟩

theorem mem_text {l : Literal} {c : Char} (member : c ∈ l.text) : c ∈ l.digits ∨ c = '.' := by
  obtain ⟨whole, fraction⟩ := l
  cases fraction with
  | none => exact .inl (by simpa [text, digits] using member)
  | some fraction =>
    simp only [text, digits, Option.getD_some, List.mem_append, List.mem_cons] at member ⊢
    rcases member with left | point | right
    · exact .inl (.inl left)
    · exact .inr point
    · exact .inl (.inr right)

theorem span_of_boundary {p : Char → Bool} {inside rest : List Char} (all : ∀ c ∈ inside, p c)
    (boundary : ∀ c, rest.head? = some c → p c = false) :
    (inside ++ rest).takeWhile p = inside ∧ (inside ++ rest).dropWhile p = rest := by
  induction inside with
  | nil =>
    cases rest with
    | nil => exact ⟨rfl, rfl⟩
    | cons c rest =>
      have stop := boundary c rfl
      simp [stop]
  | cons c inside ih =>
    have first := all c (by simp)
    have others := ih fun d member => all d (by simp [member])
    simp [first, others]

theorem endsBefore_nil (l : Literal) : l.EndsBefore [] := by
  intro c head
  cases head

theorem scan_lexeme {l : Literal} {rest : List Char} (lexeme : l.IsLexeme)
    (ends : l.EndsBefore rest) : scan (l.text ++ rest) = l := by
  have boundary : ∀ c, rest.head? = some c → c.isDigit = false := fun c head => (ends c head).1
  obtain ⟨whole, fraction⟩ := l
  cases fraction with
  | none =>
    obtain ⟨taken, left⟩ := span_of_boundary lexeme.whole boundary
    unfold scan Literal.text
    simp only [taken, left]
    split
    · exact absurd rfl ((ends '.' rfl).2 rfl)
    · rfl
  | some fraction =>
    have point : ∀ c, ('.' :: (fraction ++ rest)).head? = some c → c.isDigit = false := by
      intro c head
      obtain rfl : '.' = c := Option.some.inj head
      rfl
    obtain ⟨taken, left⟩ := span_of_boundary lexeme.whole point
    have digits : ∀ c ∈ fraction, c.isDigit := lexeme.fraction
    obtain ⟨places, _⟩ := span_of_boundary digits boundary
    unfold scan Literal.text
    simp only [List.append_assoc, List.cons_append, taken, left, places]

theorem isLexeme_scan {c : Char} {rest : List Char} (digit : c.isDigit) :
    (scan (c :: rest)).IsLexeme := by
  refine ⟨by simp [scan, digit], ?_, ?_⟩
  · intro d member
    exact isDigit_of_mem_digits_scan (List.mem_append_left _ member)
  · intro d member
    exact isDigit_of_mem_digits_scan (List.mem_append_right _ member)

/- What a scan leaves, from the parts that it took. -/
theorem drop_scan {text rest : List Char} (parts : (scan text).text ++ rest = text) :
    text.drop (scan text).length = rest :=
  List.append_cancel_left ((text_scan_append_drop text).trans parts.symm)

theorem head_dropWhile_false {p : Char → Bool} {text : List Char} {c : Char}
    (head : (text.dropWhile p).head? = some c) : p c = false := by
  have stop := List.head?_dropWhile_not p text
  rw [head] at stop
  simpa using stop

theorem scan_endsBefore (text : List Char) :
    (scan text).EndsBefore (text.drop (scan text).length) := by
  have parts := List.takeWhile_append_dropWhile (p := Char.isDigit) (l := text)
  by_cases pointed : ∃ after, text.dropWhile Char.isDigit = '.' :: after
  · obtain ⟨after, point⟩ := pointed
    have scanned : scan text =
        ⟨text.takeWhile Char.isDigit, some (after.takeWhile Char.isDigit)⟩ := by
      unfold scan
      simp only [point]
    have left : text.drop (scan text).length = after.dropWhile Char.isDigit := by
      apply drop_scan
      rw [scanned]
      unfold Literal.text
      simp only [List.append_assoc, List.cons_append, List.takeWhile_append_dropWhile, ← point,
        parts]
    rw [left, scanned]
    intro c head
    exact ⟨head_dropWhile_false head, fun _ absent => by cases absent⟩
  · have scanned : scan text = ⟨text.takeWhile Char.isDigit, none⟩ := by
      unfold scan
      split
      · rename_i after point
        exact absurd ⟨after, point⟩ pointed
      · rfl
    have left : text.drop (scan text).length = text.dropWhile Char.isDigit := by
      apply drop_scan
      rw [scanned]
      exact parts
    rw [left, scanned]
    intro c head
    refine ⟨head_dropWhile_false head, ?_⟩
    rintro rfl
    obtain ⟨after, point⟩ := List.head?_eq_some_iff.mp head
    exact absurd ⟨after, point⟩ pointed

end Literal

inductive Piece where
  | blank (char : Char)
  | symbol (kind : Kind)
  | number (literal : Literal)
  deriving DecidableEq, Repr

namespace Piece

def text : Piece → List Char
  | blank c => [c]
  | symbol kind => kind.symbol?.toList
  | number l => l.text

def InRange : Piece → Prop
  | number l => l.InRange
  | _ => True

end Piece

/-- `Division text pieces rest`: the text begins with these pieces, and the rest follows them. -/
inductive Division : List Char → List Piece → List Char → Prop where
  | done (rest : List Char) : Division rest [] rest
  | blank {c : Char} {text rest : List Char} {pieces : List Piece} (blank : c = ' ' ∨ c = '\t')
      (tail : Division text pieces rest) : Division (c :: text) (.blank c :: pieces) rest
  | symbol {c : Char} {kind : Kind} {text rest : List Char} {pieces : List Piece}
      (symbol : kind.symbol? = some c) (tail : Division text pieces rest) :
      Division (c :: text) (.symbol kind :: pieces) rest
  | number {l : Literal} {text rest : List Char} {pieces : List Piece} (lexeme : l.IsLexeme)
      (ends : l.EndsBefore text) (tail : Division text pieces rest) :
      Division (l.text ++ text) (.number l :: pieces) rest

/- The tokens of pieces in range. Blanks have none. -/
inductive ReadAs : List Piece → List Token → Prop where
  | nil : ReadAs [] []
  | blank (c : Char) {pieces : List Piece} {ts : List Token} (tail : ReadAs pieces ts) :
      ReadAs (.blank c :: pieces) ts
  | symbol (kind : Kind) {pieces : List Piece} {ts : List Token} (tail : ReadAs pieces ts) :
      ReadAs (.symbol kind :: pieces) (⟨kind, none⟩ :: ts)
  | integer {l : Literal} {pieces : List Piece} {ts : List Token} (plain : l.fraction = none)
      (valid : l.InRange) (tail : ReadAs pieces ts) :
      ReadAs (.number l :: pieces)
        (⟨.integer, some (.integer (Nat.ofDigitChars 10 l.whole 0))⟩ :: ts)
  | decimal {l : Literal} {m : Magnitude} {pieces : List Piece} {ts : List Token}
      (pointed : l.fraction ≠ none) (rounds : Rounds l.value m) (tail : ReadAs pieces ts) :
      ReadAs (.number l :: pieces) (⟨.decimal, some (.double (.finite false m))⟩ :: ts)

/- What ends a division into pieces in range. -/
inductive Blocked : List Char → Prop where
  | atEnd : Blocked []
  | character {c : Char} {rest : List Char} (notBlank : Cursor.isBlank c = false)
      (notSymbol : Kind.ofSymbol? c = none) (notDigit : c.isDigit = false) : Blocked (c :: rest)
  | literal {l : Literal} {rest : List Char} (lexeme : l.IsLexeme) (ends : l.EndsBefore rest)
      (outside : ¬ l.InRange) : Blocked (l.text ++ rest)

theorem symbol_ne_lineFeed {c : Char} {kind : Kind} (symbol : kind.symbol? = some c) :
    c ≠ '\n' := by
  intro same
  cases kind <;> simp [Kind.symbol?, same] at symbol

theorem division_text {text rest : List Char} {pieces : List Piece}
    (division : Division text pieces rest) : pieces.flatMap Piece.text ++ rest = text := by
  induction division with
  | done rest => rfl
  | blank blank tail ih => simp [Piece.text, ih]
  | symbol symbol tail ih => simp [Piece.text, symbol, ih]
  | number lexeme ends tail ih => simp [Piece.text, ih]

theorem lexeme_text_head {l : Literal} (lexeme : l.IsLexeme) :
    ∃ c tail, l.text = c :: tail ∧ c.isDigit := by
  obtain ⟨whole, fraction⟩ := l
  cases whole with
  | nil => exact absurd rfl lexeme.present
  | cons c whole =>
    have digit := lexeme.whole c (by simp)
    cases fraction with
    | none => exact ⟨c, whole, rfl, digit⟩
    | some fraction => exact ⟨c, whole ++ '.' :: fraction, rfl, digit⟩

theorem isBlank_iff {c : Char} : Cursor.isBlank c ↔ c = ' ' ∨ c = '\t' := by
  simp [Cursor.isBlank]

/- The first piece of a text and what follows it. -/
def leading? : List Char → Option (Piece × List Char)
  | [] => none
  | c :: rest =>
    if Cursor.isBlank c then some (.blank c, rest)
    else match Kind.ofSymbol? c with
      | some kind => some (.symbol kind, rest)
      | none =>
        if c.isDigit then
          some (.number (Literal.scan (c :: rest)),
            (c :: rest).drop (Literal.scan (c :: rest)).length)
        else none

theorem leading_of_division {text rest : List Char} {p : Piece} {pieces : List Piece}
    (division : Division text (p :: pieces) rest) :
    ∃ after, leading? text = some (p, after) ∧ Division after pieces rest := by
  cases division with
  | @blank c after _ _ blank tail =>
    have isBlank := isBlank_iff.mpr blank
    exact ⟨after, by simp [leading?, isBlank], tail⟩
  | @symbol c kind after _ _ symbol tail =>
    have read := Kind.ofSymbol?_eq_some_iff.mpr symbol
    have notBlank := Cursor.isBlank_of_symbol read
    exact ⟨after, by simp [leading?, notBlank, read], tail⟩
  | @number l after _ _ lexeme ends tail =>
    obtain ⟨c, more, head, digit⟩ := lexeme_text_head lexeme
    have scanned := Literal.scan_lexeme lexeme ends
    have left : (l.text ++ after).drop l.text.length = after := List.drop_left
    rw [head, List.cons_append] at scanned left ⊢
    have notBlank := Cursor.isBlank_of_digit digit
    have notSymbol := Cursor.ofSymbol?_of_digit digit
    refine ⟨after, ?_, tail⟩
    unfold leading?
    simp only [notBlank, notSymbol, digit, scanned, Literal.length, head, left]
    rfl

theorem division_of_leading {text after rest : List Char} {p : Piece} {pieces : List Piece}
    (first : leading? text = some (p, after)) (tail : Division after pieces rest) :
    Division text (p :: pieces) rest := by
  cases text with
  | nil => cases first
  | cons c text =>
    simp only [leading?] at first
    split at first
    · rename_i blank
      obtain ⟨rfl, rfl⟩ := Prod.mk.inj (Option.some.inj first)
      exact .blank (isBlank_iff.mp blank) tail
    · split at first
      · rename_i kind read
        obtain ⟨rfl, rfl⟩ := Prod.mk.inj (Option.some.inj first)
        exact .symbol (Kind.ofSymbol?_eq_some_iff.mp read) tail
      · split at first
        · rename_i digit
          obtain ⟨rfl, rfl⟩ := Prod.mk.inj (Option.some.inj first)
          have parts := Literal.text_scan_append_drop (c :: text)
          have ends := Literal.scan_endsBefore (c :: text)
          have division := Division.number (Literal.isLexeme_scan digit) ends tail
          rwa [parts] at division
        · cases first

/-- A text divides up to its end in one way at most. -/
theorem division_unique {text : List Char} {pieces others : List Piece}
    (first : Division text pieces []) (second : Division text others []) : pieces = others := by
  induction pieces generalizing text others with
  | nil =>
    cases first
    cases others with
    | nil => rfl
    | cons q others =>
      obtain ⟨after, none, _⟩ := leading_of_division second
      cases none
  | cons p pieces ih =>
    obtain ⟨after, found, tail⟩ := leading_of_division first
    cases others with
    | nil =>
      cases second
      cases found
    | cons q others =>
      obtain ⟨after', found', tail'⟩ := leading_of_division second
      obtain ⟨rfl, rfl⟩ := Prod.mk.inj (Option.some.inj (found.symm.trans found'))
      rw [ih tail tail']

theorem text_ne_nil_of_leading {text after : List Char} {p : Piece}
    (first : leading? text = some (p, after)) : p.text ≠ [] := by
  cases division_of_leading first (.done after) with
  | blank blank tail => simp [Piece.text]
  | symbol symbol tail => simp [Piece.text, symbol]
  | number lexeme ends tail =>
    obtain ⟨c, more, head, _⟩ := lexeme_text_head lexeme
    simp [Piece.text, head]

theorem length_leading_lt {text after : List Char} {p : Piece}
    (first : leading? text = some (p, after)) : after.length < text.length := by
  have parts := division_text (division_of_leading first (.done after))
  have present := List.length_pos_of_ne_nil (text_ne_nil_of_leading first)
  rw [← parts]
  simp
  omega

theorem blocked_of_leading_none {text : List Char} (none : leading? text = none) :
    Blocked text := by
  cases text with
  | nil => exact .atEnd
  | cons c text =>
    simp only [leading?] at none
    split at none
    · cases none
    · rename_i notBlank
      split at none
      · cases none
      · rename_i notSymbol
        split at none
        · cases none
        · rename_i notDigit
          exact .character (by simpa using notBlank) notSymbol (by simpa using notDigit)

/- A piece in range is read in front of any others. -/
theorem readAs_cons {p : Piece} {pieces : List Piece} {ts : List Token} (valid : p.InRange)
    (tail : ReadAs pieces ts) : ∃ us, ReadAs (p :: pieces) us := by
  cases p with
  | blank c => exact ⟨_, .blank c tail⟩
  | symbol kind => exact ⟨_, .symbol kind tail⟩
  | number l =>
    cases pointed : l.fraction with
    | none => exact ⟨_, .integer pointed valid tail⟩
    | some fraction =>
      have valid' : l.InRange := valid
      unfold Literal.InRange at valid'
      rw [pointed] at valid'
      obtain ⟨m, rounds⟩ := valid'
      exact ⟨_, .decimal (by simp [pointed]) rounds tail⟩

theorem readAs_iff_inRange {pieces : List Piece} :
    (∃ ts, ReadAs pieces ts) ↔ ∀ p ∈ pieces, p.InRange := by
  constructor
  · rintro ⟨ts, reads⟩
    induction reads with
    | nil => simp
    | blank c tail ih => simpa [Piece.InRange] using ih
    | symbol kind tail ih => simpa [Piece.InRange] using ih
    | integer plain valid tail ih => simpa using ⟨valid, ih⟩
    | @decimal l m pieces ts pointed rounds tail ih =>
      obtain ⟨fraction, present⟩ := Option.ne_none_iff_exists'.mp pointed
      have valid : l.InRange := by
        unfold Literal.InRange
        rw [present]
        exact ⟨m, rounds⟩
      simpa using ⟨valid, ih⟩
  · intro valid
    induction pieces with
    | nil => exact ⟨[], .nil⟩
    | cons p pieces ih =>
      obtain ⟨ts, tail⟩ := ih fun q member => valid q (by simp [member])
      exact readAs_cons (valid p (by simp)) tail

/-- Each text divides into pieces in range up to what blocks it. -/
theorem division_exists (text : List Char) :
    ∃ pieces rest, Division text pieces rest ∧ (∀ p ∈ pieces, p.InRange) ∧ Blocked rest := by
  induction size : text.length using Nat.strongRecOn generalizing text with
  | ind n ih =>
    cases first : leading? text with
    | none => exact ⟨[], text, .done text, by simp, blocked_of_leading_none first⟩
    | some found =>
      obtain ⟨p, after⟩ := found
      by_cases valid : p.InRange
      · have shorter := length_leading_lt first
        obtain ⟨pieces, rest, division, inRange, blocked⟩ := ih after.length (by omega) after rfl
        refine ⟨p :: pieces, rest, division_of_leading first division, ?_, blocked⟩
        intro q member
        rcases List.mem_cons.mp member with rfl | later
        · exact valid
        · exact inRange q later
      · refine ⟨[], text, .done text, by simp, ?_⟩
        cases division_of_leading first (.done after) with
        | blank blank tail => exact absurd trivial valid
        | symbol symbol tail => exact absurd trivial valid
        | number lexeme ends tail => exact .literal lexeme ends valid

end LineCalc
