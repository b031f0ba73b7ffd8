import LineCalc.Proofs.Joining

/-!
Blanks between the pieces of a text. They have no tokens and keep numbers apart, so they count only
between two numbers: elsewhere they may be put in and taken out (`tokenize_respaced`). With the laws
of texts one behind the other this says how the tokens of a text come from its parts
(`tokenize_append`).
-/
namespace LineCalc

variable {source : String} {text a b : List Char} {pieces front back : List Piece}

/- The place behind `n` characters is within a number of the text. -/
def InsideNumber (text : List Char) (n : Nat) : Prop :=
  ∃ front l back, Division text (front ++ .number l :: back) [] ∧
    Piece.width front < n ∧ n < Piece.width front + l.length

/- The place behind `n` characters has nothing but blanks between it and numbers on both sides. -/
def BetweenNumbers (text : List Char) (n : Nat) : Prop :=
  ∃ front l gap m back, Division text (front ++ .number l :: (gap ++ .number m :: back)) [] ∧
    (∀ p ∈ gap, ∃ c, p = .blank c) ∧ Piece.width front + l.length ≤ n ∧
    n ≤ Piece.width front + l.length + Piece.width gap

/- Only numbers are longer than one character. -/
theorem exists_number_of_length {p : Piece} (long : 1 < p.text.length) : ∃ l, p = .number l := by
  cases p with
  | blank c => simp [Piece.text] at long
  | symbol kind => cases kind <;> simp [Piece.text, Kind.symbol?] at long
  | number l => exact ⟨l, rfl⟩

theorem exists_number_across {p : Piece} (whole : p.text = a ++ b) (before : a ≠ [])
    (behind : b ≠ []) : ∃ l, p = .number l ∧ 0 < a.length ∧ a.length < l.length := by
  have low := List.length_pos_of_ne_nil before
  have high := List.length_pos_of_ne_nil behind
  have length : p.text.length = a.length + b.length := by rw [whole, List.length_append]
  obtain ⟨l, rfl⟩ := exists_number_of_length (p := p) (by omega)
  have same : l.length = a.length + b.length := length
  exact ⟨l, rfl, low, by omega⟩

/- Pieces are cut at a place, or a number lies across it. -/
theorem cut_exists (parts : pieces.flatMap Piece.text = a ++ b) :
    (∃ front back, pieces = front ++ back ∧ front.flatMap Piece.text = a) ∨
      ∃ front l back, pieces = front ++ .number l :: back ∧ Piece.width front < a.length ∧
        a.length < Piece.width front + l.length := by
  induction pieces generalizing a with
  | nil =>
    obtain ⟨rfl, _⟩ := List.append_eq_nil_iff.mp parts.symm
    exact .inl ⟨[], [], rfl, rfl⟩
  | cons p pieces ih =>
    rw [List.flatMap_cons] at parts
    rcases List.append_eq_append_iff.mp parts with ⟨later, rfl, same⟩ | ⟨left, whole, _⟩
    · rcases ih same with ⟨front, back, rfl, rfl⟩ | ⟨front, l, back, rfl, low, high⟩
      · exact .inl ⟨p :: front, back, rfl, rfl⟩
      · refine .inr ⟨p :: front, l, back, rfl, ?_, ?_⟩
        · simpa [Piece.width] using low
        · simp only [Piece.width, List.flatMap_cons, List.length_append] at high ⊢
          omega
    · by_cases none : a = []
      · exact .inl ⟨[], p :: pieces, rfl, none.symm⟩
      · by_cases all : left = []
        · exact .inl ⟨[p], pieces, rfl, by simpa [all] using whole⟩
        · obtain ⟨l, rfl, low, high⟩ := exists_number_across whole none all
          exact .inr ⟨[], l, pieces, rfl, low, by simpa [Piece.width] using high⟩

theorem division_blanks_iff {gap : List Char} (blank : ∀ c ∈ gap, Cursor.isBlank c) :
    Division (gap ++ text) pieces [] ↔
      ∃ others, pieces = gap.map .blank ++ others ∧ Division text others [] := by
  induction gap generalizing pieces with
  | nil => simp
  | cons c gap ih =>
    obtain ⟨first, others⟩ := List.forall_mem_cons.mp blank
    have leading : leading? (c :: (gap ++ text)) = some (.blank c, gap ++ text) := by
      simp [leading?, first]
    constructor
    · intro division
      cases pieces with
      | nil => cases division_text division
      | cons p pieces =>
        obtain ⟨after, found, tail⟩ := leading_of_division division
        obtain ⟨rfl, rfl⟩ := Prod.mk.inj (Option.some.inj (leading.symm.trans found))
        obtain ⟨more, rfl, last⟩ := (ih others).mp tail
        exact ⟨more, rfl, last⟩
    · rintro ⟨more, rfl, last⟩
      exact division_of_leading leading ((ih others).mpr ⟨more, rfl, last⟩)

theorem readAs_append_congr {ts : List Token} {other : List Piece}
    (same : ∀ us, ReadAs back us → ReadAs other us) (reads : ReadAs (front ++ back) ts) :
    ReadAs (front ++ other) ts := by
  induction front generalizing ts with
  | nil => exact same ts reads
  | cons p front ih =>
    cases reads with
    | blank c tail => exact .blank c (ih tail)
    | symbol kind tail => exact .symbol kind (ih tail)
    | integer plain valid tail => exact .integer plain valid (ih tail)
    | decimal pointed rounds tail => exact .decimal pointed rounds (ih tail)

theorem readAs_blanks_iff (gap : List Char) {ts : List Token} :
    ReadAs (gap.map .blank ++ pieces) ts ↔ ReadAs pieces ts := by
  induction gap with
  | nil => rfl
  | cons c gap ih =>
    rw [← ih]
    constructor
    · intro reads
      cases reads with
      | blank _ tail => exact tail
    · exact .blank c

theorem not_numeric_of_blank {c : Char} (blank : Cursor.isBlank c) : ¬ Numeric c := by
  rintro (digit | rfl)
  · rw [Cursor.isBlank_of_digit digit] at blank
    cases blank
  · cases blank

theorem not_numeric_of_symbol {c : Char} {kind : Kind} (symbol : kind.symbol? = some c) :
    ¬ Numeric c := by
  have read := Kind.ofSymbol?_eq_some_iff.mpr symbol
  rintro (digit | rfl)
  · rw [Cursor.ofSymbol?_of_digit digit] at read
    cases read
  · cases read

/- Only a number begins like a literal. -/
theorem exists_number_of_head {c : Char} (division : Division text pieces [])
    (head : text.head? = some c) (numeric : Numeric c) :
    ∃ m others, pieces = .number m :: others := by
  cases division with
  | done => cases head
  | blank blank tail =>
    obtain rfl := Option.some.inj head
    exact absurd numeric (not_numeric_of_blank (isBlank_iff.mpr blank))
  | symbol symbol tail =>
    obtain rfl := Option.some.inj head
    exact absurd numeric (not_numeric_of_symbol symbol)
  | @number l _ _ others lexeme ends tail => exact ⟨l, others, rfl⟩

/- Other blanks may follow pieces, or none unless a number would follow a number. -/
theorem lastEndsBefore_blanks {other : List Char} (blank : ∀ c ∈ other, Cursor.isBlank c)
    (division : Division text back [])
    (apart : ∀ before l m others, front = before ++ [.number l] →
      back ≠ .number m :: others) :
    Piece.LastEndsBefore front (other ++ text) := by
  intro p last
  cases p with
  | number l =>
    obtain ⟨before, rfl⟩ := List.getLast?_eq_some_iff.mp last
    refine endsBefore_of_not_numeric l ?_
    intro c head numeric
    cases other with
    | nil =>
      obtain ⟨m, others, same⟩ := exists_number_of_head division head numeric
      exact apart before l m others rfl same
    | cons d other =>
      obtain rfl := Option.some.inj head
      exact not_numeric_of_blank (blank d (by simp)) numeric
  | _ => trivial

/- The division of a text with other blanks at a place. -/
theorem division_respaced {gap other : List Char} (blankGap : ∀ c ∈ gap, Cursor.isBlank c)
    (blankOther : ∀ c ∈ other, Cursor.isBlank c)
    (division : Division (a ++ (gap ++ b)) (front ++ back) [])
    (passed : front.flatMap Piece.text = a)
    (apart : ¬ BetweenNumbers (a ++ (gap ++ b)) a.length) :
    ∃ others, back = gap.map .blank ++ others ∧
      Division (a ++ (other ++ b)) (front ++ (other.map .blank ++ others)) [] := by
  obtain ⟨middle, left, right⟩ := division_append_iff.mp division
  have parts := division_text left
  rw [passed, List.append_cancel_left_eq] at parts
  rw [parts] at right
  obtain ⟨others, rfl, last⟩ := (division_blanks_iff blankGap).mp right
  have ends : Piece.LastEndsBefore front (other ++ b) := by
    refine lastEndsBefore_blanks blankOther last ?_
    intro before l m more same next
    rw [same, next, List.append_assoc] at division
    have width : Piece.width before + l.length = a.length := by
      rw [← passed, same]
      simp [Piece.width, Piece.text, Literal.length]
    refine apart ⟨before, l, gap.map .blank, m, more, division, ?_, by omega, by omega⟩
    simp
  have respaced := division_append (division_onto left ends)
    ((division_blanks_iff blankOther).mpr ⟨others, rfl, last⟩)
  rw [passed] at respaced
  exact ⟨others, rfl, respaced⟩

/-- Other blanks at a place away from numbers keep the tokens. -/
theorem tokenize_respaced {first gap other second : String} {ts : List Token}
    (blankGap : ∀ c ∈ gap.toList, Cursor.isBlank c)
    (blankOther : ∀ c ∈ other.toList, Cursor.isBlank c)
    (outside : ¬ InsideNumber (first ++ gap ++ second).toList first.length)
    (apart : ¬ BetweenNumbers (first ++ gap ++ second).toList first.length)
    (read : tokenize source (first ++ gap ++ second) = .ok ts) :
    tokenize source (first ++ other ++ second) = .ok ts := by
  obtain ⟨pieces, division, reads⟩ := division_of_tokenize read
  have parts := division_text division
  simp only [String.toList_append, List.append_assoc, ← String.length_toList]
    at parts division outside apart
  rw [List.append_nil] at parts
  rcases cut_exists parts with ⟨front, back, rfl, passed⟩ | ⟨front, l, back, rfl, low, high⟩
  · obtain ⟨others, rfl, respaced⟩ :=
      division_respaced blankGap blankOther division passed apart
    have reads' := readAs_append_congr
      (fun us tail => (readAs_blanks_iff other.toList).mpr
        ((readAs_blanks_iff gap.toList).mp tail)) reads
    refine tokenize_of_full source ?_ reads'
    simpa using respaced
  · exact absurd ⟨front, l, back, division, low, high⟩ outside

/-- Texts are tokenized one by one, unless a literal goes on from one into the other: the second
    has the outcome that it has alone, with its errors behind the first, and an error of the first
    is that of both. A stray character is an error before any text. Blanks may be put in or taken
    out at any place that is not within a number and not between two numbers. -/
theorem tokenize_append (source : String) :
    (∀ (a b : String) (ts : List Token), Parted a.toList b.toList → tokenize source a = .ok ts →
      tokenize source (a ++ b) =
        ((tokenize source b).mapError (Failure.mapSite (Site.behind a.length))).map (ts ++ ·)) ∧
    (∀ (a b : String) (failure : Failure), Parted a.toList b.toList →
      tokenize source a = .error failure → tokenize source (a ++ b) = .error failure) ∧
    (∀ (a b : String) (character : Option String) (site : Site),
      tokenize source a = .error (.line (.unexpectedCharacter character site)) →
        tokenize source (a ++ b) = .error (.line (.unexpectedCharacter character site))) ∧
    (∀ (a gap other b : String) (ts : List Token),
      (∀ c ∈ gap.toList ++ other.toList, c = ' ' ∨ c = '\t') →
      ¬ InsideNumber (a ++ gap ++ b).toList a.length →
      ¬ BetweenNumbers (a ++ gap ++ b).toList a.length →
      tokenize source (a ++ gap ++ b) = .ok ts → tokenize source (a ++ other ++ b) = .ok ts) := by
  refine ⟨?_, ?_, ?_, ?_⟩
  · intro a b ts parted read
    exact tokenize_append_of_ok parted read
  · intro a b failure parted refused
    exact tokenize_append_of_error parted refused
  · intro a b character site refused
    exact tokenize_append_of_stray refused b
  · intro a gap other b ts blank outside apart read
    obtain ⟨blankGap, blankOther⟩ := List.forall_mem_append.mp blank
    exact tokenize_respaced (fun c member => isBlank_iff.mpr (blankGap c member))
      (fun c member => isBlank_iff.mpr (blankOther c member)) outside apart read

end LineCalc
