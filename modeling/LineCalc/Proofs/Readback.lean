import LineCalc.Decimal.Reader
import LineCalc.Proofs.SourceText

/-!
Written numbers read back. Every layout of a decimal is a literal, and perhaps a power of ten behind
it, of the same value (`spells_write`). So a double is read back from the text of its shortest
decimal, in whatever layout (`read?_write`), and an integer from its digits.
-/
namespace LineCalc

namespace Decimal

variable {d : Decimal}

/- A literal, and perhaps a power of ten behind it, that together have the value. -/
inductive Spells (d : Decimal) : List Char → Prop where
  | literal {l : Literal} {behind : List Char} {power : Int} (lexeme : l.IsLexeme)
      (ends : l.EndsBefore behind) (read : readPower? behind = some power)
      (same : l.value * 10 ^ power = d.value) : Spells d (l.text ++ behind)

theorem spells_of_text {l : Literal} (lexeme : l.IsLexeme) (same : l.value = d.value) :
    d.Spells l.text := by
  have alone := @Spells.literal d l [] 0 lexeme l.endsBefore_nil rfl (by simpa using same)
  rwa [List.append_nil] at alone

theorem spells_pointed (d : Decimal) : d.Spells d.pointed := by
  rw [← pointedLiteral_text]
  exact spells_of_text d.pointedLiteral_isLexeme d.pointedLiteral_value

theorem value_of_whole (whole : 0 ≤ d.exponent) :
    d.value = (d.coefficient * 10 ^ d.exponent.toNat : Nat) := by
  have power : (10 : ℚ) ^ d.exponent = 10 ^ d.exponent.toNat := by
    rw [← zpow_natCast]
    congr 1
    omega
  rw [value, power]
  push_cast
  rfl

theorem spells_plain (d : Decimal) : d.Spells d.plain := by
  by_cases whole : 0 ≤ d.exponent
  · have written : d.plain =
        Literal.text ⟨d.digits ++ List.replicate d.exponent.toNat '0', none⟩ := by
      rw [plain, if_pos whole, Literal.text]
    rw [written]
    refine spells_of_text ⟨?_, ?_, by simp⟩ ?_
    · have present : d.digits ≠ [] := Nat.toDigits_ne_nil
      simp [present]
    · intro c member
      rcases List.mem_append.mp member with digit | zero
      · exact isDigit_of_mem_digits digit
      · obtain rfl := List.eq_of_mem_replicate zero
        rfl
    · rw [value_of_whole whole]
      simp [Literal.value, Nat.ofDigitChars_append, Nat.ofDigitChars_replicate_zero,
        ofDigitChars_digits, mul_comm]
  · have written : d.plain = d.pointed := by rw [pointed, if_neg whole]
    rw [written]
    exact d.spells_pointed

/- The digits in front of a power of ten, with a point behind the first. -/
def mantissa (d : Decimal) : Literal :=
  match d.digits with
  | first :: second :: rest => ⟨[first], some (second :: rest)⟩
  | short => ⟨short, none⟩

theorem mantissa_isLexeme (d : Decimal) : d.mantissa.IsLexeme := by
  have present : d.digits ≠ [] := Nat.toDigits_ne_nil
  have digit : ∀ c ∈ d.digits, c.isDigit := fun c => isDigit_of_mem_digits
  unfold mantissa
  split
  · rename_i first second rest digits
    rw [digits] at digit
    exact ⟨by simp, fun c member => digit c (by simp_all), fun c member => digit c (by simp_all)⟩
  · exact ⟨present, digit, by simp⟩

theorem mantissa_decimal (d : Decimal) :
    d.mantissa.decimal = ⟨d.coefficient, -((d.digits.length : Int) - 1)⟩ := by
  have present : d.digits ≠ [] := Nat.toDigits_ne_nil
  have whole := ofDigitChars_digits d
  unfold mantissa
  split
  · rename_i first second rest digits
    rw [digits] at whole
    simp [Literal.decimal, Literal.digits, digits, whole]
  · rename_i several
    have one : d.digits.length = 1 := by
      rcases digits : d.digits with _ | ⟨first, _ | ⟨second, rest⟩⟩
      · exact absurd digits present
      · rfl
      · exact absurd digits (several first second rest)
    simp [Literal.decimal, Literal.digits, one, whole]

theorem mantissa_value (d : Decimal) : d.mantissa.value * 10 ^ d.leading = d.value := by
  rw [← Literal.decimal_value, mantissa_decimal, value, value, mul_assoc, ← zpow_add₀ (by norm_num)]
  have sum : -((d.digits.length : Int) - 1) + d.leading = d.exponent := by
    unfold leading
    omega
  rw [sum]

theorem readDigits?_padded (zeros n : Nat) :
    readDigits? (List.replicate zeros '0' ++ Nat.toDigits 10 n) = some n := by
  have present : Nat.toDigits 10 n ≠ [] := Nat.toDigits_ne_nil
  have digits : (List.replicate zeros '0' ++ Nat.toDigits 10 n).all Char.isDigit := by
    rw [List.all_eq_true]
    intro c member
    rcases List.mem_append.mp member with zero | digit
    · obtain rfl := List.eq_of_mem_replicate zero
      rfl
    · exact Nat.isDigit_of_mem_toDigits (by decide) (by decide) digit
  unfold readDigits?
  rw [if_pos ⟨by simp [present], digits⟩, Nat.ofDigitChars_append, Nat.ofDigitChars_replicate_zero,
    Nat.mul_zero, Nat.ofDigitChars_ten_toDigits]

/- The power of ten in front of which a mantissa stands. -/
theorem readPower?_signed (n : Int) (zeros : Nat) :
    readPower? ('e' :: (if n < 0 then '-' else '+') ::
      (List.replicate zeros '0' ++ Nat.toDigits 10 n.natAbs)) = some n := by
  split
  · rw [readPower?, readDigits?_padded]
    exact congrArg some (show -(n.natAbs : Int) = n by omega)
  · rw [readPower?, readDigits?_padded, Option.map_some, Option.some.injEq]
    exact Int.natAbs_of_nonneg (by omega)

theorem scientific_eq (width : Nat) (d : Decimal) : d.scientific width = d.mantissa.text ++
    'e' :: (if d.leading < 0 then '-' else '+') ::
      (List.replicate (width - (Nat.toDigits 10 d.leading.natAbs).length) '0' ++
        Nat.toDigits 10 d.leading.natAbs) := by
  unfold scientific mantissa
  cases d.digits with
  | nil => rfl
  | cons first rest => cases rest <;> rfl

theorem spells_scientific (width : Nat) (d : Decimal) : d.Spells (d.scientific width) := by
  rw [scientific_eq]
  refine .literal d.mantissa_isLexeme ?_ (readPower?_signed _ _) d.mantissa_value
  intro c head
  obtain rfl : 'e' = c := Option.some.inj head
  exact ⟨rfl, fun point => by cases point⟩

/-- Every layout writes the value. -/
theorem spells_write (layout : Layout) (d : Decimal) : d.Spells (layout.write d) := by
  unfold Layout.write
  split
  · split
    · exact d.spells_pointed
    · exact d.spells_plain
  · exact d.spells_scientific layout.exponentWidth

variable {text : List Char}

theorem readUnsigned?_of_spells (spells : d.Spells text) :
    ∃ e, readUnsigned? text = some e ∧ e.value = d.value := by
  obtain ⟨lexeme, ends, read, same⟩ := spells
  rename_i l behind power
  refine ⟨⟨l.decimal.coefficient, l.decimal.exponent + power⟩, ?_, ?_⟩
  · have scanned := Literal.scan_lexeme lexeme ends
    have left : (l.text ++ behind).drop l.length = behind := List.drop_left
    unfold readUnsigned?
    simp only [scanned, left, read, if_neg (Literal.digits_ne_nil lexeme)]
    rfl
  · rw [← same, ← Literal.decimal_value, value, value, mul_assoc, ← zpow_add₀ (by norm_num)]

theorem head_of_spells (spells : d.Spells text) :
    ∃ c rest, text = c :: rest ∧ c.isDigit := by
  obtain ⟨lexeme, ends, read, same⟩ := spells
  obtain ⟨c, tail, head, digit⟩ := lexeme_text_head lexeme
  exact ⟨c, _, by rw [head]; rfl, digit⟩

end Decimal

namespace Binary64

variable {d : Decimal} {m : Magnitude} {text : List Char}

theorem readUnsigned?_of_spells (negative : Bool) (nearest : d.nearest = some m)
    (spells : d.Spells text) : readUnsigned? negative text = some (.finite negative m) := by
  obtain ⟨e, read, same⟩ := Decimal.readUnsigned?_of_spells spells
  obtain ⟨c, rest, rfl, digit⟩ := Decimal.head_of_spells spells
  have nearest' : e.nearest = some m := by
    rwa [Decimal.nearest_eq_some_iff, same, ← Decimal.nearest_eq_some_iff]
  have other : c :: rest ≠ ['i', 'n', 'f'] := by
    rintro same
    obtain ⟨rfl, _⟩ := List.cons.inj same
    cases digit
  unfold readUnsigned?
  rw [if_neg other, read, Option.map_some, ofDecimal, nearest', ofRounded]

theorem read?_minus (rest : List Char) : read? ('-' :: rest) = readUnsigned? true rest := by
  unfold read?
  rw [if_neg (by simp)]
  rfl

theorem read?_digit {c : Char} (rest : List Char) (digit : c.isDigit) :
    read? (c :: rest) = readUnsigned? false (c :: rest) := by
  have notName : c :: rest ≠ ['n', 'a', 'n'] := by
    intro same
    obtain ⟨rfl, _⟩ := List.cons.inj same
    cases digit
  unfold read?
  rw [if_neg notName]
  split
  · rename_i sign
    obtain ⟨rfl, _⟩ := List.cons.inj sign
    cases digit
  · rfl

/-- A double is read back from the text of its magnitude, if that is its shortest decimal in some
    layout. -/
theorem read?_write {magnitude : Magnitude → List Char}
    (spells : ∀ m : Magnitude, m.shortest.Spells (magnitude m)) (x : Binary64) :
    read? (x.write magnitude) = some x := by
  cases x with
  | nan => rfl
  | infinite negative => cases negative <;> rfl
  | finite negative m =>
    have read := readUnsigned?_of_spells negative m.nearest_shortest (spells m)
    cases negative with
    | true =>
      change read? ('-' :: magnitude m) = _
      rw [read?_minus, read]
    | false =>
      obtain ⟨c, rest, text, digit⟩ := Decimal.head_of_spells (spells m)
      change read? (magnitude m) = _
      rw [text] at read ⊢
      rw [read?_digit rest digit, read]

theorem read?_cell (x : Binary64) : read? x.cell.toList = some x := by
  rw [cell, String.toList_ofList]
  exact read?_write (fun m => Decimal.spells_write .cell m.shortest) x

theorem display_injective {x y : Binary64} (same : x.display = y.display) : x = y := by
  have read (z : Binary64) : read? z.display.toList = some z := by
    rw [display, String.toList_ofList]
    exact read?_write (fun m => Decimal.spells_write .display m.shortest) z
  have first := read x
  rw [same, read y] at first
  exact (Option.some.inj first).symm

end Binary64

/- An integer in digits. -/
def readInteger? : List Char → Option Int
  | '-' :: digits => (readDigits? digits).map fun n => -(n : Int)
  | digits => (readDigits? digits).map Int.ofNat

theorem readInteger?_integerText (n : Int) : readInteger? (integerText n).toList = some n := by
  have read := Decimal.readDigits?_padded 0 n.natAbs
  rw [List.replicate_zero, List.nil_append] at read
  unfold integerText
  rw [String.toList_ofList]
  split
  · rw [readInteger?, read]
    exact congrArg some (show -(n.natAbs : Int) = n by omega)
  · obtain ⟨c, rest, digits⟩ := List.exists_cons_of_ne_nil
      (Nat.toDigits_ne_nil : Nat.toDigits 10 n.natAbs ≠ [])
    have digit : c.isDigit :=
      Nat.isDigit_of_mem_toDigits (by decide) (by decide) (digits ▸ List.mem_cons_self)
    rw [digits] at read ⊢
    unfold readInteger?
    split
    · rename_i sign
      obtain ⟨rfl, _⟩ := List.cons.inj sign
      cases digit
    · rw [read, Option.map_some]
      exact congrArg some (Int.natAbs_of_nonneg (by omega))

/- The characters of numbers. Names of numbers that are not finite have these letters. -/
def InNumber (c : Char) : Prop := c.isDigit ∨ c ∈ ['.', '+', '-', 'e', 'i', 'n', 'f', 'a']

theorem inNumber_of_mem_toDigits {n : Nat} {c : Char} (member : c ∈ Nat.toDigits 10 n) :
    InNumber c :=
  .inl (Nat.isDigit_of_mem_toDigits (by decide) (by decide) member)

theorem inNumber_integerText (n : Int) : ∀ c ∈ (integerText n).toList, InNumber c := by
  intro c member
  unfold integerText at member
  rw [String.toList_ofList] at member
  split at member
  · rcases List.mem_cons.mp member with rfl | digit
    · simp [InNumber]
    · exact inNumber_of_mem_toDigits digit
  · exact inNumber_of_mem_toDigits member

theorem inNumber_of_readDigits? {digits : List Char} (read : (readDigits? digits).isSome) :
    ∀ c ∈ digits, InNumber c := by
  intro c member
  unfold readDigits? at read
  split at read
  · rename_i all
    exact .inl (List.all_eq_true.mp all.2 c member)
  · cases read

theorem inNumber_of_readPower? {behind : List Char} (read : (Decimal.readPower? behind).isSome) :
    ∀ c ∈ behind, InNumber c := by
  have digits {text : List Char} (read : (readDigits? text).isSome) (before : List Char)
      (first : ∀ c ∈ before, InNumber c) : ∀ c ∈ before ++ text, InNumber c :=
    List.forall_mem_append.mpr ⟨first, inNumber_of_readDigits? read⟩
  unfold Decimal.readPower? at read
  split at read
  · simp
  · exact digits (by simpa [Option.isSome_bind] using read) ['e', '-'] (by simp [InNumber])
  · exact digits (by simpa using read) ['e', '+'] (by simp [InNumber])
  · exact digits (by simpa using read) ['e'] (by simp [InNumber])
  · cases read

theorem inNumber_of_spells {d : Decimal} {text : List Char} (spells : d.Spells text) :
    ∀ c ∈ text, InNumber c := by
  intro c member
  cases spells with
  | literal lexeme ends read same =>
    rcases List.mem_append.mp member with literal | power
    · rcases Literal.mem_text literal with digit | rfl
      · exact .inl (lexeme.isDigit_of_mem_digits c digit)
      · simp [InNumber]
    · exact inNumber_of_readPower? (by rw [read]; rfl) c power

namespace Binary64

theorem inNumber_write {magnitude : Magnitude → List Char}
    (inside : ∀ m, ∀ c ∈ magnitude m, InNumber c) (x : Binary64) :
    ∀ c ∈ (String.ofList (x.write magnitude)).toList, InNumber c := by
  rw [String.toList_ofList]
  cases x with
  | nan => simp [write, InNumber]
  | infinite negative => cases negative <;> simp [write, InNumber]
  | finite negative m =>
    cases negative with
    | true => exact List.forall_mem_cons.mpr ⟨by simp [InNumber], inside m⟩
    | false => exact inside m

theorem inNumber_display (x : Binary64) : ∀ c ∈ x.display.toList, InNumber c :=
  x.inNumber_write fun m => inNumber_of_spells (Decimal.spells_write .display m.shortest)

theorem inNumber_cell (x : Binary64) : ∀ c ∈ x.cell.toList, InNumber c :=
  x.inNumber_write fun m => inNumber_of_spells (Decimal.spells_write .cell m.shortest)

theorem inNumber_threePlaces (x : Binary64) : ∀ c ∈ x.threePlaces.toList, InNumber c :=
  x.inNumber_write fun m => inNumber_of_spells (Decimal.spells_plain (m.toPlaces 3))

end Binary64

end LineCalc
