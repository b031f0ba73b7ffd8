import LineCalc.Proofs.Readback
import LineCalc.Proofs.Values

/-!
Readers of doubles that round correctly. What a text says is its sign and its exact value
(`writtenValue?`), and a correct reader gives the double for that and keeps the sign of zero. The
reader of this library is one (`roundsCorrectly_read?`). Every layout of a decimal says its value
(`writtenValue?_of_spells`), so all of them read a double back from its shortest decimal.
-/
namespace LineCalc

/- The sign and the exact value that are written. -/
def writtenValue? : List Char → Option (Bool × ℚ)
  | '-' :: text => (Decimal.readUnsigned? text).map fun d => (true, d.value)
  | text => (Decimal.readUnsigned? text).map fun d => (false, d.value)

structure RoundsCorrectly (read : List Char → Option Binary64) : Prop where
  finite : ∀ {text : List Char} {negative : Bool} {r : ℚ} {m : Magnitude},
    writtenValue? text = some (negative, r) → Rounds r m → read text = some (.finite negative m)
  infinite : read ['i', 'n', 'f'] = some (.infinite false)
  negativeInfinite : read ['-', 'i', 'n', 'f'] = some (.infinite true)

variable {negative : Bool} {text : List Char} {d : Decimal} {m : Magnitude}
  {read : List Char → Option Binary64}

theorem writtenValue?_minus (text : List Char) :
    writtenValue? ('-' :: text) = (Decimal.readUnsigned? text).map fun d => (true, d.value) := rfl

theorem writtenValue?_of_ne (plain : text.head? ≠ some '-') :
    writtenValue? text = (Decimal.readUnsigned? text).map fun d => (false, d.value) := by
  unfold writtenValue?
  split
  · exact absurd rfl plain
  · rfl

theorem writtenValue?_of_spells (negative : Bool) (spells : d.Spells text) :
    writtenValue? ((if negative then ['-'] else []) ++ text) = some (negative, d.value) := by
  obtain ⟨e, readAs, same⟩ := Decimal.readUnsigned?_of_spells spells
  cases negative with
  | true =>
    change writtenValue? ('-' :: text) = _
    rw [writtenValue?_minus, readAs, Option.map_some, same]
  | false =>
    obtain ⟨c, rest, rfl, digit⟩ := Decimal.head_of_spells spells
    have plain : (c :: rest).head? ≠ some '-' := by
      intro minus
      obtain rfl := Option.some.inj minus
      cases digit
    change writtenValue? (c :: rest) = _
    rw [writtenValue?_of_ne plain, readAs, Option.map_some, same]

theorem readUnsigned?_of_value {e : Decimal} (readAs : Decimal.readUnsigned? text = some e)
    (rounds : Rounds e.value m) :
    Binary64.readUnsigned? negative text = some (.finite negative m) := by
  have name : text ≠ ['i', 'n', 'f'] := by
    rintro rfl
    cases readAs
  rw [← Decimal.nearest_eq_some_iff] at rounds
  unfold Binary64.readUnsigned?
  rw [if_neg name, readAs, Option.map_some, Binary64.ofDecimal, rounds, Binary64.ofRounded]

theorem roundsCorrectly_read? : RoundsCorrectly Binary64.read? where
  finite := by
    intro text negative r m written rounds
    by_cases minus : text.head? = some '-'
    · obtain ⟨rest, rfl⟩ := List.head?_eq_some_iff.mp minus
      rw [writtenValue?_minus] at written
      obtain ⟨e, readAs, same⟩ := Option.map_eq_some_iff.mp written
      obtain ⟨rfl, rfl⟩ := Prod.mk.inj same
      rw [Binary64.read?_minus, readUnsigned?_of_value readAs rounds]
    · rw [writtenValue?_of_ne minus] at written
      obtain ⟨e, readAs, same⟩ := Option.map_eq_some_iff.mp written
      obtain ⟨rfl, rfl⟩ := Prod.mk.inj same
      have name : text ≠ ['n', 'a', 'n'] := by
        rintro rfl
        cases readAs
      unfold Binary64.read?
      rw [if_neg name]
      split
      · exact absurd rfl minus
      · exact readUnsigned?_of_value readAs rounds
  infinite := rfl
  negativeInfinite := rfl

end LineCalc
