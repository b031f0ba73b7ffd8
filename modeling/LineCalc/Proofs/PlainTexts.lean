import LineCalc.Proofs.Readers

/-!
Plain texts of doubles. A finite double is written as digits on both sides of a point, behind a
minus sign if it has a sign. The exact value of that is the one of its display, exponents included,
so that every correct reader gives the double back and no other one has the text (`plain_exact`).
-/
namespace LineCalc

theorem Decimal.pointedLiteral_fraction (d : Decimal) :
    ∃ fraction, d.pointedLiteral.fraction = some fraction ∧ fraction ≠ [] := by
  unfold pointedLiteral
  split
  · exact ⟨_, rfl, by simp⟩
  · refine ⟨_, rfl, List.ne_nil_of_length_pos ?_⟩
    simp only [List.length_drop, List.length_append, List.length_replicate]
    omega

/- In the range of the display a point is kept, and outside there is a power of ten. -/
theorem Layout.display_of_inside {d : Decimal} (inside : -4 ≤ d.leading ∧ d.leading ≤ 15) :
    Layout.display.write d = d.pointed := if_pos inside

theorem Layout.display_of_outside {d : Decimal} (outside : ¬ (-4 ≤ d.leading ∧ d.leading ≤ 15)) :
    Layout.display.write d = d.scientific 2 := if_neg outside

namespace Binary64

variable {negative : Bool} {m : Magnitude}

theorem toList_write (negative : Bool) (m : Magnitude) (magnitude : Magnitude → List Char) :
    (finite negative m).write magnitude = (if negative then ['-'] else []) ++ magnitude m := by
  cases negative <;> rfl

theorem toList_plain (negative : Bool) (m : Magnitude) : (finite negative m).plain.toList =
    (if negative then ['-'] else []) ++ m.shortest.pointedLiteral.text := by
  unfold plain
  rw [String.toList_ofList, toList_write, Decimal.pointedLiteral_text]

theorem toList_display (negative : Bool) (m : Magnitude) : (finite negative m).display.toList =
    (if negative then ['-'] else []) ++ Layout.display.write m.shortest := by
  unfold display
  rw [String.toList_ofList, toList_write]

/- The two texts differ only where the display has a power of ten. -/
theorem plain_eq_display (negative : Bool) (m : Magnitude)
    (noPower : 'e' ∉ (finite negative m).display.toList) :
    (finite negative m).plain = (finite negative m).display := by
  have layout : Layout.display.write m.shortest = m.shortest.pointed := by
    by_cases inside : -4 ≤ m.shortest.leading ∧ m.shortest.leading ≤ 15
    · exact Layout.display_of_inside inside
    · refine absurd ?_ noPower
      rw [toList_display, Layout.display_of_outside inside]
      simp [Decimal.scientific]
  rw [← String.toList_inj, toList_plain, toList_display, layout, Decimal.pointedLiteral_text]

theorem rounds_shortest (m : Magnitude) : Rounds m.shortest.value m :=
  Decimal.nearest_eq_some_iff.mp m.nearest_shortest

theorem writtenValue?_plain (negative : Bool) (m : Magnitude) :
    writtenValue? (finite negative m).plain.toList = some (negative, m.shortest.value) := by
  rw [toList_plain, Decimal.pointedLiteral_text]
  exact writtenValue?_of_spells negative m.shortest.spells_pointed

theorem writtenValue?_display (negative : Bool) (m : Magnitude) :
    writtenValue? (finite negative m).display.toList = some (negative, m.shortest.value) := by
  rw [toList_display]
  exact writtenValue?_of_spells negative (Decimal.spells_write .display m.shortest)

/-- The plain text of a finite double is a literal with digits on both sides of the point, behind a
    minus sign exactly if the double has a sign. Its exact value is that of the display, from which
    it differs only if that has a power of ten. Every correct reader reads the double back, and so
    it is the text of one finite double only. -/
theorem plain_exact (negative : Bool) (m : Magnitude) :
    ∃ l : Literal, l.IsLexeme ∧ (∃ fraction, l.fraction = some fraction ∧ fraction ≠ []) ∧
      (finite negative m).plain.toList = (if negative then ['-'] else []) ++ l.text ∧
      writtenValue? (finite negative m).plain.toList = some (negative, l.value) ∧
      writtenValue? (finite negative m).display.toList = some (negative, l.value) ∧
      ('e' ∉ (finite negative m).display.toList →
        (finite negative m).plain = (finite negative m).display) ∧
      (∀ read, RoundsCorrectly read →
        read (finite negative m).plain.toList = some (finite negative m)) ∧
      ∀ s n, (finite s n).plain = (finite negative m).plain ↔ s = negative ∧ n = m := by
  have value := m.shortest.pointedLiteral_value
  refine ⟨m.shortest.pointedLiteral, m.shortest.pointedLiteral_isLexeme,
    m.shortest.pointedLiteral_fraction, toList_plain negative m, ?_, ?_,
    plain_eq_display negative m, ?_, ?_⟩
  · rw [value, writtenValue?_plain]
  · rw [value, writtenValue?_display]
  · intro read correct
    exact correct.finite (writtenValue?_plain negative m) (rounds_shortest m)
  · intro s n
    constructor
    · intro same
      have read (s n) := roundsCorrectly_read?.finite (writtenValue?_plain s n) (rounds_shortest n)
      have first := read s n
      rw [same, read negative m] at first
      cases first
      exact ⟨rfl, rfl⟩
    · intro same
      rw [same.1, same.2]

/- On the other sides of both ends of plain displays. -/
example : (["1e-05", "1e+16"].map fun text => (read? text.toList).map plain) =
    [some "0.00001", some "10000000000000000.0"] := by decide +kernel

end Binary64

end LineCalc
