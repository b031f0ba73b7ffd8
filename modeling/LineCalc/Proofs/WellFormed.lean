import LineCalc.Proofs.Lexing

/-!
Tokens with the values that their kinds call for. The lexer makes no others
(`wellFormed_of_tokenize`), and all of them have labels.
-/
namespace LineCalc

/- Numerals that are finite as doubles. -/
def Numeral.Finite (v : Numeral) : Prop :=
  ∃ negative m, v.toDouble = .ok (.finite negative m)

namespace Token

/- Numbers have finite values and symbols have none. The value need not be of the kind. -/
inductive Valued : Token → Prop where
  | number {kind : Kind} {v : Numeral} (numeric : kind.isNumber) (finite : v.Finite) :
      Valued ⟨kind, some v⟩
  | symbol {kind : Kind} (symbolic : kind.isNumber = false) : Valued ⟨kind, none⟩

/- Values in the range of the kind: doubles without a sign, and integers up to the largest one. -/
inductive WellFormed : Token → Prop where
  | integer {n : Nat} (small : n ≤ Literal.largestInteger) :
      WellFormed ⟨.integer, some (.integer n)⟩
  | decimal (m : Magnitude) : WellFormed ⟨.decimal, some (.double (.finite false m))⟩
  | symbol {kind : Kind} (symbolic : kind.isNumber = false) : WellFormed ⟨kind, none⟩

end Token

theorem isNumber_of_symbol {kind : Kind} {c : Char} (symbol : kind.symbol? = some c) :
    kind.isNumber = false := by
  cases kind <;> first | rfl | cases symbol

theorem wellFormed_of_readAs {text rest : List Char} {pieces : List Piece} {ts : List Token}
    (division : Division text pieces rest) (reads : ReadAs pieces ts) :
    ∀ t ∈ ts, t.WellFormed := by
  induction division generalizing ts with
  | done rest =>
    cases reads
    simp
  | blank blank tail ih =>
    cases reads with
    | blank _ reads => exact ih reads
  | symbol symbol tail ih =>
    cases reads with
    | symbol _ reads =>
      exact List.forall_mem_cons.mpr ⟨.symbol (isNumber_of_symbol symbol), ih reads⟩
  | number lexeme ends tail ih =>
    cases reads with
    | integer plain valid reads =>
      unfold Literal.InRange at valid
      rw [plain] at valid
      exact List.forall_mem_cons.mpr ⟨.integer valid.2, ih reads⟩
    | @decimal l m _ _ pointed rounds reads =>
      exact List.forall_mem_cons.mpr ⟨.decimal m, ih reads⟩

/-- The lexer makes well-formed tokens only. -/
theorem wellFormed_of_tokenize {source text : String} {ts : List Token}
    (read : tokenize source text = .ok ts) : ∀ t ∈ ts, t.WellFormed := by
  obtain ⟨pieces, division, reads⟩ := division_of_tokenize read
  exact wellFormed_of_readAs division reads

namespace Binary64

theorem ofInt?_eq_some_iff {n : Int} {x : Binary64} :
    ofInt? n = some x ↔ ∃ m, Magnitude.nearest (n.natAbs * unitsPerOne) 1 = some m ∧
      .finite (decide (n < 0)) m = x := by
  unfold ofInt?
  rw [Option.map_eq_some_iff]

theorem ofInt?_eq_none_iff {n : Int} :
    ofInt? n = none ↔ Magnitude.nearest (n.natAbs * unitsPerOne) 1 = none := by
  unfold ofInt?
  rw [Option.map_eq_none_iff]

end Binary64

namespace Numeral

theorem toDouble_integer_eq_ok_iff {n : Int} {x : Binary64} :
    (integer n).toDouble = .ok x ↔ Binary64.ofInt? n = some x := by
  generalize same : integer n = v
  fun_cases toDouble v with
  | case1 m y found =>
    obtain rfl := Numeral.integer.inj same
    rw [found, Except.ok.injEq, Option.some.injEq]
  | case2 m none =>
    obtain rfl := Numeral.integer.inj same
    rw [none]
    exact iff_of_false (fun h => by cases h) (fun h => by cases h)
  | case3 => cases same

theorem finite_integer_iff {n : Int} :
    (integer n).Finite ↔ (n.natAbs : ℚ) < overflowThreshold := by
  have one : (unitsPerOne : ℚ) ≠ 0 := by exact_mod_cast Magnitude.unitsPerOne_pos.ne'
  have value : ((n.natAbs * unitsPerOne : Nat) : ℚ) / (1 : Nat) / unitsPerOne = n.natAbs := by
    push_cast
    field_simp
  have overflows := Magnitude.nearest_eq_none_iff (a := n.natAbs * unitsPerOne) Nat.one_pos
  rw [value] at overflows
  rw [← not_le, ← overflows, ← Binary64.ofInt?_eq_none_iff]
  constructor
  · rintro ⟨negative, m, converted⟩ none
    rw [toDouble_integer_eq_ok_iff, none] at converted
    cases converted
  · intro present
    obtain ⟨x, found⟩ := Option.ne_none_iff_exists'.mp present
    obtain ⟨m, _, rfl⟩ := Binary64.ofInt?_eq_some_iff.mp found
    exact ⟨_, m, toDouble_integer_eq_ok_iff.mpr found⟩

/- Finite integers are within the limit on digits. -/
theorem natAbs_lt_of_finite {n : Int} (finite : (integer n).Finite) :
    n.natAbs < Nat.pow 10 mostDigits := by
  have below := finite_integer_iff.mp finite
  have power : (0 : ℚ) < 2 ^ 970 := by positivity
  have binary : (n.natAbs : ℚ) < 2 ^ 1024 := lt_of_lt_of_le below (sub_le_self _ power.le)
  have many : 1024 ≤ mostDigits := by
    unfold mostDigits
    decide
  calc n.natAbs < 2 ^ 1024 := by exact_mod_cast binary
    _ ≤ 2 ^ mostDigits := Nat.pow_le_pow_right (by decide) many
    _ ≤ 10 ^ mostDigits := Nat.pow_le_pow_left (by decide) mostDigits

theorem write_of_finite {v : Numeral} (finite : v.Finite) : ∃ text, v.write = .ok text := by
  cases v with
  | integer n => exact ⟨integerText n, writeInteger_of_lt (natAbs_lt_of_finite finite)⟩
  | double x => exact ⟨x.display, rfl⟩

/- Integers in range are doubles without rounding. -/
theorem toDouble_of_small {n : Nat} (small : n ≤ Literal.largestInteger) :
    ∃ m, (integer n).toDouble = .ok (.finite false m) ∧ m.units = n * unitsPerOne := by
  have narrow : n < 0x20000000000000 := by
    unfold Literal.largestInteger at small
    omega
  obtain ⟨m, whole⟩ := Magnitude.exists_of_whole narrow
  refine ⟨m, ?_, whole⟩
  rw [toDouble_integer_eq_ok_iff, Binary64.ofInt?_eq_some_iff]
  refine ⟨m, ?_, by simp⟩
  rw [Int.natAbs_natCast, ← whole, Magnitude.nearest_units]

theorem finite_of_small {n : Nat} (small : n ≤ Literal.largestInteger) :
    (integer n).Finite := by
  obtain ⟨m, converted, _⟩ := toDouble_of_small small
  exact ⟨false, m, converted⟩

end Numeral

namespace Token

theorem WellFormed.valued {t : Token} (valid : t.WellFormed) : t.Valued := by
  cases valid with
  | integer small => exact .number rfl (Numeral.finite_of_small small)
  | decimal m => exact .number rfl ⟨false, m, rfl⟩
  | symbol symbolic => exact .symbol symbolic

theorem label_of_valued {t : Token} (valued : t.Valued) : ∃ label, t.label = .ok label := by
  cases valued with
  | symbol symbolic => exact ⟨_, rfl⟩
  | @number kind v numeric finite =>
    obtain ⟨text, written⟩ := Numeral.write_of_finite finite
    obtain ⟨negative, m, converted⟩ := finite
    cases kind with
    | decimal => exact ⟨_, by simp only [label, converted]; rfl⟩
    | _ => exact ⟨_, by simp only [label, written]; rfl⟩

theorem labels_of_valued {ts : List Token} (valued : ∀ t ∈ ts, t.Valued) :
    ∃ text, labels ts = .ok text := by
  have each : ∃ texts, ts.mapM label = .ok texts := by
    induction ts with
    | nil => exact ⟨[], rfl⟩
    | cons t ts ih =>
      obtain ⟨first, shown⟩ := label_of_valued (valued t (by simp))
      obtain ⟨others, shownAll⟩ := ih fun u member => valued u (by simp [member])
      exact ⟨first :: others, by rw [List.mapM_cons, shown, shownAll]; rfl⟩
  obtain ⟨texts, shown⟩ := each
  exact ⟨" ".intercalate texts, by unfold labels; rw [shown]; rfl⟩

end Token

end LineCalc
