import LineCalc.Proofs.Lookahead

/-!
Tokens that a line can begin with. The parser refuses a line at the first token with which it
cannot begin any more, or at its end (`refused_at_first_bad`): up to there the grammar can complete
it, and the tokens that were looked at are enough to rule out the one that is named.
-/
namespace LineCalc

namespace Grammar

variable {kinds : List Kind} {Operand : Type} {yield : Operand → List Token} {ts : List Token}

/- All tokens of some derivation, in order. -/
def Derivable (ts : List Token) : Prop := ∃ d : Expression, d.yield = ts

/- Tokens that some derivation begins with. -/
def Viable (ts : List Token) : Prop := ∃ more, Derivable (ts ++ more)

theorem viable_take (n : Nat) (viable : Viable ts) : Viable (ts.take n) := by
  obtain ⟨more, derivable⟩ := viable
  refine ⟨ts.drop n ++ more, ?_⟩
  rwa [← List.append_assoc, List.take_append_drop]

theorem level_yield_ne_nil (operand : ∀ d, yield d ≠ []) (d : Level kinds Operand) :
    d.yield yield ≠ [] := by
  cases d with
  | one d => exact operand d
  | two left sign among right => simp [Level.yield]

theorem ne_nil_of_derivable (derivable : Derivable ts) : ts ≠ [] := by
  obtain ⟨d, rfl⟩ := derivable
  have factor (d : Factor) : d.yield ≠ [] := List.cons_ne_nil d.token []
  exact level_yield_ne_nil (level_yield_ne_nil factor) d

/- Tokens of the same kinds as those of an operand are those of another. -/
def KindsSuffice (yield : Operand → List Token) : Prop :=
  ∀ d ts, ts.map Token.kind = (yield d).map Token.kind → ∃ e, yield e = ts

theorem factor_kindsSuffice : KindsSuffice Factor.yield := by
  intro d ts same
  obtain ⟨t, rest, rfl, kind, none⟩ := List.map_eq_cons_iff.mp same
  obtain rfl := List.map_eq_nil_iff.mp none
  exact ⟨⟨t, kind ▸ d.numeric⟩, rfl⟩

theorem level_kindsSuffice (operand : KindsSuffice yield) :
    KindsSuffice (@Level.yield kinds Operand yield) := by
  intro d ts same
  cases d with
  | one d =>
    obtain ⟨e, yields⟩ := operand d ts same
    exact ⟨.one e, yields⟩
  | two left sign among right =>
    simp only [Level.yield, List.map_append, List.map_cons] at same
    obtain ⟨before, behind, rfl, first, second⟩ := List.map_eq_append_iff.mp same
    obtain ⟨t, after, rfl, kind, last⟩ := List.map_eq_cons_iff.mp second
    obtain ⟨d, rfl⟩ := operand left before first
    obtain ⟨e, rfl⟩ := operand right after last
    exact ⟨.two d t (kind ▸ among) e, rfl⟩

/- The grammar sees the kinds of tokens only. -/
theorem derivable_congr {us : List Token} (same : us.map Token.kind = ts.map Token.kind)
    (derivable : Derivable ts) : Derivable us := by
  obtain ⟨d, rfl⟩ := derivable
  exact level_kindsSuffice (level_kindsSuffice factor_kindsSuffice) d us same

/- A token as the lexer might make it. -/
def sample : Kind → Token
  | .integer => ⟨.integer, some (.integer 0)⟩
  | .decimal => ⟨.decimal, some (.double (.finite false .zero))⟩
  | kind => ⟨kind, none⟩

theorem sample_kind (kind : Kind) : (sample kind).kind = kind := by
  cases kind <;> rfl

theorem sample_wellFormed (kind : Kind) : (sample kind).WellFormed := by
  cases kind with
  | integer => exact .integer (n := 0) (Nat.zero_le _)
  | decimal => exact .decimal .zero
  | _ => exact .symbol rfl

/- What can follow tokens can do so as tokens from the lexer. -/
theorem exists_wellFormed {more : List Token} (derivable : Derivable (ts ++ more)) :
    ∃ others, (∀ t ∈ others, t.WellFormed) ∧ Derivable (ts ++ others) := by
  refine ⟨more.map fun t => sample t.kind, ?_, derivable_congr ?_ derivable⟩
  · intro t member
    obtain ⟨u, _, rfl⟩ := List.mem_map.mp member
    exact sample_wellFormed u.kind
  · simp [Function.comp_def, sample_kind]

end Grammar

open Grammar

section Refusal

variable {ts : List Token}

theorem answer_of_derivable (valued : ∀ t ∈ ts, t.Valued) (derivable : Derivable ts) :
    ∃ tree, answer false ts = (.ok (some tree), ts.length) := by
  have present := ne_nil_of_derivable derivable
  obtain ⟨d, rfl⟩ := derivable
  obtain ⟨tree, meaning⟩ := expression_denotes d valued
  have read := (parse_iff_derivation present).mpr ⟨d, rfl, meaning⟩
  exact ⟨tree, (strict_ok_iff present valued tree).mp read⟩

/-- Tokens among which the parser stops are ruled out by the one in front of which it does: no line
    begins with them up to that one. -/
theorem not_derivable_of_stopped (wellFormed : ∀ t ∈ ts, t.WellFormed)
    (stopped : (answer false ts).2 < ts.length) (more : List Token) :
    ¬ Derivable (ts.take ((answer false ts).2 + 1) ++ more) := by
  intro derivable
  obtain ⟨others, valid, derivable⟩ := exists_wellFormed derivable
  have length : (ts.take ((answer false ts).2 + 1)).length = (answer false ts).2 + 1 :=
    List.length_take_of_le stopped
  have valued : ∀ t ∈ ts.take ((answer false ts).2 + 1) ++ others, t.Valued := by
    refine List.forall_mem_append.mpr ⟨?_, fun t member => (valid t member).valued⟩
    intro t member
    exact (wellFormed t (List.mem_of_mem_take member)).valued
  obtain ⟨tree, read⟩ := answer_of_derivable valued derivable
  have begun : (ts.take ((answer false ts).2 + 1) ++ others).take ((answer false ts).2 + 1) =
      ts.take ((answer false ts).2 + 1) := by
    rw [List.take_append_of_le_length (by omega), List.take_take, Nat.min_self]
  have read' := congrArg Prod.snd ((lenient_congr begun).symm.trans read)
  simp only [List.length_append, length] at read'
  omega

theorem not_derivable_of_refused {failure : Failure} (valued : ∀ t ∈ ts, t.Valued)
    (refused : parse true ts = .error failure) : ¬ Derivable ts := by
  intro derivable
  obtain ⟨tree, read⟩ := answer_of_derivable valued derivable
  have accepted := (strict_ok_iff (ne_nil_of_derivable derivable) valued tree).mpr read
  cases accepted.symm.trans refused

/- What an error says that is about the first token, or the end, with which no line goes on. -/
structure FirstBad (ts : List Token) (i : Nat) (error : LineError) : Prop where
  carried : ∃ found, error = .expectedNumber i found ∨ error = .unexpectedToken i found
  within : i ≤ ts.length
  viable : ∃ more, (∀ t ∈ more, t.WellFormed) ∧ Derivable (ts.take i ++ more)
  bad : i < ts.length → ∀ more, ¬ Derivable (ts.take (i + 1) ++ more)
  unfinished : i = ts.length → ¬ Derivable ts
  longest : ∀ n ≤ ts.length, Viable (ts.take n) ↔ n ≤ i
  atEnd : (∃ head, error.message = head ++ " at end of input") ↔ i = ts.length
  named : ∀ t, ts[i]? = some t → ∃ label, t.label = .ok label ∧
    ∃ head ∈ ["Expected number", "Unexpected token"],
      error.message = head ++ (" at token " ++ integerText (i + 1) ++ " (" ++ label ++ ")")

theorem longest_of_bad {i : Nat} (viable : Viable (ts.take i))
    (bad : i < ts.length → ∀ more, ¬ Derivable (ts.take (i + 1) ++ more)) {n : Nat}
    (within : n ≤ ts.length) : Viable (ts.take n) ↔ n ≤ i := by
  constructor
  · intro begun
    by_contra longer
    have beginning : (ts.take n).take (i + 1) = ts.take (i + 1) := by
      rw [List.take_take, Nat.min_eq_left (by omega)]
    obtain ⟨more, derivable⟩ := viable_take (i + 1) begun
    rw [beginning] at derivable
    exact bad (by omega) more derivable
  · intro shorter
    have beginning : (ts.take i).take n = ts.take n := by
      rw [List.take_take, Nat.min_eq_left shorter]
    rw [← beginning]
    exact viable_take n viable

/- The end of a message tells whether there was a token. -/
theorem message_ends (head : String) (i : Nat) (found : Option String) :
    (∃ other, head ++ LineError.whereFound i found = other ++ " at end of input") ↔
      found = none := by
  cases found with
  | none => exact iff_of_true ⟨head, rfl⟩ rfl
  | some label =>
    refine iff_of_false ?_ (by simp)
    rintro ⟨other, same⟩
    have last := congrArg (fun text : String => text.toList.getLast?) same
    simp [LineError.whereFound, List.getLast?_append, List.getLast?_cons] at last

theorem found_of_head {rest : List Token} {found : Option String}
    (shown : rest.head?.mapM Token.label = .ok found) :
    rest = [] ∧ found = none ∨
      ∃ t after label, rest = t :: after ∧ t.label = .ok label ∧ found = some label := by
  cases rest with
  | nil => exact .inl ⟨rfl, (Except.ok.inj shown).symm⟩
  | cons t after =>
    refine .inr ⟨t, after, ?_⟩
    rw [List.head?_cons, Option.mapM_some] at shown
    cases label : t.label with
    | error fault =>
      rw [label] at shown
      cases shown
    | ok text =>
      rw [label] at shown
      exact ⟨text, rfl, rfl, (Except.ok.inj shown).symm⟩

theorem firstBad_of_stopped {before rest : List Token} {found : Option String} {error : LineError}
    (parts : ts = before ++ rest) (wellFormed : ∀ t ∈ ts, t.WellFormed)
    (shown : rest.head?.mapM Token.label = .ok found) (begins : Viable before)
    (stopped : (answer false ts).2 = before.length) (underivable : ¬ Derivable ts)
    (carried : error = .expectedNumber before.length found ∨
      error = .unexpectedToken before.length found) : FirstBad ts before.length error := by
  have beginning : ts.take before.length = before := by rw [parts, List.take_left]
  have begins' : Viable (ts.take before.length) := by rwa [beginning]
  have bad := not_derivable_of_stopped wellFormed
  rw [stopped] at bad
  refine ⟨⟨found, carried⟩, by simp [parts], exists_wellFormed begins'.choose_spec, bad,
    fun _ => underivable, fun n within => longest_of_bad begins' bad within, ?_, ?_⟩
  · have ended : found = none ↔ before.length = ts.length := by
      rcases found_of_head shown with ⟨rfl, rfl⟩ | ⟨t, after, label, rfl, _, rfl⟩ <;> simp [parts]
    rw [← ended]
    rcases carried with rfl | rfl <;> exact message_ends _ before.length found
  · intro t ahead
    rcases found_of_head shown with ⟨rfl, rfl⟩ | ⟨u, after, label, rfl, labelled, rfl⟩
    · simp [parts] at ahead
    · obtain rfl : u = t := by simpa [parts] using ahead
      refine ⟨label, labelled, ?_⟩
      rcases carried with rfl | rfl
      · exact ⟨"Expected number", by simp, rfl⟩
      · exact ⟨"Unexpected token", by simp, rfl⟩

/-- Strict reading refuses well-formed tokens at the first one with which no line goes on, or at
    their end, and the message says which. -/
theorem refused_at_first_bad {failure : Failure} (present : ts ≠ [])
    (wellFormed : ∀ t ∈ ts, t.WellFormed) (refused : parse true ts = .error failure) :
    ∃ i error, failure = .line error ∧ FirstBad ts i error := by
  have valued : ∀ t ∈ ts, t.Valued := fun t member => (wellFormed t member).valued
  have underivable := not_derivable_of_refused valued refused
  cases verdict present valued with
  | accepted _ strict => cases strict.symm.trans refused
  | @leftover before rest t tree label parts derived shown lenient strict =>
    obtain rfl := Except.error.inj (strict.symm.trans refused)
    have found : (t :: rest).head?.mapM Token.label = .ok (some label) := by
      rw [List.head?_cons, Option.mapM_some, shown]
      rfl
    have begins : Viable before := ⟨[], by rwa [List.append_nil]⟩
    exact ⟨_, _, rfl, firstBad_of_stopped parts wellFormed found begins (by rw [lenient])
      underivable (.inr rfl)⟩
  | missing parts awaited found lenient strict =>
    obtain rfl := Except.error.inj (strict.symm.trans refused)
    exact ⟨_, _, rfl, firstBad_of_stopped parts wellFormed found
      ⟨_, awaited (sample .integer) rfl⟩ (by rw [lenient]) underivable (.inl rfl)⟩

/- A parenthesis where a number has to stand. -/
theorem refused_at_parenthesis :
    ∃ ts : List Token, ts = [⟨.integer, some (.integer 1)⟩, ⟨.plus, none⟩, ⟨.leftParen, none⟩] ∧
      ts ≠ [] ∧ (∀ t ∈ ts, t.WellFormed) ∧
      parse true ts = .error (.line (.expectedNumber 2 (some "LP"))) ∧
      ∃ i error, Failure.line (.expectedNumber 2 (some "LP")) = .line error ∧
        FirstBad ts i error := by
  have wellFormed : ∀ t ∈ [Token.mk .integer (some (.integer 1)), ⟨.plus, none⟩,
      ⟨.leftParen, none⟩], t.WellFormed := by
    have one : Token.WellFormed ⟨.integer, some (.integer 1)⟩ := .integer (n := 1) (by decide)
    have plus : Token.WellFormed ⟨.plus, none⟩ := .symbol rfl
    have parenthesis : Token.WellFormed ⟨.leftParen, none⟩ := .symbol rfl
    simpa using ⟨one, plus, parenthesis⟩
  have refused : parse true [⟨.integer, some (.integer 1)⟩, ⟨.plus, none⟩, ⟨.leftParen, none⟩] =
      .error (.line (.expectedNumber 2 (some "LP"))) := by decide +kernel
  exact ⟨_, rfl, by simp, wellFormed, refused,
    refused_at_first_bad (by simp) wellFormed refused⟩

end Refusal

end LineCalc
