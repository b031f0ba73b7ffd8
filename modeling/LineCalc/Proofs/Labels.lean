import LineCalc.Proofs.Readback
import LineCalc.Proofs.Tables
import LineCalc.Proofs.Viability

/-!
The label of a tree against those of its tokens. Without its parentheses, and with blanks for its
commas, the label of a tree is that of the tokens that were read as the tree
(`label_flattened`): the two show the same numbers, although a tree holds them as doubles.
-/
namespace LineCalc

/- What is deleted from the label of a tree, and what stands between its parts. -/
def isParenthesis (c : Char) : Bool := c == '(' || c == ')'

/- The label of a tree without parentheses, and with blanks for commas. -/
def flattened (label : String) : String :=
  String.ofList ((label.toList.filter fun c => !isParenthesis c).map fun c =>
    if c = ',' then ' ' else c)

theorem flattened_append (first second : String) :
    flattened (first ++ second) = flattened first ++ flattened second := by
  simp [flattened, String.ofList_append]

/- Texts that flattening does not change. -/
def Flat (text : String) : Prop := ∀ c ∈ text.toList, isParenthesis c = false ∧ c ≠ ','

theorem flattened_of_flat {text : String} (flat : Flat text) : flattened text = text := by
  have kept : text.toList.filter (fun c => !isParenthesis c) = text.toList :=
    List.filter_eq_self.mpr fun c member => by simp [(flat c member).1]
  have unchanged : text.toList.map (fun c => if c = ',' then ' ' else c) = text.toList := by
    refine (List.map_congr_left ?_).trans (List.map_id _)
    intro c member
    exact if_neg (flat c member).2
  rw [flattened, kept, unchanged, String.ofList_toList]

theorem Flat.append {first second : String} (flat : Flat first) (flat' : Flat second) :
    Flat (first ++ second) := by
  intro c member
  rw [String.toList_append] at member
  rcases List.mem_append.mp member with before | behind
  · exact flat c before
  · exact flat' c behind

theorem flat_name (kind : Kind) : Flat kind.name := by
  unfold Flat
  cases kind <;> simp [Kind.name, isParenthesis]

/- Numbers are written without parentheses and commas. -/
theorem flat_of_inNumber {text : String} (inside : ∀ c ∈ text.toList, InNumber c) : Flat text := by
  intro c member
  have number := inside c member
  constructor
  · simp only [isParenthesis, Bool.or_eq_false_iff, beq_eq_false_iff_ne]
    constructor <;> rintro rfl <;> simp [InNumber] at number
  · rintro rfl
    simp [InNumber] at number

theorem flat_integerText (n : Int) : Flat (integerText n) := flat_of_inNumber (inNumber_integerText n)

theorem flat_threePlaces (x : Binary64) : Flat x.threePlaces :=
  flat_of_inNumber x.inNumber_threePlaces

namespace Token

theorem labels_eq_ok_iff {ts : List Token} {text : String} :
    labels ts = .ok text ↔ ∃ texts, ts.mapM label = .ok texts ∧ " ".intercalate texts = text := by
  unfold labels
  cases ts.mapM label with
  | error fault => exact iff_of_false nofun (by simp)
  | ok texts => simp [Except.map]

theorem labels_append {before after : List Token} {first second : String} (present : before ≠ [])
    (present' : after ≠ []) (shown : labels before = .ok first)
    (shown' : labels after = .ok second) :
    labels (before ++ after) = .ok (first ++ " " ++ second) := by
  obtain ⟨texts, each, rfl⟩ := labels_eq_ok_iff.mp shown
  obtain ⟨others, each', rfl⟩ := labels_eq_ok_iff.mp shown'
  have all : (before ++ after).mapM label = .ok (texts ++ others) := by
    rw [List.mapM_append, each, each']
    rfl
  have nonempty {ts : List Token} {us : List String} (some : ts ≠ [])
      (each : ts.mapM label = .ok us) :
      us ≠ [] := by
    have length := length_of_mapM each
    rintro rfl
    exact some (List.length_eq_zero_iff.mp length.symm)
  exact labels_eq_ok_iff.mpr ⟨_, all,
    String.intercalate_append_of_ne_nil (nonempty present each) (nonempty present' each')⟩

theorem labels_of_sign {op : Operator} {t : Token} (same : op.kind = t.kind)
    (valid : t.WellFormed) :
    labels [t] = .ok op.kind.name := by
  rw [same]
  cases valid with
  | integer small => cases op <;> cases same
  | decimal m => cases op <;> cases same
  | symbol symbolic =>
    refine labels_eq_ok_iff.mpr ⟨[_], rfl, ?_⟩
    simp

end Token

theorem flattened_node (op : Operator) (x y : String) :
    flattened ("(" ++ x ++ "," ++ op.kind.name ++ "," ++ y ++ ")") =
      flattened x ++ " " ++ op.kind.name ++ " " ++ flattened y := by
  have opening : flattened "(" = "" := by decide
  have comma : flattened "," = " " := by decide
  have closing : flattened ")" = "" := by decide
  simp only [flattened_append, opening, comma, closing, flattened_of_flat (flat_name op.kind),
    String.empty_append, String.append_empty]

/- Tokens and a tree that show the same, but for parentheses and commas. -/
def ShowAlike (ts : List Token) (tree : Tree) : Prop :=
  ∃ label, tree.label = .ok label ∧ Token.labels ts = .ok (flattened label)

namespace Grammar

variable {kinds : List Kind} {Operand : Type} {yield : Operand → List Token}
  {denotes : Operand → Tree → Prop}

theorem showAlike_single {t : Token} {x : Binary64} (label : String)
    (shown : Tree.numberLabel x t.kind = .ok label) (shown' : t.label = .ok label)
    (flat : Flat label) : ShowAlike [t] (.number x t.kind) := by
  refine ⟨label, shown, Token.labels_eq_ok_iff.mpr ⟨[label], ?_, ?_⟩⟩
  · rw [List.mapM_cons, shown']
    rfl
  · rw [flattened_of_flat flat]
    simp

theorem flat_numberLabel (kind : Kind) {text : String} (flat : Flat text) :
    Flat (kind.name ++ ":" ++ text) := by
  have colon : Flat ":" := by simp [Flat, isParenthesis]
  exact ((flat_name kind).append colon).append flat

/- A number has one label for both. An integer is the same behind its way through a double. -/
theorem factor_showAlike (d : Factor) (tree : Tree) (meaning : d.Denotes tree)
    (all : ∀ t ∈ d.yield, t.WellFormed) : ShowAlike d.yield tree := by
  cases meaning with
  | @number v x value converted =>
    have token := all d.token (List.mem_singleton_self _)
    unfold Factor.yield
    generalize d.token = t at *
    cases token with
    | @integer n small =>
      obtain rfl := Option.some.inj value
      obtain ⟨m, exact, whole⟩ := Numeral.toDouble_of_small small
      obtain rfl := Except.ok.inj (exact.symm.trans converted)
      have few := Numeral.natAbs_lt_of_finite (Numeral.finite_of_small small)
      have written := writeInteger_of_lt few
      have back : (Binary64.finite false m).truncate? = some (n : Int) := by
        simp only [Binary64.truncate?, whole, Nat.mul_div_cancel n Magnitude.unitsPerOne_pos]
      refine showAlike_single (Kind.integer.name ++ ":" ++ integerText n) ?_ ?_ ?_
      · simp only [Tree.numberLabel, back]
      · simp only [Token.label, Numeral.write, written]
        rfl
      · exact flat_numberLabel .integer (flat_integerText n)
    | decimal m =>
      obtain rfl := Option.some.inj value
      obtain rfl := Except.ok.inj converted
      exact showAlike_single _ rfl rfl (flat_numberLabel .decimal (flat_threePlaces _))
    | symbol _ => cases value

/- A node puts its sign between what its operands show. -/
theorem level_showAlike (present : ∀ d, yield d ≠ [])
    (operand : ∀ d tree, denotes d tree → (∀ t ∈ yield d, t.WellFormed) → ShowAlike (yield d) tree)
    (d : Level kinds Operand) (tree : Tree) (meaning : Level.Denotes denotes d tree)
    (all : ∀ t ∈ d.yield yield, t.WellFormed) : ShowAlike (d.yield yield) tree := by
  cases meaning with
  | one meaning => exact operand _ _ meaning all
  | @two left right sign among op leftTree rightTree same first second =>
    obtain ⟨x, shown, shownTokens⟩ :=
      operand _ _ first fun t member => all t (by simp [Level.yield, member])
    obtain ⟨y, shown', shownTokens'⟩ :=
      operand _ _ second fun t member => all t (by simp [Level.yield, member])
    have sign' := Token.labels_of_sign same (all sign (by simp [Level.yield]))
    have tail := Token.labels_append (by simp) (present right) sign' shownTokens'
    have whole := Token.labels_append (present left) (by simp) shownTokens tail
    refine ⟨"(" ++ x ++ "," ++ op.kind.name ++ "," ++ y ++ ")", ?_, ?_⟩
    · simp only [Tree.label, shown, shown']
      rfl
    · rw [flattened_node]
      simpa [Level.yield, String.append_assoc] using whole

theorem expression_showAlike (d : Expression) (tree : Tree) (meaning : d.Denotes tree)
    (all : ∀ t ∈ d.yield, t.WellFormed) : ShowAlike d.yield tree := by
  have factor (d : Factor) : d.yield ≠ [] := List.cons_ne_nil d.token []
  exact level_showAlike (level_yield_ne_nil factor) (level_showAlike factor factor_showAlike) d tree
    meaning all

end Grammar

/- The tokens of a line that were read as its tree. In strict reading none are left. -/
theorem derivation_of_answer {strict : Bool} {ts : List Token} {tree : Tree}
    (read : parse strict ts = .ok (some tree)) :
    ∃ (d : Grammar.Expression) (rest : List Token), ts = d.yield ++ rest ∧ d.Denotes tree ∧
      (answer strict ts).2 = d.yield.length ∧ (strict = true → rest = []) := by
  have present : ts ≠ [] := by
    rintro rfl
    cases read
  have parsed := parse_eq strict present
  have counted : (answer strict ts).2 = (Reading.start ts).expression.2.index := by
    unfold answer
    rcases begun : (Reading.start ts).expression with ⟨failure | first, left⟩
    · rw [Reading.parse_of_error (isBlank_start present) begun]
    · rw [Reading.parse_of_tree (isBlank_start present) begun]
      split <;> rfl
  rw [read] at parsed
  rcases begun : (Reading.start ts).expression with ⟨failure | first, left⟩
  · rw [begun] at parsed
    cases parsed
  · obtain ⟨d, parts, meaning⟩ := Reading.expression_exact.sound begun
    change ts = d.yield ++ left.rest at parts
    rw [begun] at parsed counted
    dsimp only at parsed
    split at parsed
    · cases parsed
    · rename_i complete
      obtain rfl := Option.some.inj (Except.ok.inj parsed)
      refine ⟨d, left.rest, parts, meaning, counted.trans (index_of_parts begun parts), ?_⟩
      rintro rfl
      simpa using complete

/- The label of a tree that was read of tokens, and the labels of all the tokens. These begin with
   the label of the tree, and go on behind a blank if tokens are left. -/
structure LabelsAgree (strict : Bool) (ts : List Token) (tree : Tree) (label all : String) :
    Prop where
  ofTree : tree.label = .ok label
  ofTokens : Token.labels ts = .ok all
  consumed : Token.labels (ts.take (answer strict ts).2) = .ok (flattened label)
  begins : all = flattened label ∨ ∃ others,
    Token.labels (ts.drop (answer strict ts).2) = .ok others ∧
      all = flattened label ++ " " ++ others
  whole : strict = true → all = flattened label

theorem labelsAgree_of_parse {strict : Bool} {ts : List Token} {tree : Tree}
    (wellFormed : ∀ t ∈ ts, t.WellFormed) (read : parse strict ts = .ok (some tree)) :
    ∃ label all, LabelsAgree strict ts tree label all := by
  obtain ⟨d, rest, parts, meaning, counted, complete⟩ := derivation_of_answer read
  have taken : ts.take (answer strict ts).2 = d.yield := by rw [counted, parts, List.take_left]
  have dropped : ts.drop (answer strict ts).2 = rest := by rw [counted, parts, List.drop_left]
  obtain ⟨valid, valid'⟩ := List.forall_mem_append.mp (parts ▸ wellFormed)
  obtain ⟨label, shown, shownTokens⟩ := Grammar.expression_showAlike d tree meaning valid
  by_cases none : rest = []
  · subst none
    rw [List.append_nil] at parts
    have all : Token.labels ts = .ok (flattened label) := by rw [parts, shownTokens]
    exact ⟨label, _, shown, all, by rw [taken, shownTokens], .inl rfl, fun _ => rfl⟩
  · obtain ⟨others, left⟩ := Token.labels_of_valued fun t member => (valid' t member).valued
    have all := Token.labels_append (Grammar.ne_nil_of_derivable ⟨d, rfl⟩) none shownTokens left
    exact ⟨label, _, shown, by rw [parts, all], by rw [taken, shownTokens],
      .inr ⟨others, by rw [dropped, left], rfl⟩, fun strict => absurd (complete strict) none⟩

namespace Outcome

/-- The tree of a line shows what the tokens show that were read as the tree, which in strict
    reading are all of them. -/
theorem label_flattened {mode : Mode} {source text : String} {line : Option Int} {o : Outcome}
    {tree : Tree} (returned : (run mode source line text).outcome = .ok o)
    (read : o.tree = some tree) :
    ∃ ts label all, o.tokens = some ts ∧ LabelsAgree mode.strict ts tree label all := by
  obtain ⟨s, is⟩ := inState_of_outcome returned
  cases is with
  | failed present cause => cases read
  | blank read' => cases read
  | @evaluated ts _ x _ _ present tokens parsed value leaves tokensShown treeShown =>
    obtain rfl := Option.some.inj read
    obtain ⟨label, all, agree⟩ := labelsAgree_of_parse (wellFormed_of_tokenize tokens) parsed
    exact ⟨ts, label, all, rfl, agree⟩

/- A parenthesis is left behind the tree. -/
theorem label_flattened_of_leftover :
    ∃ o tree, (run {} "stdin" (some 1) "12*0.5 - 7)").outcome = .ok o ∧ o.tree = some tree ∧
      ∃ ts label all, o.tokens = some ts ∧ LabelsAgree false ts tree label all := by
  have returned :
      ((run {} "stdin" (some 1) "12*0.5 - 7)").outcome.toOption.bind Outcome.tree).isSome := by
    decide +kernel
  obtain ⟨tree, found⟩ := Option.isSome_iff_exists.mp returned
  obtain ⟨o, outcome, read⟩ := Option.bind_eq_some_iff.mp found
  cases ran : (run {} "stdin" (some 1) "12*0.5 - 7)").outcome with
  | error fault =>
    rw [ran] at outcome
    cases outcome
  | ok o' =>
    rw [ran] at outcome
    obtain rfl : o' = o := Option.some.inj outcome
    exact ⟨o', tree, rfl, read, label_flattened ran read⟩

end Outcome

end LineCalc
