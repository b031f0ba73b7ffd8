import LineCalc.Proofs.Evaluation
import LineCalc.Proofs.Labels

/-!
Unique reading of trees. A text has one tree, in labels and in descriptions, because the text of a
tree is known from what follows it: numbers and operators are written without parentheses and
commas, and in a node each of its parts is in front of one (`Style.Writes.unique`, for both styles of
writing). So trees with one description are the same but for kinds, which for trees without
not-a-number and negative zero is equality (`Tree.texts_readable`).
-/
namespace LineCalc

/- Equality takes only the zeros for each other. -/
theorem Binary64.eq_of_equals {x y : Binary64} (positive : x ≠ .finite true .zero)
    (positive' : y ≠ .finite true .zero) (same : x.equals y) : x = y := by
  rcases eq_or_zeros_of_equals same with rfl | ⟨s, t, rfl, rfl⟩
  · rfl
  · cases s <;> cases t <;> simp_all

namespace Tree

/- Trees of one shape with the same operators, whose numbers are related place by place. No place is
   empty. -/
inductive Alike (leaf : Binary64 → Kind → Binary64 → Kind → Prop) : Tree → Tree → Prop where
  | number {x y : Binary64} {kind kind' : Kind} (related : leaf x kind y kind') :
      Alike leaf (.number x kind) (.number y kind')
  | operation {op : Operator} {left right left' right' : Tree} (first : Alike leaf left left')
      (second : Alike leaf right right') :
      Alike leaf (.operation op left right) (.operation op left' right')

/- The numbers have the same label, as far as they have one. -/
def SameLabel (x : Binary64) (kind : Kind) (y : Binary64) (kind' : Kind) : Prop :=
  numberLabel x kind = numberLabel y kind'

/- The same doubles, whatever their kinds. -/
def SameDouble (x : Binary64) (_ : Kind) (y : Binary64) (_ : Kind) : Prop := x = y

def EqualDouble (x : Binary64) (_ : Kind) (y : Binary64) (_ : Kind) : Prop := x.equals y

def IsNumber (x : Binary64) (_ : Kind) : Prop := x ≠ .nan

/- Neither not-a-number nor negative zero, which are the doubles that equality takes for others. -/
def IsOrdinary (x : Binary64) (_ : Kind) : Prop := x ≠ .nan ∧ x ≠ .finite true .zero

variable {leaf leaf' : Binary64 → Kind → Binary64 → Kind → Prop} {t u w : Tree}

theorem Alike.imp (step : ∀ x kind y kind', leaf x kind y kind' → leaf' x kind y kind')
    (alike : t.Alike leaf u) : t.Alike leaf' u := by
  induction alike with
  | number related => exact .number (step _ _ _ _ related)
  | operation first second ihFirst ihSecond => exact .operation ihFirst ihSecond

/- A relation of the numbers may use what is known of them on both sides. -/
theorem Alike.imp_of_every {holds holds' : Binary64 → Kind → Prop}
    (step : ∀ x kind y kind', holds x kind → holds' y kind' → leaf x kind y kind' →
      leaf' x kind y kind')
    (every : t.Every holds) (every' : u.Every holds') (alike : t.Alike leaf u) :
    t.Alike leaf' u := by
  induction alike with
  | number related =>
    cases every with
    | number known =>
      cases every' with
      | number known' => exact .number (step _ _ _ _ known known' related)
  | operation first second ihFirst ihSecond =>
    cases every with
    | operation left right =>
      cases every' with
      | operation left' right' => exact .operation (ihFirst left left') (ihSecond right right')

theorem equals_iff_alike : t.equals u ↔ t.Alike EqualDouble u := by
  constructor
  · intro same
    induction t generalizing u with
    | number x kind =>
      cases u with
      | number y kind' => exact .number same
      | operation => cases same
      | hole => cases same
    | operation op left right ihLeft ihRight =>
      cases u with
      | number => cases same
      | operation op' left' right' =>
        simp only [equals, Bool.and_eq_true, beq_iff_eq] at same
        obtain ⟨⟨rfl, first⟩, second⟩ := same
        exact .operation (ihLeft first) (ihRight second)
      | hole => cases same
    | hole => cases same
  · intro alike
    induction alike with
    | number related => exact related
    | operation first second ihFirst ihSecond => simp [equals, ihFirst, ihSecond]

theorem equals_symm (same : t.equals u) : u.equals t := by
  rw [equals_iff_alike] at same ⊢
  induction same with
  | number related => exact .number (Binary64.equals_symm related)
  | operation first second ihFirst ihSecond => exact .operation ihFirst ihSecond

theorem equals_trans (first : t.equals u) (second : u.equals w) : t.equals w := by
  rw [equals_iff_alike] at first second ⊢
  induction first generalizing w with
  | number related =>
    cases second with
    | number related' => exact .number (Binary64.equals_trans related related')
  | operation left right ihLeft ihRight =>
    cases second with
    | operation left' right' => exact .operation (ihLeft left') (ihRight right')

/- What equals something has no number that is not one. -/
theorem every_of_equals (same : t.equals u) : t.Every IsNumber := by
  rw [equals_iff_alike] at same
  induction same with
  | number related =>
    refine .number ?_
    rintro rfl
    cases related
  | operation first second ihFirst ihSecond => exact .operation ihFirst ihSecond

/- A copy is equal exactly if all its numbers are numbers. -/
theorem equals_iff_every (copy : t.Alike SameDouble u) : t.equals u ↔ t.Every IsNumber := by
  constructor
  · exact every_of_equals
  · intro every
    rw [equals_iff_alike]
    induction copy with
    | @number x y kind kind' same =>
      cases every with
      | number number =>
        obtain rfl : x = y := same
        exact .number (Binary64.equals_self number)
    | operation first second ihFirst ihSecond =>
      cases every with
      | operation left right => exact .operation (ihFirst left) (ihSecond right)

theorem evaluate_of_alike (same : t.Alike SameDouble u) : t.evaluate = u.evaluate := by
  induction same with
  | number same => exact congrArg Except.ok same
  | operation first second ihFirst ihSecond => simp only [evaluate, ihFirst, ihSecond]

theorem describe_of_alike (same : t.Alike SameDouble u) : t.describe = u.describe := by
  induction same with
  | @number x y kind kind' same =>
    obtain rfl : x = y := same
    rfl
  | operation first second ihFirst ihSecond => simp only [describe, ihFirst, ihSecond]

theorem label_of_alike (same : t.Alike SameLabel u) : t.label = u.label := by
  induction same with
  | number same => exact same
  | operation first second ihFirst ihSecond => simp only [label, ihFirst, ihSecond]

end Tree

/- What does not part the text of a node. -/
def IsInner (c : Char) : Prop := isParenthesis c = false ∧ c ≠ ','

/- A text that goes on with a parenthesis or a comma, or not at all. -/
def Parts (rest : List Char) : Prop := ∀ c, rest.head? = some c → ¬ IsInner c

/- A flat text ends where the first parting character is. -/
theorem flat_unique {a b r s : List Char} (flat : ∀ c ∈ a, IsInner c) (flat' : ∀ c ∈ b, IsInner c)
    (parts : Parts r) (parts' : Parts s) (same : a ++ r = b ++ s) : a = b ∧ r = s := by
  induction a generalizing b with
  | nil =>
    cases b with
    | nil => exact ⟨rfl, same⟩
    | cons c b =>
      have head : r.head? = some c := by
        rw [show r = c :: b ++ s from same]
        rfl
      exact absurd (flat' c List.mem_cons_self) (parts c head)
  | cons c a ih =>
    cases b with
    | nil =>
      have head : s.head? = some c := by
        rw [show s = c :: a ++ r from same.symm]
        rfl
      exact absurd (flat c List.mem_cons_self) (parts' c head)
    | cons d b =>
      obtain ⟨rfl, tail⟩ := List.cons.inj same
      obtain ⟨rfl, rest⟩ := ih (fun d member => flat d (List.mem_cons_of_mem _ member))
        (fun d member => flat' d (List.mem_cons_of_mem _ member)) tail
      exact ⟨rfl, rest⟩

/- A way to write trees: what stands around the parts of a node and between them, and the texts of
   operators and numbers. -/
structure Style where
  opening : String
  separator : String
  closing : String
  sign : Operator → String
  number : Binary64 → Kind → String → Prop

namespace Style

variable {style : Style}

inductive Writes (style : Style) : Tree → String → Prop where
  | number {x : Binary64} {kind : Kind} {text : String} (shown : style.number x kind text) :
      Writes style (.number x kind) text
  | operation {op : Operator} {left right : Tree} {a b : String} (first : Writes style left a)
      (second : Writes style right b) :
      Writes style (.operation op left right) (style.opening ++ a ++ style.separator ++
        style.sign op ++ style.separator ++ b ++ style.closing)

/- What makes the trees of a style readable. A number is told from a node by its beginning, and where
   it ends is known from what follows. -/
structure Readable (style : Style) : Prop where
  separator : ∀ rest, Parts (style.separator.toList ++ rest)
  closing : ∀ rest, Parts (style.closing.toList ++ rest)
  sign : ∀ op, Flat (style.sign op)
  sign_injective : Function.Injective style.sign
  apart : ∀ {x : Binary64} {kind : Kind} {text : String} (rest rest' : List Char),
    style.number x kind text → text.toList ++ rest ≠ style.opening.toList ++ rest'
  number : ∀ {x y : Binary64} {kind kind' : Kind} {a b : String} {r s : List Char},
    style.number x kind a → style.number y kind' b → Parts r → Parts s →
    a.toList ++ r = b.toList ++ s → a = b ∧ r = s

/- The numbers have a text in common. -/
def SameText (style : Style) (x : Binary64) (kind : Kind) (y : Binary64) (kind' : Kind) : Prop :=
  ∃ text, style.number x kind text ∧ style.number y kind' text

/-- A text has one tree, whatever parting text goes on behind it. -/
theorem Writes.unique {t u : Tree} {a b : String} {r s : List Char} (readable : style.Readable)
    (first : style.Writes t a) (second : style.Writes u b) (parts : Parts r) (parts' : Parts s)
    (same : a.toList ++ r = b.toList ++ s) : t.Alike style.SameText u ∧ r = s := by
  induction first generalizing u b r s with
  | number shown =>
    cases second with
    | number shown' =>
      obtain ⟨rfl, rest⟩ := readable.number shown shown' parts parts' same
      exact ⟨.number ⟨_, shown, shown'⟩, rest⟩
    | operation first' second' =>
      simp only [String.toList_append, List.append_assoc] at same
      exact absurd same (readable.apart _ _ shown)
  | operation left right ihLeft ihRight =>
    cases second with
    | number shown' =>
      simp only [String.toList_append, List.append_assoc] at same
      exact absurd same.symm (readable.apart _ _ shown')
    | operation left' right' =>
      simp only [String.toList_append, List.append_assoc] at same
      -- Each part of the nodes ends in front of a separator or of the closing text.
      obtain ⟨alike, behindLeft⟩ := ihLeft left' (readable.separator _) (readable.separator _)
        (List.append_cancel_left same)
      obtain ⟨sign, behindSign⟩ := flat_unique (readable.sign _) (readable.sign _)
        (readable.separator _) (readable.separator _) (List.append_cancel_left behindLeft)
      obtain ⟨alike', behindRight⟩ := ihRight right' (readable.closing _) (readable.closing _)
        (List.append_cancel_left behindSign)
      obtain rfl := readable.sign_injective (String.toList_inj.mp sign)
      exact ⟨.operation alike alike', List.append_cancel_left behindRight⟩

theorem parts_nil : Parts [] := by
  intro c head
  cases head

theorem alike_of_text {t u : Tree} {text : String} (readable : style.Readable)
    (first : style.Writes t text) (second : style.Writes u text) : t.Alike style.SameText u :=
  (first.unique readable second parts_nil parts_nil rfl).1

/- The style of labels. -/
def label : Style where
  opening := "("
  separator := ","
  closing := ")"
  sign op := op.kind.name
  number x kind text := Tree.numberLabel x kind = .ok text

/- The style of descriptions. -/
def description : Style where
  opening := "BinaryOp("
  separator := ", "
  closing := ")"
  sign := Operator.name
  number x _ text := text = "Number(" ++ x.display ++ ")"

theorem parts_comma (rest : List Char) : Parts (',' :: rest) := by
  intro c head
  obtain rfl : ',' = c := Option.some.inj head
  simp [IsInner]

theorem parts_closing (rest : List Char) : Parts (')' :: rest) := by
  intro c head
  obtain rfl : ')' = c := Option.some.inj head
  simp [IsInner, isParenthesis]

/- The label of a number is flat and begins with the name of its kind. -/
theorem numberLabel_eq_ok {x : Binary64} {kind : Kind} {text : String}
    (shown : Tree.numberLabel x kind = .ok text) :
    ∃ value, text = kind.name ++ ":" ++ value ∧ Flat text := by
  cases kind with
  | integer =>
    unfold Tree.numberLabel at shown
    cases part : x.truncate? with
    | some n =>
      rw [part] at shown
      obtain rfl := Except.ok.inj shown
      exact ⟨_, rfl, Grammar.flat_numberLabel .integer (flat_integerText n)⟩
    | none =>
      rw [part] at shown
      cases x <;> cases shown
  | _ =>
    obtain rfl := Except.ok.inj shown
    exact ⟨_, rfl, Grammar.flat_numberLabel _ (flat_threePlaces x)⟩

theorem readable_label : label.Readable where
  separator rest := by simpa [label] using parts_comma rest
  closing rest := by simpa [label] using parts_closing rest
  sign op := flat_name op.kind
  sign_injective := by
    intro op op' same
    cases op <;> cases op' <;> first | rfl | simp [label, Operator.kind, Kind.name] at same
  apart := by
    intro x kind text rest rest' shown same
    obtain ⟨value, rfl, _⟩ := numberLabel_eq_ok shown
    cases kind <;> simp [label, Kind.name] at same
  number := by
    intro x y kind kind' a b r s shown shown' parts parts' same
    obtain ⟨_, _, flat⟩ := numberLabel_eq_ok shown
    obtain ⟨_, _, flat'⟩ := numberLabel_eq_ok shown'
    obtain ⟨texts, rest⟩ := flat_unique flat flat' parts parts' same
    exact ⟨String.toList_inj.mp texts, rest⟩

theorem readable_description : description.Readable where
  separator rest := by simpa [description] using parts_comma (' ' :: rest)
  closing rest := by simpa [description] using parts_closing rest
  sign op := by cases op <;> simp [description, Operator.name, Flat, isParenthesis]
  sign_injective := by
    intro op op' same
    cases op <;> cases op' <;> first | rfl | simp [description, Operator.name] at same
  apart := by
    intro x kind text rest rest' shown same
    obtain rfl : text = _ := shown
    simp [description] at same
  number := by
    intro x y kind kind' a b r s shown shown' parts parts' same
    obtain rfl : a = _ := shown
    obtain rfl : b = _ := shown'
    simp only [String.toList_append, List.append_assoc] at same
    have behind := List.append_cancel_left same
    have closing (rest : List Char) : Parts (")".toList ++ rest) := by
      simpa using parts_closing rest
    obtain ⟨texts, rest⟩ := flat_unique (flat_of_inNumber x.inNumber_display)
      (flat_of_inNumber y.inNumber_display) (closing r) (closing s) behind
    rw [String.toList_inj.mp texts]
    exact ⟨rfl, List.append_cancel_left rest⟩

variable {t : Tree} {text : String}

theorem writes_label (full : ¬ t.HasHole) (shown : t.label = .ok text) : label.Writes t text := by
  induction t generalizing text with
  | number x kind => exact .number shown
  | operation op left right ihLeft ihRight =>
    rw [Tree.hasHole_operation_iff, not_or] at full
    simp only [Tree.label] at shown
    cases first : left.label with
    | error fault =>
      rw [first] at shown
      cases shown
    | ok a =>
      cases second : right.label with
      | error fault =>
        rw [first, second] at shown
        cases shown
      | ok b =>
        rw [first, second] at shown
        obtain rfl := Except.ok.inj shown
        exact .operation (ihLeft full.1 first) (ihRight full.2 second)
  | hole own => exact absurd (.hole own) full

theorem writes_describe (full : ¬ t.HasHole) : description.Writes t t.describe := by
  induction t with
  | number x kind => exact .number rfl
  | operation op left right ihLeft ihRight =>
    rw [Tree.hasHole_operation_iff, not_or] at full
    exact .operation (ihLeft full.1) (ihRight full.2)
  | hole own => exact absurd (.hole own) full

end Style

namespace Tree

variable {t u : Tree}

/- Whatever has the label of a tree has its shape and operators, and the labels of its numbers. -/
theorem label_eq_ok_iff {text : String} (full : ¬ t.HasHole) (full' : ¬ u.HasHole)
    (shown : t.label = .ok text) : u.label = .ok text ↔ t.Alike SameLabel u := by
  constructor
  · intro shown'
    have alike := Style.alike_of_text Style.readable_label (Style.writes_label full shown)
      (Style.writes_label full' shown')
    refine alike.imp fun x kind y kind' same => ?_
    obtain ⟨label, first, second⟩ := same
    exact first.trans second.symm
  · intro alike
    rw [← label_of_alike alike, shown]

theorem describe_eq_iff (full : ¬ t.HasHole) (full' : ¬ u.HasHole) :
    t.describe = u.describe ↔ t.Alike SameDouble u := by
  constructor
  · intro same
    have written := Style.writes_describe full'
    rw [← same] at written
    have alike := Style.alike_of_text Style.readable_description (Style.writes_describe full) written
    refine alike.imp fun x kind y kind' same => ?_
    obtain ⟨text, first, second⟩ := same
    have texts : "Number(" ++ x.display ++ ")" = "Number(" ++ y.display ++ ")" :=
      first.symm.trans second
    rw [String.append_left_inj, String.append_right_inj] at texts
    exact Binary64.display_injective texts
  · exact describe_of_alike

/- For ordinary trees being equal is being the same but for kinds. -/
theorem equals_iff_sameDouble (ordinary : t.Every IsOrdinary) (ordinary' : u.Every IsOrdinary) :
    t.equals u ↔ t.Alike SameDouble u := by
  rw [equals_iff_alike]
  constructor
  · exact Alike.imp_of_every (fun x kind y kind' positive positive' same =>
      Binary64.eq_of_equals positive.2 positive'.2 same) ordinary ordinary'
  · refine Alike.imp_of_every (fun x kind y kind' positive _ same => ?_) ordinary ordinary'
    obtain rfl : x = y := same
    exact Binary64.equals_self positive.1

/-- The texts of trees, against their equality. Two trees have one label only if they have one shape,
    the same operators and numbers with the same labels, and one description only if the numbers are
    the same. Without not-a-number and negative zero, one description means equality, and equal
    trees have one value. Equality goes both ways and on, and a copy is equal unless it has
    not-a-number. -/
theorem texts_readable (full : ¬ t.HasHole) (full' : ¬ u.HasHole) :
    (∀ text, t.label = .ok text → (u.label = .ok text ↔ t.Alike SameLabel u)) ∧
    (t.describe = u.describe ↔ t.Alike SameDouble u) ∧
    (t.Every IsOrdinary → u.Every IsOrdinary → (t.describe = u.describe ↔ t.equals u) ∧
      (t.equals u → ∃ z, t.evaluate = .ok z ∧ u.evaluate = .ok z)) ∧
    (t.equals u → u.equals t) ∧ (∀ w, t.equals u → u.equals w → t.equals w) ∧
    (t.Alike SameDouble u → (t.equals u ↔ t.Every IsNumber)) := by
  refine ⟨fun text => label_eq_ok_iff full full', describe_eq_iff full full', ?_, equals_symm,
    fun w => equals_trans, equals_iff_every⟩
  intro ordinary ordinary'
  have equality := equals_iff_sameDouble ordinary ordinary'
  refine ⟨(describe_eq_iff full full').trans equality.symm, ?_⟩
  intro same
  obtain ⟨z, value⟩ := exists_value_iff.mpr full
  refine ⟨z, value, ?_⟩
  rw [← evaluate_of_alike (equality.mp same), value]

/- Trees of the same doubles that are not equal. -/
theorem texts_readable_of_special :
    ∃ t u : Tree, ¬ t.HasHole ∧ ¬ u.HasHole ∧
      t = .operation .sub (.number .nan .decimal)
        (.operation .mul (.number (.finite true .zero) .integer) (.number (.infinite false) .plus)) ∧
      u = .operation .sub (.number .nan .leftParen)
        (.operation .mul (.number (.finite true .zero) .decimal) (.number (.infinite false) .times)) ∧
      (∀ text, t.label = .ok text → (u.label = .ok text ↔ t.Alike SameLabel u)) ∧
      (t.describe = u.describe ↔ t.Alike SameDouble u) ∧
      (t.Every IsOrdinary → u.Every IsOrdinary → (t.describe = u.describe ↔ t.equals u) ∧
        (t.equals u → ∃ z, t.evaluate = .ok z ∧ u.evaluate = .ok z)) ∧
      (t.equals u → u.equals t) ∧ (∀ w, t.equals u → u.equals w → t.equals w) ∧
      (t.Alike SameDouble u → (t.equals u ↔ t.Every IsNumber)) := by
  have full : ¬ HasHole (.operation .sub (.number .nan .decimal)
      (.operation .mul (.number (.finite true .zero) .integer) (.number (.infinite false) .plus))) :=
    exists_value_iff.mp ⟨_, rfl⟩
  have full' : ¬ HasHole (.operation .sub (.number .nan .leftParen)
      (.operation .mul (.number (.finite true .zero) .decimal) (.number (.infinite false) .times))) :=
    exists_value_iff.mp ⟨_, rfl⟩
  exact ⟨_, _, full, full', rfl, rfl, texts_readable full full'⟩

end Tree

end LineCalc
