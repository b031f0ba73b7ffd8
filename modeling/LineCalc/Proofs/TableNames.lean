import LineCalc.Proofs.Pieces
import LineCalc.Proofs.Stores
import LineCalc.Session.FileRun

/-!
The name of the table. It is the file name with another extension, so the table lies beside the
file, and it has the name of the file itself if that has the same extension.
-/
namespace LineCalc

open Store (Divides)

/- Where a path name is divided. -/

/- Splitting in front of what holds no such character, from the end. -/
theorem span_reverse {x : Char} {front back : List Char} (absent : x ∉ back)
    (ends : ∀ c, front.getLast? = some c → c = x) :
    (front ++ back).reverse.takeWhile (· != x) = back.reverse ∧
      (front ++ back).reverse.dropWhile (· != x) = front.reverse := by
  have all : ∀ c ∈ back.reverse, (c != x) = true := by
    intro c member
    have ne : c ≠ x := fun same => absent (by simpa [same] using member)
    simpa using ne
  have boundary : ∀ c, front.reverse.head? = some c → (c != x) = false := by
    intro c head
    obtain rfl := ends c (by simpa using head)
    simp
  rw [List.reverse_append]
  exact Literal.span_of_boundary all boundary

/- What stands in front of the last such character, and behind it. -/
theorem parts_of_dropWhile {x point : Char} {base front : List Char}
    (found : base.reverse.dropWhile (· != x) = point :: front) :
    ∃ back, base = front.reverse ++ x :: back ∧ x ∉ back := by
  have stopped : (point != x) = false := by
    have head := List.head?_dropWhile_not (· != x) base.reverse
    rw [found] at head
    exact head
  obtain rfl : point = x := by simpa using stopped
  have parts := List.takeWhile_append_dropWhile (p := (· != point)) (l := base.reverse)
  rw [found] at parts
  refine ⟨(base.reverse.takeWhile (· != point)).reverse, ?_, ?_⟩
  · simpa using congrArg List.reverse parts.symm
  · intro member
    have other := List.mem_takeWhile_imp (List.mem_reverse.mp member)
    simp at other

theorem Store.Divides.reversed {path parent base : List Char} (divides : Divides path parent base) :
    path.reverse.takeWhile (· != '/') = base.reverse ∧
      path.reverse.drop base.reverse.length = parent.reverse := by
  obtain ⟨rfl, ends, inside⟩ := divides
  have slash : ∀ c, parent.getLast? = some c → c = '/' := by
    intro c last
    rcases ends with rfl | ⟨dir, rfl⟩
    · cases last
    · simpa using last.symm
  exact ⟨(span_reverse inside slash).1, by rw [List.reverse_append, List.drop_left]⟩

theorem Store.exists_divides (path : List Char) : ∃ parent base, Divides path parent base := by
  induction path with
  | nil => exact ⟨[], [], rfl, .inl rfl, by simp⟩
  | cons c path ih =>
    obtain ⟨parent, base, rfl, ends, inside⟩ := ih
    rcases ends with rfl | ⟨dir, rfl⟩
    · by_cases slash : c = '/'
      · exact ⟨['/'], base, by simp [slash], .inr ⟨[], rfl⟩, inside⟩
      · exact ⟨[], c :: base, rfl, .inl rfl, by simp [inside, Ne.symm slash]⟩
    · exact ⟨c :: dir ++ ['/'], base, rfl, .inr ⟨c :: dir, rfl⟩, inside⟩

namespace Homes

theorem head?_drop_takeWhile {rest : List Char} {c : Char}
    (head : (rest.drop (rest.takeWhile (· != '/')).length).head? = some c) : c = '/' := by
  have parts := List.takeWhile_append_dropWhile (p := (· != '/')) (l := rest)
  have left : rest.drop (rest.takeWhile (· != '/')).length = rest.dropWhile (· != '/') := by
    have dropped := congrArg (List.drop (rest.takeWhile (· != '/')).length) parts
    rw [List.drop_left] at dropped
    exact dropped.symm
  have stopped := List.head?_dropWhile_not (· != '/') rest
  rw [← left, head] at stopped
  simpa using stopped

/- Writing out a home directory keeps the last name, unless the name is nothing but a tilde with an
   account. -/
theorem getLast?_names_expand (homes : Homes) (name : String) :
    (Store.names (homes.expand name).toList).getLast? = (Store.names name.toList).getLast? ∨
      ∃ account, (homes.lookup account).isSome ∧ name = "~" ++ account := by
  unfold expand
  split
  · rename_i rest tilde
    dsimp only
    have parts := (List.prefix_append_drop (List.takeWhile_prefix (l := rest) (· != '/'))).symm
    have head : ∀ c, (rest.drop (rest.takeWhile (· != '/')).length).head? = some c → c = '/' :=
      fun c => head?_drop_takeWhile
    generalize rest.takeWhile (· != '/') = account at parts head ⊢
    generalize rest.drop account.length = below at parts head ⊢
    split
    · rename_i home known
      cases below with
      | nil =>
        refine .inr ⟨String.ofList account, by simp [known], ?_⟩
        rw [← String.toList_inj, tilde, ← parts]
        simp
      | cons c below =>
        obtain rfl := head c rfl
        refine .inl ?_
        split
        · rename_i none
          simp at none
        · rw [String.toList_ofList, tilde, ← parts, ← List.cons_append,
            Store.getLast?_names_append, Store.getLast?_names_append]
    · exact .inl rfl
  · exact .inl rfl

end Homes

namespace FileRun

/- An extension: it begins at the last point of the last name, with more than points in front of
   it there. -/
structure HasExtension (path parent stem ext : List Char) : Prop where
  divides : Divides path parent (stem ++ '.' :: ext)
  last : '.' ∉ ext
  named : ∃ c ∈ stem, c ≠ '.'

variable {filename : String} {parent base stem ext : List Char}

theorem tableName_of_extension (has : HasExtension filename.toList parent stem ext) :
    (tableName filename).toList = parent ++ stem ++ ".csv".toList := by
  obtain ⟨divides, last, c, member, other⟩ := has
  obtain ⟨taken, left⟩ := divides.reversed
  have behind : (stem ++ '.' :: ext).reverse.dropWhile (· != '.') = '.' :: stem.reverse := by
    have point : ∀ c, (stem ++ ['.']).getLast? = some c → c = '.' := by simp
    simpa using (span_reverse last point).2
  have some : stem.reverse.any (· != '.') = true := by
    rw [List.any_eq_true]
    exact ⟨c, by simpa using member, by simpa using other⟩
  unfold tableName
  simp only [taken, behind, left, some, if_true]
  simp

theorem tableName_of_none
    (none : ∀ parent stem ext, ¬ HasExtension filename.toList parent stem ext) :
    tableName filename = filename ++ ".csv" := by
  obtain ⟨parent, base, divides⟩ := Store.exists_divides filename.toList
  unfold tableName
  simp only [divides.reversed.1]
  split
  · rename_i point stem behind
    obtain ⟨ext, rfl, last⟩ := parts_of_dropWhile behind
    split_ifs with some
    · obtain ⟨c, member, other⟩ := List.any_eq_true.mp some
      have named : ∃ c ∈ stem.reverse, c ≠ '.' := ⟨c, by simpa using member, by simpa using other⟩
      exact absurd ⟨divides, last, named⟩ (none parent stem.reverse ext)
    · rfl
  · rfl

example : tableName "runs.d/first.txt" = "runs.d/first.csv" := by decide +kernel

example : tableName "runs.d/..hidden" = "runs.d/..hidden.csv" := by decide +kernel

theorem tableName_cases (filename : String) :
    (∃ parent stem ext, HasExtension filename.toList parent stem ext ∧
      (tableName filename).toList = parent ++ stem ++ ".csv".toList) ∨
    tableName filename = filename ++ ".csv" := by
  by_cases has : ∃ parent stem ext, HasExtension filename.toList parent stem ext
  · obtain ⟨parent, stem, ext, has⟩ := has
    exact .inl ⟨parent, stem, ext, has, tableName_of_extension has⟩
  · exact .inr (tableName_of_none fun parent stem ext found => has ⟨parent, stem, ext, found⟩)

/- Either way the table lies beside the file. -/
theorem tableName_divides (filename : String) :
    ∃ parent base tableBase, Divides filename.toList parent base ∧
      Divides (tableName filename).toList parent tableBase := by
  rcases tableName_cases filename with ⟨parent, stem, ext, has, named⟩ | named
  · refine ⟨parent, _, stem ++ ".csv".toList, has.divides, ?_⟩
    have outside : '/' ∉ stem := fun member => has.divides.inside (by simp [member])
    exact ⟨by simp [named], has.divides.ends, by simp [outside]⟩
  · obtain ⟨parent, base, divides⟩ := Store.exists_divides filename.toList
    refine ⟨parent, base, base ++ ".csv".toList, divides, ?_⟩
    exact ⟨by simp [named, divides.whole], divides.ends, by simp [divides.inside]⟩

/- A tilde in front of the name of the table is in front of that of the file. -/
theorem head?_of_tableName (tilde : (tableName filename).toList.head? = some '~') :
    filename.toList.head? = some '~' := by
  rcases tableName_cases filename with ⟨parent, stem, ext, has, named⟩ | named
  · obtain ⟨c, member, _⟩ := has.named
    have some : parent ++ stem ≠ [] := by
      intro none
      simp [(List.append_eq_nil_iff.mp none).2] at member
    rw [named, List.head?_append_of_ne_nil _ some] at tilde
    rw [has.divides.whole, ← List.append_assoc, List.head?_append_of_ne_nil _ some, tilde]
  · rw [named, String.toList_append, List.head?_append, Option.or_eq_some_iff] at tilde
    rcases tilde with front | ⟨_, point⟩
    · exact front
    · cases point

/- The table has the name of the file itself exactly if that has its extension. -/
theorem tableName_eq_self_iff : tableName filename = filename ↔
    ∃ parent stem, HasExtension filename.toList parent stem "csv".toList := by
  constructor
  · intro same
    rcases tableName_cases filename with ⟨parent, stem, ext, has, named⟩ | named
    · rw [same, has.divides.whole] at named
      have csv : ext = "csv".toList := by simpa using named
      exact ⟨parent, stem, csv ▸ has⟩
    · have length := congrArg (fun name => name.toList.length) (same.symm.trans named)
      simp at length
  · rintro ⟨parent, stem, has⟩
    rw [← String.toList_inj, tableName_of_extension has, has.divides.whole]
    simp

/- Where the table goes. -/

/- No account has a file for its home directory. -/
def HomesApart (store : Store) : Prop :=
  ∀ account, (store.homes.lookup account).isSome → ∀ path,
    store.find (store.homes.expand ("~" ++ account)) ≠ .ok (.file path)

/- The table takes the place of the file exactly if it has its name, and that leads to the file also
   with the home directory written out. -/
theorem find_target_eq_iff {store : Store} {content : List UInt8}
    (apart : filename.toList.head? = some '~' → HomesApart store)
    (read : store.readFile filename = .ok content) :
    store.find (target store.homes filename) = store.find filename ↔
      (∃ parent stem, HasExtension filename.toList parent stem "csv".toList) ∧
        store.find (store.homes.expand filename) = store.find filename := by
  rw [← tableName_eq_self_iff]
  obtain ⟨path, found, _⟩ := Store.readFile_eq_ok_iff.mp read
  constructor
  · intro same
    have self : tableName filename = filename := by
      obtain ⟨parent, base, tableBase, divides, tableDivides⟩ := tableName_divides filename
      rw [found] at same
      obtain ⟨name, last, there⟩ := Store.path_of_leads (.inl found)
      obtain ⟨tableLast, last', there'⟩ := Store.path_of_leads (.inl same)
      rcases store.homes.getLast?_names_expand (tableName filename) with kept | ⟨account, known, all⟩
      · rw [target, kept, Store.getLast?_names tableDivides] at last'
        rw [Store.getLast?_names divides] at last
        have names : name = tableLast := by
          have ends := congrArg List.getLast? (there.symm.trans there')
          simpa using ends
        have bases : base = tableBase :=
          String.ofList_injective (Option.some.inj (last.trans (names ▸ last'.symm)))
        rw [← String.toList_inj, divides.whole, tableDivides.whole, bases]
      · have tilde : (tableName filename).toList.head? = some '~' := by simp [all]
        rw [target, all] at same
        exact absurd same (apart (head?_of_tableName tilde) account known path)
    refine ⟨self, ?_⟩
    rwa [target, self] at same
  · intro ⟨self, same⟩
    rw [target, self, same]

/- The table is beside the file: they are in one directory. -/
theorem dropLast_of_leads {store : Store} {path other : Path} (leads : store.Leads filename path)
    (leads' : store.Leads (tableName filename) other) : other.dropLast = path.dropLast := by
  obtain ⟨parent, base, tableBase, divides, tableDivides⟩ := tableName_divides filename
  obtain ⟨name, _, rfl⟩ := Store.path_of_leads leads
  obtain ⟨tableLast, _, rfl⟩ := Store.path_of_leads leads'
  rw [List.dropLast_concat, List.dropLast_concat, Store.parent_eq_of_divides divides tableDivides]

end FileRun

end LineCalc
