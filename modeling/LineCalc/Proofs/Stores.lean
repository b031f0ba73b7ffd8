import LineCalc.Session.Store
import Mathlib.Data.List.Basic
import Mathlib.Tactic.SplitIfs

/-!
What a path name finds and what a write changes. A name has one destination, whatever the store
holds, and finds what is there if there are directories on the way (`find_eq_ok_iff`). So each name
can be that of a file unless its own path is on the way (`exists_readFile_iff`), and a file keeps its
content unless what is written has the same destination (`readFile_writeFile`).
-/
namespace LineCalc

namespace Place

/- What a place becomes if a file is written. -/
def written (path : Path) : Place → Place
  | .vacant other => if other = path then .file other else .vacant other
  | place => place

end Place

namespace Store

/- Files. -/

theorem lookup_filter_of_ne {path other : Path} (ne : other ≠ path)
    (files : List (Path × List UInt8)) :
    (files.filter fun file => file.1 != path).lookup other = files.lookup other := by
  induction files with
  | nil => rfl
  | cons file files ih =>
    obtain ⟨name, content⟩ := file
    by_cases same : name = path
    · subst same
      have apart : (other == name) = false := by simpa using ne
      simp [List.lookup_cons, ih, apart]
    · simp [same, List.lookup_cons, ih]

theorem read?_put (store : Store) (path other : Path) (content : List UInt8) :
    (store.put path content).read? other =
      if other = path then some content else store.read? other := by
  by_cases same : other = path
  · simp [read?, put, same]
  · have apart : (other == path) = false := by simpa using same
    rw [if_neg same]
    simp only [read?, put, List.lookup_cons, apart, lookup_filter_of_ne same]

/- Places. -/

variable {store : Store} {place : Place} {name : String} {working path other : Path}

theorem hasDirectory_iff :
    store.hasDirectory path ↔ ∃ dir ∈ store.working :: store.directories, path <+: dir := by
  simp only [hasDirectory, List.any_eq_true, List.isPrefixOf_iff_prefix]

theorem hasDirectory_of_below (below : path <+: other) (known : store.hasDirectory other) :
    store.hasDirectory path := by
  rw [hasDirectory_iff] at known ⊢
  obtain ⟨dir, member, further⟩ := known
  exact ⟨dir, member, below.trans further⟩

theorem place_eq_directory (known : store.hasDirectory path) :
    store.place path = .directory path :=
  if_pos known

theorem place_eq_file_iff : store.place path = .file other ↔
    path = other ∧ ¬ store.hasDirectory path ∧ (store.read? path).isSome := by
  unfold place
  split_ifs with known held
  · simp [known]
  · simp [known, held]
  · simp [held]

theorem place_eq_vacant_iff : store.place path = .vacant other ↔
    path = other ∧ ¬ store.hasDirectory path ∧ store.read? path = none := by
  unfold place
  split_ifs with known held
  · simp [known]
  · obtain ⟨content, held⟩ := Option.isSome_iff_exists.mp held
    simp [held]
  · have none : store.read? path = none := by simpa using held
    simp [known, none]

theorem place_put (store : Store) (path other : Path) (content : List UInt8) :
    (store.put path content).place other = (store.place other).written path := by
  have directories : (store.put path content).hasDirectory other = store.hasDirectory other := rfl
  unfold place
  rw [directories, read?_put]
  by_cases same : other = path
  · simp only [same, Option.isSome_some, ↓reduceIte]
    split_ifs with known held
    · rfl
    · rfl
    · simp [Place.written]
  · rw [if_neg same]
    split_ifs with known held
    · rfl
    · rfl
    · simp [Place.written, same]

/- Walks. -/

/- The directories from which names are followed. -/
def passed (path : Path) : List String → List Path
  | [] => []
  | name :: names => path :: passed (follow path name) names

theorem passed_concat (path : Path) (names : List String) (name : String) :
    passed path (names ++ [name]) = passed path names ++ [names.foldl follow path] := by
  induction names generalizing path with
  | nil => rfl
  | cons first names ih => simp [passed, ih]

theorem walk_eq_ok_iff {names : List String} : store.walk path names = .ok place ↔
    (∀ name ∈ names, name.utf8ByteSize ≤ longestName) ∧
      (∀ dir ∈ passed path names, store.hasDirectory dir) ∧
      place = store.place (names.foldl follow path) := by
  induction names generalizing path with
  | nil =>
    constructor
    · intro walked
      exact ⟨by simp, by simp [passed], (Except.ok.inj walked).symm⟩
    · rintro ⟨_, _, rfl⟩
      rfl
  | cons name names ih =>
    rw [walk]
    by_cases known : store.hasDirectory path
    · rw [place_eq_directory known]
      dsimp only
      by_cases long : longestName < name.utf8ByteSize
      · rw [if_pos long]
        refine iff_of_false (by simp) ?_
        intro ⟨short, _⟩
        have := short name List.mem_cons_self
        omega
      · rw [if_neg long, ih]
        simp [passed, known, Nat.not_lt.mp long]
    · refine iff_of_false ?_ fun ⟨_, all, _⟩ => known (all path List.mem_cons_self)
      unfold Store.place
      rw [if_neg known]
      split_ifs with held
      · simp
      · simp

/- Names in a path name. -/

theorem names_ne_nil (path : List Char) : names path ≠ [] := by
  fun_cases names path with
  | case1 => simp
  | case2 rest => simp
  | case3 c rest slash none => simp
  | case4 c rest slash first more known => simp

theorem names_of_base {base : List Char} (inside : '/' ∉ base) :
    names base = [String.ofList base] := by
  induction base with
  | nil => rfl
  | cons c base ih =>
    have ne : c ≠ '/' := fun same => inside (by simp [same])
    rw [names, ih fun member => inside (by simp [member])]
    · simp
    · exact ne

theorem names_append_slash (front rest : List Char) :
    names (front ++ '/' :: rest) = names front ++ names rest := by
  induction front with
  | nil => rfl
  | cons c front ih =>
    by_cases slash : c = '/'
    · subst slash
      simp only [List.cons_append, names, ih]
    · rw [List.cons_append, names, ih, names]
      · cases known : names front with
        | nil => exact absurd known (names_ne_nil front)
        | cons name more => rfl
      · exact slash
      · exact slash

theorem getLast?_names_append (front rest : List Char) :
    (names (front ++ '/' :: rest)).getLast? = (names rest).getLast? := by
  rw [names_append_slash, List.getLast?_append_of_ne_nil _ (names_ne_nil rest)]

/- A path name divided behind its last slash. -/
structure Divides (path parent base : List Char) : Prop where
  whole : path = parent ++ base
  ends : parent = [] ∨ ∃ dir, parent = dir ++ ['/']
  inside : '/' ∉ base

theorem getLast?_names {path parent base : List Char} (divides : Divides path parent base) :
    (names path).getLast? = some (String.ofList base) := by
  obtain ⟨rfl, rfl | ⟨dir, rfl⟩, inside⟩ := divides
  · simp [names_of_base inside]
  · rw [List.append_assoc, List.singleton_append, getLast?_names_append, names_of_base inside]
    rfl

/- Where a name leads. -/

/- What every store demands of a path name. -/
structure Legible (name : String) : Prop where
  embedded : '\x00' ∉ name.toList
  some : name ≠ ""
  short : name.utf8ByteSize ≤ longestPath
  parts : ∀ part ∈ names name.toList, part.utf8ByteSize ≤ longestName

/- The directories on the way of a path name. -/
def way (working : Path) (name : String) : List Path :=
  passed (start working name) (names name.toList)

def destination (working : Path) (name : String) : Path :=
  (names name.toList).foldl follow (start working name)

/- The last directory on the way. -/
def parent (working : Path) (name : String) : Path :=
  (names name.toList).dropLast.foldl follow (start working name)

/-- A path name finds what is at its destination, if the way there leads through directories. -/
theorem find_eq_ok_iff : store.find name = .ok place ↔ Legible name ∧
    (∀ dir ∈ way store.working name, store.hasDirectory dir) ∧
      place = store.place (destination store.working name) := by
  unfold find
  split_ifs with embedded none long
  · refine iff_of_false (by simp) ?_
    intro ⟨legible, _⟩
    exact legible.embedded (by simpa using embedded)
  · refine iff_of_false (by simp) ?_
    intro ⟨legible, _⟩
    exact legible.some none
  · refine iff_of_false (by simp) ?_
    intro ⟨legible, _⟩
    have := legible.short
    omega
  · rw [walk_eq_ok_iff]
    constructor
    · intro ⟨parts, all, there⟩
      exact ⟨⟨by simpa using embedded, none, by omega, parts⟩, all, there⟩
    · intro ⟨legible, all, there⟩
      exact ⟨legible.parts, all, there⟩

theorem find_put (path : Path) (content : List UInt8) (found : store.find name = .ok place) :
    (store.put path content).find name = .ok (place.written path) := by
  obtain ⟨legible, all, rfl⟩ := find_eq_ok_iff.mp found
  exact find_eq_ok_iff.mpr ⟨legible, all, (place_put _ _ _ _).symm⟩

/- A name for a file leads to a path: the file is there, or nothing is yet. -/
def Leads (store : Store) (name : String) (path : Path) : Prop :=
  store.find name = .ok (.file path) ∨ store.find name = .ok (.vacant path)

theorem leads_iff : store.Leads name path ↔ Legible name ∧
    (∀ dir ∈ way store.working name, store.hasDirectory dir) ∧
      path = destination store.working name ∧ ¬ store.hasDirectory path := by
  constructor
  · intro leads
    rcases leads with found | found
    · obtain ⟨legible, all, there⟩ := find_eq_ok_iff.mp found
      obtain ⟨rfl, other, _⟩ := place_eq_file_iff.mp there.symm
      exact ⟨legible, all, rfl, other⟩
    · obtain ⟨legible, all, there⟩ := find_eq_ok_iff.mp found
      obtain ⟨rfl, other, _⟩ := place_eq_vacant_iff.mp there.symm
      exact ⟨legible, all, rfl, other⟩
  · rintro ⟨legible, all, rfl, other⟩
    unfold Leads
    rw [find_eq_ok_iff, find_eq_ok_iff]
    by_cases held : (store.read? (destination store.working name)).isSome
    · exact .inl ⟨legible, all, (place_eq_file_iff.mpr ⟨rfl, other, held⟩).symm⟩
    · exact .inr ⟨legible, all, (place_eq_vacant_iff.mpr ⟨rfl, other, by simpa using held⟩).symm⟩

/- The path is that of the last name in the last directory, since another last step would lead to a
   directory. -/
theorem path_of_leads (leads : store.Leads name path) :
    ∃ last, (names name.toList).getLast? = some last ∧
      path = parent store.working name ++ [last] := by
  obtain ⟨_, all, rfl, other⟩ := leads_iff.mp leads
  obtain ⟨before, last, whole⟩ : ∃ before last, names name.toList = before ++ [last] := by
    simpa using (List.eq_nil_or_concat (names name.toList)).resolve_left (names_ne_nil _)
  have above : parent store.working name = before.foldl follow (start store.working name) := by
    rw [parent, whole, List.dropLast_concat]
  have reached : destination store.working name = follow (parent store.working name) last := by
    rw [destination, whole, List.foldl_append, above]
    rfl
  have known : store.hasDirectory (parent store.working name) := by
    refine all _ ?_
    rw [way, whole, passed_concat, above]
    exact List.mem_append_right _ (List.mem_singleton_self _)
  refine ⟨last, by simp [whole], ?_⟩
  rw [reached] at other ⊢
  unfold follow at other ⊢
  split_ifs at other ⊢ with stays up
  · exact absurd known other
  · exact absurd (hasDirectory_of_below (List.dropLast_prefix _) known) other
  · rfl

/- Names with one text in front of the last slash lead to files in one directory. -/
theorem parent_eq_of_divides {other : String} {front base base' : List Char}
    (divides : Divides name.toList front base) (divides' : Divides other.toList front base') :
    parent working name = parent working other := by
  obtain ⟨whole, rfl | ⟨dir, rfl⟩, inside⟩ := divides
  · have relative (name : String) (base : List Char) (inside : '/' ∉ base)
        (whole : name.toList = [] ++ base) : parent working name = working := by
      have head : name.toList.head? ≠ some '/' := by
        intro slash
        rw [whole] at slash
        exact inside (List.mem_of_mem_head? slash)
      rw [parent, start, if_neg head, whole, List.nil_append, names_of_base inside]
      rfl
    rw [relative name base inside whole, relative other base' divides'.inside divides'.whole]
  · have below (name : String) (base : List Char) (inside : '/' ∉ base)
        (whole : name.toList = dir ++ ['/'] ++ base) : parent working name =
          (names dir).foldl follow (if (dir ++ ['/']).head? = some '/' then [] else working) := by
      have some : dir ++ ['/'] ≠ [] := by simp
      rw [parent, start, whole, List.head?_append_of_ne_nil _ some, List.append_assoc,
        List.singleton_append, names_append_slash, names_of_base inside, List.dropLast_concat]
    rw [below name base inside whole, below other base' divides'.inside divides'.whole]

/- Reading and writing. -/

theorem readFile_eq_ok_iff {content : List UInt8} : store.readFile name = .ok content ↔
    ∃ path, store.find name = .ok (.file path) ∧ store.read? path = some content := by
  constructor
  · intro read
    unfold readFile at read
    split at read
    · cases read
    · rename_i path found
      split at read
      · rename_i held
        obtain rfl := Except.ok.inj read
        exact ⟨path, found, held⟩
      · cases read
    · cases read
    · cases read
  · rintro ⟨path, found, held⟩
    simp only [readFile, found, held]

/- A name that can be that of a file: it does not lead through its own path, nor to a directory that
   is there in any case. -/
structure Openable (working : Path) (name : String) : Prop where
  legible : Legible name
  apart : ∀ dir ∈ working :: way working name, ¬ destination working name <+: dir

/-- Exactly the names that can be those of files are, in some store. -/
theorem exists_readFile_iff {content : List UInt8} :
    (∃ store : Store, store.working = working ∧ store.readFile name = .ok content) ↔
      Openable working name := by
  constructor
  · rintro ⟨store, rfl, read⟩
    obtain ⟨path, found, _⟩ := readFile_eq_ok_iff.mp read
    obtain ⟨legible, all, rfl, other⟩ := leads_iff.mp (.inl found)
    refine ⟨legible, ?_⟩
    intro dir member below
    refine other (hasDirectory_of_below below ?_)
    rcases List.mem_cons.mp member with rfl | passed
    · exact hasDirectory_iff.mpr ⟨_, List.mem_cons_self, List.prefix_rfl⟩
    · exact all dir passed
  · intro ⟨legible, apart⟩
    refine ⟨{ working, directories := way working name,
              files := [(destination working name, content)] }, rfl, readFile_eq_ok_iff.mpr ?_⟩
    refine ⟨destination working name, find_eq_ok_iff.mpr ⟨legible, ?_, ?_⟩, by simp [read?]⟩
    · intro dir member
      exact hasDirectory_iff.mpr ⟨dir, List.mem_cons_of_mem _ member, List.prefix_rfl⟩
    · refine (place_eq_file_iff.mpr ⟨rfl, ?_, by simp [read?]⟩).symm
      intro known
      obtain ⟨dir, member, below⟩ := hasDirectory_iff.mp known
      exact apart dir member below

theorem readFile_put {content : List UInt8} (found : store.find name = .ok (.file path))
    (held : store.read? path = some content) (other : Path) (written : List UInt8) :
    (store.put other written).readFile name =
      .ok (if other = path then written else content) := by
  refine readFile_eq_ok_iff.mpr ⟨path, find_put other written found, ?_⟩
  rw [read?_put, held]
  by_cases same : other = path
  · simp [same]
  · have apart : path ≠ other := fun eq => same eq.symm
    simp [same, apart]

theorem writeFile_eq_ok_iff {target : String} {written : List UInt8} {after : Store} :
    store.writeFile target written = .ok after ↔
      ∃ path, store.Leads target path ∧ after = store.put path written := by
  constructor
  · intro wrote
    unfold writeFile at wrote
    split at wrote
    · cases wrote
    · rename_i path found
      exact ⟨path, .inl found, (Except.ok.inj wrote).symm⟩
    · rename_i path found
      exact ⟨path, .inr found, (Except.ok.inj wrote).symm⟩
    · cases wrote
  · rintro ⟨path, found | found, rfl⟩
    · simp only [writeFile, found]
    · simp only [writeFile, found]

/- Something can be written under the name. -/
def Writable (store : Store) (target : String) : Prop := ∃ path, store.Leads target path

theorem Writable.writeFile {target : String} (writable : store.Writable target)
    (written : List UInt8) : ∃ after, store.writeFile target written = .ok after := by
  obtain ⟨path, leads⟩ := writable
  exact ⟨_, writeFile_eq_ok_iff.mpr ⟨path, leads, rfl⟩⟩

/-- What a file holds after a write: what was written if it went to the place of the file, and
    else what it held. -/
theorem readFile_writeFile {target : String} {content written : List UInt8} {after : Store}
    (read : store.readFile name = .ok content)
    (wrote : store.writeFile target written = .ok after) :
    after.readFile name =
      .ok (if store.find target = store.find name then written else content) := by
  obtain ⟨path, found, held⟩ := readFile_eq_ok_iff.mp read
  obtain ⟨other, reached | reached, rfl⟩ := writeFile_eq_ok_iff.mp wrote
  · rw [readFile_put found held, reached, found]
    simp
  · have free : store.read? other = none := by
      obtain ⟨_, _, there⟩ := find_eq_ok_iff.mp reached
      obtain ⟨rfl, _, free⟩ := place_eq_vacant_iff.mp there.symm
      exact free
    have apart : other ≠ path := by
      rintro rfl
      cases free.symm.trans held
    rw [readFile_put found held, reached, found, if_neg apart, if_neg (by simp)]

/- A system with one file. -/
def oneFile (path : Path) (content : List UInt8) : Store :=
  { fresh with files := [(path, content)] }

end Store

end LineCalc
