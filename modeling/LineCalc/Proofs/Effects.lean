import LineCalc.Proofs.Debugging

/-!
What a run changes and how it ends. A run of a file ends in one of five ways (`FileRun.run_ends`),
and in each of them nothing is changed but the table, which only a run that succeeds leaves
(`Program.only_the_table_changes`). The table is beside the file unless a tilde in front of its name
stands for a home directory: reading takes the tilde as it is (`Program.table_in_home`).
-/
namespace LineCalc

open Outcome (Runnable)

namespace Store

variable {store : Store} {path other : Path} {written : List UInt8}

/- Files elsewhere stay as they are. -/
theorem eq_of_read?_put (changed : (store.put path written).read? other ≠ store.read? other) :
    other = path := by
  by_contra apart
  rw [read?_put, if_neg apart] at changed
  exact changed rfl

end Store

namespace FileRun

variable {mode : Mode} {filename : String} {store : Store} {content : List UInt8}

/- The name of the table of a file: the extension is replaced, or there is none and one is added.
   Both names lead to one directory. -/
structure NamesTable (filename table : String) : Prop where
  replaced : ∀ parent stem ext, HasExtension filename.toList parent stem ext →
    table.toList = parent ++ stem ++ ".csv".toList
  added : (∀ parent stem ext, ¬ HasExtension filename.toList parent stem ext) →
    table = filename ++ ".csv"
  beside : ∃ parent base tableBase, Store.Divides filename.toList parent base ∧
    Store.Divides table.toList parent tableBase
  together : ∀ (store : Store) path other, store.Leads filename path → store.Leads table other →
    other.dropLast = path.dropLast

theorem namesTable_tableName (filename : String) : NamesTable filename (tableName filename) where
  replaced _ _ _ has := tableName_of_extension has
  added none := tableName_of_none none
  beside := tableName_divides filename
  together _ _ _ leads leads' := dropLast_of_leads leads leads'

/- The table is beside the file unless its name begins with a tilde. -/
theorem target_eq_tableName (homes : Homes) (other : filename.toList.head? ≠ some '~') :
    target homes filename = tableName filename :=
  homes.expand_of_head_ne fun tilde => other (head?_of_tableName tilde)

theorem evaluate_ne_none (debug : mode.debug = true) :
    (evaluate mode filename content).outcome ≠ .ok none := by
  intro made
  unfold evaluate at made
  obtain ⟨os, outcomes, made⟩ := Transcript.outcome_bind_eq_ok_iff.mp made
  obtain ⟨shown, _, made⟩ := Transcript.outcome_bind_eq_ok_iff.mp made
  obtain ⟨_, _, made⟩ := Transcript.outcome_bind_eq_ok_iff.mp made
  rw [if_pos debug] at made
  obtain ⟨rows, _, made⟩ := Transcript.outcome_bind_eq_ok_iff.mp made
  cases made

/- A file that was opened, and all lines of which have run. -/
structure Ran (filename : String) (store : Store) (content : List UInt8) : Prop where
  opened : store.readFile filename = .ok content
  runnable : ∀ text ∈ linesOf content, Runnable text

/- What is printed of the stages of a file, in front of the outcomes. -/
def staged (mode : Mode) (filename : String) (content : List UInt8) : String :=
  (Outcome.runAll mode filename (linesOf content)).printed

/-- The ways in which a run ends. The file cannot be opened, or a line stops the run, or all is
    shown; then it is done, or the table is saved as well, or cannot be. -/
inductive Ends (mode : Mode) (filename : String) (store : Store) : Ending → Store → Prop where
  | unopened {fault : OpenFault} (refused : store.readFile filename = .error fault) :
      Ends mode filename store (failed "" (fault.message filename)) store
  | stopped {content : List UInt8} {n : Nat} (opened : store.readFile filename = .ok content)
      (fatal : ¬ ∀ text ∈ linesOf content, Runnable text) :
      Ends mode filename store (failed (staged mode filename content) (Fault.digitLimit n).message)
        store
  | shown {content : List UInt8} {shown : String} (ran : Ran filename store content)
      (quiet : mode.debug = false) : Ends mode filename store ⟨0, shown⟩ store
  | unsaved {content : List UInt8} {ending : Ending} (ran : Ran filename store content)
      (debug : mode.debug = true) (nowhere : ¬ Savable filename content store)
      (failure : ending.status = 1) : Ends mode filename store ending store
  | saved {content : List UInt8} {table printed : String} {path : Path}
      (ran : Ran filename store content) (debug : mode.debug = true)
      (savable : Savable filename content store)
      (leads : store.Leads (target store.homes filename) path) :
      Ends mode filename store (saved store.homes filename printed none)
        (store.put path (Text.Utf8.encode table))

theorem saved_status (homes : Homes) (filename printed : String) (fault : OpenFault) :
    (saved homes filename printed (some fault)).status = 1 := by
  cases fault <;> rfl

/- Debug mode saves the table or fails. -/
theorem ends_of_debug (ran : Ran filename store content) (debug : mode.debug = true) :
    Ends mode filename store (run mode filename store).1 (run mode filename store).2 := by
  have opened := ran.opened
  cases made : (evaluate mode filename content).outcome with
  | error fault =>
    have ended : run mode filename store =
        (failed (evaluate mode filename content).printed fault.message, store) := by
      simp only [run, plan, opened, made]
    rw [ended]
    refine .unsaved ran debug ?_ rfl
    intro savable
    obtain ⟨table, tabulates⟩ :=
      exists_tabulates_iff.mpr ⟨forall_runnable_iff.mp ran.runnable, savable.few⟩
    cases made.symm.trans (evaluate_eq_some_iff.mpr ⟨debug, tabulates⟩)
  | ok result =>
    cases result with
    | none => exact absurd made (evaluate_ne_none debug)
    | some table =>
      have tabular := exists_tabulates_iff.mp ⟨table, (evaluate_eq_some_iff.mp made).2⟩
      cases wrote : store.writeFile (target store.homes filename) (Text.Utf8.encode table) with
      | error fault =>
        have ended : run mode filename store = (FileRun.saved store.homes filename
            (evaluate mode filename content).printed (some fault), store) := by
          simp only [run, plan, opened, made, wrote]
        rw [ended]
        refine .unsaved ran debug ?_ (saved_status _ _ _ fault)
        intro savable
        obtain ⟨after, written⟩ := savable.writable.writeFile (Text.Utf8.encode table)
        cases wrote.symm.trans written
      | ok after =>
        rw [run_of_write opened made wrote]
        obtain ⟨path, leads, rfl⟩ := Store.writeFile_eq_ok_iff.mp wrote
        exact .saved ran debug ⟨tabular.few, path, leads⟩ leads

theorem run_ends (mode : Mode) (filename : String) (store : Store) :
    Ends mode filename store (run mode filename store).1 (run mode filename store).2 := by
  cases opened : store.readFile filename with
  | error fault =>
    have ended : run mode filename store = (failed "" (fault.message filename), store) := by
      simp only [run, plan, opened]
    rw [ended]
    exact .unopened opened
  | ok content =>
    by_cases runnable : ∀ text ∈ linesOf content, Runnable text
    · cases debug : mode.debug with
      | false =>
        obtain ⟨os, shown, outcomes, blocks, _⟩ :=
          evaluate_of_safe mode filename (forall_runnable_iff.mp runnable)
        have ended : run mode filename store = (⟨0, shown⟩, store) := by
          simp only [run, plan, opened, evaluate_of_quiet debug outcomes blocks]
        rw [ended]
        exact .shown ⟨opened, runnable⟩ debug
      | true => exact ends_of_debug ⟨opened, runnable⟩ debug
    · obtain ⟨n, ended⟩ := run_of_fatal mode filename opened
        fun safe => runnable (forall_runnable_iff.mpr safe)
      rw [ended]
      exact .stopped opened runnable

/- Everything that a run of a file can do has succeeded. -/
def Succeeds (mode : Mode) (filename : String) (store : Store) : Prop :=
  ∃ content, Ran filename store content ∧ (mode.debug = true → Savable filename content store)

/- What a run of a file can change: only the table, and that only if all lines have run in debug
   mode. -/
structure Changes (mode : Mode) (filename : String) (store after : Store) : Prop where
  rest : after = { store with files := after.files }
  table : ∀ path, after.read? path ≠ store.read? path →
    mode.debug = true ∧ (∃ content, Ran filename store content) ∧
      store.Leads (target store.homes filename) path
  beside : filename.toList.head? ≠ some '~' → target store.homes filename = tableName filename

variable {ending : Ending} {after : Store}

theorem changes_self (mode : Mode) (filename : String) (store : Store) :
    Changes mode filename store store where
  rest := rfl
  table _ changed := absurd rfl changed
  beside := target_eq_tableName store.homes

theorem changes_of_ends (ends : Ends mode filename store ending after) :
    Changes mode filename store after := by
  cases ends with
  | unopened refused => exact changes_self mode filename store
  | stopped opened fatal => exact changes_self mode filename store
  | shown ran quiet => exact changes_self mode filename store
  | unsaved ran debug nowhere failure => exact changes_self mode filename store
  | saved ran debug savable leads =>
    refine ⟨rfl, ?_, target_eq_tableName store.homes⟩
    intro path changed
    obtain rfl := Store.eq_of_read?_put changed
    exact ⟨debug, ⟨_, ran⟩, leads⟩

theorem ends_of_error {fault : OpenFault} (refused : store.readFile filename = .error fault)
    (ends : Ends mode filename store ending after) :
    ending = failed "" (fault.message filename) ∧ after = store := by
  cases ends with
  | unopened refused' =>
    obtain rfl := Except.error.inj (refused.symm.trans refused')
    exact ⟨rfl, rfl⟩
  | stopped opened fatal => cases refused.symm.trans opened
  | shown ran quiet => cases refused.symm.trans ran.opened
  | unsaved ran debug nowhere failure => cases refused.symm.trans ran.opened
  | saved ran debug savable leads => cases refused.symm.trans ran.opened

theorem ends_of_fatal (opened : store.readFile filename = .ok content)
    (fatal : ¬ ∀ text ∈ linesOf content, Runnable text)
    (ends : Ends mode filename store ending after) :
    ∃ n, ending = failed (staged mode filename content) (Fault.digitLimit n).message ∧
      after = store := by
  cases ends with
  | unopened refused => cases opened.symm.trans refused
  | @stopped _ n opened' _ =>
    obtain rfl := Except.ok.inj (opened.symm.trans opened')
    exact ⟨n, rfl, rfl⟩
  | shown ran quiet =>
    obtain rfl := Except.ok.inj (opened.symm.trans ran.opened)
    exact absurd ran.runnable fatal
  | unsaved ran debug nowhere failure =>
    obtain rfl := Except.ok.inj (opened.symm.trans ran.opened)
    exact absurd ran.runnable fatal
  | saved ran debug savable leads =>
    obtain rfl := Except.ok.inj (opened.symm.trans ran.opened)
    exact absurd ran.runnable fatal

theorem ran_unique {others : List UInt8} (ran : Ran filename store content)
    (ran' : Ran filename store others) : content = others :=
  Except.ok.inj (ran.opened.symm.trans ran'.opened)

/- The status tells whether everything has succeeded, and nothing is changed if not. -/
theorem status_of_ends (ends : Ends mode filename store ending after) :
    ending.status = 0 ∧ Succeeds mode filename store ∨
      ending.status = 1 ∧ ¬ Succeeds mode filename store ∧ after = store := by
  cases ends with
  | unopened refused =>
    refine .inr ⟨rfl, ?_, rfl⟩
    rintro ⟨content, ran, _⟩
    cases refused.symm.trans ran.opened
  | stopped opened fatal =>
    refine .inr ⟨rfl, ?_, rfl⟩
    rintro ⟨content, ran, _⟩
    obtain rfl := Except.ok.inj (opened.symm.trans ran.opened)
    exact fatal ran.runnable
  | shown ran quiet =>
    refine .inl ⟨rfl, _, ran, ?_⟩
    intro debug
    cases quiet.symm.trans debug
  | unsaved ran debug nowhere failure =>
    refine .inr ⟨failure, ?_, rfl⟩
    rintro ⟨others, ran', savable⟩
    obtain rfl := ran_unique ran ran'
    exact nowhere (savable debug)
  | saved ran debug savable leads => exact .inl ⟨rfl, _, ran, fun _ => savable⟩

end FileRun

namespace Program

open FileRun (Ran Succeeds Changes NamesTable)

/-- A run of a file, by what it changes and how it ends. If the file cannot be opened or a line
    stops the run, one error is all that is printed behind the stages, which only debug mode has. -/
structure FileEffects (mode : Mode) (filename : String) (store : Store) (r : Run) : Prop where
  changes : Changes mode filename store r.store
  unopened : ∀ fault, store.readFile filename = .error fault →
    r = ⟨.ok 1, "Error: " ++ fault.message filename ++ "\n", "", store⟩
  stopped : ∀ content, store.readFile filename = .ok content →
    (¬ ∀ text ∈ FileRun.linesOf content, Runnable text) →
    ∃ n, r = ⟨.ok 1, FileRun.staged mode filename content ++ "Error: " ++
      (Fault.digitLimit n).message ++ "\n", "", store⟩
  staged : mode.debug = false → ∀ content, FileRun.staged mode filename content = ""
  status : r.status = .ok 0 ∧ Succeeds mode filename store ∨
    r.status = .ok 1 ∧ ¬ Succeeds mode filename store ∧ r.store = store

theorem run_of_named {arguments : List String} {mode : Mode} {filename : String}
    (input : List UInt8) (store : Store) (cut : List Char → List (List Char))
    (named : Invocation.ofTexts arguments = .run mode (some filename)) :
    run arguments input store cut = ⟨.ok (FileRun.run mode filename store).1.status,
      (FileRun.run mode filename store).1.printed, "", (FileRun.run mode filename store).2⟩ := by
  unfold run
  rw [named]

theorem fileEffects_of_named {arguments : List String} {mode : Mode} {filename : String}
    (input : List UInt8) (store : Store) (cut : List Char → List (List Char))
    (named : Invocation.ofTexts arguments = .run mode (some filename)) :
    FileEffects mode filename store (run arguments input store cut) := by
  have ends := FileRun.run_ends mode filename store
  rw [run_of_named input store cut named]
  refine ⟨FileRun.changes_of_ends ends, ?_, ?_, ?_, ?_⟩
  · intro fault refused
    obtain ⟨ending, after⟩ := FileRun.ends_of_error refused ends
    rw [ending, after]
    rfl
  · intro content opened fatal
    obtain ⟨n, ending, after⟩ := FileRun.ends_of_fatal opened fatal ends
    rw [ending, after]
    exact ⟨n, rfl⟩
  · intro quiet content
    exact Outcome.printed_runFrom quiet filename 1 _
  · rcases FileRun.status_of_ends ends with ⟨status, succeeds⟩ | ⟨status, fails, same⟩
    · exact .inl ⟨congrArg Except.ok status, succeeds⟩
    · exact .inr ⟨congrArg Except.ok status, fails, same⟩

/-- A run changes nothing but the table of the file that it is given, and without a file nothing,
    however its input is cut into lines. The table has the name of the file with another extension,
    which leads to the directory of the file. It goes to that place if the name does not begin with a
    tilde. -/
theorem only_the_table_changes (arguments : List String) (input : List UInt8) (store : Store)
    (cut : List Char → List (List Char)) :
    (∀ mode filename, Invocation.ofTexts arguments = .run mode (some filename) →
      NamesTable filename (FileRun.tableName filename) ∧
        FileEffects mode filename store (run arguments input store cut)) ∧
    ((∀ mode filename, Invocation.ofTexts arguments ≠ .run mode (some filename)) →
      (run arguments input store cut).store = store) := by
  constructor
  · intro mode filename named
    exact ⟨FileRun.namesTable_tableName filename, fileEffects_of_named input store cut named⟩
  · intro nameless
    unfold run
    cases invocation : Invocation.ofTexts arguments with
    | help => rfl
    | refused complaint => rfl
    | run mode filename =>
      cases filename with
      | none => rfl
      | some filename => exact absurd invocation (nameless mode filename)

/- A hidden file without an extension, with an error of each kind. -/
def hiddenFile : Store := Store.oneFile ["usr", "games", ".sums"] [0x24, 0x0a, 0x31, 0x2b]

/- It is given from the root, through a directory above another. -/
theorem only_the_table_changes_of_hidden :
    (run ["--debug", "/usr/sbin/../games/.sums"] [] hiddenFile).status = .ok 0 ∧
      ∀ path, (run ["--debug", "/usr/sbin/../games/.sums"] [] hiddenFile).store.read? path ≠
        hiddenFile.read? path → path = ["usr", "games", ".sums.csv"] := by
  have named : Invocation.ofTexts ["--debug", "/usr/sbin/../games/.sums"] =
      .run { debug := true } (some "/usr/sbin/../games/.sums") := by decide +kernel
  have effects := ((only_the_table_changes ["--debug", "/usr/sbin/../games/.sums"] [] hiddenFile
    Text.lines).1 _ _ named).2
  have place : hiddenFile.find (FileRun.target hiddenFile.homes "/usr/sbin/../games/.sums") =
      .ok (.vacant ["usr", "games", ".sums.csv"]) := by decide +kernel
  have ran : Ran "/usr/sbin/../games/.sums" hiddenFile [0x24, 0x0a, 0x31, 0x2b] :=
    ⟨by decide +kernel, Outcome.runnable_of_isOk {} "" none (by decide +kernel)⟩
  have savable : FileRun.Savable "/usr/sbin/../games/.sums" [0x24, 0x0a, 0x31, 0x2b] hiddenFile :=
    ⟨by decide +kernel, _, .inr place⟩
  constructor
  · rcases effects.status with ⟨status, _⟩ | ⟨_, fails, _⟩
    · exact status
    · exact absurd ⟨_, ran, fun _ => savable⟩ fails
  · intro path changed
    rcases (effects.changes.table path changed).2.2 with found | found
    · cases found.symm.trans place
    · cases found.symm.trans place
      rfl

/- A file in a directory that is called like the home directory. -/
def tildeFile (names : List String) : Store :=
  { Store.fresh with
    directories := ["tmp", "work", "~", "no_such_q"] :: Store.fresh.directories
    files := [(["tmp", "work", "~"] ++ names, [0x31, 0x2f, 0x33, 0x0a, 0x24, 0x0a])] }

/-- The table is not beside a file whose name begins with a tilde, even if all lines have run and
    there is a place for it. It is in the home directory, or the file is said to be missing. -/
theorem table_in_home :
    Ran "~/x.txt" (tildeFile ["x.txt"]) [0x31, 0x2f, 0x33, 0x0a, 0x24, 0x0a] ∧
      (tildeFile ["x.txt"]).find (FileRun.tableName "~/x.txt") =
        .ok (.vacant ["tmp", "work", "~", "x.csv"]) ∧
      (run ["--debug", "~/x.txt"] [] (tildeFile ["x.txt"])).status = .ok 0 ∧
      (tildeFile ["x.txt"]).read? ["root", "x.csv"] = none ∧
      ((run ["--debug", "~/x.txt"] [] (tildeFile ["x.txt"])).store.read?
        ["root", "x.csv"]).isSome ∧
      (run ["--debug", "~/x.txt"] [] (tildeFile ["x.txt"])).store.readFile "~/x.csv" =
        .error .missing ∧
    Ran "~/no_such_q/x.txt" (tildeFile ["no_such_q", "x.txt"])
        [0x31, 0x2f, 0x33, 0x0a, 0x24, 0x0a] ∧
      (tildeFile ["no_such_q", "x.txt"]).find (FileRun.tableName "~/no_such_q/x.txt") =
        .ok (.vacant ["tmp", "work", "~", "no_such_q", "x.csv"]) ∧
      (run ["--debug", "~/no_such_q/x.txt"] [] (tildeFile ["no_such_q", "x.txt"])).status =
        .ok 1 := by
  have runnable : ∀ text ∈ FileRun.linesOf [0x31, 0x2f, 0x33, 0x0a, 0x24, 0x0a], Runnable text :=
    Outcome.runnable_of_isOk {} "" none (by decide +kernel)
  refine ⟨⟨by decide +kernel, runnable⟩, by decide +kernel, by decide +kernel, by decide +kernel,
    by decide +kernel, by decide +kernel, ⟨by decide +kernel, runnable⟩, by decide +kernel, ?_⟩
  decide +kernel

end Program

end LineCalc
