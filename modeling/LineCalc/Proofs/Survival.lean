import LineCalc.Proofs.LineFeeds
import LineCalc.Proofs.Sessions
import LineCalc.Proofs.TableNames
import LineCalc.Proofs.Tables
import LineCalc.Session.Program

/-!
What a run leaves of the file that it reads. Nothing is written but the table, and only if there
is one; so the file is lost exactly if the table takes its place (`input_survives_iff`).
-/
namespace LineCalc

namespace FileRun

/- A file of which a table can be made. -/
structure Tabular (content : List UInt8) : Prop where
  safe : ∀ text ∈ linesOf content, Safe (Text.stripLineEnds text).toList
  few : (linesOf content).length < 0x8000000000000000

/- The table of a file. -/
def Tabulates (mode : Mode) (filename : String) (content : List UInt8) (table : String) : Prop :=
  ∃ os rows, (Outcome.runAll mode filename (linesOf content)).outcome = .ok os ∧
    Outcome.table os = .ok rows ∧ table = Row.csvTable rows

variable {mode : Mode} {filename table : String} {content : List UInt8} {store : Store}

theorem exists_tabulates_iff :
    (∃ table, Tabulates mode filename content table) ↔ Tabular content := by
  constructor
  · rintro ⟨table, os, rows, outcomes, made, _⟩
    refine ⟨(runAll_eq_ok_iff mode filename (linesOf content)).mp ⟨os, outcomes⟩, ?_⟩
    rcases (Outcome.exists_table_iff (Outcome.runsFrom_of_outcome outcomes)).mp ⟨rows, made⟩ with
      none | few
    · simp [none]
    · omega
  · rintro ⟨safe, few⟩
    obtain ⟨os, outcomes⟩ := (runAll_eq_ok_iff mode filename (linesOf content)).mpr safe
    obtain ⟨rows, made⟩ :=
      (Outcome.exists_table_iff (Outcome.runsFrom_of_outcome outcomes)).mpr (.inr (by omega))
    exact ⟨Row.csvTable rows, os, rows, outcomes, made, rfl⟩

/- A table is never the file that it is of. -/
theorem encode_ne_of_tabulates (tabulates : Tabulates mode filename content table) :
    Text.Utf8.encode table ≠ content := by
  obtain ⟨os, rows, outcomes, made, rfl⟩ := tabulates
  have runs := Outcome.length_of_runsFrom (Outcome.runsFrom_of_outcome outcomes)
  have length := length_of_mapM made
  refine encode_csvTable_ne ?_
  rw [length, runs, linesOf, List.length_map]

/- Only debug mode makes the table. -/
theorem evaluate_eq_some_iff : (evaluate mode filename content).outcome = .ok (some table) ↔
    mode.debug = true ∧ Tabulates mode filename content table := by
  unfold evaluate
  constructor
  · intro made
    obtain ⟨os, outcomes, made⟩ := Transcript.outcome_bind_eq_ok_iff.mp made
    obtain ⟨shown, _, made⟩ := Transcript.outcome_bind_eq_ok_iff.mp made
    obtain ⟨_, _, made⟩ := Transcript.outcome_bind_eq_ok_iff.mp made
    split_ifs at made with debug
    · obtain ⟨rows, tabulated, made⟩ := Transcript.outcome_bind_eq_ok_iff.mp made
      cases made
      exact ⟨debug, os, rows, outcomes, tabulated, rfl⟩
    · cases made
  · rintro ⟨debug, os, rows, outcomes, tabulated, rfl⟩
    obtain ⟨shown, block⟩ := Outcome.blocks_of_settlesFrom (settlesFrom_of_outcome outcomes)
    have printed : (Transcript.print shown).outcome = .ok () := rfl
    rw [Transcript.outcome_bind_ok _ outcomes, Transcript.outcome_bind_ok _ block,
      Transcript.outcome_bind_ok _ printed, if_pos debug, Transcript.outcome_bind_ok _ tabulated]
    rfl

theorem plan_eq_saving {reading : Except OpenFault (List UInt8)} {printed : String}
    (planned : plan mode filename reading = .saving printed table) :
    ∃ content, reading = .ok content ∧
      (evaluate mode filename content).outcome = .ok (some table) := by
  cases reading with
  | error fault => cases planned
  | ok content =>
    unfold plan at planned
    dsimp only at planned
    split at planned
    · cases planned
    · cases planned
    · rename_i made
      cases planned
      exact ⟨content, rfl, made⟩

theorem run_of_write {after : Store} (read : store.readFile filename = .ok content)
    (made : (evaluate mode filename content).outcome = .ok (some table))
    (wrote : store.writeFile (target store.homes filename) (Text.Utf8.encode table) = .ok after) :
    run mode filename store =
      (saved store.homes filename (evaluate mode filename content).printed none, after) := by
  unfold run plan
  simp only [read, made, wrote]

theorem run_store_of_write {after : Store} (read : store.readFile filename = .ok content)
    (made : (evaluate mode filename content).outcome = .ok (some table))
    (wrote : store.writeFile (target store.homes filename) (Text.Utf8.encode table) = .ok after) :
    (run mode filename store).2 = after := by
  rw [run_of_write read made wrote]

/- Nothing is written but the table. -/
theorem run_store_cases (mode : Mode) (filename : String) (store : Store) :
    (run mode filename store).2 = store ∨
      ∃ content table, store.readFile filename = .ok content ∧
        (evaluate mode filename content).outcome = .ok (some table) ∧
        store.writeFile (target store.homes filename) (Text.Utf8.encode table) =
          .ok (run mode filename store).2 := by
  cases planned : plan mode filename (store.readFile filename) with
  | finished ending =>
    refine .inl ?_
    rw [run, planned]
  | saving printed table =>
    obtain ⟨content, read, made⟩ := plan_eq_saving planned
    cases wrote : store.writeFile (target store.homes filename) (Text.Utf8.encode table) with
    | error fault =>
      refine .inl ?_
      simp only [run, planned, wrote]
    | ok after =>
      refine .inr ⟨content, table, read, made, ?_⟩
      rw [run_store_of_write read made wrote, wrote]

/- A file whose table takes its place. -/
structure Overwrites (mode : Mode) (filename : String) (store : Store) (content : List UInt8) :
    Prop where
  debug : mode.debug = true
  tabular : Tabular content
  same : store.find (target store.homes filename) = store.find filename

theorem readFile_run_of_overwrites (read : store.readFile filename = .ok content)
    (overwrites : Overwrites mode filename store content) :
    ∃ table, Tabulates mode filename content table ∧
      (run mode filename store).2.readFile filename = .ok (Text.Utf8.encode table) := by
  obtain ⟨debug, tabular, same⟩ := overwrites
  obtain ⟨table, tabulates⟩ := exists_tabulates_iff.mpr tabular
  have made := evaluate_eq_some_iff.mpr ⟨debug, tabulates⟩
  obtain ⟨path, found, _⟩ := Store.readFile_eq_ok_iff.mp read
  have wrote : store.writeFile (target store.homes filename) (Text.Utf8.encode table) =
      .ok (store.put path (Text.Utf8.encode table)) :=
    Store.writeFile_eq_ok_iff.mpr ⟨path, .inl (same.trans found), rfl⟩
  refine ⟨table, tabulates, ?_⟩
  rw [run_store_of_write read made wrote, Store.readFile_writeFile read wrote, if_pos same]

theorem readFile_run_of_not_overwrites (read : store.readFile filename = .ok content)
    (apart : ¬ Overwrites mode filename store content) :
    (run mode filename store).2.readFile filename = .ok content := by
  rcases run_store_cases mode filename store with unchanged | ⟨content', table, read', made, wrote⟩
  · rw [unchanged, read]
  · obtain rfl := Except.ok.inj (read.symm.trans read')
    obtain ⟨debug, tabulates⟩ := evaluate_eq_some_iff.mp made
    have elsewhere : store.find (target store.homes filename) ≠ store.find filename := by
      intro same
      exact apart ⟨debug, exists_tabulates_iff.mp ⟨table, tabulates⟩, same⟩
    rw [Store.readFile_writeFile read wrote, if_neg elsewhere]

end FileRun

namespace Program

open FileRun (HasExtension Overwrites Tabulates)
open Store (oneFile)

/-- A file that is run keeps its content exactly unless its table takes its place, and then the
    table is all that is left of it. That happens exactly to names with the extension of tables. If
    the name begins with a tilde, it must also lead to the file with the home directory written out,
    provided that no home directory is itself a file. -/
theorem input_survives_iff {arguments : List String} {mode : Mode} {filename : String}
    {store : Store} {content : List UInt8} (input : List UInt8)
    (named : Invocation.ofTexts arguments = .run mode (some filename))
    (read : store.readFile filename = .ok content) :
    ((run arguments input store).store.readFile filename = .ok content ↔
      ¬ Overwrites mode filename store content) ∧
    (Overwrites mode filename store content → ∃ table, Tabulates mode filename content table ∧
      (run arguments input store).store.readFile filename = .ok (Text.Utf8.encode table)) ∧
    (filename.toList.head? ≠ some '~' →
      (store.find (FileRun.target store.homes filename) = store.find filename ↔
        ∃ parent stem, HasExtension filename.toList parent stem "csv".toList)) ∧
    (FileRun.HomesApart store →
      (store.find (FileRun.target store.homes filename) = store.find filename ↔
        (∃ parent stem, HasExtension filename.toList parent stem "csv".toList) ∧
          store.find (store.homes.expand filename) = store.find filename)) := by
  have after : (run arguments input store).store = (FileRun.run mode filename store).2 := by
    unfold run
    rw [named]
  rw [after]
  refine ⟨?_, FileRun.readFile_run_of_overwrites read, ?_, ?_⟩
  · constructor
    · intro kept overwrites
      obtain ⟨table, tabulates, lost⟩ := FileRun.readFile_run_of_overwrites read overwrites
      exact FileRun.encode_ne_of_tabulates tabulates (Except.ok.inj (lost.symm.trans kept))
    · exact FileRun.readFile_run_of_not_overwrites read
  · intro other
    rw [FileRun.find_target_eq_iff (fun tilde => absurd tilde other) read,
      store.homes.expand_of_head_ne other]
    exact and_iff_left rfl
  · intro apart
    exact FileRun.find_target_eq_iff (fun _ => apart) read

/- A file with another extension, given from the root. -/
theorem input_survives_beside_table :
    Invocation.ofTexts ["--debug", "/home/sums.txt"] =
        .run { debug := true } (some "/home/sums.txt") ∧
      (oneFile ["home", "sums.txt"] [0x31, 0x2b, 0x31]).readFile "/home/sums.txt" =
        .ok [0x31, 0x2b, 0x31] ∧
      (run ["--debug", "/home/sums.txt"] []
        (oneFile ["home", "sums.txt"] [0x31, 0x2b, 0x31])).store.readFile "/home/sums.txt" =
        .ok [0x31, 0x2b, 0x31] := by
  have named : Invocation.ofTexts ["--debug", "/home/sums.txt"] =
      .run { debug := true } (some "/home/sums.txt") := by decide +kernel
  have read : (oneFile ["home", "sums.txt"] [0x31, 0x2b, 0x31]).readFile "/home/sums.txt" =
      .ok [0x31, 0x2b, 0x31] := by decide +kernel
  obtain ⟨survives, _, collides, _⟩ := input_survives_iff [] named read
  refine ⟨named, read, survives.mpr ?_⟩
  intro overwrites
  have extension := (collides (by decide)).mp overwrites.same
  exact absurd (FileRun.tableName_eq_self_iff.mpr extension) (by decide +kernel)

/- A file with the extension of tables is lost. -/
theorem input_lost :
    (oneFile ["tmp", "work", "data.csv"] [0x31, 0x2b, 0x31, 10]).readFile "data.csv" =
        .ok [0x31, 0x2b, 0x31, 10] ∧
      (run ["data.csv", "--debug"] []
        (oneFile ["tmp", "work", "data.csv"] [0x31, 0x2b, 0x31, 10])).store.readFile "data.csv" ≠
        .ok [0x31, 0x2b, 0x31, 10] := by
  constructor
  · decide +kernel
  · decide +kernel

end Program

end LineCalc
