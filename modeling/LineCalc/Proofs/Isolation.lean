import LineCalc.Proofs.LineCuts
import LineCalc.Proofs.Quiet
import LineCalc.Proofs.Stores

/-!
Lines of a file have no part in what comes of each other. A file cut behind a line feed is run and
shown as its two parts are, one behind the other, but for the numbers of the lines; and whatever
bytes are put between them as one line, they have one outcome and one block there and change
nothing else (`FileRun.lines_isolated`).
-/
namespace LineCalc

namespace Outcome

variable {mode : Mode} {source : String} {first : Nat} {texts others : List String}
  {os us : List Outcome} {shown shown' : String}

/- The outcome of the same line behind so many more lines. -/
def moved (n : Nat) (o : Outcome) : Outcome := { o with line := o.line.map (· + (n : Int)) }

theorem runsFrom_append (runs : RunsFrom mode source first texts os)
    (behind : RunsFrom mode source (first + texts.length) others us) :
    RunsFrom mode source first (texts ++ others) (os ++ us) := by
  induction runs with
  | nil first => exact behind
  | @cons first text texts o os head tail ih =>
    have next : first + (text :: texts).length = first + 1 + texts.length := by
      rw [List.length_cons]
      omega
    exact .cons head (ih (next ▸ behind))

theorem runsFrom_moved (n : Nat) (runs : RunsFrom mode source first texts os) :
    RunsFrom mode source (first + n) texts (os.map (moved n)) := by
  induction runs with
  | nil first => exact .nil (first + n)
  | @cons first text texts o os head tail ih =>
    have number : o.line = some (first : Int) := (settles_of_outcome head).ofLine
    have again := run_renumbered head (some ((first + n : Nat) : Int))
    have same : moved n o = { o with line := some ((first + n : Nat) : Int) } := by
      simp [moved, number]
    have next : first + 1 + n = first + n + 1 := by omega
    rw [List.map_cons, same]
    exact .cons again (next ▸ ih)

theorem outcome_of_runsFrom (runs : RunsFrom mode source first texts os) :
    (runFrom mode source first texts).outcome = .ok os := by
  induction runs with
  | nil first => rfl
  | cons head tail ih =>
    unfold runFrom
    rw [Transcript.outcome_bind_ok _ head, Transcript.outcome_bind_ok _ ih]
    rfl

/- The outcomes of more lines behind those that were run. -/
theorem runAll_append (outcomes : (runAll mode source texts).outcome = .ok os)
    (behind : (runAll mode source others).outcome = .ok us) :
    (runAll mode source (texts ++ others)).outcome = .ok (os ++ us.map (moved texts.length)) := by
  have moved := runsFrom_moved texts.length (runsFrom_of_outcome behind)
  exact outcome_of_runsFrom (runsFrom_append (runsFrom_of_outcome outcomes) moved)

theorem blocks_append (blocks : FileRun.blocks os = .ok shown)
    (behind : FileRun.blocks us = .ok shown') :
    FileRun.blocks (os ++ us) = .ok (shown ++ shown') := by
  obtain ⟨parts, all, rfl⟩ := blocks_eq_ok_iff.mp blocks
  obtain ⟨parts', all', rfl⟩ := blocks_eq_ok_iff.mp behind
  exact blocks_eq_ok_iff.mpr ⟨parts ++ parts', List.rel_append all all', String.join_append.symm⟩

/- Numbers are not shown. -/
theorem blocks_moved (n : Nat) (os : List Outcome) :
    FileRun.blocks (os.map (moved n)) = FileRun.blocks os := by
  induction os with
  | nil => rfl
  | cons o os ih =>
    have same : (moved n o).block = o.block := rfl
    rw [List.map_cons, FileRun.blocks, FileRun.blocks, same, ih]

end Outcome

namespace FileRun

variable {mode : Mode} {filename : String} {first second : List UInt8} {os us : List Outcome}
  {shown shown' : String}

theorem shows_append (quiet : mode.debug = false)
    (ended : first = [] ∨ first.getLast? = some lineFeed)
    (before : Shows mode filename first os shown) (behind : Shows mode filename second us shown') :
    Shows mode filename (first ++ second) (os ++ us.map (Outcome.moved (linesOf first).length))
      (shown ++ shown') := by
  refine shows_of_outcome quiet ?_ ?_
  · rw [linesOf_append ended]
    exact Outcome.runAll_append before.outcomes behind.outcomes
  · refine Outcome.blocks_append before.blocks ?_
    rw [Outcome.blocks_moved]
    exact behind.blocks

/- A line by itself. -/
theorem exists_shows_line (quiet : mode.debug = false) (filename : String) {bytes : List UInt8}
    (plain : ∀ byte ∈ bytes, byte ≠ lineFeed ∧ byte ≠ carriageReturn)
    (runnable : Outcome.Runnable (String.ofList (Text.Utf8.decode bytes))) :
    ∃ o block, o.source = String.ofList (Text.Utf8.decode bytes) ∧ o.block = .ok block ∧
      Shows mode filename (bytes ++ [lineFeed]) [o] block := by
  have line := linesOf_line plain
  have single : ∀ text ∈ linesOf (bytes ++ [lineFeed]), Outcome.Runnable text := by
    rw [line]
    simpa using runnable
  obtain ⟨os, shown, alone⟩ := exists_shows quiet filename single
  have same := stripLineEnds_of_mem_linesOf (line ▸ List.mem_singleton_self _)
  have runs := Outcome.runsFrom_of_outcome alone.outcomes
  rw [line] at runs
  cases runs with
  | @cons first text texts o os head tail =>
    cases tail
    obtain ⟨parts, all, rfl⟩ := Outcome.blocks_eq_ok_iff.mp alone.blocks
    cases all with
    | @cons _ block _ _ shows none =>
      cases none
      rw [String.join_cons, String.join_nil, String.append_empty] at alone
      exact ⟨o, block, (Outcome.settles_of_outcome head).ofText.trans same, shows, alone⟩

/-- The two parts of a file are run and shown as they are by themselves, one behind the other, and
    so is any line between them: of the rest, only the numbers depend on it. There are files of each
    content under every name that a file can have. -/
structure Isolated (mode : Mode) (filename : String) (first second : List UInt8)
    (os us : List Outcome) (shown shown' : String) : Prop where
  before : Shows mode filename first os shown
  behind : Shows mode filename second us shown'
  both : Shows mode filename (first ++ second)
    (os ++ us.map (Outcome.moved (linesOf first).length)) (shown ++ shown')
  between : ∀ bytes : List UInt8, (∀ byte ∈ bytes, byte ≠ lineFeed ∧ byte ≠ carriageReturn) →
    Outcome.Runnable (String.ofList (Text.Utf8.decode bytes)) →
    ∃ o block, o.source = String.ofList (Text.Utf8.decode bytes) ∧ o.block = .ok block ∧
      Shows mode filename (first ++ (bytes ++ [lineFeed]) ++ second)
        (os ++ [o] ++ us.map (Outcome.moved ((linesOf first).length + 1)))
        (shown ++ block ++ shown')
  files : ∀ working, Store.Openable working filename → ∀ content,
    ∃ store : Store, store.working = working ∧ store.readFile filename = .ok content

/-- Lines are isolated, whatever bytes are in them. -/
theorem lines_isolated (quiet : mode.debug = false) (filename : String)
    (ended : first = [] ∨ first.getLast? = some lineFeed)
    (runnable : ∀ text ∈ linesOf first ++ linesOf second, Outcome.Runnable text) :
    ∃ os us shown shown', Isolated mode filename first second os us shown shown' := by
  obtain ⟨runnable, runnable'⟩ := List.forall_mem_append.mp runnable
  obtain ⟨os, shown, before⟩ := exists_shows quiet filename runnable
  obtain ⟨us, shown', behind⟩ := exists_shows quiet filename runnable'
  refine ⟨os, us, shown, shown', before, behind, shows_append quiet ended before behind, ?_,
    fun _ openable _ => Store.exists_readFile_iff.mpr openable⟩
  intro bytes plain runnable
  have line := linesOf_line plain
  obtain ⟨o, block, source, shows, alone⟩ := exists_shows_line quiet filename plain runnable
  have front := shows_append quiet ended before alone
  have length : (linesOf (first ++ (bytes ++ [lineFeed]))).length = (linesOf first).length + 1 := by
    rw [linesOf_append ended, line, List.length_append, List.length_singleton]
  have whole := shows_append quiet (.inr (by simp)) front behind
  rw [length] at whole
  exact ⟨Outcome.moved (linesOf first).length o, block, source, shows, whole⟩

/- A truncated character in front of the cut, and a stray byte and carriage returns behind it. The
   file is given from the root. -/
theorem lines_isolated_of_truncated :
    ∃ os us shown shown', Isolated { strict := true } "/home/a.txt" [0x31, 0x2b, 0xe2, 0x82, 0x0a]
        [0xff, 0x0d, 0x0d, 0x0a, 0x31, 0x2f, 0x33] os us shown shown' ∧
      (Program.run ["--strict", "/home/a.txt"] [] (Store.oneFile ["home", "a.txt"]
        [0x31, 0x2b, 0xe2, 0x82, 0x0a, 0xff, 0x0d, 0x0d, 0x0a, 0x31, 0x2f, 0x33])).stdout =
        shown ++ shown' := by
  have runnable : ∀ text ∈ linesOf [0x31, 0x2b, 0xe2, 0x82, 0x0a] ++
      linesOf [0xff, 0x0d, 0x0d, 0x0a, 0x31, 0x2f, 0x33], Outcome.Runnable text :=
    Outcome.runnable_of_isOk {} "/home/a.txt" none (by decide +kernel)
  have quiet : ({ strict := true } : Mode).debug = false := rfl
  obtain ⟨os, us, shown, shown', isolated⟩ :=
    lines_isolated quiet "/home/a.txt" (.inr rfl) runnable
  refine ⟨os, us, shown, shown', isolated, ?_⟩
  exact congrArg Program.Run.stdout
    (isolated.both.run _ [] _ (by decide +kernel) (by decide +kernel))

end FileRun

end LineCalc
