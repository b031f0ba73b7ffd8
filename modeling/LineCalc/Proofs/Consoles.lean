import LineCalc.Proofs.Quiet

/-!
Sessions and files. A session on some bytes answers the lines that a file of these bytes has, each
behind a prompt, with the blocks that are shown of the file; the last prompt has no answer. Only the
name of the source is another one, in messages of the lexer (`Console.session_agrees`).
-/
namespace LineCalc

namespace Outcome

variable {mode : Mode} {source : String} {first : Nat} {texts : List String} {os : List Outcome}

theorem renamed_of_runsFrom (runs : RunsFrom mode source first texts os) (other : String) :
    ∃ us, RunsFrom mode other first texts us ∧ List.Forall₂ (Renamed source other) os us := by
  induction runs with
  | nil first => exact ⟨[], .nil first, .nil⟩
  | cons head tail ih =>
    obtain ⟨u, again, renamed⟩ := renamed_of_outcome head other
    obtain ⟨us, others, all⟩ := ih
    exact ⟨u :: us, .cons again others, .cons renamed all⟩

theorem parts_of_runsFrom (runs : RunsFrom mode source first texts os) :
    ∃ parts, List.Forall₂ (fun o part => o.block = .ok part) os parts := by
  induction runs with
  | nil first => exact ⟨[], .nil⟩
  | cons head tail ih =>
    obtain ⟨part, shown⟩ := (settles_of_outcome head).shown
    obtain ⟨parts, all⟩ := ih
    exact ⟨part :: parts, .cons shown all⟩

end Outcome

namespace Console

variable {mode : Mode} {first : Nat} {texts : List (List Char)} {us : List Outcome}
  {parts : List String}

/- What is printed of the answers. -/
def printout (parts : List String) : String :=
  String.join (parts.map (prompt ++ ·) ++ [prompt ++ "\n"])

theorem printout_cons (part : String) (parts : List String) :
    printout (part :: parts) = prompt ++ (part ++ printout parts) := by
  simp [printout, String.append_assoc]

theorem answer_of_outcome (quiet : mode.debug = false) {line : Nat} {text : List Char} {u : Outcome}
    {part : String}
    (returned : (Outcome.run mode source (some line) (String.ofList text)).outcome = .ok u)
    (shown : u.block = .ok part) : answer mode line text = ⟨part, .ok ()⟩ := by
  have ran : Outcome.run mode source (some line) (String.ofList text) = ⟨"", .ok u⟩ :=
    Transcript.ext_iff_parts.mpr ⟨Outcome.printed_run quiet source _ _, returned⟩
  unfold answer
  rw [Transcript.bind_ok _ ran, shown]
  simp [Transcript.ofExcept, Transcript.print, bind, Transcript.bind]

/- Lines without line ends are answered by the blocks of their outcomes. -/
theorem session_of_runsFrom (quiet : mode.debug = false)
    (plain : ∀ text ∈ texts, Text.stripLineEnds (String.ofList text) = String.ofList text)
    (runs : Outcome.RunsFrom mode source first (texts.map String.ofList) us)
    (shown : List.Forall₂ (fun u part => u.block = .ok part) us parts) :
    session mode first texts = ⟨printout parts, .ok ()⟩ := by
  induction texts generalizing first us parts with
  | nil =>
    cases runs
    cases shown
    rfl
  | cons text texts ih =>
    obtain ⟨plain, others⟩ := List.forall_mem_cons.mp plain
    cases runs with
    | cons head tail =>
      cases shown with
      | @cons u part us parts block behind =>
        rw [plain] at head
        have prompted : Transcript.print prompt = ⟨prompt, .ok ()⟩ := rfl
        rw [session, Transcript.bind_ok _ prompted,
          Transcript.bind_ok _ (answer_of_outcome quiet head block), ih others tail behind,
          printout_cons]

/-- A session on the bytes of a file. Its outcomes are those of the lines of the file, each under
    the name of the session, and it prints the block of each behind a prompt, and one more prompt at
    the end. It changes nothing, whatever the command line is. -/
structure Agrees (mode : Mode) (filename : String) (input : List UInt8) (os us : List Outcome)
    (parts : List String) : Prop where
  runs : Outcome.RunsFrom mode source 1 (FileRun.linesOf input) us
  renamed : List.Forall₂ (Outcome.Renamed filename source) os us
  shown : List.Forall₂ (fun u part => u.block = .ok part) us parts
  length : parts.length = (FileRun.linesOf input).length
  run : ∀ arguments store, Invocation.ofTexts arguments = .run mode none →
    Program.run arguments input store = ⟨.ok 0, printout parts, "", store⟩

/-- A session agrees with a file of the same bytes. -/
theorem session_agrees (quiet : mode.debug = false) (filename : String) {input : List UInt8}
    (runnable : ∀ text ∈ FileRun.linesOf input, Outcome.Runnable text) :
    ∃ os shown us parts, FileRun.Shows mode filename input os shown ∧
      Agrees mode filename input os us parts := by
  obtain ⟨os, shown, shows⟩ := FileRun.exists_shows quiet filename runnable
  obtain ⟨us, runs, renamed⟩ :=
    Outcome.renamed_of_runsFrom (Outcome.runsFrom_of_outcome shows.outcomes) source
  obtain ⟨parts, all⟩ := Outcome.parts_of_runsFrom runs
  have length : parts.length = (FileRun.linesOf input).length := by
    rw [← all.length_eq, Outcome.length_of_runsFrom runs]
  refine ⟨os, shown, us, parts, shows, runs, renamed, all, length, ?_⟩
  intro arguments store command
  have plain : ∀ text ∈ Text.lines (Text.Utf8.decode input),
      Text.stripLineEnds (String.ofList text) = String.ofList text := fun text member =>
    FileRun.stripLineEnds_of_mem_linesOf (List.mem_map_of_mem member)
  unfold Program.run
  rw [command]
  dsimp only
  rw [run, session_of_runsFrom quiet plain runs all]
  rfl

/- Line ends of all kinds, an empty line, a stray byte, and a line without an end. -/
theorem session_agrees_of_ends : ∃ os shown us parts,
    FileRun.Shows {} "a.txt" [0x31, 0x0d, 0x0d, 0x0a, 0xff, 0x2b, 0x0a, 0x32] os shown ∧
    Agrees {} "a.txt" [0x31, 0x0d, 0x0d, 0x0a, 0xff, 0x2b, 0x0a, 0x32] os us parts := by
  refine session_agrees rfl "a.txt" (Outcome.runnable_of_isOk {} "a.txt" none ?_)
  decide +kernel

end Console

end LineCalc
