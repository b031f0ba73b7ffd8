import LineCalc.Proofs.LineCuts
import LineCalc.Proofs.Reruns
import LineCalc.Proofs.Sessions
import LineCalc.Proofs.Tables
import LineCalc.Session.Program

/-!
Runs outside of debug mode. Lines print nothing as they run (`Outcome.printed_run`), so that a file
prints the blocks of its outcomes and nothing else (`FileRun.shows_of_outcome`).
-/
namespace LineCalc

namespace Transcript

theorem ext_iff_parts {α : Type} {transcript : Transcript α} {printed : String}
    {outcome : Except Fault α} :
    transcript = ⟨printed, outcome⟩ ↔
      transcript.printed = printed ∧ transcript.outcome = outcome := by
  cases transcript
  simp

/- Two steps, of which the first ends well. -/
theorem bind_ok {α β : Type} {first : Transcript α} {printed : String} {a : α}
    (next : α → Transcript β) (begun : first = ⟨printed, .ok a⟩) :
    first >>= next = ⟨printed ++ (next a).printed, (next a).outcome⟩ := by
  subst begun
  rfl

theorem printed_bind_empty {α β : Type} {first : Transcript α} {next : α → Transcript β}
    (begun : first.printed = "") (rest : ∀ a, (next a).printed = "") :
    (first >>= next).printed = "" := by
  cases outcome : first.outcome with
  | error fault => rw [printed_bind_error next outcome, begun]
  | ok a => rw [printed_bind_ok next outcome, begun, rest, String.append_empty]

end Transcript

variable {mode : Mode} {source text : String} {line : Option Int}

theorem Mode.stage_of_quiet (quiet : mode.debug = false) (name : String)
    (text : Except Fault String) : mode.stage name text = pure () := by
  simp [stage, quiet]

namespace Outcome

variable {os : List Outcome} {shown : String}

theorem printed_recover (quiet : mode.debug = false) (line : Option Int) (text : String)
    (failure : Failure) : (recover mode line text failure).printed = "" := by
  cases failure with
  | fault fault => rfl
  | line error => rw [recover, mode.stage_of_quiet quiet]; rfl

theorem printed_run (quiet : mode.debug = false) (source : String) (line : Option Int)
    (text : String) : (run mode source line text).printed = "" := by
  unfold run
  simp only [mode.stage_of_quiet quiet]
  refine Transcript.printed_bind_empty rfl fun _ => ?_
  split
  · exact printed_recover quiet line text _
  · refine Transcript.printed_bind_empty rfl fun _ => ?_
    split
    · exact printed_recover quiet line text _
    · exact Transcript.printed_bind_empty rfl fun _ =>
        Transcript.printed_bind_empty rfl fun _ => rfl

theorem printed_runFrom (quiet : mode.debug = false) (source : String) (first : Nat)
    (texts : List String) : (runFrom mode source first texts).printed = "" := by
  induction texts generalizing first with
  | nil => rfl
  | cons text texts ih =>
    exact Transcript.printed_bind_empty (printed_run quiet source _ _) fun _ =>
      Transcript.printed_bind_empty (ih (first + 1)) fun _ => rfl

theorem source_of_runsFrom {first : Nat} {texts : List String}
    (runs : RunsFrom mode source first texts os) :
    ∀ o ∈ os, ∃ text ∈ texts, o.source = Text.stripLineEnds text := by
  induction runs with
  | nil first => simp
  | @cons first text texts o os head tail ih =>
    have ofText := (settles_of_outcome head).ofText
    refine List.forall_mem_cons.mpr ⟨⟨text, by simp, ofText⟩, ?_⟩
    intro other member
    obtain ⟨text, known, same⟩ := ih other member
    exact ⟨text, List.mem_cons_of_mem _ known, same⟩

/- What is shown of several outcomes is what is shown of each. -/
theorem blocks_eq_ok_iff : FileRun.blocks os = .ok shown ↔
    ∃ parts, List.Forall₂ (fun o part => o.block = .ok part) os parts ∧
      shown = String.join parts := by
  induction os generalizing shown with
  | nil => simp [FileRun.blocks, eq_comm]
  | cons o os ih =>
    rw [FileRun.blocks]
    constructor
    · intro shows
      cases first : o.block with
      | error fault =>
        rw [first] at shows
        cases shows
      | ok block =>
        cases behind : FileRun.blocks os with
        | error fault =>
          rw [first, behind] at shows
          cases shows
        | ok others =>
          obtain ⟨parts, all, rfl⟩ := ih.mp behind
          rw [first, behind] at shows
          cases shows
          exact ⟨block :: parts, .cons first all, String.join_cons.symm⟩
    · rintro ⟨parts, all, rfl⟩
      cases all with
      | cons first others =>
        rw [first, ih.mpr ⟨_, others, rfl⟩, String.join_cons]
        rfl

end Outcome

namespace FileRun

variable {filename : String} {content : List UInt8} {os : List Outcome} {shown : String}

/-- What a file is run to and what is shown of it. No line holds a line end. Nothing else is printed
    and nothing is written, whatever the command line and the input are. -/
structure Shows (mode : Mode) (filename : String) (content : List UInt8) (os : List Outcome)
    (shown : String) : Prop where
  outcomes : (Outcome.runAll mode filename (linesOf content)).outcome = .ok os
  blocks : blocks os = .ok shown
  plain : ∀ o ∈ os, ∀ c ∈ o.source.toList, c ≠ '\r' ∧ c ≠ '\n'
  run : ∀ arguments input (store : Store),
    Invocation.ofTexts arguments = .run mode (some filename) →
    store.readFile filename = .ok content →
    Program.run arguments input store = ⟨.ok 0, shown, "", store⟩

theorem evaluate_of_quiet (quiet : mode.debug = false)
    (outcomes : (Outcome.runAll mode filename (linesOf content)).outcome = .ok os)
    (blocks : blocks os = .ok shown) : evaluate mode filename content = ⟨shown, .ok none⟩ := by
  have ran : Outcome.runAll mode filename (linesOf content) = ⟨"", .ok os⟩ :=
    Transcript.ext_iff_parts.mpr ⟨Outcome.printed_runFrom quiet filename 1 _, outcomes⟩
  unfold evaluate
  rw [Transcript.bind_ok _ ran, blocks, quiet]
  simp [Transcript.ofExcept, Transcript.print, bind, Transcript.bind, pure]

theorem plain_of_outcome
    (outcomes : (Outcome.runAll mode filename (linesOf content)).outcome = .ok os) :
    ∀ o ∈ os, ∀ c ∈ o.source.toList, c ≠ '\r' ∧ c ≠ '\n' := by
  intro o member c inside
  obtain ⟨text, known, same⟩ :=
    Outcome.source_of_runsFrom (Outcome.runsFrom_of_outcome outcomes) o member
  rw [same, stripLineEnds_of_mem_linesOf known] at inside
  exact plain_of_mem_linesOf known c inside

theorem shows_of_outcome (quiet : mode.debug = false)
    (outcomes : (Outcome.runAll mode filename (linesOf content)).outcome = .ok os)
    (blocks : blocks os = .ok shown) : Shows mode filename content os shown := by
  refine ⟨outcomes, blocks, plain_of_outcome outcomes, ?_⟩
  intro arguments input store command read
  have ran : run mode filename store = (⟨0, shown⟩, store) := by
    unfold run plan
    rw [read]
    dsimp only
    rw [evaluate_of_quiet quiet outcomes blocks]
  unfold Program.run
  rw [command]
  dsimp only
  rw [ran]

theorem forall_runnable_iff : (∀ text ∈ linesOf content, Outcome.Runnable text) ↔
    ∀ text ∈ linesOf content, Safe (Text.stripLineEnds text).toList := by
  refine forall₂_congr fun text member => ?_
  rw [stripLineEnds_of_mem_linesOf member]
  exact Outcome.runnable_iff_safe

theorem exists_shows (quiet : mode.debug = false) (filename : String) {content : List UInt8}
    (runnable : ∀ text ∈ linesOf content, Outcome.Runnable text) :
    ∃ os shown, Shows mode filename content os shown := by
  obtain ⟨os, shown, outcomes, blocks, _⟩ :=
    evaluate_of_safe mode filename (forall_runnable_iff.mp runnable)
  exact ⟨os, shown, shows_of_outcome quiet outcomes blocks⟩

end FileRun

end LineCalc
