import LineCalc.Proofs.Quiet
import LineCalc.Proofs.Survival

/-!
Debug mode. It has no part in what comes of a line, and neither have the number of the line and the
name of its source, but that messages of the lexer give the name (`Outcome.outcomes_alike`). So a
file in debug mode prints the stages of its lines, then what it prints without, and last where its
table is (`FileRun.run_of_debug`).
-/
namespace LineCalc

/- A message that ends with its site gives the name of the source in one place. -/
theorem Site.exists_parts_named (site : Site) (front : String) :
    ∃ before behind, ∀ name, front ++ (site.named name).text = before ++ name ++ behind := by
  refine ⟨front ++ " in ", " at line " ++ orNone (site.line.map integerText) ++
    ", column " ++ orNone (site.column.map integerText), ?_⟩
  intro name
  simp only [text, named, orNone, Option.getD_some, String.append_assoc]

theorem LineError.OfText.exists_parts_named {error : LineError} (ofText : error.OfText) :
    ∃ before behind, ∀ name,
      (error.mapSite (Site.named name)).message = before ++ name ++ behind := by
  cases ofText with
  | character c site => exact site.exists_parts_named _
  | literal text site => exact site.exists_parts_named _

namespace Outcome

variable {mode : Mode} {strict debug debug' : Bool} {source other text : String}
  {line number : Option Int} {o u : Outcome}

/- The errors of one line in two runs. If it has tokens, its error is the same one; if not, the
   message of the lexer gives the name of the source in one place. -/
inductive SameError (source other text : String) : Option String → Option String → Prop where
  | tokens {ts : List Token} (message : Option String) (read : tokenize source text = .ok ts)
      (again : tokenize other text = .ok ts) : SameError source other text message message
  | lexical {before behind : String}
      (refused : ∀ name, ∃ error : LineError, tokenize name text = .error (.line error) ∧
        error.isLexical ∧ error.message = before ++ name ++ behind) :
      SameError source other text (some (before ++ source ++ behind))
        (some (before ++ other ++ behind))

/- The outcomes of one line in two runs, under two names and two numbers. -/
structure Alike (source other text : String) (line number : Option Int) (o u : Outcome) : Prop where
  line : o.line = line
  number : u.line = number
  ofText : o.source = text ∧ u.source = text
  tokens : u.tokens = o.tokens
  tree : u.tree = o.tree
  value : u.value = o.value
  ok : u.isOk = o.isOk
  error : SameError source other text o.error u.error

/-- Two runs of one line in equal strictness. Either they end in the same fault, or both have an
    outcome, and these are alike. -/
inductive RunsAlike (source other text : String) (line number : Option Int) :
    Except Fault Outcome → Except Fault Outcome → Prop where
  | fault (fault : Fault) : RunsAlike source other text line number (.error fault) (.error fault)
  | outcome {o u : Outcome} (alike : Alike source other text line number o u) :
      RunsAlike source other text line number (.ok o) (.ok u)

theorem alike_of_tokens {ts : List Token} (read : tokenize source text = .ok ts)
    (returned : (run mode source line text).outcome = .ok o) (other : String)
    (number : Option Int) : Alike source other text line number o { o with line := number } := by
  have again := tokenize_named source other text
  rw [read] at again
  have settles := settles_of_outcome returned
  exact ⟨settles.ofLine, rfl, ⟨settles.ofText, settles.ofText⟩, rfl, rfl, rfl, rfl,
    .tokens o.error read again⟩

theorem alike_of_lexical {error : LineError} (refused : tokenize source text = .error (.line error))
    (ofText : error.OfText) (other : String) (line number : Option Int) :
    Alike source other text line number { line, source := text, error := some error.message }
      { line := number, source := text,
        error := some (error.mapSite (Site.named other)).message } := by
  obtain ⟨before, behind, named⟩ := ofText.exists_parts_named
  have refuses (name : String) :
      tokenize name text = .error (.line (error.mapSite (Site.named name))) := by
    rw [tokenize_named source name text, refused]
    rfl
  have lexical (name : String) : (error.mapSite (Site.named name)).isLexical := by
    cases ofText <;> rfl
  have itself : error = error.mapSite (Site.named source) := by
    simpa [refused] using refuses source
  have message : error.message = before ++ source ++ behind := by rw [itself, named source]
  refine ⟨rfl, rfl, ⟨rfl, rfl⟩, rfl, rfl, rfl, rfl, ?_⟩
  rw [message, named other]
  exact .lexical fun name => ⟨_, refuses name, lexical name, named name⟩

theorem outcomes_alike (strict debug debug' : Bool) (source other text : String)
    (line number : Option Int) :
    RunsAlike source other text line number (run ⟨strict, debug⟩ source line text).outcome
      (run ⟨strict, debug'⟩ other number text).outcome := by
  have again := tokenize_named source other text
  rw [run_outcome ⟨strict, debug'⟩]
  rcases tokenize_cases source text with ⟨_, ts, _, _, read⟩ | ⟨error, refused, ofText⟩ |
    ⟨n, fatal⟩
  · have same : tokenize other text = tokenize source text := by rw [again, read]; rfl
    rw [same, settle_renumbered strict line, ← run_outcome ⟨strict, debug⟩]
    cases returned : (run ⟨strict, debug⟩ source line text).outcome with
    | error fault => exact .fault fault
    | ok o => exact .outcome (alike_of_tokens read returned other number)
  · rw [run_of_lexical ⟨strict, debug⟩ line refused, again, refused]
    exact .outcome (alike_of_lexical refused ofText other line number)
  · rw [run_of_fatal ⟨strict, debug⟩ source line fatal, tokenize_of_fatal other fatal]
    exact .fault _

/- What is printed of the stages of each line. -/
def stages (mode : Mode) (source : String) (first : Nat) (texts : List String) : List String :=
  texts.mapIdx fun i text => (run mode source (some ((first + i : Nat) : Int)) text).printed

theorem stages_cons (mode : Mode) (source : String) (first : Nat) (text : String)
    (texts : List String) :
    stages mode source first (text :: texts) =
      (run mode source (some (first : Int)) text).printed ::
        stages mode source (first + 1) texts := by
  simp only [stages, List.mapIdx_cons, Nat.add_zero, Nat.add_assoc, Nat.add_comm 1]

variable {first : Nat} {texts : List String} {os : List Outcome}

/- Lines that have outcomes print their stages, one line behind the other. -/
theorem printed_runFrom_of_outcome (plain : ∀ text ∈ texts, Text.stripLineEnds text = text)
    (outcomes : (runFrom mode source first texts).outcome = .ok os) :
    (runFrom mode source first texts).printed = String.join (stages mode source first texts) := by
  induction texts generalizing first os with
  | nil => rfl
  | cons text texts ih =>
    obtain ⟨plain, others⟩ := List.forall_mem_cons.mp plain
    obtain ⟨o, head, outcomes⟩ := Transcript.outcome_bind_eq_ok_iff.mp outcomes
    obtain ⟨rest, tail, _⟩ := Transcript.outcome_bind_eq_ok_iff.mp outcomes
    have ended : (pure (o :: rest) : Transcript (List Outcome)).printed = "" := rfl
    rw [runFrom, Transcript.printed_bind_ok _ head, Transcript.printed_bind_ok _ tail,
      ih others tail, ended, String.append_empty, plain, stages_cons, String.join_cons]

theorem outcome_runFrom_debug (strict debug debug' : Bool) (source : String) (first : Nat)
    (texts : List String) : (runFrom ⟨strict, debug⟩ source first texts).outcome =
      (runFrom ⟨strict, debug'⟩ source first texts).outcome := by
  induction texts generalizing first with
  | nil => rfl
  | cons text texts ih =>
    simp only [runFrom, Transcript.outcome_bind, run_outcome, ih]

end Outcome

namespace FileRun

variable {strict : Bool} {filename shown : String} {content : List UInt8} {store : Store}
  {os : List Outcome}

/- The table of a file can be written: it is not too long to be made, and has a place to go to. -/
structure Savable (filename : String) (content : List UInt8) (store : Store) : Prop where
  few : (linesOf content).length < 0x8000000000000000
  writable : store.Writable (target store.homes filename)

/- Debug mode and its absence show the same, and debug mode prints the stages in front of that. -/
theorem printed_evaluate_of_debug
    (runnable : ∀ text ∈ linesOf content, Outcome.Runnable text)
    (shows : Shows ⟨strict, false⟩ filename content os shown) :
    (evaluate ⟨strict, true⟩ filename content).printed =
      String.join (Outcome.stages ⟨strict, true⟩ filename 1 (linesOf content)) ++ shown := by
  obtain ⟨us, text, outcomes, blocks, printed⟩ :=
    evaluate_of_safe ⟨strict, true⟩ filename (forall_runnable_iff.mp runnable)
  have same : us = os := by
    have again := (Outcome.outcome_runFrom_debug strict true false filename 1 _).symm.trans outcomes
    exact Except.ok.inj (again.symm.trans shows.outcomes)
  have shown' : text = shown := Except.ok.inj (blocks.symm.trans (same ▸ shows.blocks))
  have plain : ∀ text ∈ linesOf content, Text.stripLineEnds text = text := fun _ member =>
    stripLineEnds_of_mem_linesOf member
  rw [printed, Outcome.runAll, Outcome.printed_runFrom_of_outcome plain outcomes, shown']

theorem run_of_debug (read : store.readFile filename = .ok content)
    (runnable : ∀ text ∈ linesOf content, Outcome.Runnable text)
    (savable : Savable filename content store)
    (shows : Shows ⟨strict, false⟩ filename content os shown) :
    (run ⟨strict, true⟩ filename store).1 =
      ⟨0, String.join (Outcome.stages ⟨strict, true⟩ filename 1 (linesOf content)) ++ shown ++
        "\nResults saved to: " ++ tableName filename ++ "\n"⟩ := by
  obtain ⟨table, tabulates⟩ : ∃ table, Tabulates ⟨strict, true⟩ filename content table :=
    exists_tabulates_iff.mpr ⟨forall_runnable_iff.mp runnable, savable.few⟩
  have made := evaluate_eq_some_iff.mpr ⟨rfl, tabulates⟩
  obtain ⟨after, wrote⟩ := savable.writable.writeFile (Text.Utf8.encode table)
  rw [run_of_write read made wrote, saved, printed_evaluate_of_debug runnable shows]

end FileRun

namespace Program

open Outcome (RunsAlike Runnable stages)
open Store (oneFile)

/-- Debug mode, the name of the source and the number of a line have no part in what comes of the
    line. Outside of debug mode running it prints nothing. In debug mode a file prints the stages of
    its lines in order, what it prints without, and where its table is. -/
theorem debug_only_reports :
    (∀ strict debug debug' source other text line number,
      RunsAlike source other text line number
        (Outcome.run ⟨strict, debug⟩ source line text).outcome
        (Outcome.run ⟨strict, debug'⟩ other number text).outcome) ∧
    (∀ strict source line text, (Outcome.run ⟨strict, false⟩ source line text).printed = "") ∧
    (∀ strict filename content store, store.readFile filename = .ok content →
      (∀ text ∈ FileRun.linesOf content, Runnable text) →
      FileRun.Savable filename content store →
      ∀ debugging plain input input',
        Invocation.ofTexts debugging = .run ⟨strict, true⟩ (some filename) →
        Invocation.ofTexts plain = .run ⟨strict, false⟩ (some filename) →
        (run debugging input store).stdout =
          String.join (stages ⟨strict, true⟩ filename 1 (FileRun.linesOf content)) ++
            (run plain input' store).stdout ++
            "\nResults saved to: " ++ FileRun.tableName filename ++ "\n" ∧
        (run debugging input store).status = .ok 0 ∧ (run plain input' store).status = .ok 0 ∧
        (run debugging input store).stderr = "" ∧ (run plain input' store).stderr = "") := by
  refine ⟨Outcome.outcomes_alike, ?_, ?_⟩
  · intro strict source line text
    exact Outcome.printed_run rfl source line text
  · intro strict filename content store read runnable savable debugging plain input input' named
      named'
    obtain ⟨os, shown, shows⟩ :
        ∃ os shown, FileRun.Shows ⟨strict, false⟩ filename content os shown :=
      FileRun.exists_shows rfl filename runnable
    have ending := FileRun.run_of_debug read runnable savable shows
    rw [shows.run plain input' store named' read, run, named]
    dsimp only
    rw [ending]
    exact ⟨rfl, rfl, rfl, rfl, rfl⟩

/- A line with a value and a line with an error, in strict mode. The file is beside the directory of
   the program. -/
theorem debug_only_reports_of_two_lines :
    (run ["--debug", "--strict", "../sums.txt"] []
        (oneFile ["tmp", "sums.txt"] [0x31, 0x0a, 0x24])).stdout =
      String.join (stages ⟨true, true⟩ "../sums.txt" 1 ["1", "$"]) ++
        (run ["../sums.txt", "--strict"] []
          (oneFile ["tmp", "sums.txt"] [0x31, 0x0a, 0x24])).stdout ++
        "\nResults saved to: " ++ FileRun.tableName "../sums.txt" ++ "\n" := by
  have lines : FileRun.linesOf [0x31, 0x0a, 0x24] = ["1", "$"] := by decide +kernel
  have read : (oneFile ["tmp", "sums.txt"] [0x31, 0x0a, 0x24]).readFile "../sums.txt" =
      .ok [0x31, 0x0a, 0x24] := by decide +kernel
  have runnable : ∀ text ∈ FileRun.linesOf [0x31, 0x0a, 0x24], Runnable text :=
    Outcome.runnable_of_isOk {} "../sums.txt" none (by decide +kernel)
  have place : (oneFile ["tmp", "sums.txt"] [0x31, 0x0a, 0x24]).find
      (FileRun.target Homes.standard "../sums.txt") = .ok (.vacant ["tmp", "sums.csv"]) := by
    decide +kernel
  have savable : FileRun.Savable "../sums.txt" [0x31, 0x0a, 0x24]
      (oneFile ["tmp", "sums.txt"] [0x31, 0x0a, 0x24]) := by
    refine ⟨?_, _, .inr place⟩
    rw [lines]
    decide
  have reports := (debug_only_reports.2.2 true "../sums.txt" _ _ read runnable savable
    ["--debug", "--strict", "../sums.txt"] ["../sums.txt", "--strict"] [] [] (by decide +kernel)
    (by decide +kernel)).1
  rwa [lines] at reports

end Program

end LineCalc
