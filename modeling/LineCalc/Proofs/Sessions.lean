import LineCalc.Proofs.Running
import LineCalc.Session.Console
import LineCalc.Session.FileRun

/-!
Sessions of many lines. Lines that are not fatal have one outcome each, in order, and a session goes
on behind each of them; a fatal line ends it.
-/
namespace LineCalc

namespace Transcript

variable {α β : Type}

theorem printed_bind_ok {first : Transcript α} {a : α} (next : α → Transcript β)
    (ok : first.outcome = .ok a) :
    (first >>= next).printed = first.printed ++ (next a).printed := by
  obtain ⟨printed, outcome⟩ := first
  subst ok
  rfl

theorem printed_bind_error {first : Transcript α} {fault : Fault} (next : α → Transcript β)
    (failed : first.outcome = .error fault) : (first >>= next).printed = first.printed := by
  obtain ⟨printed, outcome⟩ := first
  subst failed
  rfl

end Transcript

namespace Outcome

/- One outcome for each line, in order, under the numbers from `first` on. -/
inductive SettlesFrom (strict : Bool) (source : String) :
    Nat → List String → List Outcome → Prop where
  | nil (first : Nat) : SettlesFrom strict source first [] []
  | cons {first : Nat} {text : String} {texts : List String} {o : Outcome} {os : List Outcome}
      (head : Settles strict source (some first) (Text.stripLineEnds text) o)
      (tail : SettlesFrom strict source (first + 1) texts os) :
      SettlesFrom strict source first (text :: texts) (o :: os)

variable {strict : Bool} {source : String} {first : Nat} {texts : List String} {os : List Outcome}

theorem length_eq_of_settlesFrom (settles : SettlesFrom strict source first texts os) :
    os.length = texts.length := by
  induction settles with
  | nil first => rfl
  | cons head tail ih => simp [ih]

theorem blocks_of_settlesFrom (settles : SettlesFrom strict source first texts os) :
    ∃ shown, FileRun.blocks os = .ok shown := by
  induction settles with
  | nil first => exact ⟨"", rfl⟩
  | cons head tail ih =>
    obtain ⟨shown, block⟩ := head.shown
    obtain ⟨others, blocks⟩ := ih
    exact ⟨shown ++ others, by simp only [FileRun.blocks, block, blocks]; rfl⟩

/-- Safe lines have an outcome each. -/
theorem runFrom_of_safe (mode : Mode) (source : String) (first : Nat) {texts : List String}
    (safe : ∀ text ∈ texts, Safe (Text.stripLineEnds text).toList) :
    ∃ os, (runFrom mode source first texts).outcome = .ok os ∧
      SettlesFrom mode.strict source first texts os := by
  induction texts generalizing first with
  | nil => exact ⟨[], rfl, .nil first⟩
  | cons text texts ih =>
    obtain ⟨o, outcome, head⟩ := settles_of_safe mode source (some first) (safe text (by simp))
    obtain ⟨os, outcomes, tail⟩ := ih (first + 1) fun other member => safe other (by simp [member])
    refine ⟨o :: os, ?_, .cons head tail⟩
    unfold runFrom
    rw [Transcript.outcome_bind_ok _ outcome, Transcript.outcome_bind_ok _ outcomes]
    rfl

/- The first fatal line leaves no outcome to any line. -/
theorem runFrom_of_fatal (mode : Mode) (source : String) (first : Nat) {before after : List String}
    {text : String} {n : Nat} (safe : ∀ text ∈ before, Safe (Text.stripLineEnds text).toList)
    (fatal : Fatal (Text.stripLineEnds text).toList n) :
    (runFrom mode source first (before ++ text :: after)).outcome = .error (.digitLimit n) := by
  induction before generalizing first with
  | nil =>
    have failed := run_of_fatal mode source (some first) fatal
    exact Transcript.outcome_bind_error _ failed
  | cons other before ih =>
    obtain ⟨o, outcome, _⟩ := settles_of_safe mode source (some first) (safe other (by simp))
    have failed := ih (first + 1) fun text member => safe text (by simp [member])
    rw [List.cons_append, runFrom, Transcript.outcome_bind_ok _ outcome]
    exact Transcript.outcome_bind_error _ failed

end Outcome

/- Either all are safe or there is a first fatal one. -/
theorem safe_or_first_fatal {α : Type} (text : α → List Char) (lines : List α) :
    (∀ line ∈ lines, Safe (text line)) ∨
      ∃ before line after n, lines = before ++ line :: after ∧
        (∀ other ∈ before, Safe (text other)) ∧ Fatal (text line) n := by
  induction lines with
  | nil => exact .inl (by simp)
  | cons line lines ih =>
    by_cases fatal : ∃ n, Fatal (text line) n
    · obtain ⟨n, fatal⟩ := fatal
      exact .inr ⟨[], line, lines, n, rfl, by simp, fatal⟩
    · have safe : Safe (text line) := fun n found => fatal ⟨n, found⟩
      rcases ih with all | ⟨before, other, after, n, rfl, earlier, found⟩
      · exact .inl (by simpa using ⟨safe, all⟩)
      · exact .inr ⟨line :: before, other, after, n, rfl, by simpa using ⟨safe, earlier⟩, found⟩

theorem runAll_eq_ok_iff (mode : Mode) (source : String) (texts : List String) :
    (∃ os, (Outcome.runAll mode source texts).outcome = .ok os) ↔
      ∀ text ∈ texts, Safe (Text.stripLineEnds text).toList := by
  constructor
  · rintro ⟨os, outcomes⟩
    rcases safe_or_first_fatal (fun text => (Text.stripLineEnds text).toList) texts with safe |
      ⟨before, text, after, n, rfl, safe, fatal⟩
    · exact safe
    · cases (Outcome.runFrom_of_fatal mode source 1 safe fatal).symm.trans outcomes
  · intro safe
    obtain ⟨os, outcomes, _⟩ := Outcome.runFrom_of_safe mode source 1 safe
    exact ⟨os, outcomes⟩

theorem settlesFrom_of_outcome {mode : Mode} {source : String} {texts : List String}
    {os : List Outcome} (outcomes : (Outcome.runAll mode source texts).outcome = .ok os) :
    Outcome.SettlesFrom mode.strict source 1 texts os := by
  have safe := (runAll_eq_ok_iff mode source texts).mp ⟨os, outcomes⟩
  obtain ⟨os', outcomes', settles⟩ := Outcome.runFrom_of_safe mode source 1 safe
  obtain rfl := Except.ok.inj (outcomes'.symm.trans outcomes)
  exact settles

namespace Console

theorem answer_of_safe (mode : Mode) (line : Nat) {text : List Char} (safe : Safe text) :
    (answer mode line text).outcome = .ok () := by
  have safe' : Safe (String.ofList text).toList := by simpa using safe
  obtain ⟨o, outcome, settles⟩ := Outcome.settles_of_safe mode source (some line) safe'
  obtain ⟨shown, block⟩ := settles.shown
  unfold answer
  rw [Transcript.outcome_bind_ok _ outcome, block]
  rfl

theorem answer_of_fatal (mode : Mode) (line : Nat) {text : List Char} {n : Nat}
    (fatal : Fatal text n) : (answer mode line text).outcome = .error (.digitLimit n) := by
  have fatal' : Fatal (String.ofList text).toList n := by simpa using fatal
  exact Transcript.outcome_bind_error _ (Outcome.run_of_fatal mode source (some line) fatal')

/- A session goes on behind a safe line. -/
theorem session_cons_of_safe (mode : Mode) (first : Nat) {text : List Char}
    (texts : List (List Char)) (safe : Safe text) :
    (session mode first (text :: texts)).outcome = (session mode (first + 1) texts).outcome ∧
      (session mode first (text :: texts)).printed =
        prompt ++ ((answer mode first text).printed ++
          (session mode (first + 1) texts).printed) := by
  have answered := answer_of_safe mode first safe
  have prompted : (Transcript.print prompt).outcome = .ok () := rfl
  constructor
  · rw [session, Transcript.outcome_bind_ok _ prompted, Transcript.outcome_bind_ok _ answered]
  · rw [session, Transcript.printed_bind_ok _ prompted, Transcript.printed_bind_ok _ answered]
    rfl

/- A session ends in a fatal line. -/
theorem session_cons_of_fatal (mode : Mode) (first : Nat) {text : List Char} {n : Nat}
    (texts : List (List Char)) (fatal : Fatal text n) :
    (session mode first (text :: texts)).outcome = .error (.digitLimit n) := by
  have prompted : (Transcript.print prompt).outcome = .ok () := rfl
  rw [session, Transcript.outcome_bind_ok _ prompted]
  exact Transcript.outcome_bind_error _ (answer_of_fatal mode first fatal)

theorem session_eq_ok_iff (mode : Mode) (first : Nat) (texts : List (List Char)) :
    (session mode first texts).outcome = .ok () ↔ ∀ text ∈ texts, Safe text := by
  induction texts generalizing first with
  | nil => exact iff_of_true rfl (by simp)
  | cons text texts ih =>
    by_cases fatal : ∃ n, Fatal text n
    · obtain ⟨n, fatal⟩ := fatal
      rw [session_cons_of_fatal mode first texts fatal]
      refine iff_of_false (by simp) ?_
      intro safe
      exact safe text (by simp) n fatal
    · have safe : Safe text := fun n found => fatal ⟨n, found⟩
      rw [(session_cons_of_safe mode first texts safe).1, ih]
      simp [safe]

end Console

namespace FileRun

/- Safe lines are all shown, whatever becomes of the table. -/
theorem evaluate_of_safe (mode : Mode) (filename : String) {content : List UInt8}
    (safe : ∀ text ∈ linesOf content, Safe (Text.stripLineEnds text).toList) :
    ∃ os shown, (Outcome.runAll mode filename (linesOf content)).outcome = .ok os ∧
      blocks os = .ok shown ∧ (evaluate mode filename content).printed =
        (Outcome.runAll mode filename (linesOf content)).printed ++ shown := by
  obtain ⟨os, outcomes, settles⟩ := Outcome.runFrom_of_safe mode filename 1 safe
  obtain ⟨shown, blocks⟩ := Outcome.blocks_of_settlesFrom settles
  have ran : (Outcome.runAll mode filename (linesOf content)).outcome = .ok os := outcomes
  refine ⟨os, shown, ran, blocks, ?_⟩
  have known : (Transcript.ofExcept (Except.ok shown)).outcome = .ok shown := rfl
  have printed : (Transcript.print shown).outcome = .ok () := rfl
  unfold evaluate
  rw [Transcript.printed_bind_ok _ ran, blocks, Transcript.printed_bind_ok _ known,
    Transcript.printed_bind_ok _ printed]
  cases mode.debug
  · simp [Transcript.ofExcept, Transcript.print, pure]
  · cases Outcome.table os <;>
      simp [Transcript.ofExcept, Transcript.print, pure, bind, Transcript.bind]

/- A fatal line leaves nothing to show. -/
theorem evaluate_of_fatal (mode : Mode) (filename : String) {content : List UInt8}
    {before after : List String} {text : String} {n : Nat}
    (lines : linesOf content = before ++ text :: after)
    (safe : ∀ text ∈ before, Safe (Text.stripLineEnds text).toList)
    (fatal : Fatal (Text.stripLineEnds text).toList n) :
    (evaluate mode filename content).outcome = .error (.digitLimit n) ∧
      (evaluate mode filename content).printed =
        (Outcome.runAll mode filename (linesOf content)).printed := by
  have failed : (Outcome.runAll mode filename (linesOf content)).outcome =
      .error (.digitLimit n) := by
    rw [lines]
    exact Outcome.runFrom_of_fatal mode filename 1 safe fatal
  exact ⟨Transcript.outcome_bind_error _ failed, Transcript.printed_bind_error _ failed⟩

theorem failed_printed (printed message : String) :
    (failed printed message).printed = printed ++ ("Error: " ++ message ++ "\n") := by
  simp [failed, String.append_assoc]

theorem saved_printed (homes : Homes) (filename printed : String) (failure : Option OpenFault) :
    ∃ tail, (saved homes filename printed failure).printed = printed ++ tail := by
  cases failure with
  | none =>
    exact ⟨"\nResults saved to: " ++ tableName filename ++ "\n",
      by simp [saved, String.append_assoc]⟩
  | some fault => cases fault <;> exact ⟨_, failed_printed _ _⟩

/- A readable file ends with what its lines printed, and perhaps something behind that. -/
theorem run_printed (mode : Mode) (filename : String) {store : Store} {content : List UInt8}
    (read : store.readFile filename = .ok content) :
    ∃ tail, (run mode filename store).1.printed =
      (evaluate mode filename content).printed ++ tail := by
  unfold run plan
  rw [read]
  dsimp only
  cases (evaluate mode filename content).outcome with
  | error fault => exact ⟨_, failed_printed _ _⟩
  | ok table =>
    cases table with
    | none => exact ⟨"", String.append_empty.symm⟩
    | some table =>
      dsimp only
      cases store.writeFile (target store.homes filename) (Text.Utf8.encode table) with
      | ok after => exact saved_printed store.homes filename _ none
      | error fault => exact saved_printed store.homes filename _ (some fault)

/- A readable file of safe lines has them all shown. -/
theorem run_of_safe (mode : Mode) (filename : String) {store : Store} {content : List UInt8}
    (read : store.readFile filename = .ok content)
    (safe : ∀ text ∈ linesOf content, Safe (Text.stripLineEnds text).toList) :
    ∃ os shown tail, (Outcome.runAll mode filename (linesOf content)).outcome = .ok os ∧
      blocks os = .ok shown ∧ (run mode filename store).1.printed =
        (Outcome.runAll mode filename (linesOf content)).printed ++ shown ++ tail := by
  obtain ⟨os, shown, outcomes, blocks, printed⟩ := evaluate_of_safe mode filename safe
  obtain ⟨tail, ended⟩ := run_printed mode filename read
  exact ⟨os, shown, tail, outcomes, blocks, by rw [ended, printed]⟩

/- Any fatal line makes a failure of the file, with nothing shown. -/
theorem run_of_fatal (mode : Mode) (filename : String) {store : Store} {content : List UInt8}
    (read : store.readFile filename = .ok content)
    (fatal : ¬ ∀ text ∈ linesOf content, Safe (Text.stripLineEnds text).toList) :
    ∃ n, run mode filename store =
      (failed (Outcome.runAll mode filename (linesOf content)).printed
        (Fault.digitLimit n).message, store) := by
  rcases safe_or_first_fatal (fun text => (Text.stripLineEnds text).toList) (linesOf content) with
    safe | ⟨before, text, after, n, lines, safe, found⟩
  · exact absurd safe fatal
  · obtain ⟨ended, printed⟩ := evaluate_of_fatal mode filename lines safe found
    refine ⟨n, ?_⟩
    unfold run plan
    simp only [read, ended, printed]

end FileRun

/-- Exactly the safe lines survive. Each of them has an outcome, and its error is one of the line;
    many have one outcome each, a session goes on behind each however its input is cut into lines, and
    a file shows them all. A fatal line has no outcome, ends the session, and leaves nothing of its
    file to show. -/
theorem survives_iff_safe (mode : Mode) :
    (∀ source line text,
      ((∃ o, (Outcome.run mode source line text).outcome = .ok o) ↔ Safe text.toList) ∧
      (∀ o, (Outcome.run mode source line text).outcome = .ok o →
        Outcome.Settles mode.strict source line text o) ∧
      ∀ n, Fatal text.toList n →
        (Outcome.run mode source line text).outcome = .error (.digitLimit n)) ∧
    (∀ source texts,
      ((∃ os, (Outcome.runAll mode source texts).outcome = .ok os) ↔
        ∀ text ∈ texts, Safe (Text.stripLineEnds text).toList) ∧
      ∀ os, (Outcome.runAll mode source texts).outcome = .ok os →
        os.length = texts.length ∧ Outcome.SettlesFrom mode.strict source 1 texts os) ∧
    (∀ cut input, (Console.run mode input cut).outcome = .ok () ↔
      ∀ text ∈ cut (Text.Utf8.decode input), Safe text) ∧
    (∀ first text texts, Safe text →
      (Console.session mode first (text :: texts)).outcome =
          (Console.session mode (first + 1) texts).outcome ∧
        (Console.session mode first (text :: texts)).printed =
          Console.prompt ++ ((Console.answer mode first text).printed ++
            (Console.session mode (first + 1) texts).printed)) ∧
    (∀ filename store content, store.readFile filename = .ok content →
      ((∀ text ∈ FileRun.linesOf content, Safe (Text.stripLineEnds text).toList) →
        ∃ os shown tail,
          (Outcome.runAll mode filename (FileRun.linesOf content)).outcome = .ok os ∧
          FileRun.blocks os = .ok shown ∧ (FileRun.run mode filename store).1.printed =
            (Outcome.runAll mode filename (FileRun.linesOf content)).printed ++ shown ++ tail) ∧
      ((¬ ∀ text ∈ FileRun.linesOf content, Safe (Text.stripLineEnds text).toList) →
        ∃ n, FileRun.run mode filename store =
          (FileRun.failed (Outcome.runAll mode filename (FileRun.linesOf content)).printed
            (Fault.digitLimit n).message, store))) := by
  refine ⟨?_, ?_, ?_, ?_, ?_⟩
  · intro source line text
    exact ⟨Outcome.run_eq_ok_iff mode source line text, fun o => Outcome.settles_of_outcome,
      fun n => Outcome.run_of_fatal mode source line⟩
  · intro source texts
    refine ⟨runAll_eq_ok_iff mode source texts, ?_⟩
    intro os outcomes
    have settles := settlesFrom_of_outcome outcomes
    exact ⟨Outcome.length_eq_of_settlesFrom settles, settles⟩
  · intro cut input
    exact Console.session_eq_ok_iff mode 1 _
  · intro first text texts safe
    exact Console.session_cons_of_safe mode first texts safe
  · intro filename store content read
    exact ⟨FileRun.run_of_safe mode filename read, FileRun.run_of_fatal mode filename read⟩

/- A number of zeros past the limit on digits. -/
theorem fatal_of_zeros {n : Nat} (long : mostDigits < n) : Fatal (List.replicate n '0') n := by
  have positive : 0 < n := Nat.lt_of_le_of_lt (Nat.zero_le _) long
  refine ⟨[], ⟨List.replicate n '0', none⟩, [], ?_, by simp, ⟨?_, ?_, by simp⟩, ?_, ?_, by simp⟩
  · have whole := Division.done (List.replicate n '0')
    simpa [Literal.text] using whole
  · simpa using positive.ne'
  · intro c member
    obtain rfl := List.eq_of_mem_replicate member
    rfl
  · exact Literal.endsBefore_nil _
  · exact ⟨rfl, by simp [Literal.significant], by simpa using long⟩

theorem no_outcome_of_zeros :
    ¬ ∃ o, (Outcome.run {} "stdin" (some 1) (String.ofList (List.replicate 4301 '0'))).outcome =
      .ok o := by
  intro outcome
  have long : mostDigits < 4301 := by
    unfold mostDigits
    decide
  have safe := (Outcome.run_eq_ok_iff _ _ _ _).mp outcome
  rw [String.toList_ofList] at safe
  exact safe 4301 (fatal_of_zeros long)

end LineCalc
