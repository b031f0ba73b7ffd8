import LineCalc.Proofs.Moves

/-!
Tokens asked for in the middle of a text. A cursor keeps nothing of what it passed but its position,
so whatever it did before, it goes on as a fresh one over the rest (`tokens_resumed`): it stops at a
stray character for good, and goes on behind a literal that it could not read.
-/
namespace LineCalc

/- What the text from `i` on yields on its own, with the errors relocated to the position. -/
def outcomeFrom (source : String) (text : List Char) (p : Position) (i : Nat) :
    Except Failure (List Token) :=
  (tokenize source (String.ofList (text.drop i))).mapError (Failure.mapSite p.relocate)

namespace Cursor

/- What a request for tokens does to a cursor that has passed `i` characters, if it passes `n` more
   and leaves the cursor as the second one is. -/
structure Resumes (source : String) (text : List Char) (i n : Nat) (c left : Cursor) : Prop where
  outcome : (c.tokens source).1 = outcomeFrom source text c.position i
  behind : text.length ≤ i → (c.tokens source).1 = .ok []
  yields : Yields source c.position (text.drop i) (c.tokens source).1 n
  located : Located text (i + n) left
  full : ∀ ts, (c.tokens source).1 = .ok ts → i + n = max i text.length
  stray : ∀ character site,
    (c.tokens source).1 = .error (.line (.unexpectedCharacter character site)) →
      (∃ char, text[i + n]? = some char ∧ character = some (String.singleton char)) ∧
        left.tokens source = ((c.tokens source).1, left)
  next : (left.tokens source).1 = outcomeFrom source text left.position (i + n)

variable {source : String} {text : List Char} {i n : Nat} {c : Cursor}

theorem tokens_of_located (source : String) (located : Located text i c) :
    (c.tokens source).1 = outcomeFrom source text c.position i := by
  rw [tokens_relocated, located.rest]
  rfl

theorem tokens_of_behind (source : String) (located : Located text i c)
    (behind : text.length ≤ i) : (c.tokens source).1 = .ok [] := by
  have ahead : c.rest = [] := by
    rw [located.rest, List.drop_eq_nil_iff]
    exact behind
  rw [tokens_of_atEnd source ahead]

theorem located_tokens (located : Located text i c)
    (yields : Yields source c.position (text.drop i) (c.tokens source).1 n) :
    Located text (i + n) (c.tokens source).2 := by
  rw [← located.rest] at yields
  rw [tokens_of_yields yields, pass_eq_iterate (sameLine_of_yields yields)]
  exact located_iterate located n

theorem passed_of_full {p : Position} {ts : List Token}
    (yields : Yields source p (text.drop i) (.ok ts) n) : i + n = max i text.length := by
  cases yields
  rw [List.length_drop]
  omega

/- A stray character is not passed, and is met again. -/
theorem tokens_of_stray {character : Option String} {site : Site}
    (stray : (c.tokens source).1 = .error (.line (.unexpectedCharacter character site))) :
    (∃ char, (c.tokens source).2.rest.head? = some char ∧
      character = some (String.singleton char)) ∧
      (c.tokens source).2.tokens source = ((c.tokens source).1, (c.tokens source).2) := by
  obtain ⟨n, yields, passed⟩ := tokens_yields source c
  rw [stray] at yields ⊢
  cases yields with
  | @stray pieces char rest first =>
    have ahead : (c.tokens source).2.rest = char :: rest := by
      rw [passed]
      exact rest_pass_of_division first.division
    constructor
    · exact ⟨char, by rw [ahead]; rfl, rfl⟩
    · rw [tokens_of_other source ahead first.notBlank first.notSymbol first.notDigit, passed]
      rfl

theorem resumes_of_located (source : String) (located : Located text i c) :
    ∃ n, Resumes source text i n c (c.tokens source).2 := by
  obtain ⟨n, yields, _⟩ := tokens_yields source c
  rw [located.rest] at yields
  have further := located_tokens located yields
  refine ⟨n, ?_⟩
  exact {
    outcome := tokens_of_located source located
    behind := tokens_of_behind source located
    yields := yields
    located := further
    full := by
      intro ts read
      rw [read] at yields
      exact passed_of_full yields
    stray := by
      intro character site stray
      obtain ⟨⟨char, here, same⟩, again⟩ := tokens_of_stray stray
      rw [further.rest, List.head?_drop] at here
      exact ⟨⟨char, here, same⟩, again⟩
    next := tokens_of_located source further }

theorem after_replicate {text : String} {moves : List Move} {move : Move}
    (fixed : move.apply source (after source text (moves ++ [move])) =
      after source text (moves ++ [move])) (times : Nat) :
    after source text (moves ++ List.replicate (times + 1) move) =
      after source text (moves ++ [move]) := by
  induction times with
  | zero => rfl
  | succ times ih => rw [List.replicate_succ', ← List.append_assoc, after_concat, ih, fixed]

/-- After any moves a request for tokens has the outcome of the rest of the text, with the errors
    where they are in the whole text. The cursor is left behind the text, on the stray character or
    behind the literal out of range, and goes on from there. A stray character stops it for good,
    with the same error each time. -/
theorem tokens_resumed (source text : String) (moves : List Move) :
    ∃ i n, Located text.toList i (after source text moves) ∧
      Resumes source text.toList i n (after source text moves)
        (after source text (moves ++ [.tokens])) ∧
      ∀ character site times, ((after source text moves).tokens source).1 =
          .error (.line (.unexpectedCharacter character site)) →
        after source text (moves ++ List.replicate (times + 1) .tokens) =
            after source text (moves ++ [.tokens]) ∧
          ((after source text (moves ++ List.replicate (times + 1) .tokens)).tokens source).1 =
            .error (.line (.unexpectedCharacter character site)) := by
  obtain ⟨i, located⟩ := exists_located source text moves
  obtain ⟨n, resumes⟩ := resumes_of_located source located
  have last : after source text (moves ++ [.tokens]) =
      ((after source text moves).tokens source).2 := after_concat source text moves .tokens
  rw [← last] at resumes
  refine ⟨i, n, located, resumes, ?_⟩
  intro character site times stray
  obtain ⟨_, again⟩ := resumes.stray character site stray
  have fixed : Move.apply source .tokens (after source text (moves ++ [.tokens])) =
      after source text (moves ++ [.tokens]) := congrArg Prod.snd again
  have stays := after_replicate fixed times
  constructor
  · exact stays
  · rw [stays, again, stray]

end Cursor

end LineCalc
