import LineCalc.Proofs.Joints
import LineCalc.Proofs.Lexing

/-!
Texts one behind the other. If no literal goes on from the first into the second, they are tokenized
one by one: the second as it is alone, with its errors moved behind the first
(`tokenize_append_of_ok`), unless there is an error in the first (`tokenize_append_of_error`).
-/
namespace LineCalc

/- The place of an error in a text that stands behind so many characters. -/
def Site.behind (n : Nat) (site : Site) : Site :=
  { site with column := site.column.map (· + (n : Int)) }

variable {source : String} {text rest a b : List Char} {pieces : List Piece} {n : Nat}

theorem relocate_eq_behind {failure : Failure}
    (yields : Yields source .origin text (.error failure) n) (k : Nat) :
    failure.mapSite (Position.origin.along k).relocate = failure.mapSite (Site.behind k) := by
  cases yields with
  | stray first | invalid first short =>
    simp [Failure.mapSite, LineError.mapSite, Position.relocate, Site.behind, Position.siteAlong,
      Position.along, Position.origin, Int.add_comm]
  | overlong first overlong => rfl

theorem division_parted (division : Division a pieces []) (parted : Parted a b) :
    Division (a ++ b) pieces b := by
  have parts := division_text division
  rw [List.append_nil] at parts
  have joined := division_onto division (lastEndsBefore_of_parted division parted)
  rwa [parts] at joined

/-- Behind a text that is read the next is tokenized as it is alone. -/
theorem tokenize_append_of_ok {first second : String} {ts : List Token}
    (parted : Parted first.toList second.toList) (read : tokenize source first = .ok ts) :
    tokenize source (first ++ second) =
      ((tokenize source second).mapError (Failure.mapSite (Site.behind first.length))).map
        (ts ++ ·) := by
  obtain ⟨pieces, division, reads⟩ := division_of_tokenize read
  have joined : Division (first ++ second).toList pieces second.toList := by
    rw [String.toList_append]
    exact division_parted division parted
  have width : Piece.width pieces = first.length := by
    rw [← String.length_toList, length_of_division division]
    rfl
  obtain ⟨n, yields⟩ := tokenize_yields source second
  rw [tokenize_of_division source joined reads, String.ofList_toList, width]
  cases outcome : tokenize source second with
  | ok us => rfl
  | error failure =>
    rw [outcome] at yields
    simp only [Except.mapError, relocate_eq_behind yields]

theorem firstStray_append {char : Char} (first : FirstStray a pieces char rest) (b : List Char) :
    FirstStray (a ++ b) pieces char (rest ++ b) := by
  have onto := firstStray_onto first (rest ++ b)
  rwa [← List.cons_append, ← List.append_assoc, division_text first.division] at onto

theorem firstOutside_append {l : Literal} (first : FirstOutside a pieces l rest)
    (parted : Parted a b) : FirstOutside (a ++ b) pieces l (rest ++ b) := by
  have parts := division_text first.division
  have ends : l.EndsBefore (rest ++ b) := by
    cases rest with
    | nil =>
      rw [List.append_nil] at parts
      rw [← parts] at parted
      exact endsBefore_of_parted first.lexeme parted
    | cons c rest => exact endsBefore_congr first.ends rfl
  have onto := firstOutside_onto first ends
  rwa [← List.append_assoc, ← List.append_assoc, List.append_assoc _ l.text, parts] at onto

/- A stray character is met whatever follows it. -/
theorem yields_append_of_stray {p : Position} {character : Option String} {site : Site}
    (yields : Yields source p a (.error (.line (.unexpectedCharacter character site))) n)
    (b : List Char) :
    Yields source p (a ++ b) (.error (.line (.unexpectedCharacter character site))) n := by
  cases yields with
  | stray first => exact .stray (firstStray_append first b)

theorem yields_append_of_error {p : Position} {failure : Failure}
    (yields : Yields source p a (.error failure) n) (parted : Parted a b) :
    Yields source p (a ++ b) (.error failure) n := by
  cases yields with
  | stray first => exact .stray (firstStray_append first b)
  | invalid first short => exact .invalid (firstOutside_append first parted) short
  | overlong first overlong => exact .overlong (firstOutside_append first parted) overlong

theorem tokenize_append_of_stray {first : String} {character : Option String} {site : Site}
    (refused : tokenize source first = .error (.line (.unexpectedCharacter character site)))
    (second : String) :
    tokenize source (first ++ second) =
      .error (.line (.unexpectedCharacter character site)) := by
  obtain ⟨n, yields⟩ := tokenize_yields source first
  rw [refused] at yields
  have longer := yields_append_of_stray yields second.toList
  rw [← String.toList_append] at longer
  exact tokenize_of_yields longer

/-- An error of the first text is the error of both. -/
theorem tokenize_append_of_error {first second : String} {failure : Failure}
    (parted : Parted first.toList second.toList)
    (refused : tokenize source first = .error failure) :
    tokenize source (first ++ second) = .error failure := by
  obtain ⟨n, yields⟩ := tokenize_yields source first
  rw [refused] at yields
  have longer := yields_append_of_error yields parted
  rw [← String.toList_append] at longer
  exact tokenize_of_yields longer

end LineCalc
