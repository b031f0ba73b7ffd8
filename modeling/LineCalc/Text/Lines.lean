/-!
Dividing text into lines.
-/
namespace LineCalc.Text

/-- The lines of a text without their ends. A line feed, a carriage return, or the two in this
    order end a line; what follows the last end is a line if it is not empty. -/
def lines : List Char → List (List Char)
  | [] => []
  | '\r' :: '\n' :: rest => [] :: lines rest
  | '\r' :: rest => [] :: lines rest
  | '\n' :: rest => [] :: lines rest
  | c :: rest =>
    match lines rest with
    | [] => [[c]]
    | line :: more => (c :: line) :: more

def isLineEnd (c : Char) : Bool := c == '\r' || c == '\n'

/-- The text without the line ends at its end. -/
def stripLineEnds (text : String) : String :=
  String.ofList (text.toList.reverse.dropWhile isLineEnd).reverse

end LineCalc.Text
