/-!
# Texts and their lines

A text is cut into lines at each newline. One carriage return directly before a newline belongs to
the line end and is dropped; any other carriage return stays in its line. A final newline ends the
last line and starts no further one, so a text is given back by its lines and the fact that it ended
in a newline, unless a dropped carriage return is missing from it.
-/

set_option autoImplicit false

namespace StrategyMend.Text

/-- The lines of a text, without their ends. -/
def lineChars : List Char → List (List Char)
  | [] => []
  | '\n' :: rest => [] :: lineChars rest
  | '\r' :: '\n' :: rest => [] :: lineChars rest
  | c :: rest =>
    match lineChars rest with
    | [] => [[c]]
    | first :: others => (c :: first) :: others

/-- The lines with a newline between neighbours. -/
def joinChars : List (List Char) → List Char
  | [] => []
  | [line] => line
  | line :: next :: others => line ++ '\n' :: joinChars (next :: others)

/-- The lines of a text, without their ends. -/
def splitLines (text : String) : List String := (lineChars text.toList).map String.ofList

/-- Whether the text ends in a newline. -/
def endsInNewline (text : String) : Bool := text.toList.getLast? = some '\n'

/-- The lines as one text, with a newline between neighbours. -/
def unlines (lines : List String) : String := String.ofList (joinChars (lines.map String.toList))

/-- The lines as one text; `trailing` asks for a newline after the last line, if there is one. -/
def joinLines (lines : List String) (trailing : Bool) : String :=
  if trailing && !lines.isEmpty then (unlines lines).push '\n' else unlines lines

/-- The pieces between the newlines of a text; unlike `splitLines`, a final newline is followed by
an empty piece, and the empty text has one piece. -/
def piecesChars : List Char → List (List Char)
  | [] => [[]]
  | '\n' :: rest => [] :: piecesChars rest
  | c :: rest =>
    match piecesChars rest with
    | [] => [[c]]
    | first :: others => (c :: first) :: others

/-- The pieces between the newlines of a text. -/
def pieces (text : String) : List String := (piecesChars text.toList).map String.ofList

end StrategyMend.Text
