import TestSelection.Unicode.Listed

/-!
# Blank characters and lines

A character is blank if it has the property White_Space: the usual spaces and line breaks, and the
typographic spaces of Unicode. To trim a text is to drop its blank characters from both ends.

A line ends with a line feed, or with a carriage return and a line feed. What follows the last end
of a line is a line too, unless there is nothing; a carriage return at its end belongs to it.
-/

namespace TestSelection.Text

/-- Whether a character is white space. -/
def isBlank (c : Char) : Bool := Unicode.Listed.whiteSpace.mem c.toNat

/-- A text without the blank characters at its ends. -/
def trim (text : List Char) : List Char :=
  ((text.dropWhile isBlank).reverse.dropWhile isBlank).reverse

/-- The pieces of a text between the occurrences of a character; there is always one more piece
than occurrences. -/
def pieces (separator : Char) : List Char → List (List Char)
  | [] => [[]]
  | c :: cs =>
    if c = separator then [] :: pieces separator cs
    else
      match pieces separator cs with
      | [] => [[c]]
      | piece :: rest => (c :: piece) :: rest

/-- A line that a line feed ends, without the carriage return before it. -/
def dropReturn (line : List Char) : List Char :=
  if line.getLast? = some '\r' then line.dropLast else line

/-- The lines that are left of the pieces between line feeds. -/
def linesOf : List (List Char) → List (List Char)
  | [] => []
  | [last] => if last.isEmpty then [] else [last]
  | piece :: rest => dropReturn piece :: linesOf rest

/-- The lines of a text, without their ends. -/
def lines (text : List Char) : List (List Char) := linesOf (pieces '\n' text)

end TestSelection.Text
