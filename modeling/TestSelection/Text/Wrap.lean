/-!
# Breaking text into lines

A text is broken between words, and after a hyphen in a word. Each line takes as many words as fit
into its width; a word that is too long for any line has a line of its own.

The text itself is not changed: put together, the lines are the text without the blanks at the
breaks.
-/

namespace TestSelection.Text

/-- Whether a character can stand before or after a hyphen inside of a word. -/
def isWordChar (c : Char) : Bool := c.isAlphanum

/-- The words of a text, each with the blanks after it. The first argument is the character before
the text. -/
def wordsAfter (before : Char) : List Char → List (List Char)
  | [] => []
  | c :: rest =>
    let words := wordsAfter c rest
    let breaks :=
      match rest with
      | next :: _ => (c = ' ' && next ≠ ' ') || (c = '-' && isWordChar before && isWordChar next)
      | [] => true
    if breaks then [c] :: words
    else
      match words with
      | word :: more => (c :: word) :: more
      | [] => [[c]]

/-- The words of a text, each with the blanks after it. -/
def words (text : List Char) : List (List Char) := wordsAfter ' ' text

/-- A text without the blanks at its end. -/
def dropBlanksAtEnd (text : List Char) : List Char := (text.reverse.dropWhile (· = ' ')).reverse

/-- Put words on lines. The first line is begun already; it and the others have their widths. -/
def fill (width others : Nat) : List Char → List (List Char) → List (List Char)
  | line, [] => [dropBlanksAtEnd line]
  | line, word :: more =>
    if line ≠ [] ∧ width < line.length + (dropBlanksAtEnd word).length then
      dropBlanksAtEnd line :: fill others others word more
    else fill width others (line ++ word) more

/-- The lines of a text, given the width of the first line and of the others. -/
def wrap (first others : Nat) (text : String) : List String :=
  (fill first others [] (words text.toList)).map String.ofList

end TestSelection.Text
