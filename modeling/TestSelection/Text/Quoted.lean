import TestSelection.Unicode.Property

/-!
# Quoted text in messages

Messages show a text between quotes. Quotes, backslashes and the common control characters are
written with a backslash, and any other character that cannot be seen on its own is written by its
number in braces: unassigned and control characters, every space but the common one, and marks
that attach to the character before them.
-/

namespace TestSelection.Text

/-- Characters that leave no mark on paper. -/
def invisible : Unicode.CodeSet :=
  Unicode.Property.category ["Cc", "Cf", "Cs", "Co", "Cn", "Zl", "Zp", "Zs"]

/-- Whether a character is written by its number. -/
def isHidden (c : Char) : Bool :=
  c != ' ' && (invisible.mem c.toNat || Unicode.Property.graphemeExtend.mem c.toNat)

/-- A character as it stands between the quotes. -/
def quoteChar (c : Char) : String :=
  if c = '"' then "\\\""
  else if c = '\\' then "\\\\"
  else if c = '\x00' then "\\0"
  else if c = '\t' then "\\t"
  else if c = '\n' then "\\n"
  else if c = '\r' then "\\r"
  else if isHidden c then "\\u\x7b" ++ String.ofList (Nat.toDigits 16 c.toNat) ++ "\x7d"
  else c.toString

/-- A text between quotes. -/
def quoted (text : String) : String := "\"" ++ String.join (text.toList.map quoteChar) ++ "\""

end TestSelection.Text
