/-!
# Styles

A style is a list of codes for a terminal. A styled text stands between the sequence that turns the
style on and the one that turns all styles off. Without codes, a text is written as it is.
-/

namespace TestSelection

/-- The codes of a style. -/
structure Style where
  codes : List String
deriving DecidableEq, Repr, Inhabited

namespace Style

def plain : Style := ⟨[]⟩
def bold : Style := ⟨["1"]⟩
def dimmed : Style := ⟨["2"]⟩
def red : Style := ⟨["31"]⟩
def green : Style := ⟨["32"]⟩
def yellow : Style := ⟨["33"]⟩
def blue : Style := ⟨["34"]⟩
def magenta : Style := ⟨["35"]⟩
def cyan : Style := ⟨["36"]⟩

/-- Both styles at once. -/
def and (s t : Style) : Style := ⟨s.codes ++ t.codes⟩

/-- The sequence that turns a style on. -/
def on (s : Style) : String := "\x1b[" ++ ";".intercalate s.codes ++ "m"

/-- The sequence that turns all styles off. -/
def off : String := "\x1b[0m"

/-- A text in a style. -/
def apply (s : Style) (text : String) : String :=
  if s.codes.isEmpty then text else s.on ++ text ++ off

end Style

end TestSelection
