/-!
# Why a regular expression is refused

A refusal names the text of the expression and one reason. Most reasons are faults in the text; the
last few arise later, when the text is understood and the expression cannot be put to use.
-/

namespace TestSelection.Regex

/-- The deepest nesting of groups, repetitions and classes. -/
def nestLimit : Nat := 250

/-- The largest size of a program, in bytes. -/
def sizeLimit : Nat := 10485760

/-- A reason to refuse an expression. -/
inductive Reason where
  | backreference
  | lookAround
  | classEscape
  | classRangeOrder
  | classRangeBoundary
  | classUnclosed
  | classPropertyName
  | decimalEmpty
  | decimalRange
  | hexEmpty
  | hexScalar
  | hexDigit
  | escapeCutOff
  | escapeUnknown
  | flagNegationDangling
  | flagDuplicate
  | flagNegationTwice
  | flagCutOff
  | flagUnknown
  | groupNameDuplicate
  | groupNameEmpty
  | groupNameChar
  | groupNameUnclosed
  | groupUnclosed
  | groupUnopened
  | nestLimit
  | repetitionOrder
  | repetitionCount
  | repetitionUnclosed
  | repetitionMissing
  | wordBoundaryUnclosed
  | wordBoundaryUnknown
  | wordBoundaryCutOff
  | unicodeNotAllowed
  | invalidUtf8
  | propertyUnknown
  | propertyValueUnknown
  | tooLarge
  /-- The expression is understood, and its anchored form cannot be read. -/
  | anchoredForm
deriving DecidableEq, Repr

/-- The wording of a reason. Of an anchored form that cannot be read, it is the first line only: the
lines after it, which draw the form and point at the fault, are left out. -/
def Reason.message : Reason → String
  | .backreference => "backreferences are not supported"
  | .lookAround => "look-around, including look-ahead and look-behind, is not supported"
  | .classEscape => "invalid escape sequence found in character class"
  | .classRangeOrder => "invalid character class range, the start must be <= the end"
  | .classRangeBoundary => "invalid range boundary, must be a literal"
  | .classUnclosed => "unclosed character class"
  | .classPropertyName => "invalid Unicode character class"
  | .decimalEmpty => "decimal literal empty"
  | .decimalRange => "decimal literal invalid"
  | .hexEmpty => "hexadecimal literal empty"
  | .hexScalar => "hexadecimal literal is not a Unicode scalar value"
  | .hexDigit => "invalid hexadecimal digit"
  | .escapeCutOff => "incomplete escape sequence, reached end of pattern prematurely"
  | .escapeUnknown => "unrecognized escape sequence"
  | .flagNegationDangling => "dangling flag negation operator"
  | .flagDuplicate => "duplicate flag"
  | .flagNegationTwice => "flag negation operator repeated"
  | .flagCutOff => "expected flag but got end of regex"
  | .flagUnknown => "unrecognized flag"
  | .groupNameDuplicate => "duplicate capture group name"
  | .groupNameEmpty => "empty capture group name"
  | .groupNameChar => "invalid capture group character"
  | .groupNameUnclosed => "unclosed capture group name"
  | .groupUnclosed => "unclosed group"
  | .groupUnopened => "unopened group"
  | .nestLimit =>
    "exceed the maximum number of nested parentheses/brackets (" ++ toString Regex.nestLimit ++ ")"
  | .repetitionOrder => "invalid repetition count range, the start must be <= the end"
  | .repetitionCount => "repetition quantifier expects a valid decimal"
  | .repetitionUnclosed => "unclosed counted repetition"
  | .repetitionMissing => "repetition operator missing expression"
  | .wordBoundaryUnclosed =>
    "special word boundary assertion is either unclosed or contains an invalid character"
  | .wordBoundaryUnknown =>
    "unrecognized special word boundary assertion, valid choices are: start, end, start-half " ++
      "or end-half"
  | .wordBoundaryCutOff =>
    "found either the beginning of a special word boundary or a bounded repetition on a \\b " ++
      "with an opening brace, but no closing brace"
  | .unicodeNotAllowed => "Unicode not allowed here"
  | .invalidUtf8 => "pattern can match invalid UTF-8"
  | .propertyUnknown => "Unicode property not found"
  | .propertyValueUnknown => "Unicode property value not found"
  | .tooLarge => "compiled regex exceeds size limit of " ++ toString Regex.sizeLimit ++ " bytes"
  | .anchoredForm => "regex parse error:"

end TestSelection.Regex

namespace TestSelection

/-- A refused expression. -/
structure RegexError where
  pattern : String
  reason : Regex.Reason
deriving DecidableEq, Repr

/-- The wording of a refusal. -/
def RegexError.message (e : RegexError) : String :=
  "invalid regex `" ++ e.pattern ++ "`: " ++ e.reason.message

end TestSelection
