import TestSelection.Unicode.GeneralCategory
import TestSelection.Unicode.Listed
import TestSelection.Unicode.Break

/-!
# Binary properties

The properties that hold or do not hold of a character. Most of them are defined by the standard
from categories and lists; those definitions are given here as they stand there. `ofName?` finds a
property by its long name.
-/

namespace TestSelection.Unicode.Property

open Listed

/-- The characters of the categories with the given codes. -/
def category (codes : List String) : CodeSet := GeneralCategory.ofCodes codes

/-! ## Defined properties -/

def lowercase : CodeSet := (category ["Ll"]).union otherLowercase

def uppercase : CodeSet := (category ["Lu"]).union otherUppercase

def cased : CodeSet := .unions [lowercase, uppercase, category ["Lt"]]

def alphabetic : CodeSet :=
  .unions [lowercase, uppercase, category ["Lt", "Lm", "Lo", "Nl"], otherAlphabetic]

def math : CodeSet := (category ["Sm"]).union otherMath

/-- Marks, formats, modifiers, and the punctuation that stands within words. -/
def caseIgnorable : CodeSet :=
  .unions (category ["Mn", "Me", "Cf", "Lm", "Sk"] ::
    ["MidLetter", "MidNumLet", "Single_Quote"].filterMap Break.word.ofName?)

def graphemeExtend : CodeSet := (category ["Mn", "Me"]).union otherGraphemeExtend

def graphemeBase : CodeSet :=
  ((category ["Cc", "Cf", "Cs", "Co", "Cn", "Zl", "Zp"]).union graphemeExtend).compl

/-- The characters of pattern languages, which no identifier contains. -/
def pattern : CodeSet := patternSyntax.union patternWhiteSpace

def idStart : CodeSet :=
  (CodeSet.unions [category ["Lu", "Ll", "Lt", "Lm", "Lo", "Nl"], otherIDStart]).diff pattern

def idContinue : CodeSet :=
  (CodeSet.unions [idStart, category ["Mn", "Mc", "Nd", "Pc"], otherIDContinue]).diff pattern

/-- Starts of identifiers that stay so under normalization. -/
def xidStart : CodeSet := idStart.diff idStartExceptions

/-- Parts of identifiers that stay so under normalization. -/
def xidContinue : CodeSet := idContinue.diff idContinueExceptions

/-- Characters that are not shown unless a program supports them. -/
def defaultIgnorable : CodeSet :=
  (CodeSet.unions [otherDefaultIgnorableCodePoint, category ["Cf"], variationSelector]).diff
    (.unions [whiteSpace, .range 0xFFF9 0xFFFB, .range 0x13430 0x13440, prependedConcatenationMark])

/-- The characters of words: letters, marks, digits, connectors and joiners. -/
def word : CodeSet :=
  .unions [alphabetic, category ["Mn", "Mc", "Me", "Nd", "Pc"], joinControl]

/-- The decimal digits. -/
def decimal : CodeSet := category ["Nd"]

/-! ## Look-up -/

/-- The properties by their long names. -/
def byName : List (String × CodeSet) :=
  [("ASCII_Hex_Digit", asciiHexDigit), ("Alphabetic", alphabetic), ("Bidi_Control", bidiControl),
   ("Bidi_Mirrored", bidiMirrored), ("Case_Ignorable", caseIgnorable), ("Cased", cased),
   ("Changes_When_Casefolded", changesWhenCasefolded),
   ("Changes_When_Casemapped", changesWhenCasemapped),
   ("Changes_When_Lowercased", changesWhenLowercased),
   ("Changes_When_Titlecased", changesWhenTitlecased),
   ("Changes_When_Uppercased", changesWhenUppercased), ("Dash", dash),
   ("Default_Ignorable_Code_Point", defaultIgnorable), ("Deprecated", deprecated),
   ("Diacritic", diacritic), ("Emoji", emoji), ("Emoji_Component", emojiComponent),
   ("Emoji_Modifier", emojiModifier), ("Emoji_Modifier_Base", emojiModifierBase),
   ("Emoji_Presentation", emojiPresentation), ("Extended_Pictographic", extendedPictographic),
   ("Extender", extender), ("Grapheme_Base", graphemeBase), ("Grapheme_Extend", graphemeExtend),
   ("Grapheme_Link", graphemeLink), ("Hex_Digit", hexDigit), ("Hyphen", hyphen),
   ("IDS_Binary_Operator", idsBinaryOperator), ("IDS_Trinary_Operator", idsTrinaryOperator),
   ("IDS_Unary_Operator", idsUnaryOperator), ("ID_Compat_Math_Continue", idCompatMathContinue),
   ("ID_Compat_Math_Start", idCompatMathStart), ("ID_Continue", idContinue),
   ("ID_Start", idStart), ("Ideographic", ideographic), ("Join_Control", joinControl),
   ("Logical_Order_Exception", logicalOrderException), ("Lowercase", lowercase), ("Math", math),
   ("Modifier_Combining_Mark", modifierCombiningMark),
   ("Noncharacter_Code_Point", noncharacterCodePoint), ("Other_Alphabetic", otherAlphabetic),
   ("Other_Default_Ignorable_Code_Point", otherDefaultIgnorableCodePoint),
   ("Other_Grapheme_Extend", otherGraphemeExtend), ("Other_ID_Continue", otherIDContinue),
   ("Other_ID_Start", otherIDStart), ("Other_Lowercase", otherLowercase),
   ("Other_Math", otherMath), ("Other_Uppercase", otherUppercase),
   ("Pattern_Syntax", patternSyntax), ("Pattern_White_Space", patternWhiteSpace),
   ("Prepended_Concatenation_Mark", prependedConcatenationMark),
   ("Quotation_Mark", quotationMark), ("Radical", radical),
   ("Regional_Indicator", regionalIndicator), ("Sentence_Terminal", sentenceTerminal),
   ("Soft_Dotted", softDotted), ("Terminal_Punctuation", terminalPunctuation),
   ("Unified_Ideograph", unifiedIdeograph), ("Uppercase", uppercase),
   ("Variation_Selector", variationSelector), ("White_Space", whiteSpace),
   ("XID_Continue", xidContinue), ("XID_Start", xidStart)]

/-- The characters of a property, by its long name. -/
def ofName? (name : String) : Option CodeSet := byName.lookup name

end TestSelection.Unicode.Property
