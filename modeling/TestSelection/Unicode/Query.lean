import TestSelection.Unicode.Age
import TestSelection.Unicode.Property
import TestSelection.Unicode.Script

/-!
# Asking for characters by name

Properties and their values have long names and short ones. Names are compared loosely: case,
spaces, underscores, hyphens and a leading `is` do not count, nor does anything outside ASCII.

A query is a bare name, which may be a binary property, a general category or a script, tried in
this order, or a property with one of its values. Some properties exist but cannot be asked for
here; to name one of them with a value is to name a value that does not exist.
-/

namespace TestSelection.Unicode.Query

/-! ## Names -/

/-- All properties: the long name and the others. -/
def propertyNames : List (String × List String) :=
  [("Age", ["age"]), ("ASCII_Hex_Digit", ["AHex"]), ("Alphabetic", ["Alpha"]),
   ("Bidi_Class", ["bc"]), ("Bidi_Control", ["Bidi_C"]), ("Bidi_Mirrored", ["Bidi_M"]),
   ("Bidi_Mirroring_Glyph", ["bmg"]), ("Bidi_Paired_Bracket", ["bpb"]),
   ("Bidi_Paired_Bracket_Type", ["bpt"]), ("Block", ["blk"]),
   ("Canonical_Combining_Class", ["ccc"]), ("Case_Folding", ["cf"]),
   ("Case_Ignorable", ["CI"]), ("Cased", []), ("Changes_When_Casefolded", ["CWCF"]),
   ("Changes_When_Casemapped", ["CWCM"]), ("Changes_When_Lowercased", ["CWL"]),
   ("Changes_When_NFKC_Casefolded", ["CWKCF"]), ("Changes_When_Titlecased", ["CWT"]),
   ("Changes_When_Uppercased", ["CWU"]), ("Composition_Exclusion", ["CE"]), ("Dash", []),
   ("Decomposition_Mapping", ["dm"]), ("Decomposition_Type", ["dt"]),
   ("Default_Ignorable_Code_Point", ["DI"]), ("Deprecated", ["Dep"]), ("Diacritic", ["Dia"]),
   ("East_Asian_Width", ["ea"]), ("Emoji", []), ("Emoji_Component", ["EComp"]),
   ("Emoji_Modifier", ["EMod"]), ("Emoji_Modifier_Base", ["EBase"]),
   ("Emoji_Presentation", ["EPres"]), ("Equivalent_Unified_Ideograph", ["EqUIdeo"]),
   ("Expands_On_NFC", ["XO_NFC"]), ("Expands_On_NFD", ["XO_NFD"]),
   ("Expands_On_NFKC", ["XO_NFKC"]), ("Expands_On_NFKD", ["XO_NFKD"]),
   ("Extended_Pictographic", ["ExtPict"]), ("Extender", ["Ext"]),
   ("FC_NFKC_Closure", ["FC_NFKC"]), ("Full_Composition_Exclusion", ["Comp_Ex"]),
   ("General_Category", ["gc"]), ("Grapheme_Base", ["Gr_Base"]),
   ("Grapheme_Cluster_Break", ["GCB"]), ("Grapheme_Extend", ["Gr_Ext"]),
   ("Grapheme_Link", ["Gr_Link"]), ("Hangul_Syllable_Type", ["hst"]), ("Hex_Digit", ["Hex"]),
   ("Hyphen", []), ("ID_Compat_Math_Continue", []), ("ID_Compat_Math_Start", []),
   ("ID_Continue", ["IDC"]), ("Ideographic", ["Ideo"]), ("ID_Start", ["IDS"]),
   ("IDS_Binary_Operator", ["IDSB"]), ("IDS_Trinary_Operator", ["IDST"]),
   ("IDS_Unary_Operator", ["IDSU"]), ("Indic_Conjunct_Break", ["InCB"]),
   ("Indic_Positional_Category", ["InPC"]), ("Indic_Syllabic_Category", ["InSC"]),
   ("ISO_Comment", ["isc"]), ("Jamo_Short_Name", ["JSN"]), ("Join_Control", ["Join_C"]),
   ("Joining_Group", ["jg"]), ("Joining_Type", ["jt"]),
   ("kAccountingNumeric", ["cjkAccountingNumeric"]),
   ("kCompatibilityVariant", ["cjkCompatibilityVariant"]), ("kIICore", ["cjkIICore"]),
   ("kIRG_GSource", ["cjkIRG_GSource"]), ("kIRG_HSource", ["cjkIRG_HSource"]),
   ("kIRG_JSource", ["cjkIRG_JSource"]), ("kIRG_KPSource", ["cjkIRG_KPSource"]),
   ("kIRG_KSource", ["cjkIRG_KSource"]), ("kIRG_MSource", ["cjkIRG_MSource"]),
   ("kIRG_SSource", ["cjkIRG_SSource"]), ("kIRG_TSource", ["cjkIRG_TSource"]),
   ("kIRG_UKSource", ["cjkIRG_UKSource"]), ("kIRG_USource", ["cjkIRG_USource"]),
   ("kIRG_VSource", ["cjkIRG_VSource"]), ("kOtherNumeric", ["cjkOtherNumeric"]),
   ("kPrimaryNumeric", ["cjkPrimaryNumeric"]),
   ("kRSUnicode", ["cjkRSUnicode", "Unicode_Radical_Stroke", "URS"]), ("kEH_Cat", []),
   ("kEH_Desc", []), ("kEH_HG", []), ("kEH_IFAO", []), ("kEH_JSesh", []), ("kEH_NoMirror", []),
   ("kEH_NoRotate", []), ("Line_Break", ["lb"]), ("Logical_Order_Exception", ["LOE"]),
   ("Lowercase", ["Lower"]), ("Lowercase_Mapping", ["lc"]), ("Math", []),
   ("Modifier_Combining_Mark", ["MCM"]), ("Name", ["na"]), ("Name_Alias", []),
   ("NFC_Quick_Check", ["NFC_QC"]), ("NFD_Quick_Check", ["NFD_QC"]),
   ("NFKC_Casefold", ["NFKC_CF"]), ("NFKC_Quick_Check", ["NFKC_QC"]),
   ("NFKC_Simple_Casefold", ["NFKC_SCF"]), ("NFKD_Quick_Check", ["NFKD_QC"]),
   ("Noncharacter_Code_Point", ["NChar"]), ("Numeric_Type", ["nt"]), ("Numeric_Value", ["nv"]),
   ("Other_Alphabetic", ["OAlpha"]), ("Other_Default_Ignorable_Code_Point", ["ODI"]),
   ("Other_Grapheme_Extend", ["OGr_Ext"]), ("Other_ID_Continue", ["OIDC"]),
   ("Other_ID_Start", ["OIDS"]), ("Other_Lowercase", ["OLower"]), ("Other_Math", ["OMath"]),
   ("Other_Uppercase", ["OUpper"]), ("Pattern_Syntax", ["Pat_Syn"]),
   ("Pattern_White_Space", ["Pat_WS"]), ("Prepended_Concatenation_Mark", ["PCM"]),
   ("Quotation_Mark", ["QMark"]), ("Radical", []), ("Regional_Indicator", ["RI"]),
   ("Script", ["sc"]), ("Script_Extensions", ["scx"]), ("Sentence_Break", ["SB"]),
   ("Sentence_Terminal", ["STerm"]), ("Simple_Case_Folding", ["scf", "sfc"]),
   ("Simple_Lowercase_Mapping", ["slc"]), ("Simple_Titlecase_Mapping", ["stc"]),
   ("Simple_Uppercase_Mapping", ["suc"]), ("Soft_Dotted", ["SD"]),
   ("Terminal_Punctuation", ["Term"]), ("Titlecase_Mapping", ["tc"]),
   ("Unicode_1_Name", ["na1"]), ("Unified_Ideograph", ["UIdeo"]), ("Uppercase", ["Upper"]),
   ("Uppercase_Mapping", ["uc"]), ("Variation_Selector", ["VS"]),
   ("Vertical_Orientation", ["vo"]), ("White_Space", ["WSpace", "space"]),
   ("Word_Break", ["WB"]), ("XID_Continue", ["XIDC"]), ("XID_Start", ["XIDS"])]

/-- A name with everything dropped that does not count. -/
def looseChars (name : List Char) : List Char :=
  let isPrefixed := name.length ≥ 2 && (name.take 2).map Char.toLower == ['i', 's']
  let body := ((if isPrefixed then name.drop 2 else name).filter fun c =>
    c != ' ' && c != '_' && c != '-' && c.toNat < 0x80).map Char.toLower
  -- The name of one property is `isc`, which would lose its beginning.
  if isPrefixed && body == ['c'] then ['i', 's', 'c'] else body

/-- A name with everything dropped that does not count. -/
def loose (name : String) : String := String.ofList (looseChars name.toList)

/-- The long name of the first entry that has a loose name among its own. -/
def resolve? (entries : List (String × List String)) (name : String) : Option String :=
  (entries.find? fun (long, others) => (long :: others).any (loose · == name)).map (·.1)

/-- Pairs of short and long names, as entries. -/
def entries (pairs : List (String × String)) : List (String × List String) :=
  pairs.map fun (short, long) => (long, [short])

def property? (name : String) : Option String := resolve? propertyNames name

def categoryEntries : List (String × List String) :=
  let groups := GeneralCategory.groups.map fun (short, long, _) => (short, long)
  entries (GeneralCategory.names ++ groups ++ GeneralCategory.otherNames)

/-- A general category, or one of three names for sets of categories. -/
def category? (name : String) : Option String :=
  if name == "any" then some "Any"
  else if name == "assigned" then some "Assigned"
  else if name == "ascii" then some "ASCII"
  else resolve? categoryEntries name

def script? (name : String) : Option String :=
  resolve? (entries (Script.names ++ Script.otherNames ++ Script.emptyNames)) name

/-- An age, as `V6_0` or as `6.0`. -/
def age? (name : String) : Option String :=
  resolve? (Age.names.map fun long =>
    (long, if long == "Unassigned" then ["NA"]
      else [String.ofList ((long.toList.drop 1).map fun c => if c = '_' then '.' else c)])) name

def breakClass? (p : Break.Partition) (name : String) : Option String :=
  resolve? (entries (p.names ++ p.oldNames)) name

/-! ## Answers -/

/-- Why there is no answer. -/
inductive Failure where
  | noProperty
  | noValue
deriving DecidableEq, Repr

/-- The characters of a general category, by its long name. -/
def categorySet (name : String) : Except Failure CodeSet :=
  if name == "Any" then .ok .all
  else if name == "ASCII" then .ok (.range 0 0x7F)
  else if name == "Assigned" then .ok (GeneralCategory.ofCodes ["Cn"]).compl
  else found (GeneralCategory.ofName? name)
where
  /-- A value without characters of its own counts as no value. -/
  found (set : Option CodeSet) : Except Failure CodeSet :=
    match set with
    | some set => .ok set
    | none => .error .noValue

/-- The characters that a bare name stands for. The names `cf`, `sc` and `lc` mean general
categories, although there are properties of these names. -/
def named (name : String) : Except Failure CodeSet :=
  let name := loose name
  let isProperty := name != "cf" && name != "sc" && name != "lc"
  match if isProperty then property? name else none with
  | some long =>
    match Property.ofName? long with
    | some set => .ok set
    | none => .error .noProperty
  | none =>
    match category? name with
    | some long => categorySet long
    | none =>
      match script? name with
      | some long => categorySet.found (Script.ofName? long)
      | none => .error .noProperty

/-- The characters for which a property has a value. -/
def withValue (property value : String) : Except Failure CodeSet :=
  let value := loose value
  let choose (long : Option String) (set : String → Option CodeSet) : Except Failure CodeSet :=
    categorySet.found (long.bind set)
  match property? (loose property) with
  | none => .error .noProperty
  | some "General_Category" =>
    match category? value with
    | some long => categorySet long
    | none => .error .noValue
  | some "Script" => choose (script? value) Script.ofName?
  | some "Script_Extensions" => choose (script? value) Script.extensionOfName?
  | some "Age" => choose (age? value) Age.upTo?
  | some "Grapheme_Cluster_Break" =>
    choose (breakClass? Break.grapheme value) Break.grapheme.ofName?
  | some "Word_Break" => choose (breakClass? Break.word value) Break.word.ofName?
  | some "Sentence_Break" => choose (breakClass? Break.sentence value) Break.sentence.ofName?
  | some _ => .error .noValue

end TestSelection.Unicode.Query
