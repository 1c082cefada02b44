import TestSelection.Files
import TestSelection.Filter
import TestSelection.Rule.Validation

/-!
# Making filters of rules

A rule is checked as a whole before any file is read. Then the files are read in the order in which
they occur, and the first that cannot be read is reported.

A file of values has one value on a line. White space around a value does not belong to it, and
lines without a value are passed over.
-/

namespace TestSelection

/-! ## Files of values -/

/-- The values in the text of a file, each once. -/
def valuesOfText (text : String) : List String :=
  (((Text.lines text.toList).map Text.trim).filter fun v => !v.isEmpty).map String.ofList
    |>.eraseDups

/-- Where rules find their files: a way to read, and the directory of relative paths. -/
structure Context where
  access : FileAccess
  baseDir : Option Path

/-- The path of a file that a rule names. -/
def Context.resolve (cx : Context) (p : Path) : Path :=
  match cx.baseDir with
  | some dir => dir.join p
  | none => p

/-- The text of a file that a rule names. -/
def Context.readText (cx : Context) (p : Path) : Except ReadError String :=
  cx.access.readText (cx.resolve p)

/-! ## Compiling -/

/-- Why a rule cannot be made into a filter. -/
inductive CompileError where
  | invalid (cause : InvalidRule)
  | unreadable (kind : RuleKind) (path : Path) (cause : ReadError)
deriving DecidableEq

/-- The wording of a failure. -/
def CompileError.message : CompileError → String
  | .invalid cause => cause.message
  | .unreadable kind path _ =>
    "failed to read values for " ++ kind.name ++ " filter from `" ++ path.text ++ "`"

/-- The matcher of a source. -/
def SoleSource.compile (cx : Context) (kind : RuleKind) : SoleSource → Except CompileError Matcher
  | .regex r => .ok (.regex r)
  | .values vs => .ok (.values vs.eraseDups)
  | .file path =>
    match cx.readText path with
    | .ok text => .ok (.values (valuesOfText text))
    | .error cause => .error (.unreadable kind (cx.resolve path) cause)

/-- The matcher of a simple rule. -/
def Source.compile (cx : Context) (kind : RuleKind) (s : Source) : Except CompileError Matcher :=
  match s.sole kind with
  | .ok source => source.compile cx kind
  | .error cause => .error (.invalid cause)

/-- The bucket of a rule on buckets; its numbers are not negative. -/
def Fragment.ofRule (index count : Int32) : Fragment :=
  ⟨index.toInt.natAbs.toUInt64, count.toInt.natAbs.toUInt64⟩

namespace Rule

mutual

/-- Compile a rule that was checked. -/
def compileChecked (cx : Context) : Rule → Except CompileError Filter
  | .simple attr source => do return .simple attr (← source.compile cx (.simple attr))
  | .annotationData name value => .ok (.annotationData name value)
  | .fragmentation index count => .ok (.fragment (.ofRule index count))
  | .composition operator rules => do return .composition operator (← compileEach cx rules)

/-- Compile rules that were checked, one after the other. -/
def compileEach (cx : Context) : List Rule → Except CompileError (List Filter)
  | [] => .ok []
  | r :: rs => do
    let f ← compileChecked cx r
    return f :: (← compileEach cx rs)

end

/-- Check a rule, then compile it. -/
def compile (cx : Context) (r : Rule) : Except CompileError Filter :=
  match r.validate with
  | .ok () => r.compileChecked cx
  | .error cause => .error (.invalid cause)

end Rule

/-! ## What is read -/

/-- A file that was read for a rule, and the number of its values. -/
structure FileRead where
  kind : RuleKind
  path : Path
  count : Nat
deriving DecidableEq, Repr

namespace Rule

mutual

/-- The files of a rule, in the order in which they are read. -/
def files : Rule → List (RuleKind × Path)
  | .simple attr source =>
    match source.sole (.simple attr) with
    | .ok (.file file) => [(.simple attr, file)]
    | _ => []
  | .annotationData _ _ => []
  | .fragmentation _ _ => []
  | .composition _ rules => filesOf rules

/-- The files of rules. -/
def filesOf : List Rule → List (RuleKind × Path)
  | [] => []
  | r :: rs => files r ++ filesOf rs

end

/-- Read files up to the first that cannot be read. -/
def readFiles (cx : Context) : List (RuleKind × Path) → List FileRead
  | [] => []
  | (kind, file) :: rest =>
    match cx.readText file with
    | .ok text => ⟨kind, cx.resolve file, (valuesOfText text).length⟩ :: readFiles cx rest
    | .error _ => []

/-- The files that are read when a rule is compiled. -/
def reads (cx : Context) (r : Rule) : List FileRead :=
  match r.validate with
  | .ok () => readFiles cx r.files
  | .error _ => []

end Rule

end TestSelection
