import TestSelection.Proofs.Compilation

/-!
# When compiling fails

A rule is looked at twice before it becomes a filter: it is checked, and then it is turned into a
filter, for which its files are read. This file says which of the two fails, and with which error.

**Theorem (`compile_outcome`).** A rule that is not in order fails to compile because of that, in
whatever directory, so an invalid part of a rule counts for more than a missing file in front of it.
A rule that is in order compiles if all files that it names can be read as text. If not, the error
is about the first of them that cannot, from left to right through the tree.

The second pass reads files and does nothing else that could fail. `checkFiles` is what is left of
it without the filters, and `checkFiles_namedFiles` says that nothing is lost; the rest is about
lists of files only.
-/

namespace TestSelection

variable {cx : Context}

/-! ## Files that can be read -/

namespace Context

variable {p : Path}

/-- A file that a rule names is there, and is text. -/
def Readable (cx : Context) (p : Path) : Prop :=
  ∃ bytes text, cx.access.read (cx.resolve p) = .ok bytes ∧ Utf8.decode? bytes = some text

/-- How a file that a rule names fails to be read as text. -/
inductive FailsToRead (cx : Context) (p : Path) : ReadError → Prop
  /-- There are no bytes to be had. -/
  | noBytes {cause : ReadError} (h : cx.access.read (cx.resolve p) = .error cause) :
      FailsToRead cx p cause
  /-- The bytes are no text. -/
  | notText {bytes : List UInt8} (h : cx.access.read (cx.resolve p) = .ok bytes)
      (hbytes : Utf8.decode? bytes = none) : FailsToRead cx p .notText

/-- The first of some files that fails to be read, and how. -/
def FirstUnreadable (cx : Context) (files : List (RuleKind × Path)) (kind : RuleKind) (p : Path)
    (cause : ReadError) : Prop :=
  ∃ before after, files = before ++ (kind, p) :: after ∧ (∀ x ∈ before, cx.Readable x.2) ∧
    cx.FailsToRead p cause

theorem readText_eq_ok_iff {text : String} :
    cx.readText p = .ok text ↔
      ∃ bytes, cx.access.read (cx.resolve p) = .ok bytes ∧ Utf8.decode? bytes = some text := by
  rw [readText, FileAccess.readText, bind_eq_ok_iff]
  refine exists_congr fun bytes => and_congr_right fun _ => ?_
  cases Utf8.decode? bytes with
  | none => simp
  | some text' => exact pure_eq_ok_iff.trans (by rw [Option.some_inj, eq_comm])

theorem exists_readText_iff : (∃ text, cx.readText p = .ok text) ↔ cx.Readable p := by
  simp only [readText_eq_ok_iff, Readable]
  exact exists_comm

theorem readText_eq_error_iff {cause : ReadError} :
    cx.readText p = .error cause ↔ cx.FailsToRead p cause := by
  rw [readText, FileAccess.readText]
  constructor
  · intro h
    cases hread : cx.access.read (cx.resolve p) with
    | error cause' =>
      rw [hread] at h
      cases h
      exact .noBytes hread
    | ok bytes =>
      cases htext : Utf8.decode? bytes with
      | none =>
        simp only [hread, bind, Except.bind, htext] at h
        cases h
        exact .notText hread htext
      | some text => simp [hread, bind, Except.bind, htext, pure, Except.pure] at h
  · rintro (hread | ⟨hread, htext⟩)
    · rw [hread]
      rfl
    · simp [hread, bind, Except.bind, htext]

end Context

/-! ## The files of a tree -/

namespace Rule

mutual

/-- The files that the simple rules of a tree name, from left to right, with the kinds of the
rules. -/
def namedFiles : Rule → List (RuleKind × Path)
  | .simple attr source => (source.file.map fun file => (RuleKind.simple attr, file)).toList
  | .annotationData _ _ => []
  | .fragmentation _ _ => []
  | .composition _ rules => namedFilesOf rules

/-- The files that rules name. -/
def namedFilesOf : List Rule → List (RuleKind × Path)
  | [] => []
  | r :: rs => namedFiles r ++ namedFilesOf rs

end

/-- Read files, one after the other, and forget what is in them. -/
def checkFiles (cx : Context) : List (RuleKind × Path) → Except CompileError Unit
  | [] => .ok ()
  | (kind, file) :: rest =>
    match cx.readText file with
    | .ok _ => checkFiles cx rest
    | .error cause => .error (.unreadable kind (cx.resolve file) cause)

theorem checkFiles_append (xs ys : List (RuleKind × Path)) :
    checkFiles cx (xs ++ ys) = checkFiles cx xs >>= fun _ => checkFiles cx ys := by
  induction xs with
  | nil => rfl
  | cons x xs ih =>
    obtain ⟨kind, file⟩ := x
    rw [List.cons_append, checkFiles, checkFiles]
    cases cx.readText file with
    | ok text => exact ih
    | error cause => rfl

theorem checkFiles_eq_ok_iff {files : List (RuleKind × Path)} :
    checkFiles cx files = .ok () ↔ ∀ x ∈ files, cx.Readable x.2 := by
  induction files with
  | nil => simp [checkFiles]
  | cons x files ih =>
    obtain ⟨kind, file⟩ := x
    rw [checkFiles, List.forall_mem_cons, ← ih, ← Context.exists_readText_iff]
    cases cx.readText file with
    | ok text => simp
    | error cause => simp

theorem checkFiles_eq_error_iff {files : List (RuleKind × Path)} {e : CompileError} :
    checkFiles cx files = .error e ↔
      ∃ kind file cause, cx.FirstUnreadable files kind file cause ∧
        e = .unreadable kind (cx.resolve file) cause := by
  constructor
  · intro h
    induction files with
    | nil => cases h
    | cons x files ih =>
      obtain ⟨kind, file⟩ := x
      rw [checkFiles] at h
      cases hread : cx.readText file with
      | ok text =>
        rw [hread] at h
        obtain ⟨kind', file', cause, ⟨before, after, rfl, hbefore, hfails⟩, he⟩ := ih h
        have hfile : cx.Readable file := Context.exists_readText_iff.1 ⟨text, hread⟩
        exact ⟨kind', file', cause, ⟨(kind, file) :: before, after, rfl,
          List.forall_mem_cons.2 ⟨hfile, hbefore⟩, hfails⟩, he⟩
      | error cause =>
        rw [hread] at h
        cases h
        exact ⟨kind, file, cause, ⟨[], files, rfl, by simp, Context.readText_eq_error_iff.1 hread⟩,
          rfl⟩
  · rintro ⟨kind, file, cause, ⟨before, after, rfl, hbefore, hfails⟩, rfl⟩
    rw [checkFiles_append, checkFiles_eq_ok_iff.2 hbefore]
    simp only [bind, Except.bind, checkFiles, Context.readText_eq_error_iff.2 hfails]

/-! ## What compiling reads -/

/-- Whether a result is there, and the error if it is not. -/
def outcome {α : Type} (x : Except CompileError α) : Except CompileError Unit := x.map fun _ => ()

theorem outcome_bind {α β : Type} (x : Except CompileError α) (f : α → β) :
    outcome (x >>= fun a => pure (f a)) = outcome x := by
  cases x <;> rfl

/-- A source that is in order has a file to be read or nothing that could fail. -/
theorem outcome_compile_source {kind : RuleKind} {s : Source} (h : s.validate kind = .ok ()) :
    outcome (s.compile cx kind) =
      checkFiles cx (s.file.map fun file => (kind, file)).toList := by
  obtain ⟨sole, rfl⟩ := Source.validate_eq_ok_iff.1 h
  cases sole with
  | regex r => rfl
  | values vs => rfl
  | file p =>
    simp only [Source.compile, SoleSource.source, Source.ofFile, Source.sole, Source.none,
      SoleSource.compile, Option.map_some, Option.toList_some, checkFiles]
    cases cx.readText p <;> rfl

theorem outcome_compileEach {rules : List Rule}
    (h : ∀ r ∈ rules, outcome (r.compileChecked cx) = checkFiles cx r.namedFiles) :
    outcome (compileEach cx rules) = checkFiles cx (namedFilesOf rules) := by
  induction rules with
  | nil => rfl
  | cons r rules ih =>
    obtain ⟨hr, hrules⟩ := List.forall_mem_cons.1 h
    rw [namedFilesOf, checkFiles_append, ← hr, ← ih hrules, compileEach]
    cases r.compileChecked cx with
    | error e => rfl
    | ok f => exact outcome_bind _ _

/-- To compile a rule that is in order is to read its files and to put a filter together. -/
theorem checkFiles_namedFiles {r : Rule} (h : r.validate = .ok ()) :
    outcome (r.compileChecked cx) = checkFiles cx r.namedFiles := by
  induction r with
  | simple attr source =>
    rw [compileChecked, outcome_bind, namedFiles]
    exact outcome_compile_source h
  | annotationData name value => rfl
  | fragmentation index count => rfl
  | composition operator rules ih =>
    rw [validate, validateAll_eq_ok_iff] at h
    rw [compileChecked, outcome_bind, namedFiles]
    exact outcome_compileEach fun r hr => ih r hr (h r hr)

theorem outcome_compile {r : Rule} (h : r.validate = .ok ()) :
    outcome (r.compile cx) = checkFiles cx r.namedFiles := by
  rw [compile, h]
  exact checkFiles_namedFiles h

/-- A rule that is in order compiles if its files can be read. -/
theorem exists_compile_iff {r : Rule} (h : r.validate = .ok ()) :
    (∃ f, r.compile cx = .ok f) ↔ ∀ x ∈ r.namedFiles, cx.Readable x.2 := by
  rw [← checkFiles_eq_ok_iff, ← outcome_compile h]
  cases r.compile cx <;> simp [outcome, Except.map]

/-- A rule that is in order fails to compile at the first file that cannot be read. -/
theorem compile_eq_error_iff {r : Rule} {e : CompileError} (h : r.validate = .ok ()) :
    r.compile cx = .error e ↔
      ∃ kind file cause, cx.FirstUnreadable r.namedFiles kind file cause ∧
        e = .unreadable kind (cx.resolve file) cause := by
  rw [← checkFiles_eq_error_iff, ← outcome_compile h]
  cases r.compile cx <;> simp [outcome, Except.map]

/-- A rule that is not in order fails to compile for that reason, whatever files there are. -/
theorem compile_of_invalid {r : Rule} {e : InvalidRule} (h : r.validate = .error e) :
    r.compile cx = .error (.invalid e) := by
  rw [compile, h]

end Rule

/-! ## A sample -/

namespace Sample

/-- A directory with a file of values, and rules that start from there. -/
def directory : Context :=
  ⟨(Files.empty.write ⟨"lists/skip.txt"⟩ "com.example\n".toUTF8.toList).access, some ⟨"lists"⟩⟩

/-- A missing file, and then a bucket that does not exist. -/
def disordered : Rule :=
  .composition .union [.simple .method (.ofFile ⟨"gone.txt"⟩), .fragmentation 2 2]

/-- A file that is there, and two that are missing, the first of them one level down. -/
def incomplete : Rule :=
  .composition .union
    [.simple .package (.ofFile ⟨"skip.txt"⟩),
      .composition .subtract [.simple .method (.ofFile ⟨"gone.txt"⟩)],
      .simple .className (.ofFile ⟨"/away.txt"⟩)]

theorem firstUnreadable_incomplete :
    directory.FirstUnreadable incomplete.namedFiles (.simple .method) ⟨"gone.txt"⟩ .notFound := by
  refine ⟨[(.simple .package, ⟨"skip.txt"⟩)], [(.simple .className, ⟨"/away.txt"⟩)], rfl, ?_,
    .noBytes (by decide +kernel)⟩
  simp only [List.forall_mem_singleton]
  exact ⟨"com.example\n".toUTF8.toList, "com.example\n", by decide +kernel, by decide +kernel⟩

end Sample

/-! ## Compiling -/

namespace Rule

/-- **When compiling fails, and how.** A rule that is not in order fails to compile for that reason,
in any directory. A rule that is in order never does; it compiles if each file that it names can be
read as text, and otherwise the error is about the first that cannot. Relative paths start at the
base directory, if there is one, and all other paths stay as they are. -/
theorem compile_outcome (r : Rule) :
    (∀ e, r.validate = .error e → ∀ cx, r.compile cx = .error (.invalid e)) ∧
    (r.validate = .ok () → ∀ cx,
      (∀ e, r.compile cx ≠ .error (.invalid e)) ∧
      ((∃ f, r.compile cx = .ok f) ↔ ∀ x ∈ r.namedFiles, cx.Readable x.2) ∧
      ∀ e, r.compile cx = .error e ↔
        ∃ kind file cause, cx.FirstUnreadable r.namedFiles kind file cause ∧
          e = .unreadable kind (cx.resolve file) cause) ∧
    ∀ (cx : Context) (p : Path),
      (∀ dir, cx.baseDir = some dir → p.isAbsolute = false → cx.resolve p = dir.join p) ∧
      (cx.baseDir = none ∨ p.isAbsolute = true → cx.resolve p = p) := by
  refine ⟨fun e h cx => compile_of_invalid h, fun h cx => ⟨?_, exists_compile_iff h,
    fun e => compile_eq_error_iff h⟩, fun cx p => ⟨?_, ?_⟩⟩
  · intro e he
    obtain ⟨kind, file, cause, -, hcause⟩ := (compile_eq_error_iff h).1 he
    cases hcause
  · intro dir hdir _
    rw [Context.resolve, hdir]
  · rintro (hnone | habs)
    · rw [Context.resolve, hnone]
    · rw [Context.resolve]
      cases cx.baseDir with
      | none => rfl
      | some dir => simp [Path.join, habs]

/-- A bucket that does not exist counts for more than the missing file in front of it, and of two
missing files the first one is reported, at the place to which its path leads. -/
theorem compile_outcome_sample :
    Sample.disordered.validate = .error (.indexOutOfRange 2 2) ∧
      Sample.disordered.compile Sample.directory = .error (.invalid (.indexOutOfRange 2 2)) ∧
      Sample.incomplete.validate = .ok () ∧
      Sample.incomplete.compile Sample.directory =
        .error (.unreadable (.simple .method) ⟨"lists/gone.txt"⟩ .notFound) := by
  have hinvalid : Sample.disordered.validate = .error (.indexOutOfRange 2 2) := by decide +kernel
  have hvalid : Sample.incomplete.validate = .ok () := by decide +kernel
  have hpath : Sample.directory.resolve ⟨"gone.txt"⟩ = ⟨"lists/gone.txt"⟩ := by decide +kernel
  refine ⟨hinvalid, (compile_outcome _).1 _ hinvalid _, hvalid, ?_⟩
  refine (((compile_outcome _).2.1 hvalid Sample.directory).2.2 _).2
    ⟨_, _, _, Sample.firstUnreadable_incomplete, ?_⟩
  rw [hpath]

end Rule

end TestSelection
