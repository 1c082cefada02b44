import TestSelection.Program
import TestSelection.Proofs.Selection.Failure

/-!
# What comes of a run

**Theorem (`Program.select_outcome`).** A run that selects tests does three things that can fail, in
this order: it loads the configuration, makes the selector and reads the tests. The first of them
that fails gives the exit code, and nothing is written. If all three succeed, the report is written,
and only then does it matter whether a selection may be empty. So this option does not change the
output, and if checking the configuration alone succeeds, then an exit code that says something else
is due to a file of values.

The steps of a run give messages on the way, which say nothing about what comes of it. Without the
messages, a step is a result (`Step.result`), the three steps are three results one after the other
(`result_prepare`), and the rest of a run only looks at what comes of them (`ends_of_prepare_error`,
`ends_of_prepare_ok`).
-/

namespace TestSelection

variable {access : FileAccess} {options : SelectOptions}

/-! ## Results of steps -/

namespace Step

variable {α β : Type}

theorem result_bind (x : Step α) (f : α → Step β) :
    (x >>= f).result = x.result >>= fun a => (f a).result := by
  show (x.andThen f).result = _
  unfold andThen
  cases x.result <;> rfl

theorem result_pure (a : α) : (pure a : Step α).result = .ok a := rfl

theorem result_say (log : List LogMessage) : (say log).result = .ok () := rfl

theorem result_of (result : Except Failure α) : (of result).result = result := rfl

end Step

theorem result_loadConfig_eq (access : FileAccess) (file : Path) :
    (loadConfig access file).result = (Config.load access file).result.mapError .config := by
  simp only [loadConfig, Step.result_bind, Step.result_say, Step.result_of, Step.result_pure]
  cases (Config.load access file).result <;> rfl

theorem result_compileConfig (access : FileAccess) (c : Config) :
    (compileConfig access c).result =
      (Selector.ofSpecification (c.context access) c.spec).mapError .selector := by
  simp only [compileConfig, Step.result_bind, Step.result_say, Step.result_of, Step.result_pure,
    Selector.ofSpecification]
  cases Selector.compileList (c.context access) .allowlist c.spec.allowlist with
  | error e => rfl
  | ok f => cases Selector.compileList (c.context access) .blocklist c.spec.blocklist <;> rfl

theorem result_readTests (access : FileAccess) (file : Path) :
    (readTests access file).result = (TestList.ofFile access file).mapError .testList := by
  simp only [readTests, Step.result_bind, Step.result_say, Step.result_of, Step.result_pure]
  cases TestList.ofFile access file <;> rfl

/-- Selecting tests is loading, compiling and reading, one after the other. -/
theorem result_prepare (access : FileAccess) (options : SelectOptions) :
    (prepare access options).result = do
      let c ← (Config.load access options.config).result.mapError .config
      let s ← (Selector.ofSpecification (c.context access) c.spec).mapError .selector
      let tests ← (TestList.ofFile access options.tests).mapError .testList
      return s.select tests := by
  simp only [prepare, Step.result_bind, Step.result_say, Step.result_pure, result_loadConfig_eq,
    result_compileConfig, result_readTests]
  rfl

section

variable {c : Config} {s : Selector}

theorem prepare_of_load_error {e : ConfigError}
    (h : (Config.load access options.config).result = .error e) :
    (prepare access options).result = .error (.config e) := by
  rw [result_prepare, h]
  rfl

theorem prepare_of_selector_error {e : SelectorError}
    (hload : (Config.load access options.config).result = .ok c)
    (h : Selector.ofSpecification (c.context access) c.spec = .error e) :
    (prepare access options).result = .error (.selector e) := by
  rw [result_prepare, hload]
  simp only [Except.mapError, bind, Except.bind, h]

theorem prepare_of_tests_error {e : TestListError}
    (hload : (Config.load access options.config).result = .ok c)
    (hspec : Selector.ofSpecification (c.context access) c.spec = .ok s)
    (h : TestList.ofFile access options.tests = .error e) :
    (prepare access options).result = .error (.testList e) := by
  rw [result_prepare, hload]
  simp only [Except.mapError, bind, Except.bind, hspec, h]

theorem prepare_of_ok {tests : List TestCase}
    (hload : (Config.load access options.config).result = .ok c)
    (hspec : Selector.ofSpecification (c.context access) c.spec = .ok s)
    (h : TestList.ofFile access options.tests = .ok tests) :
    (prepare access options).result = .ok (s.select tests) := by
  rw [result_prepare, hload]
  simp only [Except.mapError, bind, Except.bind, hspec, h]
  rfl

end

/-! ## Output -/

/-- A sink without a limit takes the whole report. -/
theorem Selection.deliver_endless (s : Selection) (format : ReportFormat) (color : Bool) :
    s.deliver format color (.ofDevice .endless) =
      (⟨.endless, (s.text format color).toUTF8.toList.reverse⟩, .ok ()) := by
  rw [deliver, write_endless]
  rfl

/-- A sink without a limit takes the line on a configuration that is in order. -/
theorem Config.result_writeValid_endless (c : Config) :
    (c.writeValid (.ofDevice .endless)).2 = .ok () := by
  rw [writeValid, Sink.deliver, Sink.ofDevice, Sink.write_endless]
  rfl

/-! ## Runs of the program -/

namespace Program

variable (env : Environment) (access : FileAccess) (verbose : Bool) (color : ColorChoice)

/-- The end of a run that selects tests, with an output that takes everything. -/
def selecting (options : SelectOptions) : Ending :=
  follow env access .endless ⟨verbose, color, .select options⟩

/-- The end of a run that checks a configuration, with an output that takes everything. -/
def validating (file : Path) : Ending :=
  follow env access .endless ⟨verbose, color, .validate file⟩

/-- A run that fails before the selection is made writes nothing. -/
theorem ends_of_prepare_error {e : Failure} (h : (prepare access options).result = .error e) :
    (selecting env access verbose color options).exitCode = e.exitCode ∧
      (selecting env access verbose color options).output = [] := by
  simp only [selecting, follow, Invocation.run, Step.finish, h, Outcome.exitCode, true_and]
  rfl

/-- A run that makes a selection writes the report, and may object to a selection without tests. -/
theorem ends_of_prepare_ok {s : Selection} (h : (prepare access options).result = .ok s) :
    (selecting env access verbose color options).output =
        (s.text (options.format.report verbose) (color.applies env.wantsColor)).toUTF8.toList ∧
      (selecting env access verbose color options).exitCode =
        if options.failIfEmpty ∧ s.selected = [] then 4 else 0 := by
  have hcount : s.selectedCount = 0 ↔ s.selected = [] := List.length_eq_zero_iff
  simp only [selecting, follow, Invocation.run, Step.finish, h, SelectOptions.conclude,
    Selection.deliver_endless, Sink.delivered_endless, List.reverse_reverse, Outcome.exitCode,
    hcount, true_and]
  split_ifs <;> rfl

/-- A configuration is in order if it is loaded. -/
theorem exitCode_validating_eq_zero_iff {file : Path} :
    (validating env access verbose color file).exitCode = 0 ↔
      ∃ c, (Config.load access file).result = .ok c := by
  simp only [validating, follow, Invocation.run, Step.finish, result_loadConfig_eq,
    Outcome.exitCode]
  cases (Config.load access file).result with
  | ok c => simp [Except.mapError, Config.result_writeValid_endless]
  | error e => simp [Except.mapError, Failure.exitCode]

/-- Whether an empty selection is an error makes no difference to the output. -/
theorem output_selecting_congr (options : SelectOptions) (failIfEmpty : Bool) :
    (selecting env access verbose color { options with failIfEmpty }).output =
      (selecting env access verbose color options).output := by
  have hprepare : (prepare access { options with failIfEmpty }).result =
      (prepare access options).result := by rw [result_prepare, result_prepare]
  cases h : (prepare access options).result with
  | error e =>
    rw [(ends_of_prepare_error env access verbose color h).2,
      (ends_of_prepare_error env access verbose color (hprepare.trans h)).2]
  | ok s =>
    rw [(ends_of_prepare_ok env access verbose color h).1,
      (ends_of_prepare_ok env access verbose color (hprepare.trans h)).1]

/-- A run that selects tests ends with the exit code for configurations if the configuration is not
loaded or its selector is not made. -/
theorem exitCode_selecting_eq_config_iff (options : SelectOptions) :
    (selecting env access verbose color options).exitCode = 97 ↔
      ∀ c, (Config.load access options.config).result = .ok c →
        ∃ e, Selector.ofSpecification (c.context access) c.spec = .error e := by
  cases hload : (Config.load access options.config).result with
  | error e =>
    have hexit := (ends_of_prepare_error env access verbose color (prepare_of_load_error hload)).1
    simp [hexit, Failure.exitCode]
  | ok c =>
    cases hspec : Selector.ofSpecification (c.context access) c.spec with
    | error e =>
      have hexit :=
        (ends_of_prepare_error env access verbose color (prepare_of_selector_error hload hspec)).1
      simp [hexit, Failure.exitCode, hspec]
    | ok s =>
      have hne : (selecting env access verbose color options).exitCode ≠ 97 := by
        cases htests : TestList.ofFile access options.tests with
        | error e =>
          rw [(ends_of_prepare_error env access verbose color
            (prepare_of_tests_error hload hspec htests)).1]
          simp [Failure.exitCode]
        | ok tests =>
          rw [(ends_of_prepare_ok env access verbose color (prepare_of_ok hload hspec htests)).2]
          split_ifs <;> decide
      simp [hne, hspec]

/-! ### A sample -/

namespace Sample

/-- A configuration that allows no test of the list beside it, and one whose file of values is
missing. -/
def files : FileAccess :=
  (((Files.empty.write ⟨"none.toml"⟩
    "[[allowlist]]\ntype = \"package\"\nvalues = [\"org.nothing\"]\n".toUTF8.toList).write
    ⟨"lost.toml"⟩ "[[blocklist]]\ntype = \"method\"\nfile = \"gone.txt\"\n".toUTF8.toList).write
    ⟨"tests.json"⟩ ("\x7b\"tests\":" ++
      "[\x7b\"class-name\":\"FooTest\",\"method\":\"testA\"\x7d]\x7d").toUTF8.toList).access

def strict : Config := (Config.load files ⟨"none.toml"⟩).result.toOption.get (by decide +kernel)

def selector : Selector :=
  (Selector.ofSpecification (strict.context files) strict.spec).toOption.get (by decide +kernel)

theorem load_strict : (Config.load files ⟨"none.toml"⟩).result = .ok strict :=
  eq_ok_of_toOption_eq_some (Option.some_get _).symm

theorem ofSpecification_strict :
    Selector.ofSpecification (strict.context files) strict.spec = .ok selector :=
  eq_ok_of_toOption_eq_some (Option.some_get _).symm

theorem ofFile_tests :
    TestList.ofFile files ⟨"tests.json"⟩ = .ok [.ofNames "" "FooTest" "testA"] :=
  eq_ok_of_toOption_eq_some (by decide +kernel)

/-- Select tests from a file with a configuration, and object to an empty selection. -/
def asked (config tests : String) : SelectOptions := ⟨⟨config⟩, ⟨tests⟩, .human, true⟩

end Sample

/-- **How a run that selects tests ends.** A configuration that is not loaded or does not compile
gives one exit code, tests that are not read give another, and in both cases nothing is written.
Otherwise the output is the report on the selection, and the exit code tells whether there is a
selected test, if the user wants to know. The wish to know does not change the output. If the
exit code is not that for configurations, checking the configuration succeeds; and if it is though
checking succeeds, a file that a rule names cannot be read. -/
theorem select_outcome (options : SelectOptions) :
    let ending := selecting env access verbose color options
    let loaded := (Config.load access options.config).result
    let compiled (c : Config) := Selector.ofSpecification (c.context access) c.spec
    (∀ e, loaded = .error e → ending.exitCode = 97 ∧ ending.output = []) ∧
    (∀ c e, loaded = .ok c → compiled c = .error e → ending.exitCode = 97 ∧ ending.output = []) ∧
    (∀ c s e, loaded = .ok c → compiled c = .ok s →
      TestList.ofFile access options.tests = .error e →
        ending.exitCode = 104 ∧ ending.output = []) ∧
    (∀ c s tests, loaded = .ok c → compiled c = .ok s →
      TestList.ofFile access options.tests = .ok tests →
        ending.output = ((s.select tests).text (options.format.report verbose)
          (color.applies env.wantsColor)).toUTF8.toList ∧
        ending.exitCode = if options.failIfEmpty ∧ (s.select tests).selected = [] then 4 else 0) ∧
    (∀ failIfEmpty,
      (selecting env access verbose color { options with failIfEmpty }).output = ending.output) ∧
    ∀ env' verbose' color',
      let checking := validating env' access verbose' color' options.config
      (ending.exitCode ≠ 97 → checking.exitCode = 0) ∧
      (checking.exitCode = 0 → ending.exitCode = 97 →
        ∃ c list index r kind p cause, loaded = .ok c ∧
          (c.spec.held list)[index]? = some r ∧ (kind, p) ∈ r.namedFiles ∧
          (c.context access).FailsToRead p cause ∧
          compiled c =
            .error ⟨list, index, .unreadable kind ((c.context access).resolve p) cause⟩) := by
  refine ⟨fun e hload => ?_, fun c e hload hspec => ?_, fun c s e hload hspec htests => ?_,
    fun c s tests hload hspec htests => ?_, ?_, fun env' verbose' color' => ⟨?_, ?_⟩⟩
  · exact ends_of_prepare_error env access verbose color (prepare_of_load_error hload)
  · exact ends_of_prepare_error env access verbose color (prepare_of_selector_error hload hspec)
  · exact ends_of_prepare_error env access verbose color
      (prepare_of_tests_error hload hspec htests)
  · exact ends_of_prepare_ok env access verbose color (prepare_of_ok hload hspec htests)
  · exact output_selecting_congr env access verbose color options
  · intro hexit
    rw [exitCode_validating_eq_zero_iff]
    rw [ne_eq, exitCode_selecting_eq_config_iff, not_forall] at hexit
    obtain ⟨c, hc⟩ := hexit
    exact ⟨c, (Classical.not_imp.1 hc).1⟩
  · intro hcheck hexit
    obtain ⟨c, hload⟩ := (exitCode_validating_eq_zero_iff env' access verbose' color').1 hcheck
    obtain ⟨⟨list, index, cause⟩, hspec⟩ :=
      (exitCode_selecting_eq_config_iff env access verbose color options).1 hexit c hload
    obtain ⟨r, hfirst, kind, p, failure, hunreadable, rfl⟩ :=
      (Selector.ofSpecification_eq_error_iff_unreadable (Config.of_load_eq_ok hload).2).1 hspec
    obtain ⟨before, after, hfiles, -, hfails⟩ := hunreadable
    refine ⟨c, list, index, r, kind, p, failure, hload, hfirst.1, ?_, hfails, hspec⟩
    rw [hfiles]
    exact List.mem_append_right before List.mem_cons_self

/-- A configuration that is not there, one whose file of values is missing, tests that are not
there, and a selection without tests that is reported all the same. -/
theorem select_outcome_sample :
    let ends (config tests : String) :=
      selecting .empty Sample.files true .auto (Sample.asked config tests)
    (ends "away.toml" "tests.json").exitCode = 97 ∧
      (ends "lost.toml" "tests.json").exitCode = 97 ∧
      (∃ c list index kind path cause,
        (Config.load Sample.files ⟨"lost.toml"⟩).result = .ok c ∧
          Selector.ofSpecification (c.context Sample.files) c.spec =
            .error ⟨list, index, .unreadable kind path cause⟩) ∧
      (ends "none.toml" "gone.json").exitCode = 104 ∧
      (ends "none.toml" "tests.json").output =
        ("FooTest#testA (skipped: does not match the allowlist)\n" ++
          "0 of 1 tests selected\n").toUTF8.toList ∧
      (ends "none.toml" "tests.json").exitCode = 4 := by
  have houtcome (config tests : String) :=
    select_outcome .empty Sample.files true .auto (Sample.asked config tests)
  obtain ⟨e, haway⟩ : ∃ e, (Config.load Sample.files ⟨"away.toml"⟩).result = .error e :=
    exists_eq_error_of_isOk (by decide +kernel)
  obtain ⟨c, hlost⟩ : ∃ c, (Config.load Sample.files ⟨"lost.toml"⟩).result = .ok c :=
    exists_eq_ok_of_isOk (by decide +kernel)
  obtain ⟨e', hgone⟩ : ∃ e, TestList.ofFile Sample.files ⟨"gone.json"⟩ = .error e :=
    exists_eq_error_of_isOk (by decide +kernel)
  have hcheck : (validating .empty Sample.files true .auto ⟨"lost.toml"⟩).exitCode = 0 :=
    (exitCode_validating_eq_zero_iff _ _ _ _).2 ⟨c, hlost⟩
  have hexit : (selecting .empty Sample.files true .auto
      (Sample.asked "lost.toml" "tests.json")).exitCode = 97 := by decide +kernel
  obtain ⟨-, -, -, hreport, -, -⟩ := houtcome "none.toml" "tests.json"
  obtain ⟨houtput, hfour⟩ :=
    hreport _ _ _ Sample.load_strict Sample.ofSpecification_strict Sample.ofFile_tests
  refine ⟨((houtcome "away.toml" "tests.json").1 e haway).1, hexit, ?_, ?_, ?_, ?_⟩
  · obtain ⟨-, -, -, -, -, hagree⟩ := houtcome "lost.toml" "tests.json"
    obtain ⟨c, list, index, r, kind, p, cause, hload, -, -, -, hspec⟩ :=
      (hagree .empty true .auto).2 hcheck hexit
    exact ⟨c, list, index, kind, _, cause, hload, hspec⟩
  · exact ((houtcome "none.toml" "gone.json").2.2.1 _ _ e' Sample.load_strict
      Sample.ofSpecification_strict hgone).1
  · rw [houtput]
    decide +kernel
  · rw [hfour]
    decide +kernel

end Program

end TestSelection
