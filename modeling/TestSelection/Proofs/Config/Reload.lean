import TestSelection.Proofs.Config.Settings
import TestSelection.Proofs.Output.Sink
import TestSelection.Proofs.Results
import TestSelection.Proofs.Text.Utf8
import TestSelection.Run

/-!
# Showing a configuration and loading it again

**Theorem (`Config.reload`).** What is shown of a configuration file is a configuration file: stored
under a name with the extension of JSON, in the same directory, it is loaded without a complaint,
with the same specification and the same context for its rules, and showing it gives the same text.
The specification may come from JSON or TOML. It must not be too deep for a JSON text to be read.

The text takes the way of any JSON file. Its bytes are decoded without a replacement and it has no
byte order mark (`textOf_write`), its tree gives the value back and the last value of each key is
the only one (`read?_write`), and the settings give the specification back. The specification was
checked when it was loaded the first time.
-/

namespace TestSelection

open Json (Document Tree)

namespace Config

variable {access : FileAccess} {p q : Path} {c : Config}

/-! ## Showing -/

/-- Showing a configuration file succeeds, and a text is delivered. -/
def Shows (access : FileAccess) (p : Path) (text : String) : Prop :=
  ∀ verbose color wantsColor,
    let outcome :=
      Invocation.run access wantsColor (.ofDevice .endless) ⟨verbose, color, .showConfig p⟩
    outcome.result = .ok () ∧ outcome.sink.delivered = text.toUTF8.toList

/-- What is shown of a configuration. -/
def shown (c : Config) : String := c.json ++ "\n"

theorem result_loadConfig (h : (load access p).result = .ok c) :
    (loadConfig access p).result = .ok c := by
  simp [loadConfig, bind, Step.andThen, Step.say, Step.of, h, Except.mapError, pure]

theorem writeJson_endless (c : Config) :
    c.writeJson (.ofDevice .endless) =
      (⟨.endless, c.shown.toUTF8.toList.reverse⟩, .ok ()) := by
  have hbytes : c.shown.toUTF8.toList = c.json.toUTF8.toList ++ "\n".toUTF8.toList := by
    simp only [shown, Utf8.toList_toUTF8, String.toList_append, List.flatMap_append]
  simp only [writeJson, Sink.ofDevice, Sink.deliver, Sink.write_endless, hbytes, List.flatMap_cons,
    List.flatMap_nil, List.append_nil, List.reverse_append]
  rfl

/-- A configuration that was loaded can be shown. -/
theorem shows_of_load (h : (load access p).result = .ok c) : Shows access p c.shown := by
  intro verbose color wantsColor
  simp only [Invocation.run, Step.finish, result_loadConfig h, writeJson_endless,
    Sink.delivered_endless, List.reverse_reverse, and_self]

/-! ## Reading what was shown -/

section

variable {entries : List (String × Value)}

/-- The text of a table starts with a brace. -/
theorem exists_toList_write (layout : Json.Layout) (entries : List (String × Value))
    (blank : String) :
    ∃ rest, (Json.write layout (.table entries) ++ blank).toList = '\x7b' :: rest := by
  rw [String.toList_append]
  rcases entries with _ | ⟨e, es⟩ <;> cases layout <;>
    exact ⟨_, by rw [Json.write, String.toList_ofList]; rfl⟩

/-- The bytes of the text of a table are text, without a byte order mark. -/
theorem textOf_write (layout : Json.Layout) (entries : List (String × Value)) (blank : String) :
    textOf (Json.write layout (.table entries) ++ blank).toUTF8.toList =
      Json.write layout (.table entries) ++ blank := by
  obtain ⟨rest, hrest⟩ := exists_toList_write layout entries blank
  have hmark : (Json.write layout (.table entries) ++ blank).startsWith "\ufeff" = false := by
    rw [String.startsWith_string_eq_false_iff, hrest]
    simp
  simp only [textOf, Utf8.decodeLossy_toUTF8, hmark, Bool.false_eq_true, if_false]

/-- The text of a table in which each key stands once is read as the table. -/
theorem read?_write (layout : Json.Layout) {blank : String} (hblank : Json.Blank blank.toList)
    (hexact : (Value.table entries).Exact) (hkeyed : (Value.table entries).Keyed)
    (hdepth : (Value.table entries).depth ≤ Json.depthLimit) :
    ConfigFormat.json.read? (Json.write layout (.table entries) ++ blank) = some entries := by
  have hread : (Document.ofString (Json.write layout (.table entries) ++ blank)).read
      (Tree.toValue Json.depthLimit) = .ok (.table entries) := by
    rw [Document.read_eq_ok_iff, Document.ofString_write layout hexact hblank]
    exact ⟨Tree.toValue_ofValue hdepth, rfl⟩
  simp only [ConfigFormat.read?, hread, Settings.lastOfEach_eq_self hkeyed]

/-- A JSON file with a table has the entries of the table for its settings, if filling settings with
them changes nothing. -/
theorem settings_write (layout : Json.Layout) {blank : String} (hblank : Json.Blank blank.toList)
    (hexact : (Value.table entries).Exact) (hkeyed : (Value.table entries).Keyed)
    (hdepth : (Value.table entries).depth ≤ Json.depthLimit)
    (hentries : Settings.ofEntries entries = entries) (hformat : ConfigFormat.ofPath q = .json)
    (hstored : access.read q = .ok (Json.write layout (.table entries) ++ blank).toUTF8.toList) :
    settings access q = .ok entries := by
  have hbytes : bytes access q =
      .ok (Json.write layout (.table entries) ++ blank).toUTF8.toList := by
    simp only [bytes, hstored]
  refine bind_eq_ok_iff.2 ⟨_, hbytes, ?_⟩
  simp only [hformat, textOf_write, read?_write layout hblank hexact hkeyed hdepth, hentries]
  rfl

end

/-! ## Loading -/

section

variable {settings : List (String × Value)}

/-- What comes of settings that are read as a specification. -/
theorem load_of_ofSettings_ok {spec : Specification} (h : Config.settings access p = .ok settings)
    (hspec : Specification.ofSettings settings = .ok spec) :
    load access p = ⟨Specification.unknownKeys settings,
      (spec.validate.mapError fun e => ⟨p, .invalid e⟩).map fun _ => ⟨p, spec⟩⟩ := by
  have hread : Specification.readSettings settings =
      .ok (spec, Specification.unknownKeys settings) := by
    rw [Specification.readSettings_eq, hspec]
    rfl
  simp only [load, h, hread]
  cases spec.validate <;> rfl

theorem load_of_ofSettings_error {m : Misfit} (h : Config.settings access p = .ok settings)
    (hspec : Specification.ofSettings settings = .error m) :
    load access p = ⟨[], .error ⟨p, .misfit m⟩⟩ := by
  have hread : Specification.readSettings settings = .error m := by
    rw [Specification.readSettings_eq, hspec]
    rfl
  simp only [load, h, hread]

end

/-- A configuration that was loaded has the name of its file, and was checked. -/
theorem of_load_eq_ok (h : (load access p).result = .ok c) :
    c.file = p ∧ c.spec.validate = .ok () := by
  cases hsettings : Config.settings access p with
  | error cause => simp [load, hsettings] at h
  | ok settings =>
    cases hspec : Specification.ofSettings settings with
    | error m => simp [load_of_ofSettings_error hsettings hspec] at h
    | ok spec =>
      rw [load_of_ofSettings_ok hsettings hspec] at h
      obtain ⟨_, hvalid, rfl⟩ := map_eq_ok_iff.1 h
      exact ⟨rfl, mapError_eq_ok_iff.1 hvalid⟩

/-- A JSON file with what is shown of a configuration is loaded as that configuration. -/
theorem load_shown (h : (load access p).result = .ok c)
    (hdepth : c.spec.toValue.depth ≤ Json.depthLimit) {access' : FileAccess}
    (hformat : ConfigFormat.ofPath q = .json)
    (hstored : access'.read q = .ok c.shown.toUTF8.toList) :
    load access' q = ⟨[], .ok ⟨q, c.spec⟩⟩ := by
  have hblank : Json.Blank "\n".toList := by simp [Json.Blank, Json.isSpace]
  have hsettings : settings access' q = .ok c.spec.settings := by
    rw [shown, json] at hstored
    have hexact := c.spec.exact_toValue
    have hkeyed := c.spec.keyed_toValue
    rw [Specification.toValue_eq] at hstored hexact hkeyed hdepth
    exact settings_write .pretty hblank hexact hkeyed hdepth c.spec.ofEntries_settings hformat
      hstored
  rw [load_of_ofSettings_ok hsettings c.spec.ofSettings_settings, (of_load_eq_ok h).2,
    c.spec.unknownKeys_settings]
  rfl

theorem context_eq {spec : Specification} (h : (load access p).result = .ok c)
    (hdir : q.parent? = p.parent?) : context ⟨q, spec⟩ = c.context := by
  funext access
  rw [context, context, baseDir, baseDir, (of_load_eq_ok h).1, hdir]

namespace Sample

/-- A directory with a configuration in TOML, which has a key that is not known. -/
def files : FileAccess :=
  (Files.empty.write ⟨"conf/filters.toml"⟩
    "owner = \"me\"\n[[blocklist]]\ntype = \"package\"\nfile = \"skip.txt\"\n".toUTF8.toList).access

/-- What is loaded from it. -/
def loaded : Config :=
  (load files ⟨"conf/filters.toml"⟩).result.toOption.get (by decide +kernel)

theorem load_files : (load files ⟨"conf/filters.toml"⟩).result = .ok loaded :=
  eq_ok_of_toOption_eq_some (Option.some_get _).symm

end Sample

/-! ## Loading what was shown -/

/-- **Showing and loading again.** What is shown of a configuration file, stored as JSON in the same
directory, is loaded without unknown keys, with the same specification and the same context, and
shows as the same text. -/
theorem reload (h : (load access p).result = .ok c)
    (hdepth : c.spec.toValue.depth ≤ Json.depthLimit) :
    ∃ text, Shows access p text ∧
      ∀ access' q, ConfigFormat.ofPath q = .json → q.parent? = p.parent? →
        access'.read q = .ok text.toUTF8.toList →
          load access' q = ⟨[], .ok ⟨q, c.spec⟩⟩ ∧
            context ⟨q, c.spec⟩ = c.context ∧ Shows access' q text := by
  refine ⟨c.shown, shows_of_load h, fun access' q hformat hdir hstored => ?_⟩
  have hload := load_shown h hdepth hformat hstored
  exact ⟨hload, context_eq h hdir, shows_of_load (c := ⟨q, c.spec⟩) (by rw [hload])⟩

/-- A configuration in TOML, shown into a file beside it. -/
theorem reload_sample :
    (load Sample.files ⟨"conf/filters.toml"⟩).result = .ok Sample.loaded ∧
      Sample.loaded.spec.toValue.depth ≤ Json.depthLimit ∧
      Json.write .compact Sample.loaded.spec.toValue =
        "\x7b\"allowlist\":[]," ++
          "\"blocklist\":[\x7b\"type\":\"package\",\"file\":\"skip.txt\"\x7d]\x7d" ∧
      ∃ text, Shows Sample.files ⟨"conf/filters.toml"⟩ text ∧
        load ⟨fun _ => .ok text.toUTF8.toList⟩ ⟨"conf/copy.json"⟩ =
          ⟨[], .ok ⟨⟨"conf/copy.json"⟩, Sample.loaded.spec⟩⟩ := by
  have hdepth : Sample.loaded.spec.toValue.depth ≤ Json.depthLimit := by decide +kernel
  have hdir : Path.parent? ⟨"conf/copy.json"⟩ = Path.parent? ⟨"conf/filters.toml"⟩ := by
    decide +kernel
  obtain ⟨text, hshows, hreload⟩ := reload Sample.load_files hdepth
  refine ⟨Sample.load_files, hdepth, by decide +kernel, text, hshows, ?_⟩
  exact (hreload ⟨fun _ => .ok text.toUTF8.toList⟩ _ (by decide +kernel) hdir rfl).1

end Config

end TestSelection
