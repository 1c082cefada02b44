import TestSelection.Proofs.Config.Reload
import TestSelection.Proofs.Rule.Keys

/-!
# Keys that a configuration does not know

The settings of a configuration have a key for each list of rules. What stands under any other key
is passed over when a specification is read, and the keys are kept for a warning. Inside a rule it
is different: there a key that does not belong is an error.

**Theorem (`Config.load_unknownKeys`).** If a specification can be read from the settings of a file,
then the keys passed over are those that belong to no list, each of them once, whether the rules are
in order or not; otherwise there are none. There is one warning if there are such keys, and none if
there are not. Without these keys, the file is loaded with the same result and no warning. With a
key that does not belong in a rule, no specification can be read.

The keys are noted by the reading itself, and what is read does not depend on the notes
(`Specification.readSettings_eq`). Everything about the result then comes from
`Record.ofEntries_filter`: reading a record that passes over unknown entries is reading it without
them. For rules, what was read has the keys of rules in all its tables
(`Rule.keysFit_of_ofValue`), so no other key can have been there.
-/

namespace TestSelection

namespace Specification

/-! ## Keys that belong to no list -/

theorem field?_eq_none_iff {key : String} :
    record.field? key = none ↔ key ≠ "allowlist" ∧ key ≠ "blocklist" := by
  rw [Record.field?, List.find?_eq_none]
  show (∀ l ∈ [RuleList.allowlist, .blocklist], _) ↔ _
  rw [List.forall_mem_cons, List.forall_mem_singleton, beq_iff_eq, beq_iff_eq]
  exact and_congr ne_comm ne_comm

/-- The settings under the keys of the lists. -/
def ofLists (settings : List (String × Value)) : List (String × Value) :=
  settings.filter fun e => e.1 = "allowlist" ∨ e.1 = "blocklist"

variable {settings : List (String × Value)}

theorem ofLists_eq_filter (settings : List (String × Value)) :
    ofLists settings = settings.filter fun e => (record.field? e.1).isSome := by
  refine List.filter_congr fun e _ => ?_
  rw [Bool.eq_iff_iff, decide_eq_true_iff, Option.isSome_iff_ne_none, ne_eq, field?_eq_none_iff,
    not_and_or, not_not, not_not]

/-- Keys that are noted one by one make a set. -/
theorem foldl_insert_eq_union (keys : List String) :
    keys.foldl (fun noted key => noted.insert key) [] = keys.reverse ∪ [] :=
  List.foldl_eq_foldr_reverse

theorem mem_unknownKeys_iff {key : String} :
    key ∈ unknownKeys settings ↔
      key ∈ settings.map Prod.fst ∧ key ≠ "allowlist" ∧ key ≠ "blocklist" := by
  rw [unknownKeys, List.mem_mergeSort, foldl_insert_eq_union, List.mem_union_iff,
    List.mem_reverse, or_iff_left List.not_mem_nil, Record.unknownKeys, List.mem_filter,
    Option.isNone_iff_eq_none, field?_eq_none_iff]

theorem nodup_unknownKeys (settings : List (String × Value)) : (unknownKeys settings).Nodup := by
  rw [unknownKeys, (List.mergeSort_perm _ _).nodup_iff, foldl_insert_eq_union]
  exact List.nodup_nil.union _

theorem unknownKeys_ofLists (settings : List (String × Value)) :
    unknownKeys (ofLists settings) = [] := by
  refine List.eq_nil_iff_forall_not_mem.2 fun key hkey => ?_
  obtain ⟨hmem, hallowlist, hblocklist⟩ := mem_unknownKeys_iff.1 hkey
  obtain ⟨e, he, rfl⟩ := List.mem_map.1 hmem
  exact (of_decide_eq_true (List.mem_filter.1 he).2).elim hallowlist hblocklist

/-- Keys that belong to no list make no difference to what is read. -/
theorem ofSettings_ofLists (settings : List (String × Value)) :
    ofSettings (ofLists settings) = ofSettings settings := by
  rw [ofSettings_eq, ofLists_eq_filter, Record.ofEntries_filter fun _ _ => rfl, ofSettings_eq]

/-! ## Keys inside of rules -/

/-- If the rules of a list were read, each of them was. -/
theorem exists_of_rulesFrom {list : RuleList} {index : Nat} {items : List Value}
    {rules : List Rule} (h : rulesFrom list index items = .ok rules) {v : Value}
    (hv : v ∈ items) : ∃ r, Rule.ofValue Rule.numberedInSettings v = .ok r := by
  induction items generalizing index rules with
  | nil => cases hv
  | cons w items ih =>
    rw [rulesFrom] at h
    split at h
    · cases h
    · next r hr =>
      obtain ⟨rest, hrest, -⟩ := bind_eq_ok_iff.1 h
      rcases List.mem_cons.1 hv with rfl | hv
      · exact ⟨r, hr⟩
      · exact ih hrest hv

theorem exists_of_ofSettings {spec : Specification} (h : ofSettings settings = .ok spec)
    {list : RuleList} {items : List Value} (hlist : (list.name, .array items) ∈ settings)
    {v : Value} (hv : v ∈ items) : ∃ r, Rule.ofValue Rule.numberedInSettings v = .ok r := by
  rw [ofSettings_eq] at h
  obtain ⟨fields, hfields, -⟩ := map_eq_ok_iff.1 h
  obtain ⟨values, hvalues, -⟩ := bind_eq_ok_iff.1 hfields
  obtain ⟨-, rules, hrules, -⟩ :=
    Record.exists_of_mem hvalues (List.mem_map_of_mem hlist) (field?_name list)
  exact exists_of_rulesFrom hrules hv

end Specification

namespace Rule

/-- A key of a table that does not belong in a rule: it is not the tag, and no field of a kind that
the tag says. -/
structure Stray (key : String) (es : List (String × Value)) : Prop where
  mem : key ∈ es.map Prod.fst
  ne_type : key ≠ "type"
  not_mem_fields : ∀ tag kind, ("type", tag) ∈ es →
    RuleKind.ofValue numberedInSettings tag = .ok kind → key ∉ kind.fields

/-- A rule with a key that does not belong, at any place in it, is not read. -/
theorem Place.ofValue_ne_ok {v : Value} {es : List (String × Value)} (h : Place v (.table es))
    {key : String} (hkey : Stray key es) (r : Rule) : ofValue numberedInSettings v ≠ .ok r := by
  intro hr
  obtain ⟨x, -, hx⟩ := h.exists_node hr
  have hkeys := keysFit_of_ofValue hx
  obtain ⟨tag, htag, hkind⟩ := hkeys.tag
  exact (hkeys.known key hkey.mem).elim hkey.ne_type (hkey.not_mem_fields tag x.kind htag hkind)

end Rule

/-! ## Loading -/

/-- The warnings among the messages of a step. -/
def Step.warnings {α : Type} (x : Step α) : List LogMessage :=
  x.log.filter fun m => m.level = .warning

/-- Loading a configuration warns of the keys that were passed over, and of nothing else. -/
theorem warnings_loadConfig (access : FileAccess) (p : Path) :
    (loadConfig access p).warnings =
      if (Config.load access p).ignored = [] then []
      else [ignoredMessage p (Config.load access p).ignored] := by
  have hignored (keys : List String) :
      (if keys.isEmpty then [] else [ignoredMessage p keys]).filter (fun m => m.level = .warning) =
        if keys = [] then [] else [ignoredMessage p keys] := by
    cases keys <;> rfl
  rw [← hignored, Step.warnings, loadConfig]
  cases hresult : (Config.load access p).result <;>
    simp [bind, Step.andThen, Step.say, Step.of, Except.mapError, pure]

namespace Config

variable {access : FileAccess} {p : Path} {settings : List (String × Value)}

/-- **Unknown keys.** Of settings that are read as a specification, the keys passed over are those
that belong to no list, each once, and this is so whether the rules are in order or not. If no
specification can be read, no key is passed over. Loading a file gives one warning, with the keys
that were passed over, or none if there are no such keys. If the settings of a file are those of
another one without the keys that belong to no list, it is loaded with the same result and no
warning. If a rule has a key that does not belong in it, at any depth, then no specification can be
read. -/
theorem load_unknownKeys (access : FileAccess) (p : Path) :
    ((loadConfig access p).warnings =
      if (load access p).ignored = [] then [] else [ignoredMessage p (load access p).ignored]) ∧
    ((∀ settings spec, Config.settings access p = .ok settings →
        Specification.ofSettings settings ≠ .ok spec) →
      (load access p).ignored = []) ∧
    ∀ settings, Config.settings access p = .ok settings →
      (∀ spec, Specification.ofSettings settings = .ok spec →
        (load access p).ignored.Nodup ∧
        (∀ key, key ∈ (load access p).ignored ↔
          key ∈ settings.map Prod.fst ∧ key ≠ "allowlist" ∧ key ≠ "blocklist") ∧
        (load access p).result =
          (spec.validate.mapError fun e => ⟨p, .invalid e⟩).map fun _ => ⟨p, spec⟩) ∧
      (∀ access', Config.settings access' p = .ok (Specification.ofLists settings) →
        load access' p = ⟨[], (load access p).result⟩ ∧ (loadConfig access' p).warnings = []) ∧
      ∀ (list : RuleList) (items : List Value) (v : Value) (es : List (String × Value))
        (key : String), (list.name, .array items) ∈ settings → v ∈ items →
          Rule.Place v (.table es) → Rule.Stray key es →
            ∃ m, load access p = ⟨[], .error ⟨p, .misfit m⟩⟩ := by
  refine ⟨warnings_loadConfig access p, ?_, fun settings h => ⟨fun spec hspec => ?_,
    fun access' h' => ?_, fun list items v es key hlist hv hplace hkey => ?_⟩⟩
  · intro hnone
    cases h : Config.settings access p with
    | error cause => rw [load, h]
    | ok settings =>
      cases hspec : Specification.ofSettings settings with
      | error m => rw [load_of_ofSettings_error h hspec]
      | ok spec => exact absurd hspec (hnone settings spec h)
  · rw [load_of_ofSettings_ok h hspec]
    exact ⟨Specification.nodup_unknownKeys settings,
      fun key => Specification.mem_unknownKeys_iff, rfl⟩
  · have hload : load access' p = ⟨[], (load access p).result⟩ := by
      cases hspec : Specification.ofSettings settings with
      | error m =>
        rw [load_of_ofSettings_error h hspec,
          load_of_ofSettings_error h' ((Specification.ofSettings_ofLists settings).trans hspec)]
      | ok spec =>
        rw [load_of_ofSettings_ok h hspec,
          load_of_ofSettings_ok h' ((Specification.ofSettings_ofLists settings).trans hspec),
          Specification.unknownKeys_ofLists]
    exact ⟨hload, by rw [warnings_loadConfig, hload, if_pos rfl]⟩
  · cases hspec : Specification.ofSettings settings with
    | error m => exact ⟨m, load_of_ofSettings_error h hspec⟩
    | ok spec =>
      obtain ⟨r, hr⟩ := Specification.exists_of_ofSettings hspec hlist hv
      exact absurd hr (hplace.ofValue_ne_ok hkey r)

namespace Sample

/-- Where each path leads to a JSON text of a table. -/
def storing (entries : List (String × Value)) : FileAccess :=
  ⟨fun _ => .ok (Json.write .compact (.table entries)).toUTF8.toList⟩

/-- A rule that is not in order. -/
def noBuckets : Rule := .fragmentation 3 0

/-- The rule, and a key that is not known. -/
def owned : List (String × Value) :=
  [("owner", .string "me"), ("blocklist", .array [noBuckets.toValue])]

/-- A rule with a wrong name for its values. -/
def misspelt : List (String × Value) :=
  [("type", .string "method"), ("valus", .array [.string "testA"])]

/-- The rule inside of another one. -/
def nested : List (String × Value) :=
  [("filters", .array [.table misspelt]), ("type", .string "composition"), ("op", .string "union")]

theorem settings_storing {entries : List (String × Value)}
    (hexact : (Value.table entries).Exact) (hkeyed : (Value.table entries).Keyed)
    (hdepth : (Value.table entries).depth ≤ Json.depthLimit)
    (hentries : Settings.ofEntries entries = entries) :
    Config.settings (storing entries) ⟨"filters.json"⟩ = .ok entries := by
  have hblank : Json.Blank "".toList := by simp [Json.Blank]
  exact settings_write .compact hblank hexact hkeyed hdepth hentries (by decide +kernel)
    (by rw [String.append_empty]; rfl)

theorem settings_owned : Config.settings (storing owned) ⟨"filters.json"⟩ = .ok owned := by
  refine settings_storing ?_ ?_ (by decide +kernel) ?_
  · have hrules : (Value.array [noBuckets.toValue]).Exact :=
      .array (by simpa using noBuckets.exact_toValue)
    exact .table (by simpa [owned] using ⟨.string "me", hrules⟩)
  · have hrules : (Value.array [noBuckets.toValue]).Keyed :=
      .array (by simpa using noBuckets.keyed_toValue)
    exact .table (by decide) (by simpa [owned] using ⟨.string "me", hrules⟩)
  · exact Settings.ofEntries_eq_self (by decide) (by decide +kernel)
      (List.forall_mem_cons.2 ⟨rfl, List.forall_mem_singleton.2 rfl⟩)

/-- The settings of a file with one rule. -/
theorem settings_blocklist {v : Value} (hexact : v.Exact) (hkeyed : v.Keyed)
    (hdepth : v.depth ≤ Json.depthLimit - Specification.depth) :
    Config.settings (storing [("blocklist", .array [v])]) ⟨"filters.json"⟩ =
      .ok [("blocklist", .array [v])] := by
  refine settings_storing ?_ ?_ ?_ ?_
  · exact .table (List.forall_mem_singleton.2 (.array (by simpa using hexact)))
  · exact .table (List.nodup_singleton _)
      (List.forall_mem_singleton.2 (.array (by simpa using hkeyed)))
  · simp only [Value.depth, Value.depthOfEntries, Value.depthOfItems]
    simp only [Json.depthLimit, Specification.depth] at hdepth ⊢
    omega
  · have hname : KeyPath.ofKey "blocklist" = ⟨"blocklist", []⟩ := by decide +kernel
    exact Settings.ofEntries_eq_self (List.nodup_singleton _) (List.forall_mem_singleton.2 hname)
      (List.forall_mem_singleton.2 rfl)

theorem settings_nested :
    Config.settings (storing [("blocklist", .array [.table nested])]) ⟨"filters.json"⟩ =
      .ok [("blocklist", .array [.table nested])] := by
  have hvalues : (Value.array [.string "testA"]).Exact ∧ (Value.array [.string "testA"]).Keyed :=
    ⟨.array (by simpa using .string "testA"), .array (by simpa using .string "testA")⟩
  refine settings_blocklist ?_ ?_ (by decide +kernel)
  · have hrule : (Value.table misspelt).Exact :=
      .table (by simpa [misspelt] using ⟨.string "method", hvalues.1⟩)
    have hrules : (Value.array [.table misspelt]).Exact := .array (by simpa using hrule)
    exact .table (by simpa [nested] using ⟨hrules, .string "composition", .string "union"⟩)
  · have hrule : (Value.table misspelt).Keyed :=
      .table (by decide) (by simpa [misspelt] using ⟨.string "method", hvalues.2⟩)
    have hrules : (Value.array [.table misspelt]).Keyed := .array (by simpa using hrule)
    exact .table (by decide)
      (by simpa [nested] using ⟨hrules, .string "composition", .string "union"⟩)

theorem stray_misspelt : Rule.Stray "valus" misspelt := by
  refine ⟨by decide, by decide, fun tag kind htag hkind => ?_⟩
  obtain rfl : tag = .string "method" := by simpa [misspelt] using htag
  obtain rfl : .simple .method = kind := Except.ok.inj hkind
  decide

end Sample

/-- A file with a key that is not known and a rule that is not in order, the same without the key,
a file with a misspelt key in a rule, and no file. -/
theorem load_unknownKeys_sample :
    (∃ e, load (Sample.storing Sample.owned) ⟨"filters.json"⟩ =
      ⟨["owner"], .error ⟨⟨"filters.json"⟩, .invalid e⟩⟩ ∧
        load (Sample.storing [("blocklist", .array [Sample.noBuckets.toValue])])
          ⟨"filters.json"⟩ = ⟨[], .error ⟨⟨"filters.json"⟩, .invalid e⟩⟩) ∧
      (∃ m, load (Sample.storing [("blocklist", .array [.table Sample.nested])])
        ⟨"filters.json"⟩ = ⟨[], .error ⟨⟨"filters.json"⟩, .misfit m⟩⟩) ∧
      (load Files.empty.access ⟨"filters.json"⟩).ignored = [] := by
  refine ⟨?_, ?_, ?_⟩
  · obtain ⟨-, -, h⟩ := load_unknownKeys (Sample.storing Sample.owned) ⟨"filters.json"⟩
    obtain ⟨hkeys, hwithout, -⟩ := h _ Sample.settings_owned
    have hspec : Specification.ofSettings Sample.owned = .ok ⟨[], [Sample.noBuckets]⟩ := rfl
    obtain ⟨hnodup, hmem, hresult⟩ := hkeys _ hspec
    have hignored : (load (Sample.storing Sample.owned) ⟨"filters.json"⟩).ignored = ["owner"] := by
      refine List.perm_singleton.1 ((List.perm_ext_iff_of_nodup hnodup (by decide)).2 fun key => ?_)
      rw [hmem]
      simp only [Sample.owned, List.map_cons, List.map_nil, List.mem_cons, List.not_mem_nil]
      constructor
      · rintro ⟨rfl | rfl | h, -, hne⟩
        · exact .inl rfl
        · exact absurd rfl hne
        · exact h.elim
      · rintro (rfl | h)
        · exact ⟨.inl rfl, by decide, by decide⟩
        · exact h.elim
    have hload := (hwithout _ (Sample.settings_blocklist Sample.noBuckets.exact_toValue
      Sample.noBuckets.keyed_toValue (by decide +kernel))).1
    rw [hresult] at hload
    exact ⟨_, congrArg₂ Loaded.mk hignored hresult, hload⟩
  · have hplace : Rule.Place (.table Sample.nested) (.table Sample.misspelt) :=
      .table List.mem_cons_self List.mem_cons_self (.here _)
    obtain ⟨-, -, h⟩ := load_unknownKeys
      (Sample.storing [("blocklist", .array [.table Sample.nested])]) ⟨"filters.json"⟩
    exact (h _ Sample.settings_nested).2.2 .blocklist [.table Sample.nested] _ _ "valus"
      List.mem_cons_self List.mem_cons_self hplace Sample.stray_misspelt
  · refine (load_unknownKeys Files.empty.access ⟨"filters.json"⟩).2.1 fun settings spec h => ?_
    have hmissing : (Config.settings Files.empty.access ⟨"filters.json"⟩).toOption.isNone := by
      decide +kernel
    rw [h] at hmissing
    cases hmissing

end Config

end TestSelection
