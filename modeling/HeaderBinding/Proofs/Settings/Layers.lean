import HeaderBinding.Proofs.Dict.Merging
import HeaderBinding.Proofs.Except
import HeaderBinding.Settings.Store

/-!
# Settings Laid over the Built-in Ones

A table of settings that is laid over the built-in ones gives those settings and no others.

What the built-in settings have is not lost when a layer comes to lie over them, only covered. So
the question is what the layer leaves uncovered. The built-in table has no entry for the two
directories, which are absent, and every other field is in the table of any settings, so nothing of
it is left (`overlay_of_keys`). Texts, numbers and lists cover what was there as a whole, also an
empty list one that is not. The tables of the parser and of the modules join with what they cover,
and the argument is the same one level deeper; there are no built-in overrides of modules.

The names of a table are visited in ascending order. Each gives one field its value, and the fields
it does not give keep that of the built-in settings (`fromEntries_cons`).

## Main definitions

* `SettingValue.entriesOf`: The entries of a table, with their names in order.
* `SettingValue.laidOver`: A value over what an earlier layer has under its name.
* `ParserSettings.tomlEntries`, `Settings.tomlEntries`: The entries of settings.

## Theorems

* `SettingValue.overlay_eq_union`, `SettingValue.overlay_of_keys`: A table over another.
* `SettingValue.laidOver_of_ne_table`: What is no table covers all that was there.
* `dict?_modules`: The overrides of all modules.
* `AssemblySettings.ofValue_overlay`, `ParserSettings.ofValue_overlay`: The parts of settings.
* `Settings.ofLayers_toToml`: Settings over the built-in ones.
-/

namespace HeaderBinding

namespace SettingValue

theorem ofToml_arr (origin : Origin) (items : List Toml) :
    ofToml origin (.arr items) = list origin (items.map (ofToml origin)) := by
  rw [ofToml]
  exact congrArg (list origin) (List.attach_map_val (f := ofToml origin) ..)

/-- The entries of a table, with their names in order. -/
def entriesOf (origin : Origin) (entries : List (String × Toml)) : Dict SettingValue :=
  .ofList (entries.map fun entry => (entry.1, ofToml origin entry.2))

theorem sorted_entriesOf (origin : Origin) (entries : List (String × Toml)) :
    (entriesOf origin entries).Sorted :=
  Dict.sorted_ofList _

theorem find?_entriesOf (origin : Origin) {entries : List (String × Toml)}
    (hnames : (entries.map (·.1)).Nodup) {name : String} {value : Toml}
    (h : (name, value) ∈ entries) :
    (entriesOf origin entries).find? name = some (ofToml origin value) := by
  have hnodup : ((entries.map fun entry => (entry.1, ofToml origin entry.2)).map (·.1)).Nodup := by
    rw [List.map_map]
    exact hnames
  rw [(sorted_entriesOf origin entries).find?_eq_some_iff, entriesOf,
    (Dict.perm_ofList _ hnodup).mem_iff]
  exact List.mem_map_of_mem (f := fun entry => (entry.1, ofToml origin entry.2)) h

theorem ofToml_table (origin : Origin) (entries : List (String × Toml)) :
    ofToml origin (.table entries) = table origin (entriesOf origin entries) := by
  rw [ofToml]
  exact congrArg (fun entries => table origin (.ofList entries)) (List.attach_map_val
    (f := fun entry : String × Toml => (entry.1, ofToml origin entry.2)) ..)

section Overlay

variable {origin origin' : Origin} {earlier later : Dict SettingValue}

/-- A value of a later table, over what the earlier table has under its name. -/
def laidOver (earlier : Dict SettingValue) (entry : String × SettingValue) : SettingValue :=
  match earlier.find? entry.1 with
  | some covered => covered.overlay entry.2
  | none => entry.2

/-- Only a table joins with what it covers. -/
theorem laidOver_of_ne_table (name : String) {v : SettingValue}
    (h : ∀ origin entries, v ≠ table origin entries) : laidOver earlier (name, v) = v := by
  unfold laidOver
  cases earlier.find? name with
  | none => rfl
  | some covered =>
      dsimp only
      rw [overlay.eq_def]
      split
      · exact absurd rfl (h _ _)
      · rfl

theorem laidOver_of_find? {name : String} {covered : SettingValue}
    (h : earlier.find? name = some covered) (value : SettingValue) :
    laidOver earlier (name, value) = covered.overlay value := by
  unfold laidOver
  rw [h]

theorem overlay_eq_union : (table origin earlier).overlay (table origin' later) =
    table origin' (earlier.union
      ⟨later.entries.map fun entry => (entry.1, laidOver earlier entry)⟩) := by
  rw [overlay, Dict.union, List.foldl_map]
  exact congrArg (table origin') (List.foldl_attach (l := later.entries)
    (f := fun joined entry => joined.insert entry.1 (laidOver earlier entry)) (b := earlier))

/-- A table that has all names of the one it is laid over has no others afterwards. -/
theorem overlay_of_keys (hearlier : earlier.Sorted) (hlater : later.Sorted)
    (h : ∀ name ∈ earlier.keys, name ∈ later.keys) :
    (table origin earlier).overlay (table origin' later) =
      table origin' ⟨later.entries.map fun entry => (entry.1, laidOver earlier entry)⟩ := by
  -- Laying values over others changes none of the names.
  have hkeys : (⟨later.entries.map fun entry => (entry.1, laidOver earlier entry)⟩ :
      Dict SettingValue).keys = later.keys := List.map_map
  rw [overlay_eq_union, Dict.union_eq_right hearlier]
  · exact List.pairwise_map.mpr hlater
  · rw [hkeys]
    exact h

/-- A table over one that is empty. -/
theorem overlay_empty (hlater : later.Sorted) :
    (table origin .empty).overlay (table origin' later) = table origin' later := by
  have hempty : (Dict.empty : Dict SettingValue).Sorted := List.Pairwise.nil
  rw [overlay_of_keys hempty hlater fun name h => absurd h List.not_mem_nil]
  exact congrArg (fun entries => table origin' ⟨entries⟩) (List.map_id later.entries)

/-- An empty table over another. -/
theorem empty_overlay : (table origin earlier).overlay (table origin' .empty) =
    table origin' earlier := by
  rw [overlay_eq_union]
  rfl

/-- The table of a later layer over that of an earlier one. -/
theorem overlay_ofToml {first second : List (String × Toml)}
    (h : ∀ name ∈ first.map (·.1), name ∈ second.map (·.1)) :
    (ofToml origin (.table first)).overlay (ofToml origin' (.table second)) =
      table origin' ⟨(entriesOf origin' second).entries.map fun entry =>
        (entry.1, laidOver (entriesOf origin first) entry)⟩ := by
  have hkeys : ∀ origin (entries : List (String × Toml)) name,
      name ∈ (entriesOf origin entries).keys ↔ name ∈ entries.map (·.1) := by
    intro origin entries name
    rw [entriesOf, Dict.mem_keys_ofList, List.map_map]
    rfl
  rw [ofToml_table, ofToml_table,
    overlay_of_keys (sorted_entriesOf origin first) (sorted_entriesOf origin' second)]
  intro name
  rw [hkeys, hkeys]
  exact h name

end Overlay

section Reading

variable {α : Type} {fields : List (FieldReader α)} {start : α}

/-- The next entry of a table gives a field its value. -/
theorem fromEntries_cons {β : Type} {name : String} {read : SettingValue → Decoded β}
    {set : β → α → α} {hasDefault : Bool} {v : SettingValue} {b : β}
    {rest : List (String × SettingValue)} {finish : α}
    (hfield : fields.find? (·.name == name) = some
      { name, read := fun v => do return set (← read v), hasDefault })
    (hread : read v = .ok b) (hrest : fromEntries fields (set b start) ⟨rest⟩ = .ok finish) :
    fromEntries fields start ⟨(name, v) :: rest⟩ = .ok finish := by
  rw [fromEntries, List.foldlM_cons]
  dsimp only
  rw [hfield]
  dsimp only
  rw [hread]
  exact hrest

theorem texts?_strings (origin : Origin) (texts : List String) :
    texts? (ofToml origin (.strings texts)) = .ok texts := by
  have hitems : ∀ (texts : List String) index,
      items? (text? "a string") index ((texts.map Toml.str).map (ofToml origin)) = .ok texts := by
    intro texts
    induction texts with
    | nil => exact fun _ => rfl
    | cons text texts ih =>
        intro index
        rw [List.map_cons, List.map_cons, items?, ih, ofToml]
        rfl
  rw [Toml.strings, ofToml_arr]
  exact hitems texts 0

variable (origin : Origin) (earlier : Dict SettingValue) (name : String)

theorem texts?_laidOver (texts : List String) :
    texts? (laidOver earlier (name, ofToml origin (.strings texts))) = .ok texts := by
  rw [laidOver_of_ne_table, texts?_strings]
  intro _ _ h
  rw [Toml.strings, ofToml_arr] at h
  cases h

theorem text?_laidOver (expected text : String) :
    text? expected (laidOver earlier (name, ofToml origin (.str text))) = .ok text := by
  rw [ofToml, laidOver_of_ne_table name (fun _ _ h => by cases h)]
  rfl

theorem choice?_laidOver (kind : String) {words : List (String × α)} {word : String} {a : α}
    (h : words.lookup word = some a) :
    choice? kind words (laidOver earlier (name, ofToml origin (.str word))) = .ok a := by
  rw [ofToml, laidOver_of_ne_table name (fun _ _ h => by cases h), choice?, h]

theorem bool?_laidOver (value : Bool) :
    bool? (laidOver earlier (name, ofToml origin (.bool value))) = .ok value := by
  rw [ofToml, laidOver_of_ne_table name (fun _ _ h => by cases h)]
  rfl

theorem uint32?_laidOver (value : UInt32) :
    uint32? (laidOver earlier (name, ofToml origin (.int value.toNat))) = .ok value := by
  rw [ofToml, laidOver_of_ne_table name (fun _ _ h => by cases h), uint32?]
  dsimp only
  rw [if_pos ⟨Int.natCast_nonneg _, UInt32.toNat_lt_size value⟩, Int.toNat_natCast,
    UInt32.ofNat_toNat]

end Reading

end SettingValue

open SettingValue

theorem ModuleOverrides.ofValue_toToml (origin : Origin) (o : ModuleOverrides) :
    ofValue (.ofToml origin o.toToml) = .ok o := by
  have hentries : entriesOf origin [("strip_macros", .strings o.stripMacros),
      ("skip_headers", .strings o.skipHeaders)] =
        ⟨[("skip_headers", ofToml origin (.strings o.skipHeaders)),
          ("strip_macros", ofToml origin (.strings o.stripMacros))]⟩ := by
    simp only [entriesOf, Dict.ofList, Dict.insert, Dict.insertEntry, Dict.empty, List.map_cons,
      List.map_nil, List.foldl_cons, List.foldl_nil, String.reduceEq, String.reduceLT, if_true,
      if_false]
  rw [toToml, ofToml_table, hentries, ofValue, record]
  refine fromEntries_cons rfl (texts?_strings origin o.skipHeaders) ?_
  refine fromEntries_cons rfl (texts?_strings origin o.stripMacros) ?_
  rfl

theorem CollisionPolicy.lookup_word (policy : CollisionPolicy) :
    words.lookup policy.word = some policy := by
  cases policy <;> rfl

theorem Backend.lookup_word (backend : Backend) : words.lookup backend.word = some backend := by
  cases backend <;> rfl

/-- The assembly settings of a later layer cover those of an earlier one. -/
theorem AssemblySettings.ofValue_overlay (origin origin' : Origin) (s t : AssemblySettings) :
    ofValue ((ofToml origin s.toToml).overlay (ofToml origin' t.toToml)) = .ok t := by
  rw [toToml, toToml, overlay_ofToml, ofValue, record]
  · exact fromEntries_cons rfl (choice?_laidOver _ _ _ _ t.collisionPolicy.lookup_word) rfl
  · exact fun _ h => h

/-- The overrides of all modules are read as they were written. -/
theorem dict?_modules (origin : Origin) {modules : Dict ModuleOverrides} (h : modules.Sorted) :
    dict? ModuleOverrides.ofValue
      (ofToml origin (.table (modules.map ModuleOverrides.toToml).entries)) = .ok modules := by
  have hentries : entriesOf origin (modules.map ModuleOverrides.toToml).entries =
      ⟨modules.entries.map fun entry => (entry.1, ofToml origin entry.2.toToml)⟩ := by
    have hsorted : (⟨modules.entries.map fun entry => (entry.1, ofToml origin entry.2.toToml)⟩ :
        Dict SettingValue).Sorted := List.pairwise_map.mpr h
    rw [entriesOf, Dict.map, List.map_map]
    exact Dict.ofList_eq_of_perm hsorted _ (List.Perm.refl _)
  rw [ofToml_table, hentries, dict?, bind_eq_ok]
  refine ⟨modules.entries, (mapM_eq_ok_iff _ _ _).mpr ?_, ?_⟩
  · rw [List.forall₂_map_left_iff, List.forall₂_same]
    intro entry _
    dsimp only
    rw [ModuleOverrides.ofValue_toToml]
    rfl
  · exact congrArg Except.ok (Dict.ofList_eq_of_perm h _ (List.Perm.refl _))

/-- The entries of the parser settings. -/
def ParserSettings.tomlEntries (s : ParserSettings) : List (String × Toml) :=
  [("backend", .str s.backend.word), ("header_extension", .str s.headerExtension)] ++
    Toml.entryIfAny "descriptor_dir" s.descriptorDir ++
    [("strip_macros", .strings s.stripMacros),
      ("modules", .table (s.modules.map ModuleOverrides.toToml).entries)]

/-- Parser settings of a later layer cover the built-in ones. -/
theorem ParserSettings.ofValue_overlay (origin : Origin) (s : ParserSettings)
    (h : s.modules.Sorted) :
    ofValue ((ofToml .builtIn ({} : ParserSettings).toToml).overlay (ofToml origin s.toToml)) =
      .ok s := by
  have htable : ∀ s : ParserSettings, s.toToml = .table s.tomlEntries := fun _ => rfl
  have hnames : ∀ name ∈ (tomlEntries {}).map (·.1), name ∈ s.tomlEntries.map (·.1) := by
    cases hdir : s.descriptorDir <;> simp [tomlEntries, Toml.entryIfAny, hdir]
  have hentries : entriesOf origin s.tomlEntries =
      ⟨("backend", ofToml origin (.str s.backend.word)) ::
        ((Toml.entryIfAny "descriptor_dir" s.descriptorDir).map
            fun entry => (entry.1, ofToml origin entry.2)) ++
        [("header_extension", ofToml origin (.str s.headerExtension)),
          ("modules", ofToml origin (.table (s.modules.map ModuleOverrides.toToml).entries)),
          ("strip_macros", ofToml origin (.strings s.stripMacros))]⟩ := by
    cases hdir : s.descriptorDir <;>
      simp only [tomlEntries, entriesOf, Toml.entryIfAny, hdir, Dict.ofList, Dict.insert,
        Dict.insertEntry, Dict.empty, List.map_cons, List.map_nil, List.cons_append,
        List.nil_append, List.append_nil, List.foldl_cons, List.foldl_nil, String.reduceEq,
        String.reduceLT, if_true, if_false]
  -- Overrides of modules have nothing built-in to join with.
  have hdefault : (entriesOf .builtIn (tomlEntries {})).find? "modules" =
      some (ofToml .builtIn (.table [])) :=
    find?_entriesOf .builtIn (by decide) (by simp [tomlEntries, Dict.map, Dict.empty])
  have hmodules : dict? ModuleOverrides.ofValue (laidOver (entriesOf .builtIn (tomlEntries {}))
      ("modules", ofToml origin (.table (s.modules.map ModuleOverrides.toToml).entries))) =
        .ok s.modules := by
    rw [laidOver_of_find? hdefault, ofToml_table, ofToml_table]
    exact (congrArg _ (overlay_empty (sorted_entriesOf _ _))).trans
      (ofToml_table _ _ ▸ dict?_modules origin h)
  rw [htable, htable, overlay_ofToml hnames, hentries, ofValue, record]
  rcases s with ⟨backend, headerExtension, _ | dir, stripMacros, modules⟩
  · refine fromEntries_cons rfl (choice?_laidOver _ _ _ _ backend.lookup_word) ?_
    refine fromEntries_cons rfl (text?_laidOver _ _ _ _ headerExtension) ?_
    refine fromEntries_cons rfl hmodules ?_
    exact fromEntries_cons rfl (texts?_laidOver _ _ _ stripMacros) rfl
  · refine fromEntries_cons rfl (choice?_laidOver _ _ _ _ backend.lookup_word) ?_
    refine fromEntries_cons rfl (text?_laidOver _ _ _ _ dir) ?_
    refine fromEntries_cons rfl (text?_laidOver _ _ _ _ headerExtension) ?_
    refine fromEntries_cons rfl hmodules ?_
    exact fromEntries_cons rfl (texts?_laidOver _ _ _ stripMacros) rfl

namespace Settings

/-- The entries of the settings. -/
def tomlEntries (s : Settings) : List (String × Toml) :=
  [("version", .int s.version.toNat), ("debug", .bool s.debug)] ++
    Toml.entryIfAny "prefix" s.headerDir ++
    [("known_modules", .strings s.knownModules), ("assembly", s.assembly.toToml),
      ("parser", s.parser.toToml)]

/-- Settings are what their table gives over the built-in ones. -/
theorem ofLayers_toToml (origin : Origin) (s : Settings) (h : s.parser.modules.Sorted) :
    ofLayers [ofToml origin s.toToml, table .environment .empty] = .ok s := by
  have htable : ∀ s : Settings, s.toToml = .table s.tomlEntries := fun _ => rfl
  have hnames : ∀ name ∈ (tomlEntries {}).map (·.1), name ∈ s.tomlEntries.map (·.1) := by
    cases hdir : s.headerDir <;> simp [tomlEntries, Toml.entryIfAny, hdir]
  have hentries : entriesOf origin s.tomlEntries =
      ⟨[("assembly", ofToml origin s.assembly.toToml), ("debug", ofToml origin (.bool s.debug)),
        ("known_modules", ofToml origin (.strings s.knownModules)),
        ("parser", ofToml origin s.parser.toToml)] ++
          ((Toml.entryIfAny "prefix" s.headerDir).map
            fun entry => (entry.1, ofToml origin entry.2)) ++
        [("version", ofToml origin (.int s.version.toNat))]⟩ := by
    cases hdir : s.headerDir <;>
      simp only [tomlEntries, entriesOf, Toml.entryIfAny, hdir, Dict.ofList, Dict.insert,
        Dict.insertEntry, Dict.empty, List.map_cons, List.map_nil, List.cons_append,
        List.nil_append, List.append_nil, List.foldl_cons, List.foldl_nil, String.reduceEq,
        String.reduceLT, if_true, if_false]
  have hassembly : AssemblySettings.ofValue (laidOver (entriesOf .builtIn (tomlEntries {}))
      ("assembly", ofToml origin s.assembly.toToml)) = .ok s.assembly := by
    have hmem : ("assembly", ({} : AssemblySettings).toToml) ∈ tomlEntries {} := by
      simp [tomlEntries]
    rw [laidOver_of_find? (find?_entriesOf .builtIn (by decide) hmem)]
    exact AssemblySettings.ofValue_overlay .builtIn origin {} s.assembly
  have hparser : ParserSettings.ofValue (laidOver (entriesOf .builtIn (tomlEntries {}))
      ("parser", ofToml origin s.parser.toToml)) = .ok s.parser := by
    have hmem : ("parser", ({} : ParserSettings).toToml) ∈ tomlEntries {} := by
      simp [tomlEntries]
    rw [laidOver_of_find? (find?_entriesOf .builtIn (by decide) hmem)]
    exact ParserSettings.ofValue_overlay origin s.parser h
  rw [ofLayers, List.foldl_cons, List.foldl_cons, List.foldl_nil, htable, htable,
    overlay_ofToml hnames, empty_overlay, hentries, ofValue, record]
  rcases s with ⟨version, debug, _ | dir, knownModules, assembly, parser⟩
  · refine fromEntries_cons rfl hassembly ?_
    refine fromEntries_cons rfl (bool?_laidOver _ _ _ debug) ?_
    refine fromEntries_cons rfl (texts?_laidOver _ _ _ knownModules) ?_
    refine fromEntries_cons rfl hparser ?_
    exact fromEntries_cons rfl (uint32?_laidOver _ _ _ version) rfl
  · refine fromEntries_cons rfl hassembly ?_
    refine fromEntries_cons rfl (bool?_laidOver _ _ _ debug) ?_
    refine fromEntries_cons rfl (texts?_laidOver _ _ _ knownModules) ?_
    refine fromEntries_cons rfl hparser ?_
    refine fromEntries_cons rfl (text?_laidOver _ _ _ _ dir) ?_
    exact fromEntries_cons rfl (uint32?_laidOver _ _ _ version) rfl

end Settings

end HeaderBinding
