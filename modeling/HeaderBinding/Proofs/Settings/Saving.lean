import HeaderBinding.Proofs.Files.Writing
import HeaderBinding.Proofs.Settings.Layers
import HeaderBinding.Proofs.Toml.Document

/-!
# Settings Saved and Loaded

Settings that were saved are loaded again as they were.

Saving writes a table as a document. The table has an entry for every field that has a value, and
the tables in it come last, so the document is read back as that table
(`laidOut_tomlEntries`). The file is found under the path it was saved under, in the directory the
run works in and not in one above it. What is left is one layer over the built-in settings, which it
covers, and the layer of the environment, which is empty if no variable stands for a setting.

A relative path is looked for behind the path of the working directory. That has to lead to a
directory then, and the two together must not be too long for a path (`FileTree.Findable`).

## Main definitions

* `FileTree.Findable`: A path that can be looked for from the root.

## Theorems

* `FileTree.findUpwards_write`: A file that was written is found.
* `Settings.laidOut_tomlEntries`: The table of settings is one that is read back.
* `Environment.layer_eq_empty`: An environment without settings.
* `Settings.load_save`: Settings that were saved are loaded as they were.
-/

namespace HeaderBinding

namespace FileTree

/-- The path starts at the root, or the working directory is in the tree and its path leaves room
    for the path behind it. -/
def Findable (files : FileTree) (path : Path) : Prop :=
  path.isAbsolute = true ∨
    files.LeadsToDirectory (pathOf files.workingDirectory) files.workingDirectory ∧
      (Path.join (pathOf files.workingDirectory) path).utf8ByteSize ≤ maxPathBytes

/-- The path of a place starts at the root. -/
theorem isAbsolute_pathOf (location : Location) : (pathOf location).isAbsolute = true := by
  rw [Path.isAbsolute, pathOf, String.toList_append]
  rfl

/-- Upwards from a place, the place itself comes first. -/
theorem exists_upwards (location : Location) : ∃ above, upwards location = location :: above := by
  cases location with
  | nil => exact ⟨[], rfl⟩
  | cons name above => exact ⟨upwards above, rfl⟩

variable {files files' : FileTree} {path : Path}

/-- A path can still be looked for when more is put into a tree. -/
theorem Extends.findable (h : Extends files files') (hfindable : files.Findable path) :
    files'.Findable path := by
  rcases hfindable with hroot | ⟨hleads, hsize⟩
  · exact Or.inl hroot
  · rw [← h.workingDirectory] at hleads hsize
    exact Or.inr ⟨h.leadsToDirectory hleads, hsize⟩

/-- A file that was written is found, and it holds what was written. -/
theorem findUpwards_write {text : String} (hfindable : files.Findable path)
    (h : files.write path (.text text) = .ok files') :
    ∃ found, files'.findUpwards path = some found ∧ files'.readText found = .ok text := by
  have hextends := Extends.write h
  rcases locate_write h with ⟨location, hlocate, hentry⟩
  -- Whatever path leads to the place of the file, the file is read there.
  have hread : ∀ found, files'.locate found = .ok location →
      files'.isFile found = true ∧ files'.readText found = .ok text := by
    intro found hfound
    have hall := entry_of_locate hfound hentry
    rw [isFile, readText, hall]
    exact ⟨rfl, rfl⟩
  unfold findUpwards
  cases habsolute : path.isAbsolute with
  | true =>
      rw [if_pos rfl, (hread path hlocate).1, if_pos rfl]
      exact ⟨path, rfl, (hread path hlocate).2⟩
  | false =>
      rcases hfindable with hroot | ⟨hleads, hsize⟩
      · exact absurd hroot (by rw [habsolute]; exact Bool.false_ne_true)
      · -- The working directory itself is the first one that is looked in.
        have hjoin := locate_join (isAbsolute_pathOf _) (hextends.leadsToDirectory hleads)
          hextends.workingDirectory habsolute hsize hlocate
        rcases exists_upwards files'.workingDirectory with ⟨above, habove⟩
        rw [if_neg Bool.false_ne_true, ancestors, habove, List.map_cons, hextends.workingDirectory,
          List.find?_cons_of_pos (hread _ hjoin).1]
        exact ⟨_, rfl, (hread _ hjoin).2⟩

end FileTree

section Tables

open Toml.Reader

/-- A list of texts nests one level deep. -/
theorem plain_strings (texts : List String) : Plain depthLimit (.strings texts) := by
  -- One level of the room is taken by the list.
  have hitems : ∀ item ∈ texts.map Toml.str, Plain 78 item := by
    intro item hitem
    rcases List.mem_map.mp hitem with ⟨text, _, rfl⟩
    exact Plain.str text
  exact Plain.arr hitems

/-- An entry that may be missing holds a text if it is there. -/
theorem plain_entryIfAny (name : String) (value : Option String) :
    ∀ entry ∈ Toml.entryIfAny name value, Plain depthLimit entry.2 := by
  cases value with
  | none => exact fun _ h => absurd h List.not_mem_nil
  | some value => exact List.forall_mem_singleton.mpr (Plain.str value)

/-- The settings of a module make a table without tables in it. -/
theorem laidOut_overrides (room : Nat) (o : ModuleOverrides) :
    LaidOut (room + 1) [("strip_macros", .strings o.stripMacros),
      ("skip_headers", .strings o.skipHeaders)] := by
  refine LaidOut.flat ?_ ?_
  · simp
  · rw [List.forall_mem_cons, List.forall_mem_singleton]
    exact ⟨plain_strings _, plain_strings _⟩

/-- The settings of all modules make a table of such tables. -/
theorem laidOut_modules (room : Nat) {modules : Dict ModuleOverrides} (h : modules.Sorted) :
    LaidOut (room + 2) (modules.map ModuleOverrides.toToml).entries := by
  -- There are no values besides the tables.
  have hentries : (modules.map ModuleOverrides.toToml).entries =
      Toml.laidOut [] (modules.entries.map fun entry => (entry.1,
        [("strip_macros", .strings entry.2.stripMacros),
          ("skip_headers", .strings entry.2.skipHeaders)])) := by
    rw [Toml.laidOut, List.nil_append, List.map_map]
    rfl
  rw [hentries]
  refine LaidOut.intro ?_ (fun _ h => absurd h List.not_mem_nil) fun table htable => ?_
  · rw [List.map_nil, List.nil_append, List.map_map]
    exact h.nodup_keys
  · rcases List.mem_map.mp htable with ⟨entry, _, rfl⟩
    exact laidOut_overrides room entry.2

/-- The settings of the parser hold that table, and values in front of it. -/
theorem laidOut_parserSettings (room : Nat) (s : ParserSettings) (h : s.modules.Sorted) :
    LaidOut (room + 3) s.tomlEntries := by
  have hentries : s.tomlEntries = Toml.laidOut ([("backend", .str s.backend.word),
      ("header_extension", .str s.headerExtension)] ++
      Toml.entryIfAny "descriptor_dir" s.descriptorDir ++
      [("strip_macros", .strings s.stripMacros)])
      [("modules", (s.modules.map ModuleOverrides.toToml).entries)] := by
    rw [ParserSettings.tomlEntries, Toml.laidOut, List.append_assoc, List.append_assoc,
      List.append_assoc]
    rfl
  rw [hentries]
  refine LaidOut.intro ?_ ?_ (List.forall_mem_singleton.mpr (laidOut_modules room h))
  -- The names differ, whether or not there is a directory of descriptors.
  · cases s.descriptorDir <;> simp [Toml.entryIfAny]
  · simp only [List.forall_mem_append, List.forall_mem_cons]
    exact ⟨⟨⟨Plain.str _, Plain.str _, fun _ h => absurd h List.not_mem_nil⟩,
      plain_entryIfAny _ _⟩, plain_strings _, fun _ h => absurd h List.not_mem_nil⟩

/-- The table of settings is one that is read back. -/
theorem Settings.laidOut_tomlEntries (room : Nat) (s : Settings) (h : s.parser.modules.Sorted) :
    LaidOut (room + 4) s.tomlEntries := by
  have hentries : s.tomlEntries = Toml.laidOut ([("version", .int s.version.toNat),
      ("debug", .bool s.debug)] ++ Toml.entryIfAny "prefix" s.headerDir ++
      [("known_modules", .strings s.knownModules)])
      [("assembly", [("collision_policy", .str s.assembly.collisionPolicy.word)]),
        ("parser", s.parser.tomlEntries)] := by
    rw [tomlEntries, Toml.laidOut, List.append_assoc, List.append_assoc, List.append_assoc]
    rfl
  -- A version has 32 bits, and a whole number may have 63.
  have hversion : s.version.toNat < signBit :=
    Nat.lt_trans (UInt32.toNat_lt_size s.version) (by decide)
  have hassembly : LaidOut (room + 3) [("collision_policy",
      .str s.assembly.collisionPolicy.word)] := by
    refine LaidOut.flat ?_ (List.forall_mem_singleton.mpr (Plain.str _))
    simp
  rw [hentries]
  refine LaidOut.intro ?_ ?_ ?_
  · cases s.headerDir <;> simp [Toml.entryIfAny]
  · simp only [List.forall_mem_append, List.forall_mem_cons]
    exact ⟨⟨⟨Plain.nat hversion, Plain.bool _, fun _ h => absurd h List.not_mem_nil⟩,
      plain_entryIfAny _ _⟩, plain_strings _, fun _ h => absurd h List.not_mem_nil⟩
  · rw [List.forall_mem_cons, List.forall_mem_singleton]
    exact ⟨hassembly, laidOut_parserSettings room s.parser h⟩

end Tables

namespace Environment

/-- An environment has no settings if no variable stands for one. -/
theorem layer_eq_empty {env : Dict String} (h : ∀ name ∈ env.keys, path? name = none) :
    layer env = .table .environment .empty := by
  unfold layer
  rcases env with ⟨entries⟩
  induction entries with
  | nil => rfl
  | cons entry entries ih =>
      rw [Dict.keys, List.map_cons, List.forall_mem_cons] at h
      rw [List.foldl_cons]
      dsimp only
      rw [h.1]
      exact ih h.2

end Environment

namespace Settings

variable {files files' : FileTree} {path : Path}

/-- The layer of a file that was written is the table of its text. -/
theorem fileLayer_write {text : String} {value : Toml} (hfindable : files.Findable path)
    (h : write files path text = .ok files') (hread : Toml.read? text = some value) :
    ∃ origin, fileLayer files' path = .ok (.ofToml origin value) := by
  unfold write at h
  split at h
  · exact absurd h (error_ne_ok _ _)
  · next parent _ =>
      rw [mapError_eq_ok_iff, bind_eq_ok] at h
      rcases h with ⟨made, hmade, hwrite⟩
      -- Making directories only adds to the tree, so the path leads where it led.
      have hextends := FileTree.Extends.createDirectories hmade
      rcases FileTree.findUpwards_write (hextends.findable hfindable) hwrite with
        ⟨found, hfound, htext⟩
      refine ⟨.file (files'.shown found), ?_⟩
      rw [fileLayer, hfound]
      dsimp only
      rw [htext]
      dsimp only
      rw [hread]

/-- Settings that were saved are loaded as they were, if no variable of the environment stands for
    a setting. -/
theorem load_save (s : Settings) (files files' : FileTree) (path : Path) (env : Dict String)
    (hmodules : s.parser.modules.Sorted) (henv : ∀ name ∈ env.keys, Environment.path? name = none)
    (hpath : files.Findable path) (hsave : s.save files path = .ok files') :
    load files' env path = .ok s := by
  -- Text, file and layers one after the other.
  have hread : Toml.read? s.toToml.pretty = some s.toToml :=
    Toml.read?_pretty (laidOut_tomlEntries 76 s hmodules) (Nat.le_refl _)
  rcases fileLayer_write hpath hsave hread with ⟨origin, hlayer⟩
  rw [load, hlayer, Environment.layer_eq_empty henv]
  exact ofLayers_toToml origin s hmodules

/-- Settings in which nearly everything differs from the built-in ones. The list of macros is empty,
    one of the directories is absent, and the name of a module is no bare key. -/
def overriding : Settings where
  version := 3
  debug := true
  knownModules := ["gp", "it's \"Geom\"\n"]
  assembly := { collisionPolicy := .merge }
  parser := {
    backend := .json
    headerExtension := "h"
    descriptorDir := some "de scr"
    stripMacros := []
    modules := ⟨[("gp", { skipHeaders := ["gp_Mat.hxx"] }),
      ("my.module", { stripMacros := ["A", "B"] })]⟩ }

/-- A directory to work in, and nothing in it. -/
def workspace : FileTree where
  entries := [(["work"], .directory)]
  workingDirectory := ["work"]

/-- The settings of the example can be saved in the empty directory. -/
theorem exists_save_overriding : ∃ files', overriding.save workspace defaultPath = .ok files' := by
  have hmade : workspace.createDirectories directoryName =
      .ok (workspace.put [".cxxbind", "work"] .directory) := by
    rw [FileTree.createDirectories]
    rfl
  have hparent : Path.parent? defaultPath = some directoryName := rfl
  rw [save]
  -- What is written does not matter for where it goes.
  generalize overriding.toToml.pretty = text
  rw [write, hparent]
  dsimp only
  rw [hmade]
  exact ⟨_, rfl⟩

theorem load_save_overriding : ∃ files', overriding.save workspace defaultPath = .ok files' ∧
    load files' ⟨[("CXX", "g++"), ("HOME", "/work")]⟩ defaultPath = .ok overriding := by
  rcases exists_save_overriding with ⟨files', hsave⟩
  refine ⟨files', hsave, load_save overriding workspace files' defaultPath _ (by decide) (by decide)
    (Or.inr ⟨⟨rfl, rfl⟩, by decide⟩) hsave⟩

end Settings

end HeaderBinding
