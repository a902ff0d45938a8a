import HeaderBinding.Proofs.Assembly.Dependency
import HeaderBinding.Proofs.Files.FileTree
import HeaderBinding.Proofs.Text.ByteOrder
import HeaderBinding.Session.Discovery

/-!
# The Headers of a Module

Which headers are found for a module, and that they belong to it.

A directory is listed in no particular order, and what is found depends on the set of the files in
it alone. The names that qualify are put into ascending order, and there is one way to do that
(`headersAmong_congr`). Names ascend by code point, which is the order of their bytes too.

There are two conventions for the name of a header. Whoever looks for the headers of a module takes
the files whose names start with the module and end with an extension. Whoever meets an included
header cuts its name at the first dot and the first underscore. The two agree where the name of the
module has neither of them in it. Then the name is the part in front of the first dot or underscore,
since one of the two stands right behind it, whatever the extension is made of
(`HeaderNamed.headerOf`).

## Main definitions

* `HeaderNamed`: The two shapes of the name of a header.
* `Skipped`: A header is left out of a module.

## Theorems

* `isHeaderName_iff`, `skipsHeader_iff`: The two tests on a name.
* `mem_headersAmong`, `headersAmong_congr`: The headers of a module in a listing.
* `mem_of_discoverHeaders`: Where a header that is found stands.
* `discoverHeaders_listed`: What is found in a directory.
* `discoverHeaders_owned`: A header that is found for a module belongs to it.
-/

namespace HeaderBinding

/-- A file is named like a header of a module: the module and the extension, or the module with an
    underscore behind it, anything, and the extension. -/
def HeaderNamed (module extension fileName : String) : Prop :=
  fileName = module ++ "." ++ extension ∨
    (∃ rest, fileName = module ++ "_" ++ rest) ∧ ∃ front, fileName = front ++ "." ++ extension

/-- The settings for a module leave a header out. -/
def Skipped (settings : ParserSettings) (module fileName : String) : Prop :=
  ∃ overrides, settings.modules.find? module = some overrides ∧ fileName ∈ overrides.skipHeaders

section Tests

theorem isPrefixOf_toList_iff (front text : String) :
    front.toList.isPrefixOf text.toList = true ↔ ∃ rest, text = front ++ rest := by
  rw [List.isPrefixOf_iff_prefix]
  constructor
  · rintro ⟨rest, hrest⟩
    exact ⟨String.ofList rest, by
      rw [← String.toList_inj, String.toList_append, String.toList_ofList, hrest]⟩
  · rintro ⟨rest, rfl⟩
    exact ⟨rest.toList, String.toList_append.symm⟩

theorem isSuffixOf_toList_iff (back text : String) :
    back.toList.isSuffixOf text.toList = true ↔ ∃ front, text = front ++ back := by
  rw [List.isSuffixOf_iff_suffix]
  constructor
  · rintro ⟨front, hfront⟩
    exact ⟨String.ofList front, by
      rw [← String.toList_inj, String.toList_append, String.toList_ofList, hfront]⟩
  · rintro ⟨front, rfl⟩
    exact ⟨front.toList, String.toList_append.symm⟩

theorem isHeaderName_iff (module extension fileName : String) :
    isHeaderName module extension fileName = true ↔ HeaderNamed module extension fileName := by
  rw [isHeaderName, Bool.or_eq_true, beq_iff_eq, Bool.and_eq_true, isPrefixOf_toList_iff,
    isSuffixOf_toList_iff]
  simp only [HeaderNamed, String.append_assoc]

theorem skipsHeader_iff (settings : ParserSettings) (module fileName : String) :
    settings.skipsHeader module fileName = true ↔ Skipped settings module fileName := by
  rw [ParserSettings.skipsHeader, Option.any_eq_true]
  simp only [List.contains_iff_mem, Skipped]

end Tests

section Listing

variable (settings : ParserSettings) (module : String)

theorem mem_headersAmong (listing : List (String × Bool)) (name : String) :
    name ∈ headersAmong settings module listing ↔
      (name, true) ∈ listing ∧ HeaderNamed module settings.headerExtension name ∧
        ¬ Skipped settings module name := by
  rw [headersAmong, Dict.mem_sortedNames, List.mem_map]
  constructor
  · rintro ⟨⟨other, isFile⟩, hmem, rfl⟩
    rw [List.mem_filter] at hmem
    simp only [Bool.and_eq_true, Bool.not_eq_true', isHeaderName_iff] at hmem
    rcases hmem with ⟨hlisted, ⟨rfl, hnamed⟩, hskip⟩
    refine ⟨hlisted, hnamed, ?_⟩
    rw [← skipsHeader_iff, hskip]
    exact Bool.false_ne_true
  · rintro ⟨hlisted, hnamed, hskip⟩
    refine ⟨(name, true), List.mem_filter.mpr ⟨hlisted, ?_⟩, rfl⟩
    rw [← skipsHeader_iff, Bool.not_eq_true] at hskip
    simp only [Bool.and_eq_true, Bool.not_eq_true', isHeaderName_iff]
    exact ⟨⟨trivial, hnamed⟩, hskip⟩

/-- Of a listing it only matters which files are in it. -/
theorem headersAmong_congr (listing other : List (String × Bool))
    (h : ∀ name, (name, true) ∈ listing ↔ (name, true) ∈ other) :
    headersAmong settings module listing = headersAmong settings module other := by
  have hmem : ∀ name, name ∈ headersAmong settings module listing ↔
      name ∈ headersAmong settings module other := by
    intro name
    rw [mem_headersAmong, mem_headersAmong, h]
  unfold headersAmong at hmem ⊢
  simp only [Dict.mem_sortedNames] at hmem
  exact Dict.sortedNames_congr _ _ hmem

end Listing

section Directory

variable {files : FileTree} {headerDir : Path} (module : String) (settings : ParserSettings)

/-- What is said of a listing, said of the directory it lists. -/
theorem mem_kinds_iff (files : FileTree) (location : Location) (name : String) :
    (name, true) ∈ (files.entriesBelow location).map (fun (name, e) => (name, e.isFile)) ↔
      files.HoldsFile location name := by
  rw [List.mem_map]
  constructor
  · rintro ⟨⟨other, entry⟩, hmem, heq⟩
    rcases Prod.mk.inj heq with ⟨rfl, hfile⟩
    cases entry with
    | directory => exact absurd hfile Bool.false_ne_true
    | file content => exact ⟨content, (FileTree.mem_entriesBelow _ _).mp hmem⟩
  · rintro ⟨content, hmem⟩
    exact ⟨(name, .file content), (FileTree.mem_entriesBelow _ _).mpr hmem, rfl⟩

/-- A directory can be searched, and what is found is what its listing gives. -/
theorem discoverHeaders_eq {location : Location}
    (h : files.LeadsToDirectory headerDir location) :
    discoverHeaders files headerDir module settings =
      .ok (headersAmong settings module
        ((files.entriesBelow location).map fun (name, e) => (name, e.isFile))) := by
  have hlist : files.list headerDir = .ok (files.entriesBelow location) :=
    (FileTree.list_eq_ok_iff _).mpr ⟨location, h, rfl⟩
  simp only [discoverHeaders, h.isFile_eq_false, Bool.false_eq_true, if_false, hlist]

/-- A header that is found is a file in the directory that was searched, has the name of a header
    and is not left out. -/
theorem mem_of_discoverHeaders {headers : List Path}
    (h : discoverHeaders files headerDir module settings = .ok headers) {header : Path}
    (hheader : header ∈ headers) :
    ∃ location, files.LeadsToDirectory headerDir location ∧ files.HoldsFile location header ∧
      HeaderNamed module settings.headerExtension header ∧ ¬ Skipped settings module header := by
  by_cases hfile : files.isFile headerDir = true
  · -- A path to a file is searched in vain.
    simp only [discoverHeaders, hfile, if_true] at h
    rw [← Except.ok.inj h] at hheader
    exact absurd hheader List.not_mem_nil
  · simp only [discoverHeaders, hfile] at h
    cases hlist : files.list headerDir with
    | error cause =>
        rw [hlist] at h
        exact absurd h (error_ne_ok _ _)
    | ok listing =>
        rw [hlist] at h
        rcases (FileTree.list_eq_ok_iff listing).mp hlist with ⟨location, hleads, rfl⟩
        rw [← Except.ok.inj h, mem_headersAmong, mem_kinds_iff] at hheader
        exact ⟨location, hleads, hheader⟩

end Directory

section Extension

/-- A directory with what is named like a header of a module and what is nearly so. The extension of
    headers has a dot and an underscore in it. -/
def headerTree : FileTree where
  entries := [
    (["gp_Vec.in.h_x", "inc"], .file (.text "")),
    (["gp_Old.in.h_x", "inc"], .file (.text "")),
    (["gpx_Other.in.h_x", "inc"], .file (.text "")),
    (["gp.in.h_x", "inc"], .file (.text "")),
    (["gp_Dir.in.h_x", "inc"], .directory),
    (["inc"], .directory)]

/-- The same directory, kept the other way round. -/
def headerTreeReversed : FileTree :=
  { headerTree with entries := headerTree.entries.reverse }

/-- Settings with that extension, which leave one header out. -/
def headerSettings : ParserSettings where
  headerExtension := "in.h_x"
  modules := .ofList [("gp", { skipHeaders := ["gp_Old.in.h_x"] })]

end Extension

/-- What is named like a header of a module spells a header of the module, in any directory, if the
    module can be told by its name and the file name has no slash of either kind in it. -/
theorem HeaderNamed.headerOf {module extension fileName : String} (hmodule : ModuleName module)
    (hnamed : HeaderNamed module extension fileName)
    (hplain : ∀ c ∈ fileName.toList, c ≠ '/' ∧ c ≠ '\\') (dir : String)
    (hdir : DirectoryPart dir) : HeaderOf module (dir ++ fileName) := by
  -- Right behind the module stands a dot or an underscore, and the rest may be anything.
  have hmark : ∃ mark rest, fileName = module ++ (String.singleton mark ++ rest) ∧
      (mark = '.' ∨ mark = '_') := by
    rcases hnamed with hexact | ⟨⟨rest, hprefixed⟩, _⟩
    · exact ⟨'.', extension, by rw [hexact, String.append_assoc]; rfl, Or.inl rfl⟩
    · exact ⟨'_', rest, by rw [hprefixed, String.append_assoc]; rfl, Or.inr rfl⟩
  rcases hmark with ⟨mark, rest, rfl, hmark⟩
  refine ⟨hmodule, dir, String.singleton mark ++ rest, ?_, hdir, fun c hc => ?_, fun c hc => ?_⟩
  · rw [String.append_assoc]
  · rw [String.toList_append, String.toList_singleton, List.singleton_append, List.head?_cons,
      Option.some.injEq] at hc
    rw [← hc]
    exact hmark
  · refine hplain c ?_
    rw [String.toList_append]
    exact List.mem_append_right _ hc

/-- A header that is found for a module belongs to the module by its name. So it is found for no
    other module, whatever the settings are, and whoever includes it, from whichever directory,
    depends on the module. -/
theorem discoverHeaders_owned (files : FileTree) (headerDir : Path) (module : String)
    (settings : ParserSettings) (headers : List Path) (hmodule : ModuleName module)
    (hfiles : files.WellNamed)
    (hbackslash : ∀ location name, files.LeadsToDirectory headerDir location →
      files.HoldsFile location name → '\\' ∉ name.toList)
    (h : discoverHeaders files headerDir module settings = .ok headers) :
    (∀ header ∈ headers, moduleNameOf? header = some module) ∧
    (∀ other settings' headers', ModuleName other → other ≠ module →
      discoverHeaders files headerDir other settings' = .ok headers' →
      ∀ header ∈ headers, header ∉ headers') ∧
    ∀ name headerDir' included known policy m,
      BindingModule.ofHeaders name headerDir' included known policy = .ok m → module ≠ name →
      module ∈ known → ∀ header ∈ headers, ∀ dir, DirectoryPart dir →
      ∀ includer ∈ included, dir ++ header ∈ includer.dependencies → module ∈ m.dependencies := by
  have howned : ∀ {owner settings found header}, ModuleName owner →
      discoverHeaders files headerDir owner settings = .ok found → header ∈ found →
      ∀ dir, DirectoryPart dir → HeaderOf owner (dir ++ header) := by
    intro owner settings found header howner hfound hheader
    rcases mem_of_discoverHeaders owner settings hfound hheader with
      ⟨location, hleads, hholds, hnamed, _⟩
    refine hnamed.headerOf howner fun c hc => ⟨?_, ?_⟩
    · -- No tree holds a name with a slash of the first kind.
      rintro rfl
      rcases hholds with ⟨content, hentry⟩
      exact hfiles.entries _ hentry header (List.mem_cons_self ..) hc
    · rintro rfl
      exact hbackslash location header hleads hholds hc
  have hempty : DirectoryPart "" := by
    rw [DirectoryPart, String.toList_empty, List.getLast?_nil]
    exact fun c hc => absurd hc (Option.some_ne_none c).symm
  have hname : ∀ {owner settings found header}, ModuleName owner →
      discoverHeaders files headerDir owner settings = .ok found → header ∈ found →
      moduleNameOf? header = some owner := by
    intro owner settings found header howner hfound hheader
    rw [moduleNameOf?_eq_some_iff, ← String.empty_append (s := header)]
    exact howned howner hfound hheader "" hempty
  refine ⟨fun header hheader => hname hmodule h hheader, ?_, ?_⟩
  · -- A header found for two modules would have two owners.
    intro other settings' headers' hother hne h' header hheader hheader'
    have hsame := (hname hother h' hheader').symm.trans (hname hmodule h hheader)
    exact hne (Option.some.inj hsame)
  · intro name headerDir' included known policy m hm hne hknown header hheader dir hdir includer
      hincluder hdependency
    exact (BindingModule.mem_dependencies hm module).mpr ⟨hknown, hne, includer, hincluder,
      dir ++ header, hdependency, howned hmodule h hheader dir hdir⟩

/-- A module with one header, which includes one of another module from a directory. -/
def includingVector : List Header :=
  [{ path := "Geom_Line.hxx", dependencies := ["/usr/inc/gp_Vec.in.h_x"] }]

theorem discoverHeaders_owned_extension :
    moduleNameOf? "gp_Vec.in.h_x" = some "gp" ∧
      ∃ m, BindingModule.ofHeaders "Geom" "inc" includingVector ["gp", "Geom"] .reject = .ok m ∧
        "gp" ∈ m.dependencies := by
  have hgp : ModuleName "gp" := by decide
  have hfiles : headerTree.WellNamed := by
    -- The newest of the files has been written into a tree without it.
    have hbefore : { headerTree with entries := headerTree.entries.tail }.WellNamed :=
      ⟨by decide, by decide⟩
    have hwrite : { headerTree with entries := headerTree.entries.tail }.write
        "inc/gp_Vec.in.h_x" (.text "") = .ok headerTree := rfl
    exact hbefore.write hwrite
  have hbackslash : ∀ place ∈ headerTree.entries, ∀ name ∈ place.1, '\\' ∉ name.toList := by
    decide
  rcases discoverHeaders_owned headerTree "inc" "gp" headerSettings ["gp.in.h_x", "gp_Vec.in.h_x"]
    hgp hfiles (fun location name _ ⟨content, hentry⟩ =>
      hbackslash _ hentry name (List.mem_cons_self ..)) rfl with ⟨howner, _, hincluded⟩
  refine ⟨howner _ (.tail _ (.head _)), _, rfl, ?_⟩
  refine hincluded "Geom" "inc" includingVector ["gp", "Geom"] .reject _ rfl (by decide) (by decide)
    "gp_Vec.in.h_x" (.tail _ (.head _)) "/usr/inc/" ?_ _ (.head _) (by decide)
  intro c hc
  left
  exact (Option.some.inj hc).symm

end HeaderBinding
