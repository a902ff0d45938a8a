import HeaderBinding.Files.FileTree
import HeaderBinding.Proofs.Except
import HeaderBinding.Proofs.Text.Splitting

/-!
# Names in a Tree of Files

What a directory lists, and which names can stand in it.

A listing gives the names of the places right below a directory, whichever order the places are kept
in (`mem_entriesBelow`).

A name in a tree has no slash in it. The type of trees does not say so, but the operations see to
it: they put something only at a place that a path has led to, and following a path takes one piece
of it at a time, which lies between two slashes. So a tree whose names are good has good names again
once a file is written (`FileTree.WellNamed.write`).

## Main definitions

* `FileTree.LeadsToDirectory`: A path leads to a directory.
* `FileTree.HoldsFile`: A file stands right below a place.
* `FileTree.entriesBelow`: What stands right below a place.
* `FileTree.WellNamed`: No name in a tree has a slash in it.

## Theorems

* `FileTree.list_eq_ok_iff`, `FileTree.mem_entriesBelow`: What a directory lists.
* `FileTree.follow_plain`: A step along a path.
* `FileTree.WellNamed.slot`: Where a path puts something new.
* `FileTree.WellNamed.write`: A tree with one more file in it.
-/

namespace HeaderBinding

namespace FileTree

/-- The path leads to the place, and a directory is there. -/
structure LeadsToDirectory (files : FileTree) (path : Path) (location : Location) : Prop where
  locate : files.locate path = .ok location
  entry : files.entryAt? location = some .directory

/-- A file of that name stands right below a place. -/
def HoldsFile (files : FileTree) (location : Location) (name : String) : Prop :=
  ∃ content, (name :: location, FileEntry.file content) ∈ files.entries

/-- What stands right below a place, in the order in which the places are kept. -/
def entriesBelow (files : FileTree) (location : Location) : List (String × FileEntry) :=
  files.entries.filterMap fun
    | (name :: above, e) => if above == location then some (name, e) else none
    | ([], _) => none

section Listing

variable {files : FileTree} {path : Path} {location : Location}

theorem LeadsToDirectory.isFile_eq_false (h : files.LeadsToDirectory path location) :
    files.isFile path = false := by
  have hentry : files.entry path = .ok .directory := by
    simp only [FileTree.entry, h.locate, bind, Except.bind, h.entry]
    rfl
  rw [isFile, hentry]

theorem mem_entriesBelow (name : String) (e : FileEntry) :
    (name, e) ∈ files.entriesBelow location ↔ (name :: location, e) ∈ files.entries := by
  rw [entriesBelow, List.mem_filterMap]
  constructor
  · rintro ⟨⟨place, entry⟩, hplace, hsome⟩
    cases place with
    | nil => exact absurd hsome (by simp only [reduceCtorEq, not_false_eq_true])
    | cons first above =>
        simp only [Option.ite_none_right_eq_some, beq_iff_eq, Option.some.injEq,
          Prod.mk.injEq] at hsome
        rcases hsome with ⟨rfl, rfl, rfl⟩
        exact hplace
  · intro hplace
    exact ⟨_, hplace, by simp only [beq_self_eq_true, if_true]⟩

/-- What a path leads to can be listed if it is a directory. -/
theorem list_eq_ok_iff (listing : List (String × FileEntry)) :
    files.list path = .ok listing ↔
      ∃ location, files.LeadsToDirectory path location ∧
        listing = files.entriesBelow location := by
  rw [FileTree.list, bind_eq_ok]
  constructor
  · rintro ⟨location, hlocate, h⟩
    split at h
    · next hentry => exact ⟨location, ⟨hlocate, hentry⟩, (pure_eq_ok.mp h).symm⟩
    · exact absurd h (error_ne_ok _ _)
    · exact absurd h (error_ne_ok _ _)
  · rintro ⟨location, hleads, rfl⟩
    refine ⟨location, hleads.locate, ?_⟩
    rw [hleads.entry]
    rfl

end Listing

/-- A name without a slash. -/
def PlainName (name : String) : Prop :=
  '/' ∉ name.toList

instance (name : String) : Decidable (PlainName name) :=
  inferInstanceAs (Decidable ('/' ∉ name.toList))

/-- No name in a tree has a slash in it, in the places that are taken or on the way to where
    relative paths start. -/
structure WellNamed (files : FileTree) : Prop where
  entries : ∀ place ∈ files.entries, ∀ name ∈ place.1, PlainName name
  workingDirectory : ∀ name ∈ files.workingDirectory, PlainName name

/-- A path falls into pieces at its slashes. -/
theorem pieces_plain (path : Path) : ∀ piece ∈ path.pieces, PlainName piece := by
  intro piece hpiece hslash
  rcases List.mem_map.mp hpiece with ⟨cs, hcs, rfl⟩
  rw [String.toList_ofList] at hslash
  exact absurd (Text.eq_false_of_mem_splitWhere _ _ cs hcs '/' hslash) (by decide)

section Following

variable {files : FileTree} {location location' : Location}

/-- A step along a path goes nowhere, up, or into what bears the name of the piece. -/
theorem follow_plain {piece : String} (hlocation : ∀ name ∈ location, PlainName name)
    (hpiece : PlainName piece) (h : files.follow location piece = .ok location') :
    ∀ name ∈ location', PlainName name := by
  unfold follow at h
  split at h
  · exact absurd h (error_ne_ok _ _)
  · exact absurd h (error_ne_ok _ _)
  · split at h
    · exact Except.ok.inj h ▸ hlocation
    · split at h
      · rw [← Except.ok.inj h]
        exact fun name hname => hlocation name (List.mem_of_mem_tail hname)
      · split at h
        · exact absurd h (error_ne_ok _ _)
        · split at h
          · rw [← Except.ok.inj h, List.forall_mem_cons]
            exact ⟨hpiece, hlocation⟩
          · exact absurd h (error_ne_ok _ _)

theorem WellNamed.followAll (hfiles : files.WellNamed) {path : Path} {pieces : List String}
    (hpieces : ∀ piece ∈ pieces, PlainName piece)
    (h : files.followAll path pieces = .ok location) : ∀ name ∈ location, PlainName name := by
  unfold FileTree.followAll at h
  split at h
  · exact absurd h (error_ne_ok _ _)
  · split at h
    · exact absurd h (error_ne_ok _ _)
    · split at h
      · exact absurd h (error_ne_ok _ _)
      · refine foldlM_run (fun location => ∀ name ∈ location, PlainName name) ?_
          (fun piece hpiece b b' hb hstep => follow_plain hb (hpieces piece hpiece) hstep) h
        split
        · exact fun name hname => absurd hname List.not_mem_nil
        · exact hfiles.workingDirectory

/-- Something new is put into a place with a good name, under a good name. -/
theorem WellNamed.slot (hfiles : files.WellNamed) {path : Path} {name? : Option String}
    (h : files.slot path = .ok (location, name?)) :
    (∀ name ∈ location, PlainName name) ∧ ∀ name, name? = some name → PlainName name := by
  unfold FileTree.slot at h
  have hpieces : ∀ piece ∈ (path.pieces.reverse.dropWhile (·.isEmpty)).reverse,
      PlainName piece := by
    intro piece hpiece
    have hmem := (List.dropWhile_suffix _).mem (List.mem_reverse.mp hpiece)
    exact pieces_plain path piece (List.mem_reverse.mp hmem)
  generalize (path.pieces.reverse.dropWhile (·.isEmpty)).reverse = pieces at h hpieces
  rw [bind_eq_ok] at h
  rcases h with ⟨directory, hdirectory, h⟩
  have hplain : ∀ name ∈ directory, PlainName name := by
    refine hfiles.followAll (fun piece hpiece => ?_) hdirectory
    rcases List.mem_append.mp hpiece with hfront | hdot
    · exact hpieces piece ((List.dropLast_prefix pieces).mem hfront)
    · rw [List.mem_singleton.mp hdot]
      decide
  -- A path that ends in dots or has nothing but slashes leads to the directory alone.
  have hnowhere (h : (pure (directory, none) : Except FileError _) = .ok (location, name?)) :
      (∀ name ∈ location, PlainName name) ∧ ∀ name, name? = some name → PlainName name := by
    rcases Prod.mk.inj (pure_eq_ok.mp h) with ⟨rfl, rfl⟩
    exact ⟨hplain, fun name hname => absurd hname (Option.some_ne_none name).symm⟩
  split at h
  · exact hnowhere h
  · exact hnowhere h
  · exact hnowhere h
  · next name _ _ hlast =>
      split at h
      · exact absurd h (error_ne_ok _ _)
      · rcases Prod.mk.inj (pure_eq_ok.mp h) with ⟨rfl, rfl⟩
        refine ⟨hplain, fun other hother => ?_⟩
        rw [← Option.some.inj hother]
        exact hpieces name (List.mem_of_getLast? hlast)

end Following

section Building

variable {files files' : FileTree} {path : Path}

theorem WellNamed.put (hfiles : files.WellNamed) {location : Location} (entry : FileEntry)
    (hlocation : ∀ name ∈ location, PlainName name) : (files.put location entry).WellNamed := by
  refine ⟨?_, hfiles.workingDirectory⟩
  rw [FileTree.put, List.forall_mem_cons]
  exact ⟨hlocation, fun place hplace => hfiles.entries place (List.mem_of_mem_filter hplace)⟩

/-- Writing a file keeps names good. -/
theorem WellNamed.write (hfiles : files.WellNamed) {content : FileContent}
    (h : files.write path content = .ok files') : files'.WellNamed := by
  unfold FileTree.write at h
  rw [bind_eq_ok] at h
  rcases h with ⟨⟨directory, name?⟩, hslot, h⟩
  have hplain := hfiles.slot hslot
  cases name? with
  | none => exact absurd h (error_ne_ok _ _)
  | some name =>
      dsimp only at h
      split at h
      · exact absurd h (error_ne_ok _ _)
      · split at h
        · exact absurd h (error_ne_ok _ _)
        · rw [← pure_eq_ok.mp h]
          exact hfiles.put _ (List.forall_mem_cons.mpr ⟨hplain.2 name rfl, hplain.1⟩)

end Building

end FileTree

end HeaderBinding
