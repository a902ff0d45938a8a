import HeaderBinding.Proofs.Files.FileTree

/-!
# Files Read Back

A file that was written is found under its path, with the content it was given.

Making directories and writing a file only add to a tree: a directory stays one, a place that is
taken stays taken, and relative paths start where they did (`Extends`). So whatever a path led
through before, it leads through afterwards, and the directory that a file was written to is found
again with the file in it.

## Main definitions

* `FileTree.Extends`: A tree has what another one has.

## Theorems

* `FileTree.Extends.locate`: Paths lead where they led before.
* `FileTree.Extends.createDirectories`, `FileTree.Extends.write`: The operations only add.
* `FileTree.slot_eq_ok`: Where a path puts something new.
* `FileTree.locate_write`: A file that was written.
* `FileTree.locate_join`: A path behind one to the working directory.
-/

namespace HeaderBinding

namespace FileTree

/-- A tree has the directories of another one, in its places there is something, and relative paths
    start where they did. -/
structure Extends (files files' : FileTree) : Prop where
  workingDirectory : files'.workingDirectory = files.workingDirectory
  directory : ∀ location, files.entryAt? location = some .directory →
    files'.entryAt? location = some .directory
  taken : ∀ location, (files.entryAt? location).isSome = true →
    (files'.entryAt? location).isSome = true

section Lookup

variable (files : FileTree) (location : Location) (entry : FileEntry)

theorem entryAt?_put_self (hne : location ≠ []) :
    (files.put location entry).entryAt? location = some entry := by
  cases location with
  | nil => exact absurd rfl hne
  | cons name above => exact List.lookup_cons_self

theorem entryAt?_put_of_ne {other : Location} (hne : other ≠ location) :
    (files.put location entry).entryAt? other = files.entryAt? other := by
  have hfilter : ∀ entries : List (Location × FileEntry),
      (entries.filter (·.1 != location)).lookup other = entries.lookup other := by
    intro entries
    induction entries with
    | nil => rfl
    | cons first entries ih =>
        by_cases hfirst : first.1 = location
        · have hskip : (other == first.1) = false := beq_eq_false_iff_ne.mpr (hfirst ▸ hne)
          rw [List.filter_cons_of_neg (by rw [hfirst, bne_self_eq_false]; exact Bool.false_ne_true),
            ih, List.lookup_cons, hskip]
        · have hkeep : (first.1 != location) = true := bne_iff_ne.mpr hfirst
          rw [List.filter_cons, if_pos hkeep, List.lookup_cons, List.lookup_cons, ih]
  cases other with
  | nil => rfl
  | cons name above =>
      have hskip : (name :: above == location) = false := beq_eq_false_iff_ne.mpr hne
      have hlookup : ∀ files : FileTree,
          files.entryAt? (name :: above) = files.entries.lookup (name :: above) := fun _ => rfl
      rw [hlookup, hlookup, FileTree.put, List.lookup_cons, hskip, hfilter]

end Lookup

section Following

variable {files : FileTree} {path : Path} {location location' : Location}

/-- When several steps lead somewhere. -/
theorem followAll_eq_ok_iff {pieces : List String} :
    files.followAll path pieces = .ok location ↔
      (path.isEmpty = false ∧ path.toList.contains '\x00' = false ∧
        path.utf8ByteSize ≤ maxPathBytes) ∧
      pieces.foldlM files.follow (if path.isAbsolute then [] else files.workingDirectory) =
        .ok location := by
  unfold followAll
  split
  · next hempty =>
      refine iff_of_false (error_ne_ok _ _) fun h => ?_
      exact Bool.false_ne_true (h.1.1.symm.trans hempty)
  · next hempty =>
      split
      · next hnul =>
          refine iff_of_false (error_ne_ok _ _) fun h => ?_
          exact Bool.false_ne_true (h.1.2.1.symm.trans hnul)
      · next hnul =>
          rw [Bool.not_eq_true] at hempty hnul
          split
          · next hsize => exact iff_of_false (error_ne_ok _ _) fun h => absurd h.1.2.2 (by omega)
          · next hsize => exact (and_iff_right ⟨hempty, hnul, Nat.le_of_not_lt hsize⟩).symm

/-- A step goes from a directory. -/
theorem entryAt?_of_follow {piece : String} (h : files.follow location piece = .ok location') :
    files.entryAt? location = some .directory := by
  unfold follow at h
  split at h
  · exact absurd h (error_ne_ok _ _)
  · exact absurd h (error_ne_ok _ _)
  · next hentry => exact hentry

/-- A step that stays where it is. -/
theorem follow_stays (h : files.entryAt? location = some .directory) (piece : String)
    (hpiece : piece = "" ∨ piece = ".") : files.follow location piece = .ok location := by
  rw [follow, h]
  dsimp only
  rw [if_pos hpiece]

/-- What a path leads to. -/
theorem entry_of_locate {entry : FileEntry} (hlocate : files.locate path = .ok location)
    (hentry : files.entryAt? location = some entry) : files.entry path = .ok entry := by
  simp only [FileTree.entry, hlocate, bind, Except.bind, hentry]
  rfl

end Following

namespace Extends

variable {files files' files'' : FileTree}

theorem refl (files : FileTree) : Extends files files :=
  ⟨rfl, fun _ => id, fun _ => id⟩

theorem trans (h : Extends files files') (h' : Extends files' files'') : Extends files files'' :=
  ⟨h'.workingDirectory.trans h.workingDirectory,
    fun location hentry => h'.directory location (h.directory location hentry),
    fun location htaken => h'.taken location (h.taken location htaken)⟩

/-- Something that is put where no directory is. -/
theorem put {location : Location} (entry : FileEntry) (hne : location ≠ [])
    (h : files.entryAt? location ≠ some .directory) : Extends files (files.put location entry) := by
  refine ⟨rfl, fun other hother => ?_, fun other hother => ?_⟩
  · rw [entryAt?_put_of_ne]
    · exact hother
    · rintro rfl
      exact h hother
  · by_cases heq : other = location
    · rw [heq, entryAt?_put_self files location entry hne]
      rfl
    · rwa [entryAt?_put_of_ne files location entry heq]

section Paths

variable (h : Extends files files')
include h

/-- A step along a path leads where it led before. -/
theorem follow {location location' : Location} {piece : String}
    (hfollow : files.follow location piece = .ok location') :
    files'.follow location piece = .ok location' := by
  unfold FileTree.follow at hfollow ⊢
  split at hfollow
  · exact absurd hfollow (error_ne_ok _ _)
  · exact absurd hfollow (error_ne_ok _ _)
  · next hentry =>
      rw [h.directory location hentry]
      dsimp only
      split at hfollow
      · next hstays => rwa [if_pos hstays]
      · next hmoves =>
          rw [if_neg hmoves]
          split at hfollow
          · next hup => rwa [if_pos hup]
          · next hdown =>
              rw [if_neg hdown]
              split at hfollow
              · exact absurd hfollow (error_ne_ok _ _)
              · next hsize =>
                  rw [if_neg hsize]
                  split at hfollow
                  · next htaken => rwa [if_pos (h.taken _ htaken)]
                  · exact absurd hfollow (error_ne_ok _ _)

theorem followAll {path : Path} {pieces : List String} {location : Location}
    (hfollow : files.followAll path pieces = .ok location) :
    files'.followAll path pieces = .ok location := by
  have hrun : ∀ (pieces : List String) start, pieces.foldlM files.follow start = .ok location →
      pieces.foldlM files'.follow start = .ok location := by
    intro pieces
    induction pieces with
    | nil => exact fun _ => id
    | cons piece pieces ih =>
        intro start hrun
        rw [List.foldlM_cons, bind_eq_ok] at hrun ⊢
        rcases hrun with ⟨middle, hstep, hrest⟩
        exact ⟨middle, h.follow hstep, ih middle hrest⟩
  rw [followAll_eq_ok_iff] at hfollow ⊢
  rw [h.workingDirectory]
  exact ⟨hfollow.1, hrun pieces _ hfollow.2⟩

theorem locate {path : Path} {location : Location} (hlocate : files.locate path = .ok location) :
    files'.locate path = .ok location :=
  h.followAll hlocate

theorem leadsToDirectory {path : Path} {location : Location}
    (hleads : files.LeadsToDirectory path location) : files'.LeadsToDirectory path location :=
  ⟨h.locate hleads.locate, h.directory location hleads.entry⟩

end Paths

end Extends

section Slots

variable {files : FileTree} {path : Path} {directory : Location} {name : String}

theorem pieces_eq_concat (hne : path.isEmpty = false) (hslash : path.toList.getLast? ≠ some '/') :
    ∃ front last, path.pieces = front ++ [last] ∧ last ≠ "" := by
  have hcs : path.toList ≠ [] := fun h => by
    rw [String.toList_eq_nil_iff] at h
    rw [h] at hne
    exact absurd hne (by decide)
  rcases Text.exists_last_splitWhere (p := (· == '/')) hcs (fun c hc => by
    refine beq_eq_false_iff_ne.mpr ?_
    rintro rfl
    exact hslash hc) with ⟨front, piece, hsplit, hpiece⟩
  refine ⟨front.map String.ofList, String.ofList piece, ?_, ?_⟩
  · rw [Path.pieces, hsplit, List.map_append, List.map_singleton]
  · intro h
    refine hpiece ?_
    rw [← String.toList_ofList (l := piece), h]
    rfl

/-- A path that does not end in a slash leads to a directory, and then to the name behind its last
    slash. -/
theorem slot_eq_ok (hslash : path.toList.getLast? ≠ some '/')
    (h : files.slot path = .ok (directory, some name)) :
    ∃ front, path.pieces = front ++ [name] ∧ files.followAll path front = .ok directory ∧
      files.entryAt? directory = some .directory ∧
      (name ≠ "" ∧ name ≠ "." ∧ name ≠ ".." ∧ name.utf8ByteSize ≤ maxNameBytes) := by
  unfold slot at h
  rw [bind_eq_ok] at h
  rcases h with ⟨place, hplace, h⟩
  rw [followAll_eq_ok_iff] at hplace
  rcases pieces_eq_concat hplace.1.1 hslash with ⟨front, last, hpieces, hlast⟩
  have hall : (path.pieces.reverse.dropWhile (·.isEmpty)).reverse = front ++ [last] := by
    rw [hpieces, List.reverse_append, List.reverse_singleton, List.singleton_append,
      List.dropWhile_cons_of_neg, List.reverse_cons, List.reverse_reverse]
    rwa [String.isEmpty_iff]
  rw [hall] at hplace h
  rw [List.dropLast_concat, List.foldlM_append, bind_eq_ok] at hplace
  rcases hplace with ⟨hpath, middle, hfront, hdot⟩
  rw [List.foldlM_cons, bind_eq_ok] at hdot
  rcases hdot with ⟨place', hdot, hplace⟩
  obtain rfl := pure_eq_ok.mp hplace
  have hentry := entryAt?_of_follow hdot
  have hstays := follow_stays hentry "." (Or.inr rfl)
  obtain rfl := Except.ok.inj (hstays.symm.trans hdot)
  rw [List.getLast?_concat] at h
  have hnowhere : (pure (middle, none) : Except FileError _) ≠ .ok (directory, some name) :=
    fun h => Option.some_ne_none name (Prod.mk.inj (pure_eq_ok.mp h)).2.symm
  split at h
  · exact absurd h hnowhere
  · exact absurd h hnowhere
  · exact absurd h hnowhere
  · next other hone htwo hsome =>
      obtain rfl := Option.some.inj hsome
      split at h
      · exact absurd h (error_ne_ok _ _)
      · next hsize =>
          rcases Prod.mk.inj (pure_eq_ok.mp h) with ⟨rfl, hname⟩
          obtain rfl := Option.some.inj hname
          exact ⟨front, hpieces, followAll_eq_ok_iff.mpr ⟨hpath, hfront⟩, hentry, hlast, hone, htwo,
            Nat.le_of_not_lt hsize⟩

end Slots

section Building

variable {files files' : FileTree} {path : Path}

theorem Extends.createDirectory (h : files.createDirectory path = .ok files') :
    Extends files files' := by
  unfold FileTree.createDirectory at h
  rw [bind_eq_ok] at h
  rcases h with ⟨⟨directory, _ | name⟩, _, h⟩
  · exact absurd h (error_ne_ok _ _)
  · dsimp only at h
    split at h
    · exact absurd h (error_ne_ok _ _)
    · next hfree =>
        rw [← pure_eq_ok.mp h]
        refine Extends.put .directory (List.cons_ne_nil name directory) fun htaken => hfree ?_
        rw [htaken]
        rfl

theorem Extends.ensureDirectory (h : files.ensureDirectory path = .ok files') :
    Extends files files' := by
  unfold FileTree.ensureDirectory at h
  split at h
  · next made hmade => exact Except.ok.inj h ▸ createDirectory hmade
  · split at h
    · exact Except.ok.inj h ▸ refl files
    · exact absurd h (error_ne_ok _ _)

/-- Making a directory, and all that are missing above it, only adds. -/
theorem Extends.createDirectories (h : files.createDirectories path = .ok files') :
    Extends files files' := by
  -- By recursion on the path, from a directory to the one above it.
  fun_induction FileTree.createDirectories files path generalizing files' with
  | case1 => exact Except.ok.inj h ▸ refl files
  | case2 path _ made hmade => exact Except.ok.inj h ▸ createDirectory hmade
  | case3 => exact absurd h (error_ne_ok _ _)
  | case4 path _ _ parent _ _ above habove ih => exact (ih habove).trans (ensureDirectory h)
  | case5 => exact absurd h (error_ne_ok _ _)
  | case6 => exact Except.ok.inj h ▸ refl files
  | case7 => exact absurd h (error_ne_ok _ _)

/-- What writing a file does to a tree. -/
theorem write_eq_ok {content : FileContent} (h : files.write path content = .ok files') :
    ∃ directory name, files.slot path = .ok (directory, some name) ∧
      path.toList.getLast? ≠ some '/' ∧ files.entryAt? (name :: directory) ≠ some .directory ∧
      files' = files.put (name :: directory) (.file content) := by
  unfold FileTree.write at h
  rw [bind_eq_ok] at h
  rcases h with ⟨⟨directory, _ | name⟩, hslot, h⟩
  · exact absurd h (error_ne_ok _ _)
  · dsimp only at h
    split at h
    · exact absurd h (error_ne_ok _ _)
    · next hslash =>
        rw [beq_iff_eq] at hslash
        split at h
        · exact absurd h (error_ne_ok _ _)
        · next hentry =>
            exact ⟨directory, name, hslot, hslash, hentry, (pure_eq_ok.mp h).symm⟩

/-- Writing a file only adds. -/
theorem Extends.write {content : FileContent} (h : files.write path content = .ok files') :
    Extends files files' := by
  rcases write_eq_ok h with ⟨directory, name, -, -, hentry, rfl⟩
  exact Extends.put _ (List.cons_ne_nil name directory) hentry

/-- A file that was written stands where its path leads to. -/
theorem locate_write {content : FileContent} (h : files.write path content = .ok files') :
    ∃ location, files'.locate path = .ok location ∧
      files'.entryAt? location = some (.file content) := by
  have hextends := Extends.write h
  rcases write_eq_ok h with ⟨directory, name, hslot, hslash, -, rfl⟩
  rcases slot_eq_ok hslash hslot with ⟨front, hpieces, hfront, hdirectory, hone, hdot, hdots, hsize⟩
  have hplace := entryAt?_put_self files (name :: directory) (.file content)
    (List.cons_ne_nil name directory)
  have hstep : (files.put (name :: directory) (.file content)).follow directory name =
      .ok (name :: directory) := by
    rw [follow, hextends.directory directory hdirectory]
    dsimp only
    rw [if_neg (not_or.mpr ⟨hone, hdot⟩), if_neg hdots, if_neg (Nat.not_lt.mpr hsize), hplace]
    rfl
  refine ⟨name :: directory, ?_, hplace⟩
  -- Up to the directory the path leads where it led before; the step to the file is new.
  have hall := hextends.followAll hfront
  rw [locate, hpieces]
  rw [followAll_eq_ok_iff] at hall ⊢
  rw [List.foldlM_append, bind_eq_ok]
  refine ⟨hall.1, directory, hall.2, ?_⟩
  rw [List.foldlM_cons, hstep]
  rfl

end Building

section Joining

variable {base path : Path}

/-- A relative path behind another one, with the slash between them. -/
theorem toList_join (hrelative : path.isAbsolute = false) (hne : base.isEmpty = false) :
    ∃ front, (base.toList = front ∨ base.toList = front ++ ['/']) ∧
      (Path.join base path).toList = front ++ '/' :: path.toList := by
  unfold Path.join
  rw [hrelative, if_neg Bool.false_ne_true, hne, Bool.false_or]
  split
  · next hslash =>
      rw [beq_iff_eq, List.getLast?_eq_some_iff] at hslash
      rcases hslash with ⟨front, hfront⟩
      refine ⟨front, Or.inr hfront, ?_⟩
      rw [String.toList_append, hfront, List.append_assoc]
      rfl
  · refine ⟨base.toList, Or.inl rfl, ?_⟩
    rw [String.toList_append, String.toList_append, List.append_assoc]
    rfl

theorem isAbsolute_join (hrelative : path.isAbsolute = false) (hne : base.isEmpty = false)
    (hbase : base.isAbsolute = true) : (Path.join base path).isAbsolute = true := by
  rcases toList_join hrelative hne with ⟨front, hfront, hjoin⟩
  rw [Path.isAbsolute, beq_iff_eq] at hbase ⊢
  rw [hjoin]
  rcases front with _ | ⟨c, front⟩
  · rfl
  · rcases hfront with hfront | hfront
    · rwa [hfront] at hbase
    · rwa [hfront] at hbase

/-- Joining paths brings in no zero character, which the system takes for the end of a path. -/
theorem contains_nul_join (hrelative : path.isAbsolute = false) (hne : base.isEmpty = false)
    (hbase : base.toList.contains '\x00' = false) (hpath : path.toList.contains '\x00' = false) :
    (Path.join base path).toList.contains '\x00' = false := by
  rcases toList_join hrelative hne with ⟨front, hfront, hjoin⟩
  rw [Bool.eq_false_iff, ne_eq, List.contains_iff_mem] at hbase hpath ⊢
  rw [hjoin, List.mem_append, List.mem_cons]
  rintro (hmem | hslash | hmem)
  · rcases hfront with hfront | hfront
    · exact hbase (hfront ▸ hmem)
    · exact hbase (hfront ▸ List.mem_append_left _ hmem)
  · exact absurd hslash (by decide)
  · exact hpath hmem

/-- The pieces of a relative path come behind those of the other one, where a slash at the end of
    that one does not count as a piece. -/
theorem pieces_join (hrelative : path.isAbsolute = false) (hne : base.isEmpty = false) :
    ∃ front, (base.pieces = front ∨ base.pieces = front ++ [""]) ∧
      (Path.join base path).pieces = front ++ path.pieces := by
  rcases toList_join hrelative hne with ⟨front, hfront, hjoin⟩
  refine ⟨(Text.splitWhere (· == '/') front).map String.ofList, ?_, ?_⟩
  · rcases hfront with hfront | hfront
    · exact Or.inl (by rw [Path.pieces, hfront])
    · refine Or.inr ?_
      rw [Path.pieces, hfront, Text.splitWhere_append (p := (· == '/')) rfl, List.map_append]
      rfl
  · rw [Path.pieces, hjoin, Text.splitWhere_append (p := (· == '/')) rfl, List.map_append]
    rfl

variable {files : FileTree} {start location place : Location}

/-- A slash at the end of a path stays in the directory that the path leads to. -/
theorem foldlM_follow_of_slash {front : List String}
    (h : (front ++ [""]).foldlM files.follow start = .ok location) :
    front.foldlM files.follow start = .ok location := by
  rw [List.foldlM_append, bind_eq_ok] at h
  rcases h with ⟨middle, hmiddle, hlast⟩
  rw [List.foldlM_cons, bind_eq_ok] at hlast
  rcases hlast with ⟨stop, hstep, hstop⟩
  have hstays := follow_stays (entryAt?_of_follow hstep) "" (Or.inl rfl)
  rw [hmiddle, Except.ok.inj (hstays.symm.trans hstep), pure_eq_ok.mp hstop]

/-- A path from the working directory leads to the same place behind a path to that directory. -/
theorem locate_join (hbase : base.isAbsolute = true) (hleads : files.LeadsToDirectory base location)
    (hworking : files.workingDirectory = location) (hrelative : path.isAbsolute = false)
    (hsize : (Path.join base path).utf8ByteSize ≤ maxPathBytes)
    (hlocate : files.locate path = .ok place) : files.locate (Path.join base path) = .ok place := by
  have hdirectory := hleads.locate
  rw [locate, followAll_eq_ok_iff] at hdirectory hlocate ⊢
  rw [hbase, if_pos rfl] at hdirectory
  rw [hrelative, if_neg Bool.false_ne_true, hworking] at hlocate
  rcases hdirectory with ⟨⟨hne, hnul, -⟩, hrun⟩
  rcases hlocate with ⟨⟨-, hnul', -⟩, hrun'⟩
  rcases pieces_join hrelative hne with ⟨front, hfront, hpieces⟩
  have hrunFront : front.foldlM files.follow [] = .ok location := by
    rcases hfront with hfront | hfront
    · exact hfront ▸ hrun
    · exact foldlM_follow_of_slash (hfront ▸ hrun)
  refine ⟨⟨?_, contains_nul_join hrelative hne hnul hnul', hsize⟩, ?_⟩
  · rcases toList_join hrelative hne with ⟨front, -, hjoin⟩
    rw [Bool.eq_false_iff, ne_eq, String.isEmpty_iff, ← String.toList_eq_nil_iff, hjoin]
    exact List.append_ne_nil_of_right_ne_nil front (List.cons_ne_nil _ _)
  · rw [isAbsolute_join hrelative hne hbase, if_pos rfl, hpieces, List.foldlM_append, hrunFront]
    exact hrun'

end Joining

end FileTree

end HeaderBinding
