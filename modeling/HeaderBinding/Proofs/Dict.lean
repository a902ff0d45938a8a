import HeaderBinding.Dict
import Mathlib.Data.List.Nodup

/-!
# Sorted Maps

What filling a map does to its names.

An entry is put in front of the first greater name, so that names which ascend still do so
afterwards. A map filled from nothing therefore has its names in strict order, and there is only one
way to write a set of names down like that. So the sorted names of a list depend on which names are
in the list and on nothing else (`sortedNames_congr`).

What holds of every entry is kept as long as it holds of the entries put in. Maps of records are
filled from several sides, and that is all that is ever asked of them.

## Theorems

* `Dict.mem_of_find?`: What a look-up finds is an entry.
* `Dict.forall_insert`, `Dict.forall_union`: What holds of every entry.
* `Dict.mem_keys_insertEntry`, `Dict.mem_keys_ofList`: The names of a map.
* `Dict.sorted_insert`, `Dict.sorted_ofList`: The names ascend.
* `Dict.perm_ofList`, `Dict.ofList_eq_of_perm`: The map of entries with distinct names.
* `Dict.Sorted.find?_eq_some_iff`, `Dict.Sorted.ext`: A map in order is known by its look-ups.
* `Dict.mem_sortedNames`, `Dict.pairwise_sortedNames`, `Dict.nodup_sortedNames`: The sorted names of
  a list.
* `Dict.sortedNames_congr`: Lists with the same names have the same sorted names.
-/

namespace HeaderBinding

namespace Dict

variable {α : Type}

instance (d : Dict α) : Decidable d.Sorted :=
  inferInstanceAs (Decidable (d.entries.Pairwise (·.1 < ·.1)))

section Entries

variable {p : String × α → Prop}

theorem mem_of_find? (d : Dict α) (key : String) (value : α) (h : d.find? key = some value) :
    (key, value) ∈ d.entries := by
  rw [find?, Option.map_eq_some_iff] at h
  rcases h with ⟨entry, hfind, rfl⟩
  have hkey := List.find?_some hfind
  rw [beq_iff_eq] at hkey
  rw [← hkey]
  exact List.mem_of_find?_eq_some hfind

theorem forall_insertEntry (key : String) (value : α) (entries : List (String × α))
    (h : ∀ entry ∈ entries, p entry) (hnew : p (key, value)) :
    ∀ entry ∈ insertEntry key value entries, p entry := by
  induction entries with
  | nil => exact List.forall_mem_singleton.mpr hnew
  | cons first rest ih =>
      rw [List.forall_mem_cons] at h
      unfold insertEntry
      by_cases heq : key = first.1
      · rw [if_pos heq]
        exact List.forall_mem_cons.mpr ⟨hnew, h.2⟩
      · rw [if_neg heq]
        by_cases hlt : key < first.1
        · rw [if_pos hlt]
          exact List.forall_mem_cons.mpr ⟨hnew, List.forall_mem_cons.mpr h⟩
        · rw [if_neg hlt]
          exact List.forall_mem_cons.mpr ⟨h.1, ih h.2⟩

/-- What holds of every entry, and of the one put in, holds of every entry after that. -/
theorem forall_insert (d : Dict α) (key : String) (value : α) (h : ∀ entry ∈ d.entries, p entry)
    (hnew : p (key, value)) : ∀ entry ∈ (d.insert key value).entries, p entry :=
  forall_insertEntry key value d.entries h hnew

/-- What holds of every entry of two maps holds of their union. -/
theorem forall_union (d e : Dict α) (hd : ∀ entry ∈ d.entries, p entry)
    (he : ∀ entry ∈ e.entries, p entry) : ∀ entry ∈ (d.union e).entries, p entry := by
  unfold union
  generalize e.entries = entries at he
  induction entries generalizing d with
  | nil => exact hd
  | cons first rest ih =>
      rw [List.forall_mem_cons] at he
      exact ih (d.insert first.1 first.2) (d.forall_insert _ _ hd he.1) he.2

end Entries

/-- A new entry adds its name and takes none away. -/
theorem mem_keys_insertEntry (key : String) (value : α) (entries : List (String × α))
    (name : String) :
    name ∈ (insertEntry key value entries).map (·.1) ↔
      name = key ∨ name ∈ entries.map (·.1) := by
  induction entries with
  | nil =>
      rw [insertEntry, List.map_singleton, List.mem_singleton, List.map_nil,
        or_iff_left List.not_mem_nil]
  | cons entry rest ih =>
      unfold insertEntry
      by_cases heq : key = entry.1
      · rw [if_pos heq]
        simp only [List.map_cons, List.mem_cons, heq, or_self_left]
      · rw [if_neg heq]
        by_cases hlt : key < entry.1
        · rw [if_pos hlt, List.map_cons, List.mem_cons]
        · rw [if_neg hlt, List.map_cons, List.mem_cons, ih, List.map_cons, List.mem_cons]
          exact or_left_comm

/-- A new entry keeps the names in order. -/
theorem pairwise_insertEntry (key : String) (value : α) (entries : List (String × α))
    (h : entries.Pairwise (·.1 < ·.1)) :
    (insertEntry key value entries).Pairwise (·.1 < ·.1) := by
  induction entries with
  | nil => exact List.pairwise_singleton _ _
  | cons entry rest ih =>
      rw [List.pairwise_cons] at h
      unfold insertEntry
      by_cases heq : key = entry.1
      · rw [if_pos heq, List.pairwise_cons, heq]
        exact h
      · rw [if_neg heq]
        by_cases hlt : key < entry.1
        · -- In front of the first greater name the new one is the least.
          rw [if_pos hlt, List.pairwise_cons, List.pairwise_cons]
          refine ⟨fun other hother => ?_, h⟩
          rcases List.mem_cons.mp hother with rfl | hrest
          · exact hlt
          · exact String.lt_trans hlt (h.1 other hrest)
        · rw [if_neg hlt, List.pairwise_cons]
          refine ⟨fun other hother => ?_, ih h.2⟩
          have hgreater : entry.1 < key := by
            by_contra hnot
            exact heq (String.le_antisymm hnot hlt)
          have hname :=
            (mem_keys_insertEntry key value rest other.1).mp (List.mem_map_of_mem hother)
          rcases hname with hkey | hold
          · rw [hkey]
            exact hgreater
          · rcases List.mem_map.mp hold with ⟨old, hmem, hold⟩
            rw [← hold]
            exact h.1 old hmem

theorem sorted_insert (d : Dict α) (h : d.Sorted) (key : String) (value : α) :
    (d.insert key value).Sorted :=
  pairwise_insertEntry key value d.entries h

section Filling

variable (entries : List (String × α))

-- Both facts are about the whole fold, from whatever map it starts.
theorem foldl_insert_spec (d : Dict α) (h : d.Sorted) :
    (entries.foldl (fun d entry => d.insert entry.1 entry.2) d).Sorted ∧
      ∀ name, name ∈ (entries.foldl (fun d entry => d.insert entry.1 entry.2) d).keys ↔
        name ∈ d.keys ∨ name ∈ entries.map (·.1) := by
  induction entries generalizing d with
  | nil =>
      refine ⟨h, fun name => ?_⟩
      rw [List.map_nil, or_iff_left List.not_mem_nil, List.foldl_nil]
  | cons entry entries ih =>
      rcases ih (d.insert entry.1 entry.2) (d.sorted_insert h _ _) with ⟨hsorted, hkeys⟩
      refine ⟨hsorted, fun name => ?_⟩
      have hinsert : name ∈ (d.insert entry.1 entry.2).keys ↔ name = entry.1 ∨ name ∈ d.keys :=
        mem_keys_insertEntry entry.1 entry.2 d.entries name
      rw [List.foldl_cons, hkeys, hinsert, List.map_cons, List.mem_cons, or_assoc, or_left_comm]

/-- The map of a list has its names in strict order. -/
theorem sorted_ofList : (ofList entries).Sorted :=
  (foldl_insert_spec entries empty List.Pairwise.nil).1

/-- The map of a list has the names of the list. -/
theorem mem_keys_ofList (name : String) :
    name ∈ (ofList entries).keys ↔ name ∈ entries.map (·.1) := by
  have hkeys := (foldl_insert_spec entries empty List.Pairwise.nil).2 name
  rw [ofList, hkeys]
  exact or_iff_right List.not_mem_nil

end Filling

section DistinctNames

theorem perm_insertEntry (key : String) (value : α) (entries : List (String × α))
    (h : key ∉ entries.map (·.1)) :
    (insertEntry key value entries).Perm ((key, value) :: entries) := by
  induction entries with
  | nil => exact List.Perm.refl _
  | cons entry rest ih =>
      rw [List.map_cons, List.mem_cons, not_or] at h
      unfold insertEntry
      by_cases hlt : key < entry.1
      · rw [if_neg h.1, if_pos hlt]
      · rw [if_neg h.1, if_neg hlt]
        exact ((ih h.2).cons entry).trans (List.Perm.swap _ _ rest)

theorem perm_foldl_insert (entries : List (String × α)) (d : Dict α)
    (h : ((entries ++ d.entries).map (·.1)).Nodup) :
    (entries.foldl (fun d entry => d.insert entry.1 entry.2) d).entries.Perm
      (entries ++ d.entries) := by
  induction entries generalizing d with
  | nil => exact List.Perm.refl _
  | cons entry rest ih =>
      rw [List.cons_append, List.map_cons, List.nodup_cons] at h
      have hnew : entry.1 ∉ d.entries.map (·.1) := fun hmem =>
        h.1 (by rw [List.map_append]; exact List.mem_append_right _ hmem)
      have hinsert := perm_insertEntry entry.1 entry.2 d.entries hnew
      have hmiddle : (rest ++ (d.insert entry.1 entry.2).entries).Perm
          (entry :: (rest ++ d.entries)) :=
        (hinsert.append_left rest).trans List.perm_middle
      refine (ih (d.insert entry.1 entry.2) ?_).trans hmiddle
      rw [(hmiddle.map _).nodup_iff, List.map_cons, List.nodup_cons]
      exact h

/-- Entries with distinct names are all kept, none in the place of another. -/
theorem perm_ofList (entries : List (String × α)) (h : (entries.map (·.1)).Nodup) :
    (ofList entries).entries.Perm entries := by
  have hentries : entries ++ (empty : Dict α).entries = entries := List.append_nil entries
  have hperm := perm_foldl_insert entries empty (hentries.symm ▸ h)
  rwa [hentries] at hperm

/-- The names of a map in order are distinct. -/
theorem Sorted.nodup_keys {d : Dict α} (h : d.Sorted) : d.keys.Nodup := by
  refine List.pairwise_map.mpr (h.imp ?_)
  intro a b hlt heq
  exact String.lt_irrefl b.1 (heq ▸ hlt)

/-- A map in order is the map of its entries, in whatever order they are listed. -/
theorem ofList_eq_of_perm {d : Dict α} (h : d.Sorted) (entries : List (String × α))
    (hperm : entries.Perm d.entries) : ofList entries = d := by
  have hnodup : (entries.map (·.1)).Nodup := (hperm.map _).nodup_iff.mpr h.nodup_keys
  refine congrArg mk (List.Perm.eq_of_pairwise (fun a b _ _ hab hba => ?_)
    (sorted_ofList entries) h ((perm_ofList entries hnodup).trans hperm))
  exact absurd (String.lt_trans hab hba) (String.lt_irrefl a.1)

/-- What a look-up finds in a map in order is what stands there. -/
theorem Sorted.find?_eq_some_iff {d : Dict α} (h : d.Sorted) (key : String) (value : α) :
    d.find? key = some value ↔ (key, value) ∈ d.entries := by
  refine ⟨d.mem_of_find? key value, fun hmem => ?_⟩
  have hfound : (d.entries.find? (·.1 == key)).isSome = true :=
    List.find?_isSome.mpr ⟨_, hmem, beq_self_eq_true key⟩
  rcases Option.isSome_iff_exists.mp hfound with ⟨entry, hentry⟩
  have hkey := List.find?_some hentry
  rw [beq_iff_eq] at hkey
  -- The name occurs once, so it is this entry that was found.
  obtain rfl : entry = (key, value) :=
    List.inj_on_of_nodup_map h.nodup_keys (List.mem_of_find?_eq_some hentry) hmem hkey
  rw [find?, hentry]
  rfl

/-- Maps in order are the same if every name has the same value in them. -/
theorem Sorted.ext {d e : Dict α} (hd : d.Sorted) (he : e.Sorted)
    (h : ∀ name, d.find? name = e.find? name) : d = e := by
  have hperm : d.entries.Perm e.entries := by
    rw [List.perm_ext_iff_of_nodup (List.Nodup.of_map _ hd.nodup_keys)
      (List.Nodup.of_map _ he.nodup_keys)]
    rintro ⟨key, value⟩
    rw [← hd.find?_eq_some_iff, ← he.find?_eq_some_iff, h]
  exact (ofList_eq_of_perm hd d.entries (List.Perm.refl _)).symm.trans
    (ofList_eq_of_perm he d.entries hperm)

end DistinctNames

section SortedNames

theorem mem_sortedNames (names : List String) (name : String) :
    name ∈ sortedNames names ↔ name ∈ names := by
  rw [sortedNames, mem_keys_ofList, List.map_map]
  exact iff_of_eq (congrArg (name ∈ ·) (List.map_id names))

theorem pairwise_sortedNames (names : List String) : (sortedNames names).Pairwise (· < ·) :=
  List.pairwise_map.mpr (sorted_ofList _)

theorem nodup_sortedNames (names : List String) : (sortedNames names).Nodup :=
  (sorted_ofList (names.map fun name => (name, ()))).nodup_keys

/-- Lists with the same names have the same sorted names. -/
theorem sortedNames_congr (names other : List String)
    (h : ∀ name, name ∈ names ↔ name ∈ other) : sortedNames names = sortedNames other := by
  -- The same names, each once, and in one order: there is only one such list.
  have hperm : (sortedNames names).Perm (sortedNames other) := by
    rw [List.perm_ext_iff_of_nodup (nodup_sortedNames names) (nodup_sortedNames other)]
    intro name
    rw [mem_sortedNames, mem_sortedNames]
    exact h name
  refine List.Perm.eq_of_pairwise (fun a b _ _ hab hba => ?_) (pairwise_sortedNames names)
    (pairwise_sortedNames other) hperm
  exact absurd (String.lt_trans hab hba) (String.lt_irrefl a)

end SortedNames

end Dict

end HeaderBinding
