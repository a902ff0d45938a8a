import HeaderBinding.Proofs.Dict

/-!
# Merged Maps

Taking the entries of one map into another, where a name of both gets a value folded from the two.
The union of two maps is the case in which the later value stands.

Entries of different names do not disturb each other, whatever the order in which they are taken in.
So the entries of a map can be taken in one by one, also when the map has itself been merged before,
and it does not matter how three maps are grouped (`mergeWith_assoc`). The names of the map in the
middle have to be in order. If they were not, an entry that is merged into it could come to stand in
front of the one it belongs to.

## Main definitions

* `Dict.mergeEntry`: Taking in one entry.
* `Dict.mergeWith`: Taking in a map.

## Theorems

* `Dict.find?_insert`, `Dict.insert_insert`, `Dict.insert_comm`: What an entry does to a map.
* `Dict.find?_mergeWith`, `Dict.mem_keys_mergeWith`: What a merged map holds.
* `Dict.mergeEntry_comm`: Entries of different names may be taken in either way round.
* `Dict.sorted_mergeWith`: A map in order stays in order, whatever it takes in.
* `Dict.mergeWith_mergeEntry`: A map that has taken in an entry is merged as the two in turn.
* `Dict.mergeWith_assoc`: Three maps may be grouped either way.
* `Dict.union_eq_mergeWith`: The union of two maps is a merge.
* `Dict.union_eq_right`: A map that has all names of another takes its place.
-/

namespace HeaderBinding

namespace Dict

variable {α : Type}

section Insert

theorem find?_eq_none_iff (d : Dict α) (name : String) : d.find? name = none ↔ name ∉ d.keys := by
  simp only [find?, Option.map_eq_none_iff, List.find?_eq_none, beq_iff_eq, keys, List.mem_map,
    not_exists, not_and]

theorem find?_insertEntry (key : String) (value : α) (entries : List (String × α))
    (name : String) :
    (⟨insertEntry key value entries⟩ : Dict α).find? name =
      if key = name then some value else (⟨entries⟩ : Dict α).find? name := by
  unfold find?
  induction entries with
  | nil =>
      by_cases hname : key = name
      · simp only [insertEntry, hname, List.find?_cons, beq_self_eq_true, if_true, Option.map_some]
      · simp only [insertEntry, hname, List.find?_cons, beq_eq_false_iff_ne.mpr hname, if_false]
  | cons entry rest ih =>
      unfold insertEntry
      by_cases heq : key = entry.1
      · rw [if_pos heq]
        by_cases hname : key = name
        · simp only [hname, List.find?_cons, beq_self_eq_true, if_true, Option.map_some]
        · have hentry : entry.1 ≠ name := heq ▸ hname
          simp only [hname, List.find?_cons, beq_eq_false_iff_ne.mpr hname,
            beq_eq_false_iff_ne.mpr hentry, if_false]
      · rw [if_neg heq]
        by_cases hlt : key < entry.1
        · rw [if_pos hlt]
          by_cases hname : key = name
          · simp only [hname, List.find?_cons, beq_self_eq_true, if_true, Option.map_some]
          · rw [List.find?_cons, beq_eq_false_iff_ne.mpr hname, if_neg hname]
        · rw [if_neg hlt]
          by_cases hentry : entry.1 = name
          · have hname : key ≠ name := hentry ▸ heq
            simp only [hentry, hname, List.find?_cons, beq_self_eq_true, if_false]
          · rw [List.find?_cons, List.find?_cons, beq_eq_false_iff_ne.mpr hentry]
            exact ih

/-- A name has the value it was given, and other names keep theirs. -/
theorem find?_insert (d : Dict α) (key : String) (value : α) (name : String) :
    (d.insert key value).find? name = if key = name then some value else d.find? name :=
  find?_insertEntry key value d.entries name

theorem insertEntry_insertEntry (key : String) (first second : α)
    (entries : List (String × α)) :
    insertEntry key second (insertEntry key first entries) = insertEntry key second entries := by
  induction entries with
  | nil => simp only [insertEntry, if_true]
  | cons entry rest ih =>
      by_cases heq : key = entry.1
      · simp only [insertEntry, heq, if_true]
      · by_cases hlt : key < entry.1
        · simp only [insertEntry, heq, hlt, if_true, if_false]
        · simp only [insertEntry, heq, hlt, if_false, ih]

/-- Of two values for one name the second stands. -/
theorem insert_insert (d : Dict α) (key : String) (first second : α) :
    (d.insert key first).insert key second = d.insert key second :=
  congrArg mk (insertEntry_insertEntry key first second d.entries)

theorem insertEntry_comm_of_lt {key other : String} (hlt : key < other) (value second : α)
    (entries : List (String × α)) :
    insertEntry other second (insertEntry key value entries) =
      insertEntry key value (insertEntry other second entries) := by
  have hne : ¬ other = key := fun h => String.lt_irrefl key (h ▸ hlt)
  have hback : ¬ other < key := fun h => String.lt_irrefl key (String.lt_trans hlt h)
  induction entries with
  | nil => simp only [insertEntry, hne, hback, Ne.symm hne, hlt, if_true, if_false]
  | cons entry rest ih =>
      by_cases heq : key = entry.1
      · subst heq
        simp only [insertEntry, hne, hback, if_true, if_false]
      · by_cases hkey : key < entry.1
        · -- The lesser name goes in front of this entry, wherever the greater one goes.
          by_cases hother : other = entry.1
          · subst hother
            simp only [insertEntry, hne, hback, Ne.symm hne, hlt, if_true, if_false]
          · by_cases hless : other < entry.1
            · simp only [insertEntry, heq, hkey, hother, hless, hne, hback, Ne.symm hne, hlt,
                if_true, if_false]
            · simp only [insertEntry, heq, hkey, hother, hless, hne, hback, if_true, if_false]
        · -- Neither goes in front of an entry that is less than both.
          have hpass : ¬ other = entry.1 ∧ ¬ other < entry.1 := by
            refine ⟨fun h => hkey (h ▸ hlt), fun h => hkey (String.lt_trans hlt h)⟩
          simp only [insertEntry, heq, hkey, hpass.1, hpass.2, if_false, ih]

/-- Different names may be given their values in either order. -/
theorem insert_comm (d : Dict α) {key other : String} (hne : key ≠ other) (value second : α) :
    (d.insert key value).insert other second = (d.insert other second).insert key value := by
  refine congrArg mk ?_
  by_cases hlt : key < other
  · exact insertEntry_comm_of_lt hlt value second d.entries
  · have hgt : other < key := by
      by_contra hnot
      exact hne (String.le_antisymm hnot hlt)
    exact (insertEntry_comm_of_lt hgt second value d.entries).symm

end Insert

/-- Take in an entry. A name that has a value gets one folded from the two. -/
def mergeEntry (f : α → α → α) (d : Dict α) (entry : String × α) : Dict α :=
  d.insert entry.1 (match d.find? entry.1 with
    | some first => f first entry.2
    | none => entry.2)

/-- Take in the entries of a second map. -/
def mergeWith (f : α → α → α) (d e : Dict α) : Dict α :=
  e.entries.foldl (mergeEntry f) d

variable (f : α → α → α)

theorem union_eq_mergeWith (d e : Dict α) : d.union e = d.mergeWith (fun _ later => later) e := by
  have hentry : (fun (d : Dict α) (entry : String × α) => d.insert entry.1 entry.2) =
      mergeEntry fun _ later => later := by
    funext d entry
    unfold mergeEntry
    split
    · rfl
    · rfl
  rw [union, mergeWith, hentry]

theorem find?_mergeEntry_of_ne (d : Dict α) (entry : String × α) {name : String}
    (hne : entry.1 ≠ name) : (d.mergeEntry f entry).find? name = d.find? name := by
  rw [mergeEntry, find?_insert, if_neg hne]

/-- Entries of different names may be taken in either way round. -/
theorem mergeEntry_comm (d : Dict α) (entry other : String × α) (hne : entry.1 ≠ other.1) :
    (d.mergeEntry f entry).mergeEntry f other = (d.mergeEntry f other).mergeEntry f entry := by
  have hother := d.find?_mergeEntry_of_ne f entry hne
  have hentry := d.find?_mergeEntry_of_ne f other hne.symm
  rw [mergeEntry, hother, mergeEntry, mergeEntry, hentry, mergeEntry]
  exact d.insert_comm hne _ _

/-- Two entries of one name may be folded before they are taken in. -/
theorem mergeEntry_mergeEntry (d : Dict α) (key : String) (first second : α)
    (hassoc : ∀ x, f (f x first) second = f x (f first second)) :
    (d.mergeEntry f (key, first)).mergeEntry f (key, second) =
      d.mergeEntry f (key, f first second) := by
  rw [mergeEntry, mergeEntry, find?_insert, if_pos rfl, insert_insert, mergeEntry]
  rcases d.find? key with _ | old
  · rfl
  · simp only [hassoc]

/-- An entry may be taken in before others, if none of them is of its name. -/
theorem foldl_mergeEntry_comm (entries : List (String × α)) (d : Dict α) (entry : String × α)
    (hnew : entry.1 ∉ entries.map (·.1)) :
    entries.foldl (mergeEntry f) (d.mergeEntry f entry) =
      (entries.foldl (mergeEntry f) d).mergeEntry f entry := by
  induction entries generalizing d with
  | nil => rfl
  | cons first rest ih =>
      rw [List.map_cons, List.mem_cons, not_or] at hnew
      rw [List.foldl_cons, List.foldl_cons, mergeEntry_comm f d entry first hnew.1, ih _ hnew.2]

theorem sorted_mergeEntry (d : Dict α) (h : d.Sorted) (entry : String × α) :
    (d.mergeEntry f entry).Sorted :=
  d.sorted_insert h _ _

theorem sorted_mergeWith (d e : Dict α) (h : d.Sorted) : (d.mergeWith f e).Sorted := by
  unfold mergeWith
  generalize e.entries = entries
  induction entries generalizing d with
  | nil => exact h
  | cons entry rest ih => exact ih (d.mergeEntry f entry) (d.sorted_mergeEntry f h entry)

theorem mem_mergeEntry (d : Dict α) (entry found : String × α)
    (h : found ∈ (d.mergeEntry f entry).entries) : found.1 = entry.1 ∨ found ∈ d.entries := by
  unfold mergeEntry at h
  revert found
  exact d.forall_insert _ _ (fun _ => Or.inr) (Or.inl rfl)

/-- The names behind the first one of a map in order are greater, so they are other names. -/
theorem not_mem_keys_of_sorted_cons {entry : String × α} {rest : List (String × α)}
    (h : (⟨entry :: rest⟩ : Dict α).Sorted) {name : String} (hle : ¬ entry.1 < name) :
    name ∉ rest.map (·.1) := by
  intro hmem
  rcases List.mem_map.mp hmem with ⟨found, hfound, rfl⟩
  exact hle ((List.pairwise_cons.mp h).1 found hfound)

/-- A name of two maps has the value folded from the two in the merged map, and a name of one of
    them the value it has there. -/
theorem find?_mergeWith (d e : Dict α) (he : e.Sorted) (name : String) :
    (d.mergeWith f e).find? name = Option.merge f (d.find? name) (e.find? name) := by
  rcases e with ⟨entries⟩
  induction entries generalizing d with
  | nil => exact (Option.merge_none_right ..).symm
  | cons entry rest ih =>
      have hrest : (d.mergeWith f ⟨entry :: rest⟩).find? name =
          Option.merge f ((d.mergeEntry f entry).find? name) ((⟨rest⟩ : Dict α).find? name) :=
        ih (d.mergeEntry f entry) (List.pairwise_cons.mp he).2
      rw [hrest]
      by_cases hname : entry.1 = name
      · -- The names behind the first are greater, so the rest leaves this one alone.
        subst hname
        have hnone : (⟨rest⟩ : Dict α).find? entry.1 = none :=
          (find?_eq_none_iff _ _).mpr (not_mem_keys_of_sorted_cons he (String.lt_irrefl entry.1))
        have hfirst : (⟨entry :: rest⟩ : Dict α).find? entry.1 = some entry.2 := by
          rw [find?, List.find?_cons, beq_self_eq_true, Option.map_some]
        rw [hnone, hfirst, mergeEntry, find?_insert, if_pos rfl]
        cases d.find? entry.1 with
        | none => rfl
        | some first => rfl
      · have hskip : (⟨entry :: rest⟩ : Dict α).find? name = (⟨rest⟩ : Dict α).find? name := by
          rw [find?, List.find?_cons, beq_eq_false_iff_ne.mpr hname, find?]
        rw [hskip, find?_mergeEntry_of_ne f d entry hname]

/-- A merged map has the names of both maps. -/
theorem mem_keys_mergeWith (d e : Dict α) (he : e.Sorted) (name : String) :
    name ∈ (d.mergeWith f e).keys ↔ name ∈ d.keys ∨ name ∈ e.keys := by
  have hkeys : ∀ d : Dict α, name ∈ d.keys ↔ d.find? name ≠ none := fun d => by
    rw [ne_eq, find?_eq_none_iff, not_not]
  rw [hkeys, hkeys, hkeys, d.find?_mergeWith f e he]
  cases d.find? name with
  | none => cases e.find? name with
    | none => simp only [Option.merge, ne_eq, not_true_eq_false, or_self]
    | some later => simp only [Option.merge, ne_eq, reduceCtorEq, not_false_eq_true, or_true]
  | some first => cases e.find? name with
    | none => simp only [Option.merge, ne_eq, reduceCtorEq, not_false_eq_true, true_or]
    | some later => simp only [Option.merge, ne_eq, reduceCtorEq, not_false_eq_true, true_or]

omit f in
/-- A map that has all names of another takes its place in a union. -/
theorem union_eq_right {d e : Dict α} (hd : d.Sorted) (he : e.Sorted)
    (h : ∀ name ∈ d.keys, name ∈ e.keys) : d.union e = e := by
  rw [union_eq_mergeWith]
  refine (sorted_mergeWith _ d e hd).ext he fun name => ?_
  rw [find?_mergeWith _ d e he]
  cases hfound : e.find? name with
  | none =>
      have hnone : d.find? name = none := (find?_eq_none_iff d name).mpr fun hmem =>
        (find?_eq_none_iff e name).mp hfound (h name hmem)
      rw [hnone]
      rfl
  | some value => cases d.find? name <;> rfl

/-- A map that has taken in an entry is merged as the map and the entry in turn. -/
theorem mergeWith_mergeEntry (d e : Dict α) (he : e.Sorted) (key : String) (value : α)
    (hassoc : ∀ x first, (key, first) ∈ e.entries →
      f (f x first) value = f x (f first value)) :
    d.mergeWith f (e.mergeEntry f (key, value)) = (d.mergeWith f e).mergeEntry f (key, value) := by
  rcases e with ⟨entries⟩
  unfold mergeWith
  -- Induction along the map in the middle, up to the place of the new entry.
  induction entries generalizing d with
  | nil => rfl
  | cons entry rest ih =>
      have hrest : (⟨rest⟩ : Dict α).Sorted := (List.pairwise_cons.mp he).2
      by_cases heq : key = entry.1
      · have hmerged : (⟨entry :: rest⟩ : Dict α).mergeEntry f (key, value) =
            ⟨(key, f entry.2 value) :: rest⟩ := by
          simp only [mergeEntry, find?, insert, insertEntry, heq, List.find?_cons,
            beq_self_eq_true, Option.map_some, if_true]
        have hnew : key ∉ rest.map (·.1) :=
          not_mem_keys_of_sorted_cons he (fun h => String.lt_irrefl key (heq ▸ h))
        have hboth := d.mergeEntry_mergeEntry f key entry.2 value
          (fun x => hassoc x entry.2 (by rw [heq]; exact List.mem_cons_self))
        rw [hmerged, List.foldl_cons, List.foldl_cons, ← hboth,
          foldl_mergeEntry_comm f rest _ (key, value) hnew, heq]
      · by_cases hlt : key < entry.1
        · have hnew : key ∉ (entry :: rest).map (·.1) := by
            rw [List.map_cons, List.mem_cons, not_or]
            exact ⟨heq, not_mem_keys_of_sorted_cons he
              (fun h => String.lt_irrefl key (String.lt_trans hlt h))⟩
          have hnone : (⟨entry :: rest⟩ : Dict α).find? key = none :=
            (find?_eq_none_iff _ _).mpr hnew
          have hmerged : (⟨entry :: rest⟩ : Dict α).mergeEntry f (key, value) =
              ⟨(key, value) :: entry :: rest⟩ := by
            simp only [mergeEntry, hnone, insert, insertEntry, heq, hlt, if_true, if_false]
          rw [hmerged, List.foldl_cons]
          exact foldl_mergeEntry_comm f (entry :: rest) d (key, value) hnew
        · have hmerged : (⟨entry :: rest⟩ : Dict α).mergeEntry f (key, value) =
              ⟨entry :: ((⟨rest⟩ : Dict α).mergeEntry f (key, value)).entries⟩ := by
            have hentry : (entry.1 == key) = false := beq_eq_false_iff_ne.mpr (Ne.symm heq)
            simp only [mergeEntry, find?, insert, insertEntry, heq, hlt, List.find?_cons, hentry,
              if_false]
          rw [hmerged, List.foldl_cons, List.foldl_cons]
          exact ih (d.mergeEntry f entry) hrest
            (fun x first hfirst => hassoc x first (List.mem_cons_of_mem _ hfirst))

/-- Three maps may be grouped either way, if values of one name may. -/
theorem mergeWith_assoc (d e g : Dict α) (he : e.Sorted) (hg : g.Sorted)
    (hassoc : ∀ x name first second, (name, first) ∈ e.entries → (name, second) ∈ g.entries →
      f (f x first) second = f x (f first second)) :
    (d.mergeWith f e).mergeWith f g = d.mergeWith f (e.mergeWith f g) := by
  rcases g with ⟨entries⟩
  -- Induction along the last map; what it leaves in the middle has kept its order.
  induction entries generalizing e with
  | nil => rfl
  | cons entry rest ih =>
      have hmiddle := d.mergeWith_mergeEntry f e he entry.1 entry.2
        (fun x first hfirst => hassoc x entry.1 first entry.2 hfirst List.mem_cons_self)
      have hcons : ∀ d : Dict α, d.mergeWith f ⟨entry :: rest⟩ =
          (d.mergeEntry f entry).mergeWith f ⟨rest⟩ := fun _ => rfl
      rw [hcons, hcons, ← hmiddle]
      refine ih (e.mergeEntry f entry) (e.sorted_mergeEntry f he entry)
        (List.pairwise_cons.mp hg).2 (fun x name first second hfirst hsecond => ?_)
      -- Names in order occur once, so what is left of the last map is of other names.
      have hne : name ≠ entry.1 := by
        intro h
        have hlt := (List.pairwise_cons.mp hg).1 _ hsecond
        exact String.lt_irrefl entry.1 (h ▸ hlt)
      exact hassoc x name first second ((e.mem_mergeEntry f entry _ hfirst).resolve_left hne)
        (List.mem_cons_of_mem _ hsecond)

end Dict

end HeaderBinding
