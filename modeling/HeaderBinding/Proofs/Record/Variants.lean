import HeaderBinding.Proofs.Dict
import HeaderBinding.Proofs.Json.Usable
import HeaderBinding.Record.Json
import Mathlib.Data.List.Forall2
import Mathlib.Data.List.Nodup
import Mathlib.Data.List.Perm.Subperm

/-!
# Variants of a Written Record

Programs other than the one that wrote a record may write it too, and they write it differently:
fields in another order, fields left out that hold nothing, and fields of their own beside the known
ones. `Json.Variant` says which values are still the same record in this sense, at every depth.

What may be left out, and where a field holds records whose own fields vary in turn, differs from
record to record. It is written down once, as a table of fields for each kind of record. The
relation and all that follows from it only look a field up there.

A member that the written record does not have is foreign to it. It may hold any value that can be
held at all, and may even be repeated. A field of the record may not: whoever reads it cannot tell
which of two values was meant. The keys of a map are data, so they vary in order only.

## Main definitions

* `RecordKind`, `RecordKind.fields`: The kinds of records and the fields of each.
* `Json.Variant`: A value is another way to write what a value says.
* `Json.VariantMembers`: The members of an object are another way to write those of a record.
* `Reads`: Every variant of a written record is read as the record.

## Theorems

* `Json.Variant.members`, `Json.Variant.items`, `Json.Variant.entries`: The variants of a record, of
  a list of records and of a map.
* `Json.Variant.usable`: A variant of a usable value is usable.
* `Json.VariantMembers.text` and its like: Reading one field of a variant.
* `Reads.list`, `Reads.dict`: Reading a list and a map of records.
-/

namespace HeaderBinding

/-- The kinds of records. -/
inductive RecordKind where
  | argument
  | method
  | function
  | enumeration
  | typedef
  | dataMember
  | classRecord
  | templateParam
  | classTemplate
  | header

/-- How the value of a field varies. -/
inductive FieldFormat where
  /-- Not at all. -/
  | plain
  /-- As a record. -/
  | record (kind : RecordKind)
  /-- As a list of records. -/
  | list (kind : RecordKind)
  /-- As a map of records. -/
  | map (kind : RecordKind)

/-- A field of a record. -/
structure RecordField where
  name : String
  format : FieldFormat := .plain
  /-- The value the field may be left out for. -/
  default? : Option Json

namespace RecordField

/-- A text that may be left out when it is empty. -/
def text (name : String) : RecordField :=
  { name, default? := some (.str "") }

/-- A truth value that may be left out when it is false. -/
def flag (name : String) : RecordField :=
  { name, default? := some (.bool false) }

/-- A text that may be absent. -/
def optional (name : String) : RecordField :=
  { name, default? := some .null }

/-- A list of texts that may be left out when it is empty. -/
def texts (name : String) : RecordField :=
  { name, default? := some (.arr []) }

/-- A text that must be there. -/
def required (name : String) : RecordField :=
  { name, default? := none }

/-- A list of records that may be left out when it is empty. -/
def list (name : String) (kind : RecordKind) : RecordField :=
  { name, format := .list kind, default? := some (.arr []) }

/-- A map of records that may be left out when it is empty. -/
def map (name : String) (kind : RecordKind) : RecordField :=
  { name, format := .map kind, default? := some (.obj []) }

end RecordField

namespace RecordKind

/-- The fields of a class, which a class template has as well. -/
def classFields : List RecordField :=
  [.text "name", .optional "comment", .optional "path", .flag "is_abstract",
    .texts "superclasses", .map "methods" method, .map "static_methods" method,
    .list "constructors" method, .list "destructors" method, .list "operators" method,
    .list "fields" dataMember, .map "inner_classes" classRecord, .map "typedefs" typedef,
    .list "enums" enumeration]

/-- The fields of each kind of record. -/
def fields : RecordKind → List RecordField
  | argument => [.text "name", .optional "type", .optional "default"]
  | method =>
    [.text "name", .text "full_name", .list "args" argument, .optional "return_type",
      .optional "comment", .flag "is_const", .flag "is_static", .flag "is_virtual",
      .flag "is_pure_virtual"]
  | function =>
    [.text "name", .text "full_name", .list "args" argument, .optional "return_type",
      .optional "comment", .flag "is_inline"]
  | enumeration => [.text "name", .texts "values", .optional "comment", .flag "anonymous"]
  | typedef => [.text "name", .text "underlying", .optional "comment"]
  | dataMember => [.text "name", .text "type", .flag "is_static"]
  | classRecord => classFields
  | templateParam => [.required "kind", .required "type", .required "name", .optional "default"]
  | classTemplate => classFields ++ [.list "type_params" templateParam]
  | header =>
    [.text "path", .text "short_name", .texts "dependencies", .list "classes" classRecord,
      .list "class_templates" classTemplate, .list "typedefs" typedef, .list "enums" enumeration,
      .list "functions" function, .list "operators" function, .texts "forwards"]

/-- The names of the fields of each kind of record. -/
def names (kind : RecordKind) : List String :=
  kind.fields.map (·.name)

theorem nodup_names (kind : RecordKind) : kind.names.Nodup := by
  cases kind <;> decide +kernel

/-- The field of a name. -/
def field? (kind : RecordKind) (name : String) : Option RecordField :=
  kind.fields.find? (·.name == name)

/-- How the value of a field varies. -/
def format (kind : RecordKind) (name : String) : FieldFormat :=
  ((kind.field? name).map (·.format)).getD .plain

/-- The value a field may be left out for. -/
def default? (kind : RecordKind) (name : String) : Option Json :=
  (kind.field? name).bind (·.default?)

end RecordKind

namespace Json

/-- The second value is another way to write what the first one says. -/
inductive Variant : FieldFormat → Json → Json → Prop
  /-- The value itself. -/
  | same (format : FieldFormat) (value : Json) : Variant format value value
  /-- Fields in any order, some of them left out, and foreign members beside them. -/
  | record {kind : RecordKind} {members others : List (String × Json)}
    (once : noRepeats (members.map (·.1)) others = true)
    (kept : ∀ member ∈ members, ∀ value, member? others member.1 = some value →
      Variant (kind.format member.1) member.2 value)
    (dropped : ∀ member ∈ members, member? others member.1 = none →
      kind.default? member.1 = some member.2)
    (foreign : ∀ other ∈ others, other.1 ∉ members.map (·.1) → other.2.usable = true) :
    Variant (.record kind) (.obj members) (.obj others)
  /-- The same number of records in the same order. -/
  | list {kind : RecordKind} {items others : List Json} (length : items.length = others.length)
    (each : ∀ pair ∈ items.zip others, Variant (.record kind) pair.1 pair.2) :
    Variant (.list kind) (.arr items) (.arr others)
  /-- The same keys in any order. -/
  | map {kind : RecordKind} {members others : List (String × Json)}
    (keys : (members.map (·.1)).Perm (others.map (·.1)))
    (each : ∀ member ∈ members, ∀ other ∈ others, member.1 = other.1 →
      Variant (.record kind) member.2 other.2) :
    Variant (.map kind) (.obj members) (.obj others)

/-- The members of an object are another way to write those of a record. -/
structure VariantMembers (kind : RecordKind) (members others : List (String × Json)) : Prop where
  once : noRepeats (members.map (·.1)) others = true
  kept : ∀ member ∈ members, ∀ value, member? others member.1 = some value →
    Variant (kind.format member.1) member.2 value
  dropped : ∀ member ∈ members, member? others member.1 = none →
    kind.default? member.1 = some member.2
  foreign : ∀ other ∈ others, other.1 ∉ members.map (·.1) → other.2.usable = true

section Lookup

variable {members others : List (String × Json)} {name : String} {value : Json}

theorem member?_cons (member : String × Json) (members : List (String × Json)) (name : String) :
    member? (member :: members) name =
      if member.1 = name then some member.2 else member? members name := by
  by_cases hname : member.1 = name
  · simp only [member?, List.find?_cons, hname, beq_self_eq_true, Option.map_some, if_true]
  · simp only [member?, List.find?_cons, beq_eq_false_iff_ne.mpr hname, if_neg hname]

theorem mem_of_member? (h : member? members name = some value) : (name, value) ∈ members :=
  Dict.mem_of_find? ⟨members⟩ name value h

/-- A member whose name occurs once is the one a look-up finds. -/
theorem member?_eq_of_mem (honce : members.countP (·.1 == name) ≤ 1)
    (hmem : (name, value) ∈ members) : member? members name = some value := by
  induction members with
  | nil => exact absurd hmem List.not_mem_nil
  | cons first rest ih =>
      rw [List.countP_cons] at honce
      rw [member?_cons]
      by_cases hfirst : first.1 = name
      · rw [if_pos hfirst]
        rw [beq_iff_eq.mpr hfirst, if_pos rfl] at honce
        have hrest : rest.countP (·.1 == name) = 0 := by omega
        rcases List.mem_cons.mp hmem with rfl | hmem
        · rfl
        · exact absurd (beq_self_eq_true name) (List.countP_eq_zero.mp hrest _ hmem)
      · rw [if_neg hfirst]
        refine ih (Nat.le_of_add_right_le honce) ((List.mem_cons.mp hmem).resolve_left ?_)
        rintro rfl
        exact hfirst rfl

theorem noRepeats_iff (names : List String) (members : List (String × Json)) :
    noRepeats names members = true ↔ ∀ name ∈ names, members.countP (·.1 == name) ≤ 1 := by
  simp only [noRepeats, List.all_eq_true, decide_eq_true_eq]

/-- Fewer names are given to fewer members once. -/
theorem noRepeats_mono {names fewer : List String} (h : noRepeats names members = true)
    (hnames : fewer ⊆ names) (hmembers : others.Sublist members) :
    noRepeats fewer others = true := by
  rw [noRepeats_iff] at h ⊢
  exact fun name hname => Nat.le_trans hmembers.countP_le (h name (hnames hname))

/-- Members that are picked by their names are found as long as their names are picked. -/
theorem member?_filter (p : String → Bool) (h : p name = true) :
    member? (members.filter fun member => p member.1) name = member? members name := by
  induction members with
  | nil => rfl
  | cons first rest ih =>
      rw [List.filter_cons, member?_cons]
      by_cases hfirst : first.1 = name
      · rw [if_pos (hfirst ▸ h), member?_cons, if_pos hfirst, if_pos hfirst]
      · rw [if_neg hfirst, ← ih]
        by_cases hpick : p first.1 = true
        · rw [if_pos hpick, member?_cons, if_neg hfirst]
        · rw [if_neg hpick]

end Lookup

section Inversion

variable {kind : RecordKind} {j : Json}

theorem noRepeats_of_nodup {members : List (String × Json)} (h : (members.map (·.1)).Nodup)
    (names : List String) : noRepeats names members = true := by
  rw [noRepeats_iff]
  intro name _
  have hcount : members.countP (·.1 == name) = (members.map (·.1)).count name := by
    rw [List.count, List.countP_map]
    rfl
  rw [hcount]
  exact List.nodup_iff_count_le_one.mp h name

/-- The variants of a record are objects. -/
theorem Variant.members {members : List (String × Json)}
    (h : Variant (.record kind) (.obj members) j)
    (hnames : (members.map (·.1)).Sublist kind.names) :
    ∃ others, j = .obj others ∧ VariantMembers kind members others := by
  replace hnames := hnames.nodup kind.nodup_names
  cases h with
  | record once kept dropped foreign => exact ⟨_, rfl, once, kept, dropped, foreign⟩
  | same =>
      -- The names of the fields differ, so a member that is there is the one that is found.
      have once := noRepeats_of_nodup hnames (members.map (·.1))
      have hfound : ∀ member ∈ members, member? members member.1 = some member.2 := by
        intro member hmem
        rw [noRepeats_iff] at once
        exact member?_eq_of_mem (once member.1 (List.mem_map_of_mem hmem)) hmem
      refine ⟨members, rfl, once, fun member hmem value hvalue => ?_, fun member hmem hnone => ?_,
        fun other hother hforeign => absurd (List.mem_map_of_mem hother) hforeign⟩
      · rw [hfound member hmem, Option.some_inj] at hvalue
        rw [hvalue]
        exact .same _ _
      · exact absurd hnone (by rw [hfound member hmem]; exact Option.some_ne_none _)

/-- The variants of a list of records are lists of their variants. -/
theorem Variant.items {items : List Json} (h : Variant (.list kind) (.arr items) j) :
    ∃ others, j = .arr others ∧ List.Forall₂ (Variant (.record kind)) items others := by
  cases h with
  | list length each =>
      exact ⟨_, rfl, List.forall₂_iff_zip.mpr ⟨length, fun hpair => each _ hpair⟩⟩
  | same => exact ⟨items, rfl, List.forall₂_same.mpr fun item _ => .same _ item⟩

/-- The variants of a map of records are maps with the same keys. -/
theorem Variant.entries {members : List (String × Json)}
    (h : Variant (.map kind) (.obj members) j) (hkeys : (members.map (·.1)).Nodup) :
    ∃ others, j = .obj others ∧ (members.map (·.1)).Perm (others.map (·.1)) ∧
      ∀ member ∈ members, ∀ other ∈ others, member.1 = other.1 →
        Variant (.record kind) member.2 other.2 := by
  cases h with
  | map keys each => exact ⟨_, rfl, keys, each⟩
  | same =>
      refine ⟨members, rfl, List.Perm.refl _, fun member hmember other hother hkey => ?_⟩
      rw [List.inj_on_of_nodup_map hkeys hmember hother hkey]
      exact .same _ _

theorem Variant.eq_of_plain {value : Json} (h : Variant .plain value j) : j = value := by
  cases h
  rfl

end Inversion

section Usable

variable {kind : RecordKind}

/-- A variant of a value that can be held can be held. -/
theorem Variant.usable {format : FieldFormat} {value other : Json} (h : Variant format value other)
    (hvalue : value.usable = true) : other.usable = true := by
  -- Induction on how the value varies; the parts of a value that can be held can be held.
  induction h with
  | same => exact hvalue
  | @record kind members others once kept dropped foreign ih =>
      rw [usable_obj] at hvalue ⊢
      intro other hother
      -- A member is one of the record's, and then it is a variant of its value, or it is foreign.
      by_cases hname : other.1 ∈ members.map (·.1)
      · rcases List.mem_map.mp hname with ⟨member, hmember, heq⟩
        rw [noRepeats_iff] at once
        have hfound : member? others member.1 = some other.2 := by
          rw [heq]
          exact member?_eq_of_mem (once other.1 hname) hother
        exact ih member hmember other.2 hfound (hvalue member hmember)
      · exact foreign other hother hname
  | @list kind items others length each ih =>
      rw [usable_arr] at hvalue ⊢
      intro other hother
      rcases List.mem_iff_getElem.mp hother with ⟨i, hi, rfl⟩
      have hitem : i < items.length := length ▸ hi
      have hpair : (items[i], others[i]) ∈ items.zip others := by
        rw [← List.getElem_zip (h := by rw [List.length_zip]; omega)]
        exact List.getElem_mem _
      exact ih _ hpair (hvalue _ (List.getElem_mem _))
  | @map kind members others keys each ih =>
      rw [usable_obj] at hvalue ⊢
      intro other hother
      have hkey : other.1 ∈ members.map (·.1) :=
        keys.mem_iff.mpr (List.mem_map_of_mem hother)
      rcases List.mem_map.mp hkey with ⟨member, hmember, heq⟩
      exact ih member hmember other hother heq (hvalue member hmember)

theorem VariantMembers.usable {members others : List (String × Json)}
    (h : VariantMembers kind members others)
    (hmembers : ∀ member ∈ members, member.2.usable = true) :
    ∀ other ∈ others, other.2.usable = true :=
  (usable_obj others).mp
    ((Variant.record h.once h.kept h.dropped h.foreign).usable ((usable_obj members).mpr hmembers))

end Usable

end Json

open Json

/-- Every variant of a written record is read as the record. -/
def Reads {α : Type} (kind : RecordKind) (write : α → Json) (read : Json → Option α) (x : α) :
    Prop :=
  ∀ j, Variant (.record kind) (write x) j → read j = some x

section Reading

variable {α : Type} {kind : RecordKind} {write : α → Json} {read : Json → Option α}

theorem mapM_eq_some_of_forall₂ {β : Type} {f : β → Option α} {xs : List α} {ys : List β}
    (h : List.Forall₂ (fun x y => f y = some x) xs ys) : ys.mapM f = some xs := by
  induction h with
  | nil => rfl
  | cons hxy _ ih => rw [List.mapM_cons, hxy, ih]; rfl

theorem exists_forall₂ {β : Type} {R : α → β → Prop} {ys : List β} (h : ∀ y ∈ ys, ∃ x, R x y) :
    ∃ xs, List.Forall₂ R xs ys := by
  induction ys with
  | nil => exact ⟨[], .nil⟩
  | cons y ys ih =>
      rw [List.forall_mem_cons] at h
      rcases h.1 with ⟨x, hx⟩
      rcases ih h.2 with ⟨xs, hxs⟩
      exact ⟨x :: xs, .cons hx hxs⟩

theorem list?_strings (texts : List String) : list? string? (strings texts) = some texts :=
  mapM_eq_some_of_forall₂ (List.forall₂_map_right_iff.mpr (List.forall₂_same.mpr fun _ _ => rfl))

theorem optional?_ofOption (text : Option String) :
    optional? string? (ofOption .str text) = some text := by
  cases text with
  | none => rfl
  | some text => rfl

/-- A list of records is read from each of its variants. -/
theorem Reads.list {xs : List α} (hxs : ∀ x ∈ xs, Reads kind write read x) {j : Json}
    (h : Variant (.list kind) (.arr (xs.map write)) j) : list? read j = some xs := by
  rcases h.items with ⟨others, rfl, hothers⟩
  rw [List.forall₂_map_left_iff] at hothers
  exact mapM_eq_some_of_forall₂
    (((List.forall₂_and_left _ _).mpr ⟨hxs, hothers⟩).imp fun x other h => h.1 other h.2)

/-- A map of records is read from each of its variants, whatever the order of the keys. -/
theorem Reads.dict {d : Dict α} (hsorted : d.Sorted)
    (hd : ∀ entry ∈ d.entries, Reads kind write read entry.2) {j : Json}
    (h : Variant (.map kind) (ofDict write d) j) : dict? read j = some d := by
  have hnames : (d.entries.map fun entry => (entry.1, write entry.2)).map (·.1) = d.keys := by
    rw [List.map_map]
    rfl
  rcases h.entries (hnames.symm ▸ hsorted.nodup_keys) with ⟨others, rfl, hkeys, heach⟩
  rw [hnames] at hkeys
  -- Each key of the variant belongs to one entry, and its value is read as the value there.
  have hentry : ∀ other ∈ others, ∃ entry ∈ d.entries,
      entry.1 = other.1 ∧ read other.2 = some entry.2 := by
    intro other hother
    have hkey : other.1 ∈ d.keys := hkeys.mem_iff.mpr (List.mem_map_of_mem hother)
    rcases List.mem_map.mp hkey with ⟨entry, hmem, heq⟩
    exact ⟨entry, hmem, heq, hd entry hmem _
      (heach _ (List.mem_map_of_mem hmem) other hother heq)⟩
  rcases exists_forall₂ hentry with ⟨entries, hentries⟩
  have hread : others.mapM (fun other => do return (other.1, ← read other.2)) = some entries := by
    refine mapM_eq_some_of_forall₂ (hentries.imp fun entry other h => ?_)
    rw [h.2.2, ← h.2.1]
    rfl
  have hsame : entries.map (·.1) = others.map (·.1) := by
    rw [← List.forall₂_eq_eq_eq, List.forall₂_map_left_iff, List.forall₂_map_right_iff]
    exact hentries.imp fun entry other h => h.2.1
  -- As many entries as there are keys, each of them one of the map's, are the map's in some order.
  have hperm : entries.Perm d.entries := by
    have hnodup : (entries.map (·.1)).Nodup := hsame ▸ hkeys.nodup_iff.mp hsorted.nodup_keys
    have hsub : entries ⊆ d.entries :=
      ((List.forall₂_and_left _ _).mp hentries).1
    refine (List.subperm_of_subset (List.Nodup.of_map _ hnodup) hsub).perm_of_length_le ?_
    have hlength := hkeys.length_eq
    rw [← hsame, List.length_map, Dict.keys, List.length_map] at hlength
    exact Nat.le_of_eq hlength
  rw [dict?, hread]
  exact congrArg some (Dict.ofList_eq_of_perm hsorted entries hperm)

end Reading

namespace Json.VariantMembers

variable {α : Type} {kind : RecordKind} {members others : List (String × Json)}
variable (h : VariantMembers kind members others)

include h

/-- The fields of an object that lists the known ones. -/
theorem recordMembers? {names : List String} (hnames : members.map (·.1) = names) :
    Json.recordMembers? names (.obj others) = some others := by
  subst hnames
  exact if_pos h.once

/-- A field is read from a variant if it is read from each variant of its value, and if its default
    is what it may be left out for. -/
theorem field? {name : String} {field : RecordField} {value : Json} {read : Json → Option α}
    {default x : α} (hmember : member? members name = some value)
    (hfield : kind.field? name = some field)
    (hdefault : field.default? = some value → default = x)
    (hread : ∀ other, Variant field.format value other → read other = some x) :
    Json.field? others name read default = some x := by
  have hmem := mem_of_member? hmember
  have hformat : kind.format name = field.format := by
    rw [RecordKind.format, hfield, Option.map_some, Option.getD_some]
  have hleft : kind.default? name = field.default? := by
    rw [RecordKind.default?, hfield, Option.bind_some]
  unfold Json.field?
  -- The field has been left out, for its default, or its value is a variant of what was written.
  cases hother : member? others name with
  | none => exact congrArg some (hdefault (hleft ▸ h.dropped _ hmem hother))
  | some other => exact hread other (hformat ▸ h.kept _ hmem other hother)

/-- A field that must be there is read as it was written. -/
theorem required? {name : String} {value : Json} (hmember : member? members name = some value)
    (hfield : kind.field? name = some (.required name)) (read : Json → Option α) :
    Json.required? others name read = read value := by
  have hmem := mem_of_member? hmember
  have hformat : kind.format name = .plain := by
    rw [RecordKind.format, hfield]
    rfl
  have hleft : kind.default? name = none := by
    rw [RecordKind.default?, hfield]
    rfl
  unfold Json.required?
  cases hother : member? others name with
  | none => exact absurd (hleft.symm.trans (h.dropped _ hmem hother)) (Option.some_ne_none _).symm
  | some other =>
      have hvariant := h.kept _ hmem other hother
      rw [hformat] at hvariant
      rw [hvariant.eq_of_plain, Option.bind_some]

theorem text {name text : String} (hmember : member? members name = some (.str text))
    (hfield : kind.field? name = some (.text name)) :
    Json.field? others name string? "" = some text := by
  refine h.field? hmember hfield (fun hdefault => ?_) (fun other hother => ?_)
  · exact Json.str.inj (Option.some.inj hdefault)
  · rw [hother.eq_of_plain]
    rfl

theorem flag {name : String} {value : Bool} (hmember : member? members name = some (.bool value))
    (hfield : kind.field? name = some (.flag name)) :
    Json.field? others name bool? false = some value := by
  refine h.field? hmember hfield (fun hdefault => ?_) (fun other hother => ?_)
  · exact Json.bool.inj (Option.some.inj hdefault)
  · rw [hother.eq_of_plain]
    rfl

theorem optional {name : String} {value : Option String}
    (hmember : member? members name = some (.ofOption .str value))
    (hfield : kind.field? name = some (.optional name)) :
    Json.field? others name (optional? string?) none = some value := by
  refine h.field? hmember hfield (fun hdefault => ?_) (fun other hother => ?_)
  · cases value with
    | none => rfl
    | some text =>
        exact absurd (Option.some.inj hdefault)
          (by simp only [ofOption, reduceCtorEq, not_false_eq_true])
  · rw [hother.eq_of_plain]
    exact optional?_ofOption value

theorem texts {name : String} {values : List String}
    (hmember : member? members name = some (.strings values))
    (hfield : kind.field? name = some (.texts name)) :
    Json.field? others name (list? string?) [] = some values := by
  refine h.field? hmember hfield (fun hdefault => ?_) (fun other hother => ?_)
  · exact (List.map_eq_nil_iff.mp (Json.arr.inj (Option.some.inj hdefault)).symm).symm
  · rw [hother.eq_of_plain]
    exact list?_strings values

theorem list {name : String} {nested : RecordKind} {write : α → Json} {read : Json → Option α}
    {xs : List α} (hmember : member? members name = some (.arr (xs.map write)))
    (hfield : kind.field? name = some (.list name nested))
    (hxs : ∀ x ∈ xs, Reads nested write read x) :
    Json.field? others name (list? read) [] = some xs := by
  refine h.field? hmember hfield (fun hdefault => ?_) (fun other hother => Reads.list hxs hother)
  exact (List.map_eq_nil_iff.mp (Json.arr.inj (Option.some.inj hdefault)).symm).symm

theorem dict {name : String} {nested : RecordKind} {write : α → Json} {read : Json → Option α}
    {d : Dict α} (hmember : member? members name = some (.ofDict write d))
    (hfield : kind.field? name = some (.map name nested)) (hsorted : d.Sorted)
    (hd : ∀ entry ∈ d.entries, Reads nested write read entry.2) :
    Json.field? others name (dict? read) .empty = some d := by
  refine h.field? hmember hfield (fun hdefault => ?_)
    (fun other hother => Reads.dict hsorted hd hother)
  have hempty := List.map_eq_nil_iff.mp (Json.obj.inj (Option.some.inj hdefault)).symm
  exact (congrArg Dict.mk hempty).symm

end Json.VariantMembers

end HeaderBinding
