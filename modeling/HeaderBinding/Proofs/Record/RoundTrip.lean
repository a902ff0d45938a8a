import HeaderBinding.Proofs.Record.Grouping
import HeaderBinding.Proofs.Record.Variants

/-!
# Reading Records Back

Every record is read back from what was written of it, and from every variant of that
(`Header.ofJson?_variant`). Writing and reading agree field by field, and a table of the fields says
what a variant may do. So the proof for one kind of record goes through its fields, and nested
records come in through the same statement about them.

Three kinds need more than that. The nested classes of a class are read through their own recursion,
which finds the same members as reading a map does. A template parameter is read from two parts of
one object, and a class template from an object that holds the fields of a class beside its own. In
both, the part that belongs to somebody else is held first, for which every value in it has to be
usable. What was written is, and so is what may be added to it.

Maps are read back as the same maps because their names are in order. That is so for every header
that was extracted.

## Main definitions

* `TemplateParam.toMembers`, `ClassTemplate.toMembers`: The records in parts, as members.
* `TemplateParam.held`: What is held for the kind of a parameter.
* `Header.listHeader`, `Header.sparseHeader`: A header and a variant of it.

## Theorems

* `Argument.reads`, `Method.reads` and their like: Records that nest at most one level.
* `ClassRecord.reads`: Classes, with classes nested to any depth.
* `TemplateParam.reads`, `ClassTemplate.reads`: Records in parts.
* `Header.ofJson?_variant`: Everything one header declares.
-/

namespace HeaderBinding

open Json

section Records

/-- An argument is read back field by field. -/
theorem Argument.reads (a : Argument) : Reads .argument toJson ofJson? a := by
  intro j hj
  rcases hj.members (List.Sublist.refl _) with ⟨others, rfl, h⟩
  rw [ofJson?, h.recordMembers?, Option.bind_eq_bind, Option.bind_some, h.text rfl rfl,
    h.optional rfl rfl, h.optional rfl rfl]
  -- The fields that are found make up the record, and the names are those that were written.
  · rfl
  · rfl

/-- A method is read back with its arguments. -/
theorem Method.reads (m : Method) : Reads .method toJson ofJson? m := by
  intro j hj
  rcases hj.members (List.Sublist.refl _) with ⟨others, rfl, h⟩
  rw [ofJson?, h.recordMembers?, Option.bind_eq_bind, Option.bind_some, h.text rfl rfl,
    h.text rfl rfl, h.list rfl rfl fun a _ => a.reads, h.optional rfl rfl, h.optional rfl rfl,
    h.flag rfl rfl, h.flag rfl rfl, h.flag rfl rfl, h.flag rfl rfl]
  · rfl
  · rfl

/-- A function outside of classes is read back with its arguments. -/
theorem FreeFunction.reads (f : FreeFunction) : Reads .function toJson ofJson? f := by
  intro j hj
  rcases hj.members (List.Sublist.refl _) with ⟨others, rfl, h⟩
  rw [ofJson?, h.recordMembers?, Option.bind_eq_bind, Option.bind_some, h.text rfl rfl,
    h.text rfl rfl, h.list rfl rfl fun a _ => a.reads, h.optional rfl rfl, h.optional rfl rfl,
    h.flag rfl rfl]
  · rfl
  · rfl

/-- An enumeration is read back with the names of its values. -/
theorem Enumeration.reads (e : Enumeration) : Reads .enumeration toJson ofJson? e := by
  intro j hj
  rcases hj.members (List.Sublist.refl _) with ⟨others, rfl, h⟩
  rw [ofJson?, h.recordMembers?, Option.bind_eq_bind, Option.bind_some, h.text rfl rfl,
    h.texts rfl rfl, h.optional rfl rfl, h.flag rfl rfl]
  · rfl
  · rfl

/-- A typedef is read back from texts alone. -/
theorem Typedef.reads (t : Typedef) : Reads .typedef toJson ofJson? t := by
  intro j hj
  rcases hj.members (List.Sublist.refl _) with ⟨others, rfl, h⟩
  rw [ofJson?, h.recordMembers?, Option.bind_eq_bind, Option.bind_some, h.text rfl rfl,
    h.text rfl rfl, h.optional rfl rfl]
  · rfl
  · rfl

/-- A data member is read back with the mark of a static one. -/
theorem DataMember.reads (m : DataMember) : Reads .dataMember toJson ofJson? m := by
  intro j hj
  rcases hj.members (List.Sublist.refl _) with ⟨others, rfl, h⟩
  rw [ofJson?, h.recordMembers?, Option.bind_eq_bind, Option.bind_some, h.text rfl rfl,
    h.text rfl rfl, h.flag rfl rfl]
  · rfl
  · rfl

end Records

-- Whatever is written of a record can be held. A class template holds the records in its class
-- before it reads them.
section Usable

@[simp]
theorem Argument.usable_toJson (a : Argument) : a.toJson.usable = true := by
  simp [toJson]

@[simp]
theorem Method.usable_toJson (m : Method) : m.toJson.usable = true := by
  simp [toJson]

@[simp]
theorem FreeFunction.usable_toJson (f : FreeFunction) : f.toJson.usable = true := by
  simp [toJson]

@[simp]
theorem Enumeration.usable_toJson (e : Enumeration) : e.toJson.usable = true := by
  simp [toJson]

@[simp]
theorem Typedef.usable_toJson (t : Typedef) : t.toJson.usable = true := by
  simp [toJson]

@[simp]
theorem DataMember.usable_toJson (m : DataMember) : m.toJson.usable = true := by
  simp [toJson]

end Usable

namespace ClassRecord

/-- A class is written with all its fields, in the order of the table. -/
theorem names_toMembers (c : ClassRecord) :
    c.toMembers.map (·.1) = RecordKind.classRecord.names := by
  rw [toMembers]
  rfl

/-- Nested classes are written as a map of records. -/
theorem obj_innerClasses (c : ClassRecord) :
    Json.obj (c.innerClasses.entries.attach.map fun entry =>
      (entry.1.1, Json.obj entry.1.2.toMembers)) = .ofDict toJson c.innerClasses :=
  congrArg Json.obj
    (@List.attach_map_val _ _ c.innerClasses.entries fun entry => (entry.1, entry.2.toJson))

/-- Nested classes are read as a map of records. -/
theorem nestedMembers?_of_field? {α : Type} {read : Json → Option α} {d : Dict α}
    {members : List (String × Json)} (name : String)
    (h : field? members name (dict? read) .empty = some d) :
    ∃ nested entries, nestedMembers? (.obj members) name = some nested ∧
      nested.mapM (fun member => do return (member.1, ← read member.2.1)) = some entries ∧
      Dict.ofList entries = d := by
  rw [field?, member?] at h
  rw [nestedMembers?]
  -- The member is an object, or something else, or it is missing.
  split
  · rename_i inner hfind
    rw [hfind, Option.map_some] at h
    simp only [dict?, Option.bind_eq_bind, Option.bind_eq_some_iff] at h
    rcases h with ⟨entries, hentries, hd⟩
    rw [← List.attach_map_subtype_val inner, List.mapM_map] at hentries
    refine ⟨_, entries, rfl, ?_, Option.some.inj hd⟩
    rw [List.mapM_map]
    exact hentries
  · rename_i found hobj hfind
    rcases found with ⟨key, value⟩
    rw [hfind, Option.map_some] at h
    -- What is no object could not have been read as a map.
    cases value with
    | obj inner => exact absurd rfl (hobj key inner)
    | _ => exact absurd h (Option.some_ne_none d).symm
  · rename_i hfind
    rw [hfind, Option.map_none] at h
    exact ⟨[], [], rfl, rfl, Option.some.inj h⟩

variable {c : ClassRecord}

variable (c) in
/-- Whatever is in a class and in the classes nested in it, it can be held. -/
theorem usable_toMembers : ∀ member ∈ c.toMembers, member.2.usable = true := by
  induction everywhere_of_forall (P := fun _ => True) (fun _ => trivial) c with
  | mk c _ _ ih =>
      have hinner : ∀ entry ∈ c.innerClasses.entries, entry.2.toJson.usable = true :=
        fun entry hentry => (usable_obj _).mpr (ih entry hentry)
      rw [toMembers, obj_innerClasses]
      simpa using hinner

variable (c) in
@[simp]
theorem usable_toJson : c.toJson.usable = true :=
  (usable_obj _).mpr c.usable_toMembers

/-- The members of a class are read from each of their variants, which is what a class template asks
    of them. -/
theorem ofJson?_variantMembers (hc : c.Everywhere MapsSorted) :
    ∀ others, VariantMembers .classRecord c.toMembers others →
      ofJson? (.obj others) = some c := by
  -- Induction on the nesting: the classes nested in this one are read from their variants.
  induction hc with
  | mk c sorted nested ih =>
      intro others h
      -- A variant of a nested class is an object whose members vary.
      have hreads : ∀ entry ∈ c.innerClasses.entries,
          Reads .classRecord toJson ofJson? entry.2 := by
        intro entry hentry j hj
        have hnames := entry.2.names_toMembers
        rcases hj.members (hnames ▸ List.Sublist.refl _) with ⟨members, rfl, hmembers⟩
        exact ih entry hentry members hmembers
      rw [toMembers, obj_innerClasses] at h
      rcases nestedMembers?_of_field? "inner_classes"
        (h.dict rfl rfl sorted.innerClasses hreads) with
        ⟨members, entries, hmembers, hentries, hdict⟩
      rw [ofJson?, h.recordMembers?, Option.bind_eq_bind, Option.bind_some, hmembers,
        Option.bind_eq_bind, Option.bind_some, hentries, Option.bind_eq_bind, Option.bind_some,
        hdict, h.text rfl rfl, h.optional rfl rfl, h.optional rfl rfl, h.flag rfl rfl,
        h.texts rfl rfl, h.dict rfl rfl sorted.methods fun entry _ => entry.2.reads,
        h.dict rfl rfl sorted.staticMethods fun entry _ => entry.2.reads,
        h.list rfl rfl fun m _ => m.reads, h.list rfl rfl fun m _ => m.reads,
        h.list rfl rfl fun m _ => m.reads, h.list rfl rfl fun m _ => m.reads,
        h.dict rfl rfl sorted.typedefs fun entry _ => entry.2.reads,
        h.list rfl rfl fun e _ => e.reads]
      · cases c
        rfl
      · rfl

/-- A class is read back with the classes nested in it. -/
theorem reads (hc : c.Everywhere MapsSorted) : Reads .classRecord toJson ofJson? c := by
  intro j hj
  rcases hj.members (c.names_toMembers ▸ List.Sublist.refl _) with ⟨others, rfl, h⟩
  exact ofJson?_variantMembers hc others h

end ClassRecord

namespace TemplateParam

/-- A template parameter as the members of an object. -/
def toMembers (p : TemplateParam) : List (String × Json) :=
  p.kind.toMembers ++ [("name", .str p.name), ("default", .ofOption .str p.defaultValue)]

section Members

variable (p : TemplateParam)

/-- Only a parameter that stands for a value has all the fields. -/
theorem names_toMembers : (p.toMembers.map (·.1)).Sublist RecordKind.templateParam.names := by
  rcases p with ⟨kind, name, defaultValue⟩
  cases kind with
  | nonType spelling => exact List.Sublist.refl _
  | type => exact .cons_cons _ (.cons _ (List.Sublist.refl _))
  | template => exact .cons_cons _ (.cons _ (List.Sublist.refl _))

/-- The name is found behind the members of the kind. -/
theorem member?_toMembers_name : member? p.toMembers "name" = some (.str p.name) := by
  rcases p with ⟨kind, name, defaultValue⟩
  cases kind <;> rfl

/-- So is the default value. -/
theorem member?_toMembers_default :
    member? p.toMembers "default" = some (.ofOption .str p.defaultValue) := by
  rcases p with ⟨kind, name, defaultValue⟩
  cases kind <;> rfl

theorem usable_toMembers : ∀ member ∈ p.toMembers, member.2.usable = true := by
  rcases p with ⟨kind, name, defaultValue⟩
  cases kind <;> simp [toMembers, Kind.toMembers]

end Members

/-- A member of this name is held for the kind. -/
def held (name : String) : Bool :=
  !(name == "name" || name == "default")

/-- The kind is read from the members held for it. -/
theorem ofMembers?_held (p : TemplateParam) {others : List (String × Json)}
    (h : VariantMembers .templateParam p.toMembers others) :
    Kind.ofMembers? Kind.heldTagWord? (others.filter fun member => held member.1) =
      some p.kind := by
  -- Holding only takes away members that the kind does not ask for.
  have hheld : ∀ name, held name = true → ∀ (α : Type) (read : Json → Option α),
      required? (others.filter fun member => held member.1) name read =
        required? others name read := by
    intro name hname α read
    rw [required?, member?_filter held hname, required?]
  -- No name that was written occurs twice, whatever was added.
  have honce : ∀ name ∈ p.toMembers.map (·.1),
      noRepeats [name] (others.filter fun member => held member.1) = true :=
    fun name hname => noRepeats_mono h.once
      (List.cons_subset.mpr ⟨hname, List.nil_subset _⟩) List.filter_sublist
  rcases p with ⟨kind, name, defaultValue⟩
  cases kind with
  | type =>
      rw [Kind.ofMembers?, if_pos (honce "kind" List.mem_cons_self), hheld "kind" rfl,
        h.required? rfl rfl]
      rfl
  | template =>
      rw [Kind.ofMembers?, if_pos (honce "kind" List.mem_cons_self), hheld "kind" rfl,
        h.required? rfl rfl]
      rfl
  | nonType spelling =>
      rw [Kind.ofMembers?, if_pos (honce "kind" List.mem_cons_self), hheld "kind" rfl,
        h.required? rfl rfl]
      -- A parameter that stands for a value has its type to be read besides.
      change Kind.ofTag? _ "non_type" = _
      rw [Kind.ofTag?, if_pos (honce "type" (List.mem_cons_of_mem _ List.mem_cons_self)),
        hheld "type" rfl, h.required? rfl rfl]
      rfl

/-- A template parameter is read back from the two parts of its object. -/
theorem reads (p : TemplateParam) : Reads .templateParam toJson ofJson? p := by
  intro j hj
  change Variant _ (.obj p.toMembers) j at hj
  rcases hj.members p.names_toMembers with ⟨others, rfl, h⟩
  have honce : noRepeats ["name", "default"] others = true := by
    refine noRepeats_mono h.once (List.Sublist.subset ?_) (List.Sublist.refl _)
    unfold toMembers
    rw [List.map_append]
    exact List.sublist_append_right _ _
  have husable : (others.filter fun member => held member.1).all (·.2.usable) = true :=
    List.all_eq_true.mpr fun other hother =>
      h.usable p.usable_toMembers other (List.mem_of_mem_filter hother)
  rw [ofJson?]
  refine (if_pos ?_).trans ((congrArg (Option.bind · _) (p.ofMembers?_held h)).trans ?_)
  · rw [honce]
    exact husable
  · rw [Option.bind_some, h.required? p.member?_toMembers_name rfl,
      h.optional p.member?_toMembers_default rfl]
    rfl

end TemplateParam

namespace ClassTemplate

/-- A class template as the members of an object. -/
def toMembers (t : ClassTemplate) : List (String × Json) :=
  t.record.toMembers ++ [("type_params", .arr (t.typeParams.map (·.toJson)))]

/-- A class template is written with the fields of a class and its parameters behind them. -/
theorem names_toMembers (t : ClassTemplate) :
    t.toMembers.map (·.1) = RecordKind.classTemplate.names := by
  rw [toMembers, List.map_append, ClassRecord.names_toMembers]
  rfl

theorem usable_toMembers (t : ClassTemplate) :
    ∀ member ∈ t.toMembers, member.2.usable = true := by
  intro member hmember
  rcases List.mem_append.mp hmember with hrecord | hparams
  · exact t.record.usable_toMembers member hrecord
  · rw [List.mem_singleton.mp hparams, usable_arr, List.forall_mem_map]
    exact fun p _ => (usable_obj _).mpr p.usable_toMembers

@[simp]
theorem usable_toJson (t : ClassTemplate) : t.toJson.usable = true :=
  (usable_obj _).mpr t.usable_toMembers

/-- The fields of a class template are those of a class, but for the parameters. -/
theorem field?_classTemplate {name : String} (h : (name != "type_params") = true) :
    RecordKind.classTemplate.field? name = RecordKind.classRecord.field? name := by
  have hparams :
      [RecordField.list "type_params" .templateParam].find? (·.name == name) = none := by
    rw [List.find?_eq_none]
    intro field hfield heq
    rw [List.mem_singleton.mp hfield] at heq
    exact bne_iff_ne.mp h (beq_iff_eq.mp heq).symm
  rw [RecordKind.field?, RecordKind.fields, List.find?_append, hparams, Option.or_none]
  rfl

/-- The members of a class template, but for the parameters, are those of its class. -/
theorem variantMembers_record (t : ClassTemplate) {others : List (String × Json)}
    (h : VariantMembers .classTemplate t.toMembers others) :
    VariantMembers .classRecord t.record.toMembers (others.filter (·.1 != "type_params")) := by
  -- What a variant may do to a member depends on the field, and the fields are the same.
  have hmem : ∀ member ∈ t.record.toMembers, member ∈ t.toMembers :=
    fun _ => List.mem_append_left _
  have hname : ∀ member ∈ t.record.toMembers, (member.1 != "type_params") = true := by
    intro member hmember
    have hnames := List.mem_map_of_mem (f := (·.1)) hmember
    rw [ClassRecord.names_toMembers] at hnames
    -- No field of a class is called like the list of parameters.
    have hall : RecordKind.classRecord.names.all (· != "type_params") = true := by decide +kernel
    exact List.all_eq_true.mp hall member.1 hnames
  -- Nothing is there twice, what is kept varies as it may, what is missing has its default, and the
  -- rest is foreign.
  refine ⟨noRepeats_mono h.once ?_ List.filter_sublist, fun member hmember value hvalue => ?_,
    fun member hmember hnone => ?_, fun other hother hforeign => ?_⟩
  · rw [toMembers, List.map_append]
    exact List.subset_append_left _ _
  · rw [member?_filter (· != "type_params") (hname member hmember)] at hvalue
    rw [RecordKind.format, ← field?_classTemplate (hname member hmember)]
    exact h.kept member (hmem member hmember) value hvalue
  · rw [member?_filter (· != "type_params") (hname member hmember)] at hnone
    rw [RecordKind.default?, ← field?_classTemplate (hname member hmember)]
    exact h.dropped member (hmem member hmember) hnone
  · rw [List.mem_filter] at hother
    refine h.foreign other hother.1 fun hknown => ?_
    rw [toMembers, List.map_append, List.mem_append] at hknown
    have hparams := List.mem_singleton.mp (hknown.resolve_left hforeign)
    exact bne_iff_ne.mp hother.2 hparams

/-- A class template is read back from the fields of its class and from its parameters. -/
theorem reads (t : ClassTemplate) (ht : t.record.Everywhere ClassRecord.MapsSorted) :
    Reads .classTemplate toJson ofJson? t := by
  intro j hj
  change Variant _ (.obj t.toMembers) j at hj
  rcases hj.members (t.names_toMembers ▸ List.Sublist.refl _) with ⟨others, rfl, h⟩
  have honce : noRepeats ["type_params"] others = true := by
    refine noRepeats_mono h.once (List.Sublist.subset ?_) (List.Sublist.refl _)
    rw [toMembers, List.map_append]
    exact List.sublist_append_right _ _
  have husable : (others.filter (·.1 != "type_params")).all (·.2.usable) = true :=
    List.all_eq_true.mpr fun other hother =>
      h.usable t.usable_toMembers other (List.mem_of_mem_filter hother)
  have hrecord := ClassRecord.ofJson?_variantMembers ht _ (t.variantMembers_record h)
  have hparams : member? t.toMembers "type_params" =
      some (.arr (t.typeParams.map (·.toJson))) := by
    rw [toMembers, ClassRecord.toMembers]
    rfl
  rw [ofJson?]
  refine (if_pos ?_).trans ((congrArg (Option.bind · _) hrecord).trans ?_)
  · rw [honce]
    exact husable
  · rw [Option.bind_some, h.list hparams rfl fun p _ => p.reads]
    rfl

end ClassTemplate

namespace Header

/-- A header is read back with everything it declares. -/
theorem reads (header : Header)
    (hclasses : ∀ c ∈ header.classes, c.Everywhere ClassRecord.MapsSorted)
    (htemplates : ∀ t ∈ header.classTemplates, t.record.Everywhere ClassRecord.MapsSorted) :
    Reads .header toJson ofJson? header := by
  intro j hj
  rcases hj.members (List.Sublist.refl _) with ⟨others, rfl, h⟩
  rw [ofJson?, h.recordMembers?, Option.bind_eq_bind, Option.bind_some, h.text rfl rfl,
    h.text rfl rfl, h.texts rfl rfl,
    h.list rfl rfl fun c hc => ClassRecord.reads (hclasses c hc),
    h.list rfl rfl fun t ht => t.reads (htemplates t ht), h.list rfl rfl fun t _ => t.reads,
    h.list rfl rfl fun e _ => e.reads, h.list rfl rfl fun f _ => f.reads,
    h.list rfl rfl fun f _ => f.reads, h.texts rfl rfl]
  · rfl
  · rfl

/-- A header is read back from what was written of it and from every variant of that. -/
theorem ofJson?_variant (header : Header)
    (hclasses : ∀ c ∈ header.classes, c.Everywhere ClassRecord.MapsSorted)
    (htemplates : ∀ t ∈ header.classTemplates, t.record.Everywhere ClassRecord.MapsSorted) :
    ofJson? header.toJson = some header ∧
      ∀ j, Variant (.record .header) header.toJson j → ofJson? j = some header := by
  have hreads := header.reads hclasses htemplates
  exact ⟨hreads _ (.same _ _), hreads⟩

section Sparse

/-- A template with a nested class and a parameter of each kind. -/
def listTemplate : ClassTemplate :=
  { record := {
      name := "List"
      innerClasses := ⟨[("Node", { name := "Node", isAbstract := true })]⟩ }
    typeParams := [{ kind := .type, name := "T" },
      { kind := .nonType "int", name := "N", defaultValue := some "8" },
      { kind := .template, name := "A" }] }

/-- The parameters of the template as another tool may write them. -/
def sparseParams : List Json :=
  [.obj [("name", .str "T"), ("type", .null), ("kind", .str "type")],
    .obj [("name", .str "N"), ("kind", .str "non_type"), ("default", .str "8"),
      ("type", .str "int")],
    .obj [("kind", .str "template"), ("name", .str "A")]]

/-- The nested class as another tool may write it. -/
def sparseNode : Json :=
  .obj [("is_abstract", .bool true), ("hidden", .bool false), ("name", .str "Node")]

/-- A header that defines the template. -/
def listHeader : Header :=
  { path := "list.hxx", shortName := "list.hxx", classTemplates := [listTemplate] }

/-- The template as another tool may write it. -/
def sparseTemplate : Json :=
  .obj [("type_params", .arr sparseParams), ("inner_classes", .obj [("Node", sparseNode)]),
    ("name", .str "List")]

/-- The header as another tool may write it. -/
def sparseHeader : Json :=
  .obj [("class_templates", .arr [sparseTemplate]), ("tool", .str "lister"),
    ("short_name", .str "list.hxx"), ("path", .str "list.hxx")]

/-- The parameters are a variant: fields stand in another order, and what says nothing is left out
    or null. -/
theorem variant_sparseParams :
    Variant (.list .templateParam) (.arr (listTemplate.typeParams.map (·.toJson)))
      (.arr sparseParams) := by
  refine .list rfl ?_
  simp only [listTemplate, sparseParams, List.map_cons, List.map_nil, List.zip_cons_cons,
    List.zip_nil_right, List.forall_mem_cons, TemplateParam.toJson, TemplateParam.Kind.toMembers,
    List.cons_append, List.nil_append, TemplateParam.Kind.tag, ofOption]
  refine ⟨.record (by decide +kernel) ?_ ?_ ?_, .record (by decide +kernel) ?_ ?_ ?_,
    .record (by decide +kernel) ?_ ?_ ?_, ?_⟩
  all_goals simp [member?, Variant.same, RecordKind.default?, RecordKind.field?, RecordKind.fields,
    RecordField.optional, RecordField.required]

/-- The nested class is a variant, with a field that nobody knows. -/
theorem variant_sparseNode :
    Variant (.record .classRecord)
      (ClassRecord.toJson { name := "Node", isAbstract := true }) sparseNode := by
  rw [ClassRecord.toJson, ClassRecord.toMembers]
  refine .record (by decide +kernel) ?_ ?_ ?_
  · simp [member?, Variant.same]
  · simp [member?, RecordKind.default?, RecordKind.field?, RecordKind.fields,
      RecordKind.classFields, RecordField.text, RecordField.optional, RecordField.flag,
      RecordField.texts, RecordField.list, RecordField.map, strings, ofOption, ofDict]
  · simp

/-- The template is a variant, since its nested class and its parameters are. -/
theorem variant_sparseTemplate :
    Variant (.record .classTemplate) listTemplate.toJson sparseTemplate := by
  -- The two members that nest come first.
  have hnode : Variant (RecordKind.classTemplate.format "inner_classes")
      (.ofDict ClassRecord.toJson listTemplate.record.innerClasses)
      (.obj [("Node", sparseNode)]) := by
    refine .map (List.Perm.refl _) fun member hmember other hother _ => ?_
    rw [List.mem_singleton.mp hmember, List.mem_singleton.mp hother]
    exact variant_sparseNode
  have hparams : Variant (RecordKind.classTemplate.format "type_params")
      (.arr (listTemplate.typeParams.map (·.toJson))) (.arr sparseParams) :=
    variant_sparseParams
  have hname : listTemplate.record.name = "List" := rfl
  rw [ClassTemplate.toJson, ClassRecord.toMembers, ClassRecord.obj_innerClasses]
  refine .record (by decide +kernel) ?_ ?_ ?_
  · simpa [member?, Variant.same, hname] using ⟨hnode, hparams⟩
  · simp [member?, RecordKind.default?, RecordKind.field?, RecordKind.fields,
      RecordKind.classFields, RecordField.text, RecordField.optional, RecordField.flag,
      RecordField.texts, RecordField.list, RecordField.map, strings, ofOption, ofDict, listTemplate]
  · simp

/-- The header is a variant, since its template is. -/
theorem variant_sparseHeader : Variant (.record .header) listHeader.toJson sparseHeader := by
  have htemplates : Variant (RecordKind.header.format "class_templates")
      (.arr (listHeader.classTemplates.map (·.toJson))) (.arr [sparseTemplate]) := by
    refine .list rfl fun pair hpair => ?_
    rw [List.mem_singleton.mp hpair]
    exact variant_sparseTemplate
  refine .record (by decide +kernel) ?_ ?_ ?_
  · simpa [member?, Variant.same, listHeader] using htemplates
  · simp [member?, RecordKind.default?, RecordKind.field?, RecordKind.fields, RecordField.text,
      RecordField.texts, RecordField.list, strings, listHeader]
  · simp

theorem everywhere_listTemplate : listTemplate.record.Everywhere ClassRecord.MapsSorted := by
  refine .mk _ ⟨by decide, by decide, by decide, by decide⟩ (List.forall_mem_singleton.mpr ?_)
  exact .mk _ ⟨by decide, by decide, by decide, by decide⟩ (fun _ h => absurd h List.not_mem_nil)

/-- The template is read back from the variant, in which fields are left out, put in another order
    and joined by others at every depth. -/
theorem ofJson?_variant_sparse :
    (∀ c ∈ listHeader.classes, c.Everywhere ClassRecord.MapsSorted) ∧
      (∀ t ∈ listHeader.classTemplates, t.record.Everywhere ClassRecord.MapsSorted) ∧
      ofJson? listHeader.toJson = some listHeader ∧
      Variant (.record .header) listHeader.toJson sparseHeader ∧
      ofJson? sparseHeader = some listHeader := by
  have hclasses : ∀ c ∈ listHeader.classes, c.Everywhere ClassRecord.MapsSorted :=
    fun _ h => absurd h List.not_mem_nil
  have htemplates : ∀ t ∈ listHeader.classTemplates,
      t.record.Everywhere ClassRecord.MapsSorted :=
    List.forall_mem_singleton.mpr everywhere_listTemplate
  have hreads := ofJson?_variant listHeader hclasses htemplates
  exact ⟨hclasses, htemplates, hreads.1, variant_sparseHeader,
    hreads.2 sparseHeader variant_sparseHeader⟩

end Sparse

end Header

end HeaderBinding
