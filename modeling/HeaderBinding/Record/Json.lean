import HeaderBinding.Json.Members
import HeaderBinding.Record.Basic

/-!
# Records as JSON Values

How each record is written and read. Writing names every field, in the order of declaration. Reading
follows the rules of `Json.recordMembers?`: unknown members are skipped, missing fields take their
defaults, and an array may list the fields by position.

Two records differ. A class template is one object that holds the fields of its class beside its own
parameters, and a template parameter one that holds its kind beside its name. As the parts share one
object, such a record has no array form, and whatever does not belong to it has to be held until its
parts have looked at it: it must be usable.

## Main definitions

* `ClassRecord.toJson`, `ClassRecord.ofJson?` and their like: Writing and reading each record.
* `Header.toJson`, `Header.ofJson?`: Writing and reading everything one header declares.
-/

namespace HeaderBinding

namespace Argument

/-- An argument as an object. -/
def toJson (a : Argument) : Json :=
  .obj [("name", .str a.name), ("type", .ofOption .str a.type),
    ("default", .ofOption .str a.defaultValue)]

/-- The argument a value stands for. -/
def ofJson? (j : Json) : Option Argument := do
  let ms ← j.recordMembers? ["name", "type", "default"]
  return {
    name := ← Json.field? ms "name" Json.string? ""
    type := ← Json.field? ms "type" (Json.optional? Json.string?) none
    defaultValue := ← Json.field? ms "default" (Json.optional? Json.string?) none }

end Argument

namespace Method

/-- A method as an object. -/
def toJson (m : Method) : Json :=
  .obj [("name", .str m.name), ("full_name", .str m.fullName),
    ("args", .arr (m.args.map (·.toJson))), ("return_type", .ofOption .str m.returnType),
    ("comment", .ofOption .str m.comment), ("is_const", .bool m.isConst),
    ("is_static", .bool m.isStatic), ("is_virtual", .bool m.isVirtual),
    ("is_pure_virtual", .bool m.isPureVirtual)]

/-- The method a value stands for. -/
def ofJson? (j : Json) : Option Method := do
  let ms ← j.recordMembers? ["name", "full_name", "args", "return_type", "comment", "is_const",
    "is_static", "is_virtual", "is_pure_virtual"]
  return {
    name := ← Json.field? ms "name" Json.string? ""
    fullName := ← Json.field? ms "full_name" Json.string? ""
    args := ← Json.field? ms "args" (Json.list? Argument.ofJson?) []
    returnType := ← Json.field? ms "return_type" (Json.optional? Json.string?) none
    comment := ← Json.field? ms "comment" (Json.optional? Json.string?) none
    isConst := ← Json.field? ms "is_const" Json.bool? false
    isStatic := ← Json.field? ms "is_static" Json.bool? false
    isVirtual := ← Json.field? ms "is_virtual" Json.bool? false
    isPureVirtual := ← Json.field? ms "is_pure_virtual" Json.bool? false }

end Method

namespace FreeFunction

/-- A function as an object. -/
def toJson (f : FreeFunction) : Json :=
  .obj [("name", .str f.name), ("full_name", .str f.fullName),
    ("args", .arr (f.args.map (·.toJson))), ("return_type", .ofOption .str f.returnType),
    ("comment", .ofOption .str f.comment), ("is_inline", .bool f.isInline)]

/-- The function a value stands for. -/
def ofJson? (j : Json) : Option FreeFunction := do
  let ms ← j.recordMembers? ["name", "full_name", "args", "return_type", "comment", "is_inline"]
  return {
    name := ← Json.field? ms "name" Json.string? ""
    fullName := ← Json.field? ms "full_name" Json.string? ""
    args := ← Json.field? ms "args" (Json.list? Argument.ofJson?) []
    returnType := ← Json.field? ms "return_type" (Json.optional? Json.string?) none
    comment := ← Json.field? ms "comment" (Json.optional? Json.string?) none
    isInline := ← Json.field? ms "is_inline" Json.bool? false }

end FreeFunction

namespace Enumeration

/-- An enumeration as an object. -/
def toJson (e : Enumeration) : Json :=
  .obj [("name", .str e.name), ("values", .strings e.values),
    ("comment", .ofOption .str e.comment), ("anonymous", .bool e.anonymous)]

/-- The enumeration a value stands for. -/
def ofJson? (j : Json) : Option Enumeration := do
  let ms ← j.recordMembers? ["name", "values", "comment", "anonymous"]
  return {
    name := ← Json.field? ms "name" Json.string? ""
    values := ← Json.field? ms "values" (Json.list? Json.string?) []
    comment := ← Json.field? ms "comment" (Json.optional? Json.string?) none
    anonymous := ← Json.field? ms "anonymous" Json.bool? false }

end Enumeration

namespace Typedef

/-- A typedef as an object. -/
def toJson (t : Typedef) : Json :=
  .obj [("name", .str t.name), ("underlying", .str t.underlying),
    ("comment", .ofOption .str t.comment)]

/-- The typedef a value stands for. -/
def ofJson? (j : Json) : Option Typedef := do
  let ms ← j.recordMembers? ["name", "underlying", "comment"]
  return {
    name := ← Json.field? ms "name" Json.string? ""
    underlying := ← Json.field? ms "underlying" Json.string? ""
    comment := ← Json.field? ms "comment" (Json.optional? Json.string?) none }

end Typedef

namespace DataMember

/-- A data member as an object. -/
def toJson (m : DataMember) : Json :=
  .obj [("name", .str m.name), ("type", .str m.type), ("is_static", .bool m.isStatic)]

/-- The data member a value stands for. -/
def ofJson? (j : Json) : Option DataMember := do
  let ms ← j.recordMembers? ["name", "type", "is_static"]
  return {
    name := ← Json.field? ms "name" Json.string? ""
    type := ← Json.field? ms "type" Json.string? ""
    isStatic := ← Json.field? ms "is_static" Json.bool? false }

end DataMember

namespace ClassRecord

/-- The names of the fields in the order of their declaration. -/
def fieldNames : List String :=
  ["name", "comment", "path", "is_abstract", "superclasses", "methods", "static_methods",
    "constructors", "destructors", "operators", "fields", "inner_classes", "typedefs", "enums"]

/-- A class as the members of an object. -/
def toMembers (c : ClassRecord) : List (String × Json) :=
  [("name", .str c.name), ("comment", .ofOption .str c.comment),
    ("path", .ofOption .str c.path), ("is_abstract", .bool c.isAbstract),
    ("superclasses", .strings c.superclasses), ("methods", .ofDict Method.toJson c.methods),
    ("static_methods", .ofDict Method.toJson c.staticMethods),
    ("constructors", .arr (c.constructors.map (·.toJson))),
    ("destructors", .arr (c.destructors.map (·.toJson))),
    ("operators", .arr (c.operators.map (·.toJson))),
    ("fields", .arr (c.fields.map (·.toJson))),
    ("inner_classes", .obj (c.innerClasses.entries.attach.map fun entry =>
      (entry.1.1, .obj entry.1.2.toMembers))),
    ("typedefs", .ofDict Typedef.toJson c.typedefs),
    ("enums", .arr (c.enums.map (·.toJson)))]
termination_by sizeOf c
decreasing_by
  have hentry := Dict.sizeOf_lt_of_mem entry.2
  cases c
  simp only [mk.sizeOf_spec] at *
  omega

/-- A class as an object. -/
def toJson (c : ClassRecord) : Json :=
  .obj c.toMembers

/-- The members of a value that gives a record one of its fields, each smaller than the value. -/
def nestedMembers? (j : Json) (name : String) :
    Option (List (String × { value : Json // sizeOf value < sizeOf j })) :=
  match j with
  | .obj members =>
    match h : members.find? (·.1 == name) with
    | some (_, .obj inner) => some (inner.attach.map fun member =>
        (member.1.1, ⟨member.1.2, by
          have houter := Json.sizeOf_lt_of_member (List.mem_of_find?_eq_some h)
          have hinner := Json.sizeOf_lt_of_member member.2
          simp only at houter
          omega⟩))
    | some _ => none
    | none => some []
  | .arr items =>
    match h : (fieldNames.zip items).find? (·.1 == name) with
    | some (_, .obj inner) => some (inner.attach.map fun member =>
        (member.1.1, ⟨member.1.2, by
          have hmem := List.of_mem_zip (List.mem_of_find?_eq_some h)
          have houter := List.sizeOf_lt_of_mem hmem.2
          have hinner := Json.sizeOf_lt_of_member member.2
          simp only [Json.arr.sizeOf_spec] at *
          omega⟩))
    | some _ => none
    | none => some []
  | _ => none

/-- The class a value stands for. -/
def ofJson? (j : Json) : Option ClassRecord := do
  let ms ← j.recordMembers? fieldNames
  let inner ← (← nestedMembers? j "inner_classes").mapM fun member => do
    return (member.1, ← ofJson? member.2.1)
  return {
    name := ← Json.field? ms "name" Json.string? ""
    comment := ← Json.field? ms "comment" (Json.optional? Json.string?) none
    path := ← Json.field? ms "path" (Json.optional? Json.string?) none
    isAbstract := ← Json.field? ms "is_abstract" Json.bool? false
    superclasses := ← Json.field? ms "superclasses" (Json.list? Json.string?) []
    methods := ← Json.field? ms "methods" (Json.dict? Method.ofJson?) .empty
    staticMethods := ← Json.field? ms "static_methods" (Json.dict? Method.ofJson?) .empty
    constructors := ← Json.field? ms "constructors" (Json.list? Method.ofJson?) []
    destructors := ← Json.field? ms "destructors" (Json.list? Method.ofJson?) []
    operators := ← Json.field? ms "operators" (Json.list? Method.ofJson?) []
    fields := ← Json.field? ms "fields" (Json.list? DataMember.ofJson?) []
    innerClasses := Dict.ofList inner
    typedefs := ← Json.field? ms "typedefs" (Json.dict? Typedef.ofJson?) .empty
    enums := ← Json.field? ms "enums" (Json.list? Enumeration.ofJson?) [] }
termination_by sizeOf j
decreasing_by exact member.2.2

end ClassRecord

namespace TemplateParam

namespace Kind

/-- The word for the kind. -/
def tag : Kind → String
  | .type => "type"
  | .nonType _ => "non_type"
  | .template => "template"

/-- A kind as the members of an object. -/
def toMembers : Kind → List (String × Json)
  | .nonType spelling => [("kind", .str (nonType spelling).tag), ("type", .str spelling)]
  | kind => [("kind", .str kind.tag)]

/-- A kind as an object. -/
def toJson (kind : Kind) : Json :=
  .obj kind.toMembers

/-- The word that a tag spells out. -/
def tagWord? : Json → Option String
  | .str word => some word
  | _ => none

/-- The word that a held tag spells out or numbers, counting from zero. -/
def heldTagWord? : Json → Option String
  | .str word => some word
  | .int 0 => some "type"
  | .int 1 => some "non_type"
  | .int 2 => some "template"
  | _ => none

/-- The kind that the members of an object give, once the tag has been read. The spelled type counts
    only for the kind that has one. -/
def ofTag? (members : List (String × Json)) : String → Option Kind
  | "type" => some .type
  | "template" => some .template
  | "non_type" =>
    if Json.noRepeats ["type"] members then
      (Json.required? members "type" Json.string?).map .nonType
    else none
  | _ => none

/-- The kind that the members of an object give. -/
def ofMembers? (readTag : Json → Option String) (members : List (String × Json)) : Option Kind :=
  if Json.noRepeats ["kind"] members then do
    ofTag? members (← Json.required? members "kind" readTag)
  else none

/-- The kind a value stands for: an object with a tag, or an array that starts with it. -/
def ofJson? : Json → Option Kind
  | .obj members =>
    if members.all (·.2.usable) then ofMembers? tagWord? members else none
  | .arr [.str "type"] => some .type
  | .arr [.str "template"] => some .template
  | .arr [.str "non_type", .str spelling] => some (.nonType spelling)
  | _ => none

end Kind

/-- A template parameter as an object. -/
def toJson (p : TemplateParam) : Json :=
  .obj (p.kind.toMembers ++
    [("name", .str p.name), ("default", .ofOption .str p.defaultValue)])

/-- The template parameter a value stands for. -/
def ofJson? : Json → Option TemplateParam
  | .obj members =>
    let own : String × Json → Bool := fun member => member.1 == "name" || member.1 == "default"
    let others := members.filter (!own ·)
    if Json.noRepeats ["name", "default"] members && others.all (·.2.usable) then do
      return {
        kind := ← Kind.ofMembers? Kind.heldTagWord? others
        name := ← Json.required? members "name" Json.string?
        defaultValue := ← Json.field? members "default" (Json.optional? Json.string?) none }
    else none
  | _ => none

end TemplateParam

namespace ClassTemplate

/-- A class template as an object. -/
def toJson (t : ClassTemplate) : Json :=
  .obj (t.record.toMembers ++ [("type_params", .arr (t.typeParams.map (·.toJson)))])

/-- The class template a value stands for. -/
def ofJson? : Json → Option ClassTemplate
  | .obj members =>
    let others := members.filter (·.1 != "type_params")
    if Json.noRepeats ["type_params"] members && others.all (·.2.usable) then do
      return {
        record := ← ClassRecord.ofJson? (.obj others)
        typeParams := ← Json.field? members "type_params" (Json.list? TemplateParam.ofJson?) [] }
    else none
  | _ => none

end ClassTemplate

namespace Header

/-- A header as an object. -/
def toJson (h : Header) : Json :=
  .obj [("path", .str h.path), ("short_name", .str h.shortName),
    ("dependencies", .strings h.dependencies), ("classes", .arr (h.classes.map (·.toJson))),
    ("class_templates", .arr (h.classTemplates.map (·.toJson))),
    ("typedefs", .arr (h.typedefs.map (·.toJson))), ("enums", .arr (h.enums.map (·.toJson))),
    ("functions", .arr (h.functions.map (·.toJson))),
    ("operators", .arr (h.operators.map (·.toJson))), ("forwards", .strings h.forwards)]

/-- The header a value stands for. -/
def ofJson? (j : Json) : Option Header := do
  let ms ← j.recordMembers? ["path", "short_name", "dependencies", "classes", "class_templates",
    "typedefs", "enums", "functions", "operators", "forwards"]
  return {
    path := ← Json.field? ms "path" Json.string? ""
    shortName := ← Json.field? ms "short_name" Json.string? ""
    dependencies := ← Json.field? ms "dependencies" (Json.list? Json.string?) []
    classes := ← Json.field? ms "classes" (Json.list? ClassRecord.ofJson?) []
    classTemplates := ← Json.field? ms "class_templates" (Json.list? ClassTemplate.ofJson?) []
    typedefs := ← Json.field? ms "typedefs" (Json.list? Typedef.ofJson?) []
    enums := ← Json.field? ms "enums" (Json.list? Enumeration.ofJson?) []
    functions := ← Json.field? ms "functions" (Json.list? FreeFunction.ofJson?) []
    operators := ← Json.field? ms "operators" (Json.list? FreeFunction.ofJson?) []
    forwards := ← Json.field? ms "forwards" (Json.list? Json.string?) [] }

end Header

end HeaderBinding
