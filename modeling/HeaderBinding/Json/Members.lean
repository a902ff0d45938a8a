import HeaderBinding.Json.Basic
import HeaderBinding.Dict

/-!
# Records as JSON

What the readers and writers of records share. A record is written as an object with all its fields.
It is read from an object, in which unknown members are skipped and missing ones take a default, or
from an array that lists the fields in the order of their declaration and may stop early.

Decoding has no error texts: a value either is a record or is none.

## Main definitions

* `Json.string?`, `Json.bool?`, `Json.list?`, `Json.dict?`, `Json.optional?`: Reading a field.
* `Json.recordMembers?`: The fields a value gives to a record.
* `Json.field?`, `Json.required?`: One field, with a default or without.
* `Json.strings`, `Json.ofOption`, `Json.ofDict`: Writing a field.
-/

namespace HeaderBinding

namespace Json

/-- The text of a string. -/
def string? : Json → Option String
  | str value => some value
  | _ => none

/-- The truth value. -/
def bool? : Json → Option Bool
  | bool value => some value
  | _ => none

/-- The items of an array, read one by one. -/
def list? {α : Type} (read : Json → Option α) : Json → Option (List α)
  | arr items => items.mapM read
  | _ => none

/-- The members of an object as a map. Of two members with one key the later wins. -/
def dict? {α : Type} (read : Json → Option α) : Json → Option (Dict α)
  | obj members => do
    let entries ← members.mapM fun member => do return (member.1, ← read member.2)
    return Dict.ofList entries
  | _ => none

/-- A value that may be absent, which is written as `null`. -/
def optional? {α : Type} (read : Json → Option α) : Json → Option (Option α)
  | null => some none
  | value => (read value).map some

/-- No name of the list is the key of two members. -/
def noRepeats (names : List String) (members : List (String × Json)) : Bool :=
  names.all fun name => members.countP (·.1 == name) ≤ 1

/-- The members a value gives to a record with the fields `names`, in the order of their
    declaration. A field given twice makes the value no record, and so do more items than fields. -/
def recordMembers? (names : List String) : Json → Option (List (String × Json))
  | obj members => if noRepeats names members then some members else none
  | arr items => if items.length ≤ names.length then some (names.zip items) else none
  | _ => none

/-- The value of the first member with a key. -/
def member? (members : List (String × Json)) (name : String) : Option Json :=
  (members.find? (·.1 == name)).map (·.2)

/-- Read a field, which has a default when it is missing. -/
def field? {α : Type} (members : List (String × Json)) (name : String) (read : Json → Option α)
    (default : α) : Option α :=
  match member? members name with
  | some value => read value
  | none => some default

/-- Read a field that must be there. -/
def required? {α : Type} (members : List (String × Json)) (name : String)
    (read : Json → Option α) : Option α :=
  (member? members name).bind read

/-- A list of texts. -/
def strings (texts : List String) : Json :=
  arr (texts.map str)

/-- A value that may be absent. -/
def ofOption {α : Type} (write : α → Json) : Option α → Json
  | some value => write value
  | none => null

/-- A map as an object in the order of the keys. -/
def ofDict {α : Type} (write : α → Json) (d : Dict α) : Json :=
  obj (d.entries.map fun entry => (entry.1, write entry.2))

/-- The value of a member is smaller than its object, which recursion through nested records
    needs. -/
theorem sizeOf_lt_of_member {members : List (String × Json)} {member : String × Json}
    (h : member ∈ members) : sizeOf member.2 < sizeOf (obj members) := by
  have hmember := List.sizeOf_lt_of_mem h
  have hpair : sizeOf member = 1 + sizeOf member.1 + sizeOf member.2 := by
    cases member
    simp only [Prod.mk.sizeOf_spec]
  simp only [obj.sizeOf_spec]
  omega

end Json

end HeaderBinding
