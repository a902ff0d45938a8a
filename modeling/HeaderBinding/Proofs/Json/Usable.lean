import HeaderBinding.Json.Members
import Mathlib.Data.List.Basic

/-!
# Usable JSON Values

A container is usable if everything in it is, and the values that records are made of are usable
from the start.

`Whole` is the weaker condition that no part of a value is unusable, whatever its numbers are. Being
inductive, it is what an argument about all parts of a value goes by.

## Main definitions

* `Whole`: No part of a value is unusable.

## Theorems

* `usable_arr`, `usable_obj`: When a container is usable.
* `whole_of_usable`: A usable value is whole.
-/

namespace HeaderBinding

namespace Json

@[simp]
theorem usable_null : Json.null.usable = true := by
  rw [usable]

@[simp]
theorem usable_str (text : String) : (Json.str text).usable = true := by
  rw [usable]

@[simp]
theorem usable_bool (value : Bool) : (Json.bool value).usable = true := by
  rw [usable]

@[simp]
theorem usable_arr (items : List Json) :
    (Json.arr items).usable = true ↔ ∀ item ∈ items, item.usable = true := by
  rw [usable, List.all_eq_true]
  exact ⟨fun h item hitem => h ⟨item, hitem⟩ (List.mem_attach _ _), fun h item _ => h _ item.2⟩

@[simp]
theorem usable_obj (members : List (String × Json)) :
    (Json.obj members).usable = true ↔ ∀ member ∈ members, member.2.usable = true := by
  rw [usable, List.all_eq_true]
  exact ⟨fun h member hmember => h ⟨member, hmember⟩ (List.mem_attach _ _),
    fun h member _ => h _ member.2⟩

@[simp]
theorem usable_ofOption (text : Option String) : (ofOption .str text).usable = true := by
  cases text with
  | none => exact usable_null
  | some text => exact usable_str text

@[simp]
theorem usable_strings (texts : List String) : (strings texts).usable = true := by
  rw [strings, usable_arr, List.forall_mem_map]
  exact fun text _ => usable_str text

@[simp]
theorem usable_ofDict {α : Type} (write : α → Json) (d : Dict α) :
    (ofDict write d).usable = true ↔ ∀ entry ∈ d.entries, (write entry.2).usable = true := by
  rw [ofDict, usable_obj, List.forall_mem_map]

/-- No part of a value is unusable. -/
inductive Whole : Json → Prop
  | null : Whole .null
  | bool (value : Bool) : Whole (.bool value)
  | int (value : Int) : Whole (.int value)
  | real (digits exponent : Int) : Whole (.real digits exponent)
  | str (text : String) : Whole (.str text)
  | arr {items : List Json} (h : ∀ item ∈ items, Whole item) : Whole (.arr items)
  | obj {members : List (String × Json)} (h : ∀ member ∈ members, Whole member.2) :
    Whole (.obj members)

theorem whole_of_usable : (j : Json) → j.usable = true → Whole j
  | .null, _ => .null
  | .bool value, _ => .bool value
  | .int value, _ => .int value
  | .real digits exponent, _ => .real digits exponent
  | .str text, _ => .str text
  | .arr items, h =>
    .arr fun item hitem => whole_of_usable item ((usable_arr items).mp h item hitem)
  | .obj members, h =>
    .obj fun member hmember => whole_of_usable member.2 ((usable_obj members).mp h member hmember)
  | .unusable, h => absurd h (by rw [usable]; exact Bool.false_ne_true)
termination_by j => sizeOf j
decreasing_by
  · have := List.sizeOf_lt_of_mem hitem
    simp only [arr.sizeOf_spec]
    omega
  · exact sizeOf_lt_of_member hmember

end Json

end HeaderBinding
