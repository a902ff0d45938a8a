import HeaderBinding.Proofs.Record.Folding
import HeaderBinding.Text.Blank
import HeaderBinding.Text.Word

/-!
# Well-Formed Class Records

What a class record owes to those who look things up in it.

Methods are filed under their keys, static ones apart from the others, and have a return type.
Constructors have none, bear the name of the class and are told apart by their spelling. Nothing
that is bound takes an rvalue reference. Nested types are filed under their own names.

None of this is checked when a record is read from elsewhere. It holds of records that are built up
with the operations below, each of which keeps it, and it survives when two records of one name are
folded together. The name matters there, since a constructor bears it.

## Main definitions

* `Method.AvoidsRvalues`: No argument is spelled with two ampersands side by side.
* `Method.FiledAs`: A method as it is filed.
* `ClassRecord.WellFormed`: A class record in good order.

## Theorems

* `Method.hasRvalueArguments_eq_false_iff`: The test of a method says what it should.
* `ClassRecord.WellFormed.addMethod`: Filing a method.
* `ClassRecord.WellFormed.extend`: Folding records of one name.
-/

namespace HeaderBinding

namespace Argument

theorem hasDoubleAmpersand_iff (text : List Char) :
    hasDoubleAmpersand text = true ↔ ['&', '&'] <:+: text := by
  fun_induction hasDoubleAmpersand text with
  | case1 rest => exact iff_of_true rfl ⟨[], rest, rfl⟩
  | case2 c rest hnot ih =>
      rw [ih, List.infix_cons_iff, or_iff_right]
      -- The two do not stand right here, or the first case would apply.
      rintro ⟨tail, heq⟩
      injection heq with hfirst hrest
      exact hnot tail hfirst.symm hrest.symm
  | case3 =>
      refine iff_of_false Bool.false_ne_true (fun h => ?_)
      exact absurd (List.infix_nil.mp h) (List.cons_ne_nil _ _)

end Argument

namespace Method

/-- No argument has a type that is spelled with two ampersands side by side. -/
def AvoidsRvalues (m : Method) : Prop :=
  ∀ a ∈ m.args, ∀ type, a.type = some type → ¬ ['&', '&'] <:+: type.toList

theorem hasRvalueArguments_eq_false_iff (m : Method) :
    m.hasRvalueArguments = false ↔ m.AvoidsRvalues := by
  simp only [hasRvalueArguments, List.any_eq_false, Argument.isRvalueReference,
    Option.any_eq_true, Argument.hasDoubleAmpersand_iff, not_exists, not_and, AvoidsRvalues]

/-- A method as it is filed among the static methods or the others. -/
structure FiledAs (m : Method) (key : String) (isStatic : Bool) : Prop where
  key : key = m.signatureKey
  isStatic : m.isStatic = isStatic
  returnType : m.returnType.isSome
  avoidsRvalues : m.AvoidsRvalues

end Method

namespace ClassRecord

/-- A class record in good order, its nested classes apart. -/
structure WellFormed (c : ClassRecord) : Prop where
  methods : ∀ entry ∈ c.methods.entries, entry.2.FiledAs entry.1 false
  staticMethods : ∀ entry ∈ c.staticMethods.entries, entry.2.FiledAs entry.1 true
  /-- A constructor bears the last part of the class's name, template arguments aside. -/
  constructors : ∀ m ∈ c.constructors, m.returnType = none ∧ m.AvoidsRvalues ∧
    Text.trim (m.name.toList.takeWhile (· != '<')) = Text.lastSegment c.name.toList
  nodup_constructors : (c.constructors.map (·.fullName)).Nodup
  destructors : ∀ m ∈ c.destructors, m.returnType = none
  typedefs : ∀ entry ∈ c.typedefs.entries, entry.1 = entry.2.name
  innerClasses : c.Keyed

/-- A class without members is well formed. -/
theorem wellFormed_bare (name : String) (comment : Option String) (path : Option Path)
    (superclasses : List String) :
    WellFormed { name, comment, path, superclasses } := by
  refine ⟨?_, ?_, ?_, List.nodup_nil, ?_, ?_, ?_⟩
  all_goals exact fun _ h => absurd h List.not_mem_nil

variable {c d : ClassRecord}

/-- Filing a method that has a return type and takes no rvalue references. -/
theorem WellFormed.addMethod (h : c.WellFormed) (m : Method) (htype : m.returnType.isSome)
    (hrvalue : m.hasRvalueArguments = false) : (c.addMethod m).WellFormed := by
  have havoids := (m.hasRvalueArguments_eq_false_iff).mp hrvalue
  unfold ClassRecord.addMethod
  by_cases hstatic : m.isStatic = true
  · rw [if_pos hstatic]
    exact { h with
      staticMethods := c.staticMethods.forall_insert _ _ h.staticMethods
        ⟨rfl, hstatic, htype, havoids⟩ }
  · rw [if_neg hstatic]
    exact { h with
      methods := c.methods.forall_insert _ _ h.methods
        ⟨rfl, eq_false_of_ne_true hstatic, htype, havoids⟩ }

/-- Filing a constructor that bears the name of the class and is not there yet. -/
theorem WellFormed.withConstructor (h : c.WellFormed) (m : Method) (hreturn : m.returnType = none)
    (hname : Text.trim (m.name.toList.takeWhile (· != '<')) = Text.lastSegment c.name.toList)
    (hrvalue : m.hasRvalueArguments = false)
    (hnew : m.fullName ∉ c.constructors.map (·.fullName)) : (c.withConstructor m).WellFormed := by
  have havoids := (m.hasRvalueArguments_eq_false_iff).mp hrvalue
  refine { h with constructors := ?_, nodup_constructors := ?_ }
  · exact List.forall_mem_append.mpr
      ⟨h.constructors, List.forall_mem_singleton.mpr ⟨hreturn, havoids, hname⟩⟩
  · change ((c.constructors ++ [m]).map (·.fullName)).Nodup
    rw [List.map_append, List.map_singleton, ← List.concat_eq_append, List.nodup_concat]
    exact ⟨hnew, h.nodup_constructors⟩

/-- Filing a typedef under its name. -/
theorem WellFormed.withTypedef (h : c.WellFormed) (t : Typedef) : (c.withTypedef t).WellFormed :=
  { h with typedefs := c.typedefs.forall_insert _ _ h.typedefs rfl }

/-- Folding records of one name, whose nested classes have been folded already. -/
theorem WellFormed.extend (hc : c.WellFormed) (hd : d.WellFormed) (hname : d.name = c.name)
    (hinner : (c.extend d).Keyed) : (c.extend d).WellFormed := by
  have hd_constructors := hd.constructors
  rw [hname] at hd_constructors
  refine ⟨?_, ?_, ?_, ?_, ?_, ?_, hinner⟩
  · rw [methods_extend]
    exact c.methods.forall_union _ hc.methods hd.methods
  · rw [staticMethods_extend]
    exact c.staticMethods.forall_union _ hc.staticMethods hd.staticMethods
  · rw [constructors_extend, name_extend]
    exact forall_replaceOrAppend _ _ _ _ hc.constructors hd_constructors
  · rw [constructors_extend]
    exact nodup_replaceOrAppend _ _ _ hc.nodup_constructors
  · rw [destructors_extend]
    exact forall_replaceOrAppend _ _ _ _ hc.destructors hd.destructors
  · rw [typedefs_extend]
    exact c.typedefs.forall_union _ hc.typedefs hd.typedefs

end ClassRecord

end HeaderBinding
