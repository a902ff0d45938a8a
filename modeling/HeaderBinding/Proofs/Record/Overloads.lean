import HeaderBinding.Extraction.Callable
import HeaderBinding.Proofs.Dict.Merging
import HeaderBinding.Proofs.Except
import HeaderBinding.Proofs.Text.Brackets
import Mathlib.Data.List.Pairwise

/-!
# Overloads

Methods that take different arguments are filed under different keys.

The key of a method is one text, made of its return type, its name and the types of its arguments.
The types stand at the end, in round brackets and with commas between them. As long as each of them
is well bracketed, they can be read back from there, and it does not matter what stands in front of
the bracket. So two keys differ if the types do, whatever the methods are called and whatever they
return (`argTypes_eq_of_signatureKey_eq`), and filing a method never takes the place of an overload.

All this rests on the full name. The key is made from the full name that a record holds and not from
the arguments. The two agree in a record that was extracted from a header
(`displayed_of_callable`). A record that was read from elsewhere may hold any full name or none, and
two such overloads can get in each other's way (`signatureKey_shared`).

## Main definitions

* `Method.argTypes`: The types of the arguments.
* `Method.TypesBracketed`: Every argument has a type, and the types can be told apart.
* `Method.Displayed`: The full name shows the name and the arguments.
* `ClassRecord.filed?`: What is filed where a method belongs.

## Theorems

* `Method.displayed_ofArgs`, `Method.displayed_of_callable`: Where full names show the arguments.
* `Method.argTypes_eq_of_signatureKey_eq`: A key tells the types of the arguments.
* `ClassRecord.filed?_foldl_addMethod_of_mem`, `ClassRecord.foldl_addMethod_perm`: Filing methods of
  different keys.
* `ClassRecord.addMethod_overloads`: Overloads do not collide.
* `ClassRecord.signatureKey_shared`: Overloads without full names do.
-/

namespace HeaderBinding

namespace Method

/-- The types of the arguments, in order. -/
def argTypes (m : Method) : List (Option String) :=
  m.args.map (·.type)

/-- Every argument has a type that is not empty and is well bracketed. -/
def TypesBracketed (m : Method) : Prop :=
  ∀ a ∈ m.args, ∃ type, a.type = some type ∧ type ≠ "" ∧ Text.WellBracketed type.toList

/-- The full name shows the name and the types of the arguments. -/
def Displayed (m : Method) : Prop :=
  m.fullName = displaySignature m.name m.args

/-- A record that was made from a name and arguments shows them. -/
theorem displayed_ofArgs (name : String) (args : List Argument) : (ofArgs name args).Displayed :=
  rfl

/-- A record that was extracted from a declaration shows its name and its arguments. -/
theorem displayed_of_callable {code : List Char} {declaration : Syntax.Located}
    {function : Syntax.Node} {suffix : List Char} {name : String} {m : Method}
    (h : Extraction.callable code declaration function suffix name = .ok m) : m.Displayed := by
  unfold Extraction.callable at h
  split at h
  all_goals
    simp only [bind_eq_ok, pure_eq_ok] at h
    rcases h with ⟨args, _, _, _, _, _, _, _, _, _, _, _, _, _, rfl⟩
    rfl

/-- What stands in front of the arguments in a key. -/
def callee (m : Method) : String :=
  match m.returnType with
  | some type => type ++ " " ++ m.name
  | none => m.name

/-- The types of the arguments as they stand in a key. -/
def spelledTypes (m : Method) : List (List Char) :=
  m.args.map fun a => (a.type.getD "").toList

theorem toList_signatureKey (m : Method) (h : m.Displayed) :
    m.signatureKey.toList =
      m.callee.toList ++ '(' :: ([',', ' '].intercalate m.spelledTypes ++ [')']) := by
  have hfull : m.fullName.toList =
      m.name.toList ++ '(' :: ([',', ' '].intercalate m.spelledTypes ++ [')']) := by
    rw [h, displaySignature, spelledTypes]
    simp only [String.toList_append, String.toList_intercalate, List.map_map, List.append_assoc]
    rfl
  unfold signatureKey callee
  cases m.returnType with
  | none => exact hfull
  | some type =>
      simp only [String.toList_append, hfull, List.append_assoc]

theorem TypesBracketed.argTypes_eq {m : Method} (h : m.TypesBracketed) :
    m.argTypes = m.spelledTypes.map fun type => some (String.ofList type) := by
  rw [argTypes, spelledTypes, List.map_map]
  refine List.map_congr_left fun a ha => ?_
  rcases h a ha with ⟨type, htype, _⟩
  simp only [Function.comp_apply, htype, Option.getD_some, String.ofList_toList]

theorem TypesBracketed.spelledTypes {m : Method} (h : m.TypesBracketed) :
    ∀ type ∈ m.spelledTypes, Text.WellBracketed type ∧ type ≠ [] := by
  intro spelled hspelled
  rcases List.mem_map.mp hspelled with ⟨a, ha, rfl⟩
  rcases h a ha with ⟨type, htype, hne, hbracketed⟩
  rw [htype, Option.getD_some]
  exact ⟨hbracketed, fun hnil => hne (String.toList_eq_nil_iff.mp hnil)⟩

/-- The key of a method tells the types of its arguments. -/
theorem argTypes_eq_of_signatureKey_eq {m n : Method}
    (hm : m.TypesBracketed) (hn : n.TypesBracketed)
    (hmShown : m.Displayed) (hnShown : n.Displayed) (h : m.signatureKey = n.signatureKey) :
    m.argTypes = n.argTypes := by
  have hkeys := congrArg String.toList h
  rw [toList_signatureKey m hmShown, toList_signatureKey n hnShown] at hkeys
  -- The closing bracket is the last character of both keys.
  have hopen : m.callee.toList ++ '(' :: [',', ' '].intercalate m.spelledTypes =
      n.callee.toList ++ '(' :: [',', ' '].intercalate n.spelledTypes := by
    refine (List.append_left_inj [')']).mp ?_
    simpa only [List.append_assoc, List.cons_append] using hkeys
  -- So what stands between the brackets is the same, and it is the types with commas between them.
  have hinner := Text.Balanced.append_unique
    (Text.balanced_intercalate _ fun type htype => (hm.spelledTypes type htype).1.toBalanced)
    (Text.balanced_intercalate _ fun type htype => (hn.spelledTypes type htype).1.toBalanced) hopen
  rw [hm.argTypes_eq, hn.argTypes_eq,
    Text.intercalate_unique _ _ hm.spelledTypes hn.spelledTypes hinner.2]

end Method

namespace ClassRecord

/-- What is filed in a class where a method belongs. -/
def filed? (c : ClassRecord) (m : Method) : Option Method :=
  (if m.isStatic then c.staticMethods else c.methods).find? m.signatureKey

theorem filed?_addMethod (c : ClassRecord) (m n : Method) :
    (c.addMethod n).filed? m =
      if n.isStatic = m.isStatic ∧ n.signatureKey = m.signatureKey then some n
      else c.filed? m := by
  -- A static method and one of an instance are filed in two maps, and do not meet.
  unfold filed? addMethod
  cases hm : m.isStatic <;> cases hn : n.isStatic <;>
    simp only [Bool.false_eq_true, if_false, if_true, Dict.find?_insert, reduceCtorEq, false_and,
      true_and]

/-- Methods with different keys are filed in either order. -/
theorem addMethod_comm (c : ClassRecord) {m n : Method} (h : m.signatureKey ≠ n.signatureKey) :
    (c.addMethod m).addMethod n = (c.addMethod n).addMethod m := by
  unfold addMethod
  cases m.isStatic <;> cases n.isStatic <;>
    simp only [Bool.false_eq_true, if_false, if_true, Dict.insert_comm _ h]

/-- What has been filed stays there as long as no later method has its key. -/
theorem filed?_foldl_addMethod (methods : List Method) (c : ClassRecord) (m : Method)
    (h : ∀ n ∈ methods, n.signatureKey ≠ m.signatureKey) :
    (methods.foldl addMethod c).filed? m = c.filed? m := by
  induction methods generalizing c with
  | nil => rfl
  | cons n methods ih =>
      rw [List.forall_mem_cons] at h
      rw [List.foldl_cons, ih _ h.2, filed?_addMethod, if_neg fun hsame => h.1 hsame.2]

/-- Every one of several methods with different keys is there once all are filed. -/
theorem filed?_foldl_addMethod_of_mem (methods : List Method) (c : ClassRecord)
    (h : methods.Pairwise fun m n => m.signatureKey ≠ n.signatureKey) :
    ∀ m ∈ methods, (methods.foldl addMethod c).filed? m = some m := by
  induction methods generalizing c with
  | nil => exact fun m hm => absurd hm List.not_mem_nil
  | cons n methods ih =>
      rw [List.pairwise_cons] at h
      rw [List.forall_mem_cons, List.foldl_cons]
      refine ⟨?_, ih _ h.2⟩
      rw [filed?_foldl_addMethod methods _ n fun other hother => (h.1 other hother).symm,
        filed?_addMethod, if_pos ⟨rfl, rfl⟩]

/-- Methods with different keys are filed in any order. -/
theorem foldl_addMethod_perm {methods reordered : List Method} (hperm : reordered.Perm methods)
    (h : methods.Pairwise fun m n => m.signatureKey ≠ n.signatureKey) (c : ClassRecord) :
    reordered.foldl addMethod c = methods.foldl addMethod c := by
  have : Std.Symm fun m n : Method => m.signatureKey ≠ n.signatureKey := ⟨fun _ _ => Ne.symm⟩
  refine (hperm.symm.foldl_eq' (fun m hm n hn z => ?_) c).symm
  by_cases hsame : m = n
  · rw [hsame]
  · exact addMethod_comm z (h.forall hm hn hsame)

/-- Two methods that show their arguments in their full names, each argument with a well bracketed
    type, have the same key only if the types are the same. So methods with different types of
    arguments are all there once they have been filed, whichever the order, and have taken the place
    of nothing that had another key. -/
theorem addMethod_overloads :
    (∀ m n : Method, m.Displayed → n.Displayed → m.TypesBracketed → n.TypesBracketed →
      m.signatureKey = n.signatureKey → m.argTypes = n.argTypes) ∧
    ∀ (c : ClassRecord) (methods : List Method),
      (∀ m ∈ methods, m.Displayed ∧ m.TypesBracketed) →
      (methods.Pairwise fun m n => m.argTypes ≠ n.argTypes) →
      (∀ m ∈ methods, (methods.foldl addMethod c).filed? m = some m) ∧
      (∀ reordered : List Method, reordered.Perm methods →
        reordered.foldl addMethod c = methods.foldl addMethod c) ∧
      ∀ other : Method, (∀ m ∈ methods, m.signatureKey ≠ other.signatureKey) →
        (methods.foldl addMethod c).filed? other = c.filed? other := by
  refine ⟨fun m n hmShown hnShown hm hn h =>
    Method.argTypes_eq_of_signatureKey_eq hm hn hmShown hnShown h, fun c methods hall hdiffer => ?_⟩
  -- Types that differ make keys that differ, and from here on only the keys matter.
  have hkeys : methods.Pairwise fun m n => m.signatureKey ≠ n.signatureKey :=
    hdiffer.imp_of_mem fun hm hn hne hsame =>
      hne (Method.argTypes_eq_of_signatureKey_eq (hall _ hm).2 (hall _ hn).2 (hall _ hm).1
        (hall _ hn).1 hsame)
  exact ⟨filed?_foldl_addMethod_of_mem methods c hkeys,
    fun reordered hperm => foldl_addMethod_perm hperm hkeys c,
    fun other => filed?_foldl_addMethod methods c other⟩

/-- The parameters of three overloads. There is a comma in one of the types. -/
def tableTypes : List (List String) :=
  [["std::map<int, int>"], ["int", "int"], ["std::map<int, int>", "int"]]

/-- Three overloads that differ in their parameters. -/
def tableOverloads : List Method :=
  tableTypes.map fun types =>
    { Method.ofArgs "Set" (types.map fun type => { name := "", type := some type }) with
      returnType := some "void" }

theorem addMethod_overloads_nested :
    (∀ m ∈ tableOverloads, m.Displayed ∧ m.TypesBracketed) ∧
    (tableOverloads.Pairwise fun m n => m.argTypes ≠ n.argTypes) ∧
    ∀ m ∈ tableOverloads,
      (tableOverloads.foldl addMethod { name := "Table" }).filed? m = some m := by
  have hbracketed : ∀ types ∈ tableTypes, ∀ type ∈ types,
      type ≠ "" ∧ Text.WellBracketed type.toList := by
    decide
  have hall : ∀ m ∈ tableOverloads, m.Displayed ∧ m.TypesBracketed := by
    intro m hm
    rcases List.mem_map.mp hm with ⟨types, htypes, rfl⟩
    refine ⟨Method.displayed_ofArgs _ _, fun a ha => ?_⟩
    rcases List.mem_map.mp ha with ⟨type, htype, rfl⟩
    exact ⟨type, rfl, hbracketed types htypes type htype⟩
  have hdiffer : tableOverloads.Pairwise fun m n => m.argTypes ≠ n.argTypes := by
    decide
  exact ⟨hall, hdiffer, (addMethod_overloads.2 { name := "Table" } _ hall hdiffer).1⟩

/-- The full name decides. Two methods that differ in the types of their arguments only have the
    same key if neither record has a full name. -/
theorem signatureKey_shared :
    ¬ ∀ m n : Method, m.name = n.name → m.returnType = n.returnType →
      m.TypesBracketed → n.TypesBracketed →
      m.signatureKey = n.signatureKey → m.argTypes = n.argTypes := by
  intro h
  have htypes := h
    { name := "Set", args := [{ name := "x", type := some "int" }], returnType := some "void" }
    { name := "Set", args := [{ name := "x", type := some "double" }], returnType := some "void" }
    rfl rfl
    (fun a ha => ⟨"int", by rw [List.mem_singleton.mp ha], by decide, by decide⟩)
    (fun a ha => ⟨"double", by rw [List.mem_singleton.mp ha], by decide, by decide⟩) rfl
  exact absurd htypes (by decide)

end ClassRecord

end HeaderBinding
