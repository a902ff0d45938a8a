import HeaderBinding.Proofs.Qualification.Module
import Mathlib.Data.List.Forall2
import Mathlib.Logic.Relation

/-!
# What Qualifying Leaves Alone

Nothing of a module is lost when it is qualified, whatever its names and types are like.

That several passes come to one is true of names that are made of identifiers. Less can be said of
other names, but it can be said of all of them. A search copies a text character by character and
now and then puts an owner and a scope mark in front of one. So what it returns is the text with
such insertions, and the same is true of all searches of all scopes one after the other
(`qualifyThrough_ownersPut`). Nothing is deleted and nothing moves.

A type that is searched stays where it was: in the same argument of the same method under the same
key. `Retyped` says so for a relation between types, one record around the other. The other fields
of each record are not listed, for the record is the old one with these fields exchanged.

## Main definitions

* `OwnersPut`: A text with owners and scope marks put in.
* `ClassRecord.Retyped`: A class of which only the types in signatures have changed.
* `ownerNames`: The names of the classes and templates of a module.

## Theorems

* `ownersPut_qualifyFrom`: A search puts in owners and nothing else.
* `qualifyThrough_ownersPut`: So do the searches of all scopes.
* `ClassRecord.retyped_mapTypes`: A function applied to the types in signatures.
* `qualifyModule_retyped`: Only types in signatures change, and only by insertions.
-/

namespace HeaderBinding

open Text

/-- One owner with a scope mark is put into a text at some place. -/
def PutsOwner (owners : List String) (text longer : String) : Prop :=
  ∃ owner ∈ owners, ∃ front back : String,
    text = front ++ back ∧ longer = front ++ (owner ++ "::") ++ back

/-- Owners with scope marks are put into a text one after the other, any number of them. -/
def OwnersPut (owners : List String) : String → String → Prop :=
  Relation.ReflTransGen (PutsOwner owners)

section Texts

variable {owners : List String}

/-- What is put in makes a text longer, so that no insertion is undone by others. -/
theorem OwnersPut.eq_or_length_lt {text longer : String} (h : OwnersPut owners text longer) :
    text = longer ∨ text.length < longer.length := by
  induction h with
  | refl => exact Or.inl rfl
  | tail _ hstep ih =>
      rcases hstep with ⟨owner, _, front, back, rfl, rfl⟩
      have hmark : "::".length = 2 := rfl
      refine Or.inr (ih.elim (fun heq => ?_) (fun hlt => ?_))
      · rw [heq]
        simp only [String.length_append, hmark]
        omega
      · simp only [String.length_append, hmark] at hlt ⊢
        omega

/-- A search copies the text and puts the owner in now and then. `passed` is what has been copied
    and put in before. -/
theorem ownersPut_qualifyFrom (word : List Char) {owner : String} (howner : owner ∈ owners)
    (text : List Char) (passed : List Char) (skip : Nat) (before : List Char) :
    OwnersPut owners (String.ofList (passed ++ text))
      (String.ofList (passed ++
        qualifyFrom word (owner.toList ++ scopeMark) skip before text)) := by
  induction text generalizing passed skip before with
  | nil =>
      rw [qualifyFrom]
      exact .refl
  | cons c rest ih =>
      have hcopy : ∀ (passed : List Char) (skip : Nat),
          OwnersPut owners (String.ofList (passed ++ c :: rest)) (String.ofList (passed ++
            c :: qualifyFrom word (owner.toList ++ scopeMark) skip (c :: before) rest)) := by
        intro passed skip
        have hrest := ih (passed ++ [c]) skip (c :: before)
        rwa [List.append_assoc, List.append_assoc] at hrest
      cases skip with
      | succ skip =>
          rw [qualifyFrom]
          exact hcopy passed skip
      | zero =>
          rw [qualifyFrom]
          by_cases hstands : standsAt word before (c :: rest) = true
          · rw [if_pos hstands]
            by_cases hmarked : (scopeMark.isPrefixOf before ||
                scopeMark.isPrefixOf ((c :: rest).drop word.length)) = true
            · simp only [if_pos hmarked, List.nil_append]
              exact hcopy passed (word.length - 1)
            · -- Here the owner goes in, and the copying goes on behind it.
              have hput : PutsOwner owners (String.ofList (passed ++ c :: rest))
                  (String.ofList (passed ++ (owner.toList ++ scopeMark) ++ c :: rest)) := by
                refine ⟨owner, howner, String.ofList passed, String.ofList (c :: rest),
                  String.ofList_append, ?_⟩
                simp only [String.ofList_append, String.ofList_toList]
                rfl
              have hlater := (Relation.ReflTransGen.single hput).trans
                (hcopy (passed ++ (owner.toList ++ scopeMark)) (word.length - 1))
              rw [List.append_assoc] at hlater
              simp only [if_neg hmarked]
              exact hlater
          · rw [if_neg hstands]
            exact hcopy passed 0

namespace InnerTypes

variable (s : InnerTypes) (hs : s.owner ∈ owners)
include hs

/-- So does a search for one name of a scope. -/
theorem ownersPut_qualifySegment (type : Option String × String) (segment : String) :
    OwnersPut owners type.2 (s.qualifySegment type segment).2 := by
  have hsearch := ownersPut_qualifyFrom segment.toList hs type.2.toList [] 0 []
  rw [List.nil_append, List.nil_append, String.ofList_toList] at hsearch
  unfold qualifySegment qualifyWord
  by_cases hsame : qualifyFrom segment.toList (s.owner.toList ++ scopeMark) 0 [] type.2.toList =
      type.2.toList
  · simp only [if_pos hsame]
    exact .refl
  · simp only [if_neg hsame]
    exact hsearch

/-- And so do the searches for all names of a scope. -/
theorem ownersPut_qualify (params : List String) (type : String) :
    OwnersPut owners type (s.qualify params type) := by
  have hfold : ∀ (segments : List String) (type : Option String × String),
      OwnersPut owners type.2 (segments.foldl s.qualifySegment type).2 := by
    intro segments
    induction segments with
    | nil => exact fun _ => .refl
    | cons segment segments ih =>
        intro type
        exact (s.ownersPut_qualifySegment hs type segment).trans (ih _)
  rw [qualify, qualify?, s.getD_foldl_qualifySegment _ type (none, type) rfl]
  exact hfold _ (none, type)

end InnerTypes

/-- Whatever the scopes are, they only put their owners in. -/
theorem qualifyThrough_ownersPut (params : List String) (scopes : List InnerTypes)
    (hscopes : ∀ s ∈ scopes, s.owner ∈ owners) (type : String) :
    OwnersPut owners type (qualifyThrough params scopes type) := by
  unfold qualifyThrough
  induction scopes generalizing type with
  | nil => exact .refl
  | cons s scopes ih =>
      rw [List.forall_mem_cons] at hscopes
      exact (s.ownersPut_qualify hscopes.1 params type).trans (ih hscopes.2 _)

end Texts

section Records

variable (R : String → String → Prop)

/-- An argument of which only the type has changed, one that is there to another. -/
structure Argument.Retyped (a b : Argument) : Prop where
  frame : b = { a with type := b.type }
  type : Option.Rel R a.type b.type

/-- A method of which only the types it mentions have changed. -/
structure Method.Retyped (m n : Method) : Prop where
  frame : n = { m with args := n.args, returnType := n.returnType }
  args : List.Forall₂ (Argument.Retyped R) m.args n.args
  returnType : Option.Rel R m.returnType n.returnType

/-- A map of methods with the same keys, each with its method retyped. -/
def Dict.Retyped (d e : Dict Method) : Prop :=
  List.Forall₂ (fun entry other => other.1 = entry.1 ∧ Method.Retyped R entry.2 other.2)
    d.entries e.entries

/-- A class of which only the types in the signatures of methods, static methods and constructors
    have changed. -/
structure ClassRecord.Retyped (c d : ClassRecord) : Prop where
  frame : d = { c with
    methods := d.methods, staticMethods := d.staticMethods, constructors := d.constructors }
  methods : Dict.Retyped R c.methods d.methods
  staticMethods : Dict.Retyped R c.staticMethods d.staticMethods
  constructors : List.Forall₂ (Method.Retyped R) c.constructors d.constructors

/-- A class template of which only the types in those signatures have changed. -/
structure ClassTemplate.Retyped (t u : ClassTemplate) : Prop where
  frame : u = { t with record := u.record }
  record : ClassRecord.Retyped R t.record u.record

variable {R} {f : String → String} (hf : ∀ type, R type (f type))
include hf

theorem optionRel_map (type : Option String) : Option.Rel R type (type.map f) := by
  cases type with
  | none => exact .none
  | some type => exact .some (hf type)

theorem Method.retyped_mapTypes (m : Method) : m.Retyped R (m.mapTypes f) where
  frame := rfl
  args := by
    refine List.forall₂_map_right_iff.mpr (List.forall₂_same.mpr fun a _ => ?_)
    exact ⟨rfl, optionRel_map hf a.type⟩
  returnType := optionRel_map hf m.returnType

theorem Dict.retyped_map (d : Dict Method) : d.Retyped R (d.map (Method.mapTypes f)) :=
  List.forall₂_map_right_iff.mpr (List.forall₂_same.mpr fun entry _ =>
    ⟨rfl, entry.2.retyped_mapTypes hf⟩)

/-- A function applied to the types in the signatures of a class changes these types only. -/
theorem ClassRecord.retyped_mapTypes (c : ClassRecord) : c.Retyped R (c.mapTypes f) where
  frame := rfl
  methods := c.methods.retyped_map hf
  staticMethods := c.staticMethods.retyped_map hf
  constructors := List.forall₂_map_right_iff.mpr (List.forall₂_same.mpr fun m _ =>
    m.retyped_mapTypes hf)

end Records

section Module

variable (classes : List ClassRecord) (templates : List ClassTemplate)

/-- The names of the classes and templates of a module. -/
def ownerNames : List String :=
  (moduleRecords classes templates).map (·.name)

/-- The scopes that are applied to a class of a module belong to records of the module. -/
theorem owner_mem_of_mem_scopesFor (c : ClassRecord) (hc : c ∈ moduleRecords classes templates)
    (s : InnerTypes) (hs : s ∈ scopesFor (moduleRecords classes templates) c) :
    s.owner ∈ ownerNames classes templates := by
  rcases List.mem_cons.mp hs with rfl | hs
  · exact List.mem_map_of_mem hc
  · rcases List.mem_map.mp (List.mem_filter.mp hs).1 with ⟨d, hd, rfl⟩
    exact List.mem_map_of_mem hd

/-- Qualifying a module changes nothing but types in signatures, and it only puts names of classes
    and templates of the module into them, each with a scope mark behind it. -/
theorem qualifyModule_retyped :
    List.Forall₂ (ClassRecord.Retyped (OwnersPut (ownerNames classes templates))) classes
        (qualifyModule classes templates).classes ∧
      List.Forall₂ (ClassTemplate.Retyped (OwnersPut (ownerNames classes templates))) templates
        (qualifyModule classes templates).templates := by
  -- Whatever the template parameters hide, no scope puts in anything but its owner.
  have htypes : ∀ c ∈ moduleRecords classes templates, ∀ params type,
      OwnersPut (ownerNames classes templates) type
        (qualifyThrough params (scopesFor (moduleRecords classes templates) c) type) := by
    intro c hc params type
    exact qualifyThrough_ownersPut params _ (owner_mem_of_mem_scopesFor _ _ c hc) type
  rw [classes_eq_mapTypes, templates_eq_mapTypes, List.forall₂_map_right_iff,
    List.forall₂_map_right_iff]
  refine ⟨List.forall₂_same.mpr fun c hc => ?_, List.forall₂_same.mpr fun t ht => ⟨rfl, ?_⟩⟩
  · exact c.retyped_mapTypes (htypes c (List.mem_append.mpr (Or.inl hc)) [])
  · have hrecord : t.record ∈ moduleRecords classes templates :=
      List.mem_append.mpr (Or.inr (List.mem_map_of_mem ht))
    exact t.record.retyped_mapTypes (htypes t.record hrecord t.paramNames)

end Module

end HeaderBinding
