import HeaderBinding.Proofs.Extraction.Visibility
import HeaderBinding.Proofs.Record.Grouping
import HeaderBinding.Proofs.Record.WellFormed

/-!
# Records in Good Order

The records of a header are well formed, whatever the tree.

A class record is filled from four sides: by the members of a body, by nested classes, by a second
definition of the class and by functions that are defined outside of it. Each keeps a record in good
order by itself, because what is filed is looked at before it is filed. So nothing has to be known
of the tree, and a tree with errors in it has records as good as any other.

The same argument shows that the maps of a record are always in order, which those rely on who fold
records of several headers.

## Theorems

* `wellFormed_kept`, `mapsSorted_kept`: Each way of filing keeps a record in good order.
* `extractHeader_wellFormed`: The records of a header are well formed at every depth.
* `extractHeader_mapsSorted`: So are their maps in order.
-/

namespace HeaderBinding

namespace Extraction

open Syntax

theorem wellFormed_kept (declared defined : String → String → Prop) :
    KeptByFiling declared defined ClassRecord.WellFormed where
  bare name comment superclasses := ClassRecord.wellFormed_bare name comment none superclasses
  path _ _ h := { h with }
  isAbstract _ h := { h with }
  field _ _ h := { h with }
  enum _ _ h := { h with }
  typedef _ t h := h.withTypedef t
  destructor _ _ h _ := { h with
    destructors := List.forall_mem_append.mpr ⟨h.destructors, List.forall_mem_singleton.mpr rfl⟩ }
  constructor _ m h _ hreturn hname hrvalue hnew := h.withConstructor m hreturn hname hrvalue hnew
  operator _ _ h _ := { h with }
  method _ m h _ hreturn hrvalue := h.addMethod m hreturn hrvalue
  inner _ _ h hkeyed := { h with innerClasses := hkeyed }
  extend _ _ hc hd hname hkeyed := hc.extend hd hname hkeyed

theorem mapsSorted_kept (declared defined : String → String → Prop) :
    KeptByFiling declared defined ClassRecord.MapsSorted where
  bare _ _ _ := ⟨.nil, .nil, .nil, .nil⟩
  path _ _ h := { h with }
  isAbstract _ h := { h with }
  field _ _ h := { h with }
  enum _ _ h := { h with }
  typedef c t h := { h with typedefs := c.typedefs.sorted_insert h.typedefs _ _ }
  destructor _ _ h _ := { h with }
  constructor _ _ h _ _ _ _ _ := { h with }
  operator _ _ h _ := { h with }
  method c m h _ _ _ := by
    unfold ClassRecord.addMethod
    split
    · exact { h with staticMethods := c.staticMethods.sorted_insert h.staticMethods _ _ }
    · exact { h with methods := c.methods.sorted_insert h.methods _ _ }
  inner c _ h _ := { h with innerClasses := c.innerClasses.sorted_insert h.innerClasses _ _ }
  extend _ d hc _ _ _ := hc.extend d

/-- The maps of every class record of a header are in order, at every depth. -/
theorem extractHeader_mapsSorted (code : List Char) (path : Path) (tree : Node) (header : Header)
    (h : extractHeader code path tree = .ok header) :
    (∀ c ∈ header.classes, c.Everywhere ClassRecord.MapsSorted) ∧
      ∀ t ∈ header.classTemplates, t.record.Everywhere ClassRecord.MapsSorted := by
  rcases extractHeader_grown h with ⟨hclasses, htemplates⟩
  refine ⟨fun c hc => ?_, fun t ht => ?_⟩
  · exact ((hclasses c hc).everywhere (mapsSorted_kept _ _)).imp fun _ => And.right
  · exact ((htemplates t ht).everywhere (mapsSorted_kept _ _)).imp fun _ => And.right

/-- Every class record of a header is well formed, at every depth and whatever the tree. -/
theorem extractHeader_wellFormed (code : List Char) (path : Path) (tree : Node) (header : Header)
    (h : extractHeader code path tree = .ok header) :
    (∀ c ∈ header.classes, c.Everywhere ClassRecord.WellFormed) ∧
      ∀ t ∈ header.classTemplates, t.record.Everywhere ClassRecord.WellFormed := by
  rcases extractHeader_grown h with ⟨hclasses, htemplates⟩
  refine ⟨fun c hc => ?_, fun t ht => ?_⟩
  · exact ((hclasses c hc).everywhere (wellFormed_kept _ _)).imp fun _ => And.right
  · exact ((htemplates t ht).everywhere (wellFormed_kept _ _)).imp fun _ => And.right

theorem extractHeader_wellFormed_outlined :
    extractHeader outlinedSource "gp_Test.hxx" outlinedTree = .ok outlinedHeader ∧
      (outlinedRecord.addMethod outlinedMethod).Everywhere ClassRecord.WellFormed :=
  ⟨extractHeader_outlined,
    (extractHeader_wellFormed outlinedSource "gp_Test.hxx" outlinedTree outlinedHeader
      extractHeader_outlined).1 _ (List.mem_singleton_self _)⟩

end Extraction

end HeaderBinding
