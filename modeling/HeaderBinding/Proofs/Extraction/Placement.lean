import HeaderBinding.Proofs.Extraction.Coherence
import HeaderBinding.Proofs.Text.Slice

/-!
# Trees over a Source

Reading a header goes through, whatever the source, if the nodes of the tree cover parts of it that
exist and a node covers no more than the one around it.

Nothing is asked of neighbours. They may overlap or stand in any order, nodes may be empty, and the
grammar may have given up on any of them. The parts that are asked for are whole nodes, and what
lies in a node in front of or behind a node inside of it, however deep. Those exist because offsets
only move inwards from a node to the ones inside (`WellPlaced.range`). The one offset that no node
has is the end of the declared part of a parameter. It is found by dropping blanks and a sign from
the text in front of a default value, so it lies in that text and between characters of it
(`parameterStop_range`).

With no part missing, nothing is left that could go wrong: slots never are, as filing misses none.

## Main definitions

* `Placed`: A node covers a part of the source, and its children lie in that part.
* `WellPlaced`: All nodes of a tree do.
* `damagedTree`: A tree with an empty node and an error.

## Theorems

* `WellPlaced.range`: A node somewhere in another lies in its part of the source.
* `parameterStop_range`: The declared part of a parameter.
* `readable_wellPlaced`: All parts that are asked for exist.
* `Readable.extractHeader`: What may come of reading a header.
* `extractHeader_total`: Every well-placed tree gives a header.
-/

namespace HeaderBinding

namespace Extraction

open Syntax

/-- A node covers a part of the source that exists, and its children lie in that part. -/
structure Placed (code : List Char) (n : Node) : Prop where
  ordered : n.start ≤ n.stop
  start : Text.IsBoundary code n.start
  stop : Text.IsBoundary code n.stop
  inside : ∀ child ∈ n.children, n.start ≤ child.start ∧ child.stop ≤ n.stop

instance (code : List Char) (n : Node) : Decidable (Placed code n) :=
  decidable_of_iff (n.start ≤ n.stop ∧ Text.IsBoundary code n.start ∧
      Text.IsBoundary code n.stop ∧
      ∀ child ∈ n.children, n.start ≤ child.start ∧ child.stop ≤ n.stop)
    ⟨fun ⟨h₁, h₂, h₃, h₄⟩ => ⟨h₁, h₂, h₃, h₄⟩, fun h => ⟨h.ordered, h.start, h.stop, h.inside⟩⟩

/-- All nodes of a tree cover parts of the source that exist, each inside the part that the node
    around it covers. -/
inductive WellPlaced (code : List Char) : Node → Prop
  | mk (n : Node) (placed : Placed code n)
      (children : ∀ child ∈ n.children, WellPlaced code child) : WellPlaced code n

theorem slice_eq_ok {code part : List Char} {start stop : Nat} :
    slice code start stop = .ok part ↔ Text.slice? code start stop = some part := by
  unfold slice
  cases Text.slice? code start stop with
  | none => exact iff_of_false (error_ne_ok _ part) (Option.some_ne_none part).symm
  | some text => rw [Except.ok.injEq, Option.some.injEq]

/-- A part of the source can be taken if its offsets come in order and between characters. -/
theorem slice_eq_ok_iff {code : List Char} {start stop : Nat} :
    (∃ text, slice code start stop = .ok text) ↔
      start ≤ stop ∧ Text.IsBoundary code start ∧ Text.IsBoundary code stop := by
  rw [← Text.isSome_slice?_iff, Option.isSome_iff_exists]
  simp only [slice_eq_ok]

theorem FaultsOnly.slice {code : List Char} {allowed : Fault → Prop} {start stop : Nat}
    (hle : start ≤ stop) (hstart : Text.IsBoundary code start) (hstop : Text.IsBoundary code stop) :
    FaultsOnly allowed (slice code start stop) := by
  rcases slice_eq_ok_iff.mpr ⟨hle, hstart, hstop⟩ with ⟨text, htext⟩
  rw [htext]
  exact .pure text

/-- Where nothing can go wrong there is a result. -/
theorem FaultsOnly.exists_eq_ok {α : Type} {x : Extract α} (h : FaultsOnly (fun _ => False) x) :
    ∃ a, x = .ok a := by
  cases x with
  | ok a => exact ⟨a, rfl⟩
  | error fault => exact (h fault rfl).elim

namespace WellPlaced

variable {code : List Char} {n inner : Node}

theorem placed (h : WellPlaced code n) : Placed code n := by
  cases h with
  | mk _ placed _ => exact placed

theorem child (h : WellPlaced code n) (hinner : inner ∈ n.children) : WellPlaced code inner := by
  cases h with
  | mk _ _ children => exact children inner hinner

theorem within (h : WellPlaced code n) (hinner : Within n inner) : WellPlaced code inner := by
  induction hinner with
  | refl => exact h
  | tail _ hchild ih => exact ih.child hchild

/-- A node somewhere in another lies in its part of the source. -/
theorem range (h : WellPlaced code n) (hinner : Within n inner) :
    n.start ≤ inner.start ∧ inner.stop ≤ n.stop := by
  induction hinner with
  | refl => exact ⟨Nat.le_refl _, Nat.le_refl _⟩
  | tail hmiddle hchild ih =>
      have hstep := (h.within hmiddle).placed.inside _ hchild
      exact ⟨Nat.le_trans ih.1 hstep.1, Nat.le_trans hstep.2 ih.2⟩

end WellPlaced

section Parameter

variable {code : List Char} {param : Node}

/-- A front of a text between two offsets ends at a boundary that is not behind the second. -/
theorem boundary_of_prefix {part front : List Char} {start stop : Nat}
    (hpart : slice code start stop = .ok part) (hfront : front <+: part) :
    Text.IsBoundary code (start + Text.byteLength front) ∧
      start + Text.byteLength front ≤ stop := by
  rcases Text.slice?_eq_some_iff.mp (slice_eq_ok.mp hpart) with ⟨before, behind, rfl, rfl, rfl⟩
  rcases hfront with ⟨rest, rfl⟩
  simp only [Text.byteLength_append]
  refine ⟨⟨before ++ front, rest ++ behind, ?_, Text.byteLength_append before front⟩, by omega⟩
  simp only [List.append_assoc]

/-- The declared part of a parameter ends between two characters of the parameter. -/
theorem parameterStop_range (h : WellPlaced code param) {stop : Nat}
    (hstop : parameterStop code param = .ok stop) :
    Text.IsBoundary code stop ∧ param.start ≤ stop ∧ stop ≤ param.stop := by
  unfold parameterStop at hstop
  split at hstop
  · obtain rfl := pure_eq_ok.mp hstop
    exact ⟨h.placed.stop, h.placed.ordered, Nat.le_refl _⟩
  · next value hvalue =>
    rw [bind_eq_ok] at hstop
    rcases hstop with ⟨front, hfront, hstop⟩
    obtain rfl := pure_eq_ok.mp hstop
    have hprefix : (if (Text.trimEnd front).getLast? == some '=' then
        Text.trimEnd (Text.trimEnd front).dropLast else Text.trimEnd front) <+: front := by
      split
      · exact (Text.trimEnd_prefix _).trans
          ((List.dropLast_prefix _).trans (Text.trimEnd_prefix front))
      · exact Text.trimEnd_prefix front
    rcases boundary_of_prefix hfront hprefix with ⟨hboundary, hle⟩
    have hinner := within_of_child? hvalue
    have hordered := (h.within hinner).placed.ordered
    have hrange := h.range hinner
    exact ⟨hboundary, Nat.le_add_right _ _, by omega⟩

end Parameter

/-- All parts of the source that are asked for exist. -/
theorem readable_wellPlaced (code : List Char) :
    Readable code (fun _ => False) (WellPlaced code) where
  child _ h _ hinner := h.child hinner
  whole _ h := .slice h.placed.ordered h.placed.start h.placed.stop
  front _ _ h hinner :=
    .slice (h.range hinner).1 h.placed.start (h.within hinner).placed.start
  back _ _ h hinner := .slice (h.range hinner).2 (h.within hinner).placed.stop h.placed.stop
  unnamed _ _ h hstop :=
    have hrange := parameterStop_range h hstop
    .slice hrange.2.1 h.placed.start hrange.1
  named _ _ _ h hstop hinner hle :=
    .slice hle (h.within hinner).placed.stop (parameterStop_range h hstop).1

/-- What may come of reading a header is what may come of the parts of its source. -/
theorem Readable.extractHeader {code : List Char} {allowed : Fault → Prop} {fits : Node → Prop}
    (hr : Readable code allowed fits) {tree : Node} (htree : fits tree) (path : Path) :
    FaultsOnly allowed (extractHeader code path tree) := by
  have hstart := Collector.coherent_start path
  have hwalk : ReadsAndFiles allowed _ (Collector.visitScope code [] [] tree.children _) :=
    hr.visitScope hstart (fun _ h => absurd h List.not_mem_nil) (hr.child tree htree) []
  refine hwalk.faults.bind fun s h => ?_
  -- Filing what was set aside misses no slot.
  rcases Collector.fileAll_coherent (hwalk.coherent hstart h).1 (s.outOfLine.map .outOfLine) with
    ⟨s', hfile, _⟩
  rw [Collector.finish_eq, hfile]
  exact .pure _

/-- A part of the source can be taken only if its start is not behind its end and both lie between
    characters of the text, and whatever the source, reading a tree over it takes no other part and
    misses no slot: the tree gives a header. -/
theorem extractHeader_total (code : List Char) (path : Path) (tree : Node)
    (h : WellPlaced code tree) :
    (∀ start stop, (∃ text, slice code start stop = .ok text) ↔
      start ≤ stop ∧ Text.IsBoundary code start ∧ Text.IsBoundary code stop) ∧
    ∃ header, extractHeader code path tree = .ok header :=
  ⟨fun _ _ => slice_eq_ok_iff, ((readable_wellPlaced code).extractHeader h path).exists_eq_ok⟩

section Damaged

/-- A function whose parameter has a default sign and no default value, with a name of two bytes. -/
def damagedSource : List Char := "void f(T \u00E9=);".toList

/-- The parameter. The grammar has put an empty node in the place of the default value. -/
def damagedParameter : Node :=
  { kind := "optional_parameter_declaration", named := true, start := 7, stop := 12
    fields := [("declarator", 1), ("default_value", 3), ("type", 0)]
    children := [leaf "type_identifier" true 7 8, leaf "identifier" true 9 11,
      leaf "=" false 11 12, leaf "identifier" true 12 12] }

/-- The function. -/
def damagedFunction : Node :=
  { kind := "function_declarator", named := true, start := 5, stop := 13
    fields := [("declarator", 0), ("parameters", 1)]
    children := [leaf "identifier" true 5 6,
      { kind := "parameter_list", named := true, start := 6, stop := 13, fields := []
        children := [leaf "(" false 6 7, damagedParameter, leaf ")" false 12 13] }] }

/-- The tree of the header, with a node for an error at the end. -/
def damagedTree : Node :=
  { kind := "translation_unit", named := true, start := 0, stop := 14, fields := []
    children := [
      { kind := "declaration", named := true, start := 0, stop := 14
        fields := [("declarator", 1), ("type", 0)]
        children := [leaf "primitive_type" true 0 4, damagedFunction, leaf ";" false 13 14] },
      leaf "ERROR" true 14 14] }

theorem wellPlaced_of_forall {code : List Char} {n : Node} (hplaced : Placed code n)
    (h : n.children.Forall (WellPlaced code)) : WellPlaced code n :=
  .mk n hplaced (List.forall_iff_forall_mem.mp h)

theorem wellPlaced_leaf {code : List Char} {kind : String} {named : Bool} {start stop : Nat}
    (hplaced : Placed code (leaf kind named start stop)) :
    WellPlaced code (leaf kind named start stop) :=
  wellPlaced_of_forall hplaced trivial

theorem wellPlaced_damagedTree : WellPlaced damagedSource damagedTree := by
  have hparameter : WellPlaced damagedSource damagedParameter :=
    wellPlaced_of_forall (by decide) ⟨wellPlaced_leaf (by decide), wellPlaced_leaf (by decide),
      wellPlaced_leaf (by decide), wellPlaced_leaf (by decide)⟩
  have hfunction : WellPlaced damagedSource damagedFunction :=
    wellPlaced_of_forall (by decide) ⟨wellPlaced_leaf (by decide), wellPlaced_of_forall (by decide)
      ⟨wellPlaced_leaf (by decide), hparameter, wellPlaced_leaf (by decide)⟩⟩
  exact wellPlaced_of_forall (by decide) ⟨wellPlaced_of_forall (by decide)
    ⟨wellPlaced_leaf (by decide), hfunction, wellPlaced_leaf (by decide)⟩,
      wellPlaced_leaf (by decide)⟩

theorem extractHeader_total_damaged :
    WellPlaced damagedSource damagedTree ∧
      ∃ header, extractHeader damagedSource "gp_Test.hxx" damagedTree = .ok header :=
  ⟨wellPlaced_damagedTree, (extractHeader_total _ _ _ wellPlaced_damagedTree).2⟩

end Damaged

end Extraction

end HeaderBinding
