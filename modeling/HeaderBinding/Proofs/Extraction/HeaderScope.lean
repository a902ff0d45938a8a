import HeaderBinding.Proofs.Extraction.ClassBody
import HeaderBinding.Proofs.Extraction.Filing

/-!
# Reading Headers

What the records of a header have to do with the tree they are read from.

As in a class body, one child of a scope opens a scope inside it, is passed over or is an item and
is filed (`visitItem_cases`). So the walk files the items of the scope in order (`visitScope_items`)
and keeps whatever filing an item keeps (`visitScope_run`).

What it keeps is `Collector.Tracks`. The slot tables say where the record of each name stands, so
that a class which is defined again is folded into a record of its own name and of no other. A
function that is set aside is one that the header defines outside of a class, and it has a return
type. Both are needed when the functions set aside are filed at the end.

## Main definitions

* `fileItem`, `visitItem`: Filing one item of a scope, and reading one child of a scope.
* `Collector.Tracks`: What holds of everything collected at any time of the walk.

## Theorems

* `visitItem_cases`: What one child of a scope does.
* `visitScope_items`: The walk files the items of a scope in order.
* `visitScope_run`: What filing one item keeps, the walk keeps.
* `Collector.fileItem_tracks`, `Collector.fileOutOfLine_tracks`: What is collected stays in step.
* `extractHeader_grown`: The records of a header have grown from what the header declares.
-/

namespace HeaderBinding

namespace Extraction

open Syntax

/-- File one item of a scope. -/
def fileItem (code : List Char) (n : Located) (namespaces : List String) (s : Collector) :
    Extract Collector :=
  match ScopeItem.ofKind n.node.kind with
  | .include => s.addInclude code n.node
  | .classType => s.addClass code n namespaces
  | .enum => s.addEnum code n namespaces
  | .template => s.addTemplate code n.node namespaces
  | .declaration => s.addDeclaration code n namespaces
  | .function => s.addFunction code n namespaces
  | .typedef => return s.addTypedef (← typedef? code n (scopeName namespaces))
  | .aliasType => return s.addTypedef (← alias? code n (scopeName namespaces))
  | _ => return s

section Walk

variable {code : List Char} {namespaces : List String} {before nodes : List Node}
  {s s' : Collector}

/-- Read one child of a scope. -/
def visitItem (code : List Char) (namespaces : List String) (before : List Node) (child : Node)
    (s : Collector) : Extract Collector :=
  match ScopeItem.ofKind child.kind with
  | .block => Collector.visitScope code namespaces [] child.children s
  | .namespaceBlock =>
    match child.child? "name", child.child? "body" with
    | some name, some body => do
      let inner := namespaces ++ namespaceParts (← textOf code name.node)
      Collector.visitScope code inner [] body.node.children s
    | _, _ => return s
  | _ => fileItem code ⟨child, before⟩ namespaces s

theorem visitScope_cons (child : Node) :
    Collector.visitScope code namespaces before (child :: nodes) s =
      visitItem code namespaces before child s >>=
        Collector.visitScope code namespaces (child :: before) nodes := by
  rw [Collector.visitScope]
  unfold visitItem fileItem
  cases ScopeItem.ofKind child.kind with
  | namespaceBlock =>
      dsimp only
      -- A namespace without a name or a body is passed over on both sides.
      split
      · next name body hname hbody =>
        simp only [hname, hbody, bind_assoc]
      · next hnone =>
        split
        · next name body hname hbody => exact absurd hbody (hnone name body hname)
        · rfl
  | _ => simp only [bind_assoc, pure_bind]

/-- What one child of a scope does: it opens a scope, it is a namespace that is passed over, or it
    is an item and is filed. -/
theorem visitItem_cases {child : Node}
    (h : visitItem code namespaces before child s = .ok s') :
    (∃ inside children, sizeOf children < sizeOf child ∧
      Collector.visitScope code inside [] children s = .ok s' ∧
      ∀ rest, scopeItems code namespaces (child :: rest) =
        scopeItems code inside children ++ scopeItems code namespaces rest) ∨
    (s' = s ∧ ∀ rest,
      scopeItems code namespaces (child :: rest) = scopeItems code namespaces rest) ∨
    (fileItem code ⟨child, before⟩ namespaces s = .ok s' ∧
      ∀ rest, scopeItems code namespaces (child :: rest) =
        (namespaces, child) :: scopeItems code namespaces rest) := by
  unfold visitItem at h
  cases hkind : ScopeItem.ofKind child.kind with
  | block =>
      rw [hkind] at h
      refine Or.inl ⟨namespaces, child.children, child.sizeOf_children_lt, h, fun rest => ?_⟩
      rw [scopeItems, hkind]
  | namespaceBlock =>
      simp only [hkind] at h
      split at h
      · next name body hname hbody =>
        rw [bind_eq_ok] at h
        rcases h with ⟨text, htext, h⟩
        have hsize : sizeOf body.node.children < sizeOf child :=
          Nat.lt_trans body.node.sizeOf_children_lt (Node.sizeOf_lt_of_child? hbody)
        refine Or.inl ⟨_, body.node.children, hsize, h, fun rest => ?_⟩
        rw [scopeItems, hkind]
        -- The namespaces are read from the text of the name on both sides.
        grind [spelled_eq htext]
      · next hnone =>
        refine Or.inr (Or.inl ⟨(pure_eq_ok.mp h).symm, fun rest => ?_⟩)
        rw [scopeItems, hkind]
        grind
  | _ =>
      simp only [hkind] at h
      refine Or.inr (Or.inr ⟨h, fun rest => ?_⟩)
      rw [scopeItems, hkind]

/-- A walk through a scope files its items in order. -/
theorem visitScope_items (h : Collector.visitScope code namespaces before nodes s = .ok s') :
    ∃ items : List (List String × Located),
      items.map (fun item => (item.1, item.2.node)) = scopeItems code namespaces nodes ∧
      items.foldlM (fun s item => fileItem code item.2 item.1 s) s = .ok s' := by
  -- Induction on the size, since an inner scope is walked through before the nodes behind it.
  induction hsize : sizeOf nodes using Nat.strongRecOn
    generalizing namespaces before nodes s s' with
  | ind size ih =>
      subst hsize
      cases nodes with
      | nil =>
          rw [Collector.visitScope] at h
          exact ⟨[], by rw [scopeItems, List.map_nil], h⟩
      | cons child nodes =>
          rw [visitScope_cons, bind_eq_ok] at h
          rw [List.cons.sizeOf_spec] at ih
          rcases h with ⟨s₁, hchild, hrest⟩
          rcases ih (sizeOf nodes) (by omega) hrest rfl with ⟨items, hitems, hfold⟩
          rcases visitItem_cases hchild with hscope | hpassed | hitem
          · rcases hscope with ⟨inside, children, hlt, hinside, hcons⟩
            rcases ih (sizeOf children) (by omega) hinside rfl with ⟨inner, hinner, hfirst⟩
            refine ⟨inner ++ items, ?_, ?_⟩
            · rw [hcons, List.map_append, hinner, hitems]
            · rw [List.foldlM_append, bind_eq_ok]
              exact ⟨s₁, hfirst, hfold⟩
          · rcases hpassed with ⟨rfl, hcons⟩
            exact ⟨items, by rw [hcons, hitems], hfold⟩
          · rcases hitem with ⟨hfile, hcons⟩
            refine ⟨(namespaces, ⟨child, before⟩) :: items, ?_, ?_⟩
            · rw [hcons, List.map_cons, hitems]
            · rw [List.foldlM_cons, bind_eq_ok]
              exact ⟨s₁, hfile, hfold⟩

/-- What filing one item keeps, the walk through a scope keeps. -/
theorem visitScope_run (Inv : Collector → Prop) (hs : Inv s)
    (hstep : ∀ entry ∈ scopeItems code namespaces nodes, ∀ before s s', Inv s →
      fileItem code ⟨entry.2, before⟩ entry.1 s = .ok s' → Inv s')
    (h : Collector.visitScope code namespaces before nodes s = .ok s') : Inv s' := by
  rcases visitScope_items h with ⟨items, hitems, hfold⟩
  refine foldlM_run Inv hs (fun item hitem s s' hs hfile => ?_) hfold
  refine hstep (item.1, item.2.node) ?_ item.2.before s s' hs hfile
  rw [← hitems]
  exact List.mem_map_of_mem hitem

end Walk

namespace Collector

/-- What is collected of a header at any time of the walk. -/
structure Tracks (code : List Char) (tree : Node) (s : Collector) : Prop where
  classes : Slotted
    (fun c => Grown (Declares code tree .isPublic) (DefinesOutOfLine code tree) c.name c)
    (·.name) s.classSlots s.header.classes
  /-- Nothing is filed in a class template from outside of it. -/
  templates : Slotted
    (fun t => Grown (Declares code tree .isPublic) (fun _ _ => False) t.record.name t.record)
    (·.record.name) s.templateSlots s.header.classTemplates
  outOfLine : ∀ entry ∈ s.outOfLine,
    DefinesOutOfLine code tree entry.1 entry.2.name ∧ entry.2.returnType.isSome

variable {code : List Char} {tree : Node} {namespaces : List String} {s s' : Collector}

theorem tracks_start (path : Path) : Tracks code tree { header := Header.ofPath path } where
  classes := Slotted.empty
  templates := Slotted.empty
  outOfLine := fun _ h => absurd h List.not_mem_nil

/-- A class that is defined again is folded into the record of its name. -/
theorem insertClass_tracks {c : ClassRecord} (hs : s.Tracks code tree)
    (hc : Grown (Declares code tree .isPublic) (DefinesOutOfLine code tree) c.name c)
    (h : s.insertClass c = .ok s') : s'.Tracks code tree := by
  have hpath := hc.path (some s.header.path)
  rcases insertClass_cases h with ⟨hslot, rfl⟩ | ⟨slot, first, hslot, hfirst, rfl⟩
  · exact { hs with classes := hs.classes.push { c with path := some s.header.path } hpath hslot }
  · -- What the slot of the name holds bears it, so both records are of one class.
    have hname : first.name = c.name := hs.classes.name_eq hslot hfirst
    have hold := hs.classes.forall_mem first (List.mem_of_getElem? hfirst)
    have hmerged := hold.extend (by rw [hname]; exact hpath)
    exact { hs with classes := hs.classes.set hfirst hmerged.self hmerged.name_eq }

theorem insertTemplate_tracks {c : ClassRecord} (hs : s.Tracks code tree)
    (params : List TemplateParam)
    (hc : Grown (Declares code tree .isPublic) (fun _ _ => False) c.name c)
    (h : s.insertTemplate c params = .ok s') : s'.Tracks code tree := by
  have hpath := hc.path (some s.header.path)
  rcases insertTemplate_cases h with ⟨hslot, rfl⟩ | ⟨slot, first, hslot, hfirst, rfl⟩
  · have hpush := hs.templates.push
      { record := { c with path := some s.header.path }, typeParams := params } hpath hslot
    exact { hs with templates := hpush }
  -- As with classes, what the slot of the name holds bears it.
  · have hname : first.record.name = c.name := hs.templates.name_eq hslot hfirst
    have hold := hs.templates.forall_mem first (List.mem_of_getElem? hfirst)
    have hmerged := hold.extend (by rw [hname]; exact hpath)
    exact { hs with templates := hs.templates.set hfirst hmerged.self hmerged.name_eq }

theorem addClass_tracks {n : Located} (hs : s.Tracks code tree)
    (hdefines : ∀ name, definedName? code (scopeName namespaces) n.node = some name →
      DefinesClass code tree name n.node)
    (h : s.addClass code n namespaces = .ok s') : s'.Tracks code tree := by
  unfold addClass at h
  rw [bind_eq_ok] at h
  rcases h with ⟨found, hfound, h⟩
  cases found with
  | some c => exact insertClass_tracks hs (parseClass_grown hfound hdefines).2 h
  | none =>
      dsimp only at h
      split at h
      · exact pure_eq_ok.mp h ▸ hs
      · split at h
        · exact pure_eq_ok.mp h ▸ hs
        · simp only [bind_eq_ok, pure_eq_ok] at h
          rcases h with ⟨name, _, rfl⟩
          unfold addForward
          split
          · exact hs
          · exact { hs with }

theorem addTemplate_tracks {n : Node} (hs : s.Tracks code tree)
    (hdefines : ∀ l ∈ n.located.filterMap templatedClass?, ∀ name,
      definedName? code (scopeName namespaces) l.node = some name →
      DefinesClass code tree name l.node)
    (h : s.addTemplate code n namespaces = .ok s') : s'.Tracks code tree := by
  unfold addTemplate at h
  split at h
  -- The parameters are read in one case and none in the other; the classes are filed in both.
  all_goals
    rw [bind_eq_ok] at h
    rcases h with ⟨params, _, hfold⟩
    refine foldlM_run (Tracks code tree) hs (fun l hl s₁ s₂ hs₁ hstep => ?_) hfold
    rw [bind_eq_ok] at hstep
    rcases hstep with ⟨found, hfound, hstep⟩
    cases found with
    | some c =>
        exact insertTemplate_tracks hs₁ params (parseClass_grown hfound (hdefines l hl)).2 hstep
    | none => exact pure_eq_ok.mp hstep ▸ hs₁

theorem addEnum_tracks {n : Located} (hs : s.Tracks code tree)
    (h : s.addEnum code n namespaces = .ok s') : s'.Tracks code tree := by
  unfold addEnum at h
  rw [bind_eq_ok] at h
  rcases h with ⟨found, _, h⟩
  cases found with
  | none => exact pure_eq_ok.mp h ▸ hs
  | some e => exact pure_eq_ok.mp h ▸ { hs with }

/-- A function with a qualified name is set aside, others are filed outside of classes. -/
theorem addFunction_tracks {n : Located} (hs : s.Tracks code tree)
    (hitem : (namespaces, n.node) ∈ scopeItems code [] tree.children)
    (h : s.addFunction code n namespaces = .ok s') : s'.Tracks code tree := by
  have hfree : ∀ f : FreeFunction, (s.insertFunction f).Tracks code tree := by
    intro f
    unfold insertFunction
    split
    · exact { hs with }
    · exact { hs with }
  unfold addFunction at h
  split at h
  · exact pure_eq_ok.mp h ▸ hs
  · next function suffix hfunction =>
    split at h
    · exact pure_eq_ok.mp h ▸ hs
    · next name hname =>
      by_cases htype : (n.node.child? "type").isNone = true
      · rw [if_pos htype] at h
        exact pure_eq_ok.mp h ▸ hs
      · rw [if_neg htype] at h
        by_cases hqualified : (name.node.kind == "qualified_identifier") = true
        · rw [if_pos hqualified, bind_eq_ok] at h
          rcases h with ⟨text, htext, h⟩
          split at h
          · exact pure_eq_ok.mp h ▸ hs
          · next scope last hparts =>
            simp only [bind_eq_ok, pure_eq_ok] at h
            rcases h with ⟨m, hm, rfl⟩
            rcases callable_spec hm with ⟨hmname, hmtype⟩
            -- The function that is set aside is the one the item defines outside of its class.
            refine { hs with outOfLine := ?_ }
            refine List.forall_mem_append.mpr ⟨hs.outOfLine, List.forall_mem_singleton.mpr ?_⟩
            refine ⟨⟨namespaces, n.node, hitem, (scope, last), ?_, rfl, hmname⟩, ?_⟩
            · rw [outOfLineName?, declaredFunction?, hfunction, Option.map_some, Option.bind_some,
                hname, Option.filter_some, if_pos hqualified, Option.bind_some, spelled_eq htext,
                hparts]
            · rw [hmtype, ← Option.not_isNone, eq_false_of_ne_true htype, Bool.not_false]
        · rw [if_neg hqualified] at h
          split at h
          · simp only [bind_eq_ok] at h
            rcases h with ⟨text, _, m, _, h⟩
            split at h
            all_goals
              simp only [bind_eq_ok, pure_eq_ok] at h
              rcases h with ⟨isInline, _, rfl⟩
              exact hfree _
          · exact pure_eq_ok.mp h ▸ hs

theorem addDeclaration_tracks {n : Located} (hs : s.Tracks code tree)
    (hitem : (namespaces, n.node) ∈ scopeItems code [] tree.children)
    (hdefines : ∀ type, n.node.child? "type" = some type → isClassKind type.node.kind = true →
      ∀ name, definedName? code (scopeName namespaces) type.node = some name →
      DefinesClass code tree name type.node)
    (h : s.addDeclaration code n namespaces = .ok s') : s'.Tracks code tree := by
  unfold addDeclaration at h
  split at h
  · next type htype =>
    split at h
    · next hclass =>
      rw [bind_eq_ok] at h
      rcases h with ⟨s₁, hs₁, h⟩
      exact addFunction_tracks (addClass_tracks hs (hdefines type htype hclass) hs₁) hitem h
    · split at h
      · rw [bind_eq_ok] at h
        rcases h with ⟨s₁, hs₁, h⟩
        exact addFunction_tracks (addEnum_tracks hs hs₁) hitem h
      · exact addFunction_tracks hs hitem h
  · exact addFunction_tracks hs hitem h

/-- Filing one item of the header. -/
theorem fileItem_tracks {n : Located} (hs : s.Tracks code tree)
    (hitem : (namespaces, n.node) ∈ scopeItems code [] tree.children)
    (h : fileItem code n namespaces s = .ok s') : s'.Tracks code tree := by
  have hclasses : ∀ inner ∈ itemClasses n.node, ∀ name,
      definedName? code (scopeName namespaces) inner = some name →
      DefinesClass code tree name inner :=
    fun inner hinner name hname =>
      DefinesClass.outer namespaces n.node inner name hitem hinner hname
  unfold fileItem at h
  unfold itemClasses at hclasses
  cases hkind : ScopeItem.ofKind n.node.kind with
  | block | namespaceBlock | other =>
      rw [hkind] at h
      exact pure_eq_ok.mp h ▸ hs
  | «include» =>
      simp only [hkind, addInclude] at h
      split at h
      · exact pure_eq_ok.mp h ▸ hs
      · simp only [bind_eq_ok, pure_eq_ok] at h
        rcases h with ⟨path, _, rfl⟩
        exact { hs with }
  | enum =>
      rw [hkind] at h
      exact addEnum_tracks hs h
  | typedef | aliasType =>
      simp only [hkind, bind_eq_ok, pure_eq_ok] at h
      rcases h with ⟨typedef, _, rfl⟩
      exact { hs with }
  | function =>
      rw [hkind] at h
      exact addFunction_tracks hs hitem h
  | classType =>
      simp only [hkind, List.mem_singleton, forall_eq] at h hclasses
      exact addClass_tracks hs hclasses h
  | template =>
      simp only [hkind] at h hclasses
      exact addTemplate_tracks hs (fun l hl => hclasses l.node (List.mem_map_of_mem hl)) h
  | declaration =>
      simp only [hkind] at h hclasses
      refine addDeclaration_tracks hs hitem (fun type htype hclass => hclasses type.node ?_) h
      rw [htype, Option.map_some, Option.filter_some, if_pos hclass]
      exact List.mem_singleton_self _

/-- A function set aside is filed as a method of the class it names. -/
theorem fileOutOfLine_tracks {entry : String × Method} (hs : s.Tracks code tree)
    (hentry : DefinesOutOfLine code tree entry.1 entry.2.name ∧ entry.2.returnType.isSome)
    (h : s.fileOutOfLine entry = .ok s') : s'.Tracks code tree := by
  rcases fileOutOfLine_cases h with rfl | ⟨slot, c, hslot, hfound, hrvalue, rfl⟩
  · exact hs
  · have hname : c.name = entry.1 := hs.classes.name_eq hslot hfound
    have hold := hs.classes.forall_mem c (List.mem_of_getElem? hfound)
    -- The class has the name that the function was set aside for, so the function is one of its
    -- own.
    have hmethod := hold.method entry.2 (Or.inr (hname ▸ hentry.1)) hentry.2 hrvalue
    exact { hs with classes := hs.classes.set hfound hmethod.self hmethod.name_eq }

end Collector

/-- Every class record of a header has grown from what the header declares. -/
theorem extractHeader_grown {code : List Char} {path : Path} {tree : Node} {header : Header}
    (h : extractHeader code path tree = .ok header) :
    (∀ c ∈ header.classes,
      Grown (Declares code tree .isPublic) (DefinesOutOfLine code tree) c.name c) ∧
    ∀ t ∈ header.classTemplates,
      Grown (Declares code tree .isPublic) (fun _ _ => False) t.record.name t.record := by
  simp only [extractHeader, Collector.finish, bind_eq_ok, pure_eq_ok] at h
  rcases h with ⟨walked, hwalk, filed, hfile, rfl⟩
  have hwalked := visitScope_run (Collector.Tracks code tree) (Collector.tracks_start path)
    (fun entry hentry before s s' hs hstep => Collector.fileItem_tracks hs hentry hstep) hwalk
  -- Filing sets nothing aside, so what the walk says of the entries is enough.
  have hfiled := foldlM_run (Collector.Tracks code tree) hwalked
    (fun entry hentry s s' hs hstep =>
      Collector.fileOutOfLine_tracks hs (hwalked.outOfLine entry hentry) hstep) hfile
  exact ⟨hfiled.classes.forall_mem, hfiled.templates.forall_mem⟩

end Extraction

end HeaderBinding
