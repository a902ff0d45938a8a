import HeaderBinding.Proofs.Extraction.Lookalikes

/-!
# Transparent Blocks

Blocks of conditional compilation and linkage blocks can be taken away.

`Unwraps` relates the nodes of a scope or a class body to the same nodes with one block replaced by
its children. The block may stand among the nodes, or inside of another block, of a namespace or of
a class among them, to any depth. That the two are read alike is shown by induction on where the
block stands.

Two things have to be seen to. A node that is read behind other siblings than before is read in the
same way, as long as there are no comments: this is where documentation would get lost or turn up at
another place. And reading some nodes after others is one walk, in which the access of a class body
and the namespaces of a scope are handed on (`Walker.walk_append`), so that a block which hands on
what it was given does nothing else than its children would do. The two walks, through scopes and
through class bodies, are treated as one here, since the argument is the same (`Walker`).

An item with a class inside is read alike once the class is, and nothing else of the item is read as
more than its outline (`Exchanged.stepAlike`).

## Main definitions

* `Place`: Whether nodes stand in a scope or in a class body.
* `Rebodied`: A node with other children in its body.
* `Exchanged`: An item in which one node is exchanged for another.
* `Unwraps`: Nodes of which one block has been replaced by its children.
* `CommentFree`: A tree without comments.
* `Walker`: The walk through a scope, and the one through a class body.
* `ReadAlike`: Nodes that every walk at their place reads alike.

## Theorems

* `Walker.walk_append`: A walk through nodes and others behind them.
* `ReadAlike.of_block`: A block is read like its children.
* `Exchanged.stepAlike`: An item with a class that is read alike.
* `readAlike_of_unwraps`: Nodes are read alike without the block.
* `extractHeader_unwraps`: A header has the same record without the block.
-/

namespace HeaderBinding

namespace Extraction

open Syntax

/-- Whether nodes stand in a scope or in a class body. -/
inductive Place where
  | scope
  | body

namespace Place

/-- A kind of node whose children are read as if they stood in its place. -/
def isBlock : Place → String → Bool
  | scope, kind => ScopeItem.ofKind kind == .block
  | body, kind => MemberItem.ofKind kind == .block

/-- A kind of node that is read as one declaration, or not at all. -/
def isSingle : Place → String → Bool
  | scope, kind => (ScopeItem.ofKind kind).isSingle
  | body, kind => (MemberItem.ofKind kind).isSingle

end Place

section Relation

/-- A node, and the same node with other children in its body. With its children the field names of
    the body may change. -/
inductive Rebodied : Node → List Node → Node → List Node → Prop
  | mk (n body : Node) (i : Nat) (fields : List (String × Nat)) (children : List Node)
      (hfield : n.fields.lookup "body" = some i) (hbody : n.children[i]? = some body) :
      Rebodied n body.children (n.withChild i { body with fields, children }) children

/-- An item in which one node is exchanged for another: the node is the item, or a child of it that
    is no declarator, or stands in an item that is made a template. -/
inductive Exchanged (x x' : Node) : Place → Node → Node → Prop
  | itself (place : Place) (hclass : isClassKind x.kind = true) : Exchanged x x' place x x'
  | child (place : Place) (item : Node) (i : Nat) (hkind : place.isSingle item.kind = true)
      (hchild : item.children[i]? = some x)
      (hdeclarator : item.fields.lookup "declarator" ≠ some i) :
      Exchanged x x' place item (item.withChild i x')
  | template (item inner inner' : Node) (i : Nat)
      (hkind : ScopeItem.ofKind item.kind = .template) (hchild : item.children[i]? = some inner)
      (hparameters : item.fields.lookup "parameters" ≠ some i)
      (h : Exchanged x x' .scope inner inner') :
      Exchanged x x' .scope item (item.withChild i inner')

/-- Nodes of which one block has been replaced by its children. -/
inductive Unwraps : Place → List Node → List Node → Prop
  | here (place : Place) (block : Node) (rest : List Node)
      (hblock : place.isBlock block.kind = true) :
      Unwraps place (block :: rest) (block.children ++ rest)
  | behind (place : Place) (node : Node) (rest rest' : List Node) (h : Unwraps place rest rest') :
      Unwraps place (node :: rest) (node :: rest')
  | inBlock (place : Place) (block : Node) (fields : List (String × Nat))
      (children rest : List Node) (hblock : place.isBlock block.kind = true)
      (h : Unwraps place block.children children) :
      Unwraps place (block :: rest) ({ block with fields, children } :: rest)
  | inNamespace (n n' : Node) (children children' rest : List Node)
      (hkind : ScopeItem.ofKind n.kind = .namespaceBlock) (hn : Rebodied n children n' children')
      (h : Unwraps .scope children children') : Unwraps .scope (n :: rest) (n' :: rest)
  | inClass (place : Place) (n n' item item' : Node) (children children' rest : List Node)
      (hclass : isClassKind n.kind = true) (hn : Rebodied n children n' children')
      (hclause : ∀ body, n.child? "body" = some body → body.node.kind ≠ "base_class_clause")
      (hitem : Exchanged n n' place item item') (h : Unwraps .body children children') :
      Unwraps place (item :: rest) (item' :: rest)
  /-- What is neither a class nor an enumeration, such as the body of a function, is not read. -/
  | unread (place : Place) (n n' item item' : Node) (rest : List Node)
      (hclass : isClassKind n.kind = false) (henum : isEnumKind n.kind = false)
      (hn : Lookalike n n') (hitem : Exchanged n n' place item item') :
      Unwraps place (item :: rest) (item' :: rest)

/-- A tree without comments. -/
inductive CommentFree : Node → Prop
  | mk (n : Node) (hkind : n.kind ≠ "comment") (hchildren : ∀ child ∈ n.children, CommentFree child) :
      CommentFree n

variable {n : Node}

theorem CommentFree.kind_ne (h : CommentFree n) : n.kind ≠ "comment" := by
  cases h with
  | mk _ hkind _ => exact hkind

theorem CommentFree.of_mem (h : CommentFree n) {child : Node} (hchild : child ∈ n.children) :
    CommentFree child := by
  cases h with
  | mk _ _ hchildren => exact hchildren child hchild

theorem commentless_of_commentFree {nodes : List Node} (h : ∀ node ∈ nodes, CommentFree node) :
    Commentless nodes :=
  fun node hnode => (h node hnode).kind_ne

theorem CommentFree.commentless (h : CommentFree n) : Commentless n.children :=
  commentless_of_commentFree fun _ hchild => h.of_mem hchild

end Relation

section Steps

variable {code : List Char} {namespaces : List String} {before before' : List Node} {node : Node}

theorem visitScope_nil (s : Collector) :
    Collector.visitScope code namespaces before [] s = .ok s := by
  rw [Collector.visitScope]
  rfl

theorem visitMembers_nil (state : ClassRecord × Access) :
    visitMembers code before [] state = .ok state := by
  rw [visitMembers]
  rfl

theorem visitItem_of_block (hkind : ScopeItem.ofKind node.kind = .block) (s : Collector) :
    visitItem code namespaces before node s =
      Collector.visitScope code namespaces [] node.children s := by
  rw [visitItem, hkind]

theorem visitMember_of_block (hkind : MemberItem.ofKind node.kind = .block)
    (state : ClassRecord × Access) :
    visitMember code before node state = visitMembers code [] node.children state := by
  rw [visitMember, hkind]

/-- A child of a scope that opens no scope is filed. -/
theorem visitItem_of_item (hblock : ScopeItem.ofKind node.kind ≠ .block)
    (hnamespace : ScopeItem.ofKind node.kind ≠ .namespaceBlock) (s : Collector) :
    visitItem code namespaces before node s = fileItem code ⟨node, before⟩ namespaces s := by
  unfold visitItem
  cases hkind : ScopeItem.ofKind node.kind with
  | block => exact absurd hkind hblock
  | namespaceBlock => exact absurd hkind hnamespace
  | _ => rfl

/-- A child of a class body that is neither a specifier nor a block is filed. -/
theorem visitMember_of_member (haccess : MemberItem.ofKind node.kind ≠ .access)
    (hblock : MemberItem.ofKind node.kind ≠ .block) (state : ClassRecord × Access) :
    visitMember code before node state =
      (state.1.fileAll · , state.2) <$> memberFilings code ⟨node, before⟩ state.2 state.1.name := by
  unfold visitMember
  cases hkind : MemberItem.ofKind node.kind with
  | access => exact absurd hkind haccess
  | block => exact absurd hkind hblock
  -- Every other kind is filed: what it gives is read, then filed.
  | _ =>
      dsimp only
      rw [fileMember_eq, map_eq_pure_bind, map_eq_pure_bind, bind_assoc]
      rfl

variable (h : Commentless before) (h' : Commentless before')

include h h'

/-- Without comments a child of a scope is read alike behind any siblings. -/
theorem visitItem_of_commentless (s : Collector) :
    visitItem code namespaces before node s = visitItem code namespaces before' node s := by
  unfold visitItem
  rw [fileItem_of_commentless h h']

/-- Without comments a child of a class body is read alike behind any siblings. -/
theorem visitMember_of_commentless (state : ClassRecord × Access) :
    visitMember code before node state = visitMember code before' node state := by
  unfold visitMember
  rw [fileMember_eq, fileMember_eq, memberFilings_of_commentless h h']

end Steps

section Walks

/-- The walk through a scope in some namespaces, or the walk through a class body. -/
inductive Walker where
  | scope (namespaces : List String)
  | body

namespace Walker

/-- Where the nodes stand that a walk reads. -/
def place : Walker → Place
  | scope _ => .scope
  | body => .body

/-- What a walk hands on from node to node. -/
def State : Walker → Type
  | scope _ => Collector
  | body => ClassRecord × Access

variable (code : List Char)

/-- Read nodes in order. -/
def walk : (w : Walker) → List Node → List Node → w.State → Extract w.State
  | scope namespaces => Collector.visitScope code namespaces
  | body => visitMembers code

/-- Read one node. -/
def step : (w : Walker) → List Node → Node → w.State → Extract w.State
  | scope namespaces => visitItem code namespaces
  | body => visitMember code

variable {code} (w : Walker) {before before' nodes rest : List Node} {node : Node}

theorem walk_nil (s : w.State) : w.walk code before [] s = .ok s := by
  cases w with
  | scope namespaces => exact visitScope_nil s
  | body => exact visitMembers_nil s

theorem walk_cons (s : w.State) : w.walk code before (node :: nodes) s =
    w.step code before node s >>= w.walk code (node :: before) nodes := by
  cases w with
  | scope namespaces => exact visitScope_cons node
  | body => exact visitMembers_cons node s

/-- A walk through some nodes and others behind them hands on what it has read of the first. -/
theorem walk_append (s : w.State) : w.walk code before (nodes ++ rest) s =
    w.walk code before nodes s >>= w.walk code (nodes.reverse ++ before) rest := by
  induction nodes generalizing before s with
  | nil =>
      rw [walk_nil]
      rfl
  | cons node nodes ih =>
      rw [List.cons_append, walk_cons, walk_cons, bind_assoc, List.reverse_cons, List.append_assoc]
      exact bind_congr fun s => ih s

/-- Reading a block is reading its children. -/
theorem step_of_isBlock (hblock : w.place.isBlock node.kind = true) (s : w.State) :
    w.step code before node s = w.walk code [] node.children s := by
  cases w with
  | scope namespaces => exact visitItem_of_block (beq_iff_eq.mp hblock) s
  | body => exact visitMember_of_block (beq_iff_eq.mp hblock) s

/-- Without comments it does not matter what stands in front of a node. -/
theorem step_of_commentless (h : Commentless before) (h' : Commentless before') (s : w.State) :
    w.step code before node s = w.step code before' node s := by
  cases w with
  | scope namespaces => exact visitItem_of_commentless h h' s
  | body => exact visitMember_of_commentless h h' s

end Walker

variable (code : List Char)

/-- One node is read like another, whatever stands in front of them, if it is no comment. -/
def StepAlike (place : Place) (node node' : Node) : Prop :=
  ∀ w : Walker, w.place = place → ∀ before before', Commentless before → Commentless before' →
    ∀ s, w.step code before node s = w.step code before' node' s

/-- Some nodes are read like others, whatever stands in front of them, if it is no comment. -/
def ReadAlike (place : Place) (nodes nodes' : List Node) : Prop :=
  ∀ w : Walker, w.place = place → ∀ before before', Commentless before → Commentless before' →
    ∀ s, w.walk code before nodes s = w.walk code before' nodes' s

variable {code} {place : Place} {node node' : Node} {nodes nodes' rest rest' : List Node}

theorem StepAlike.refl (place : Place) (node : Node) : StepAlike code place node node :=
  fun w _ _ _ h h' s => w.step_of_commentless h h' s

theorem commentless_cons (hnode : node.kind ≠ "comment") (h : Commentless nodes) :
    Commentless (node :: nodes) :=
  List.forall_mem_cons.mpr ⟨hnode, h⟩

namespace ReadAlike

theorem cons (hnode : node.kind ≠ "comment") (hnode' : node'.kind ≠ "comment")
    (hstep : StepAlike code place node node') (hrest : ReadAlike code place rest rest') :
    ReadAlike code place (node :: rest) (node' :: rest') := by
  intro w hw before before' h h' s
  -- The same is handed on behind the first node, which has become one of the siblings in front.
  rw [Walker.walk_cons, Walker.walk_cons, hstep w hw before before' h h' s]
  exact bind_congr fun s =>
    hrest w hw _ _ (commentless_cons hnode h) (commentless_cons hnode' h') s

theorem refl (hnodes : Commentless nodes) : ReadAlike code place nodes nodes := by
  induction nodes with
  | nil =>
      intro w _ before before' _ _ s
      rw [Walker.walk_nil, Walker.walk_nil]
  | cons node nodes ih =>
      rcases List.forall_mem_cons.mp hnodes with ⟨hnode, hrest⟩
      exact cons hnode hnode (.refl place node) (ih hrest)

/-- A block is read like its children. -/
theorem of_block (hblock : place.isBlock node.kind = true) (hnode : node.kind ≠ "comment")
    (hchildren : Commentless node.children) (hrest : Commentless rest) :
    ReadAlike code place (node :: rest) (node.children ++ rest) := by
  intro w hw before before' h h' s
  have hfront : Commentless (node.children.reverse ++ before') :=
    List.forall_mem_append.mpr
      ⟨fun child hchild => hchildren child (List.mem_reverse.mp hchild), h'⟩
  subst hw
  rw [Walker.walk_cons, Walker.step_of_isBlock w hblock, Walker.walk_append,
    (refl hchildren) w rfl [] before' commentless_nil h' s]
  -- What the block hands on is what its children hand on, and the rest goes on from there.
  exact bind_congr fun s => (refl hrest) w rfl _ _ (commentless_cons hnode h) hfront s

end ReadAlike

end Walks

section Bodies

variable {code : List Char} {place : Place} {n n' : Node} {children children' : List Node}

/-- Exchanging an item that a filter drops for another that it drops changes nothing. -/
theorem filter_set_of_not {p : Node → Bool} {nodes : List Node} {i : Nat} {node node' : Node}
    (hnode : nodes[i]? = some node) (hp : p node = false) (hp' : p node' = false) :
    (nodes.set i node').filter p = nodes.filter p := by
  induction nodes generalizing i with
  | nil => rfl
  | cons first rest ih =>
      cases i with
      | zero =>
          obtain rfl := Option.some.inj hnode
          rw [List.set_cons_zero, List.filter_cons, List.filter_cons, hp, hp']
          rfl
      | succ i =>
          rw [List.set_cons_succ, List.filter_cons, List.filter_cons, ih hnode]

namespace Rebodied

theorem lookalike (h : Rebodied n children n' children') : Lookalike n n' := by
  cases h with
  | mk body i fields _ hfield hbody => exact lookalike_withChild hbody rfl

theorem child?_body (h : Rebodied n children n' children') :
    ∃ body body', n.child? "body" = some body ∧ n'.child? "body" = some body' ∧
      body.node.children = children ∧ body'.node.children = children' := by
  cases h with
  | mk body i fields _ hfield hbody =>
      exact ⟨_, _, Node.child?_of_getElem? hfield hbody,
        Node.child?_withChild_self hfield hbody, rfl, rfl⟩

theorem commentFree (h : Rebodied n children n' children') (hn : CommentFree n) :
    ∀ child ∈ children, CommentFree child := by
  rcases h.child?_body with ⟨body, _, hbody, _, rfl, _⟩
  have hfree := hn.of_mem (Node.mem_children_of_child? hbody)
  exact fun child hchild => hfree.of_mem hchild

/-- The bases of a class do not stand in its body. -/
theorem baseClasses (h : Rebodied n children n' children')
    (hclause : ∀ body, n.child? "body" = some body → body.node.kind ≠ "base_class_clause") :
    baseClasses code n = baseClasses code n' := by
  cases h with
  | mk body i fields _ hfield hbody =>
      have hkind := hclause _ (Node.child?_of_getElem? hfield hbody)
      have hnot : (body.kind == "base_class_clause") = false := beq_false_of_ne hkind
      unfold Extraction.baseClasses
      dsimp only [Node.withChild]
      rw [filter_set_of_not hbody hnot hnot]

/-- A namespace is read like one whose body is read alike. -/
theorem stepAlike (h : Rebodied n children n' children')
    (hkind : ScopeItem.ofKind n.kind = .namespaceBlock)
    (hchildren : ReadAlike code .scope children children') : StepAlike code .scope n n' := by
  intro w hw before before' _ _ s
  cases w with
  | body => exact Place.noConfusion hw
  | scope namespaces =>
      rcases h.child?_body with ⟨body, body', hbody, hbody', rfl, rfl⟩
      -- Only the name and the body of a namespace are read, and the body stands behind no siblings.
      change visitItem code namespaces before n s = visitItem code namespaces before' n' s
      unfold visitItem
      rw [← kind_congr h.lookalike.outline, hkind, hbody, hbody']
      rcases h.lookalike.child?_cases "name" with ⟨hn, hn'⟩ | ⟨name, name', hn, hn', hname, _⟩
      · rw [hn, hn']
      · simp only [hn, hn', textOf_congr hname]
        refine bind_congr fun text => ?_
        exact hchildren (.scope (namespaces ++ namespaceParts text)) rfl [] [] commentless_nil
          commentless_nil s

/-- A class is read like one whose body is read alike. -/
theorem sameType (h : Rebodied n children n' children') (hclass : isClassKind n.kind = true)
    (hclause : ∀ body, n.child? "body" = some body → body.node.kind ≠ "base_class_clause")
    (hchildren : ReadAlike code .body children children') {before before' : List Node}
    (hbefore : Commentless before) (hbefore' : Commentless before') :
    SameType code ⟨n, before⟩ ⟨n', before'⟩ where
  node := h.lookalike
  parse := by
    intro _ scope
    refine parseClass_congr h.lookalike (docComment_congr hbefore hbefore')
      (h.baseClasses hclause) fun body body' hbody hbody' state => ?_
    rcases h.child?_body with ⟨found, found', hfound, hfound', rfl, rfl⟩
    obtain rfl := Option.some.inj (hbody.symm.trans hfound)
    obtain rfl := Option.some.inj (hbody'.symm.trans hfound')
    exact hchildren .body rfl [] [] commentless_nil commentless_nil state
  -- A class is no enumeration, so nothing is asked of it as one.
  enumeration := by
    intro henum
    rcases isClassKind_cases hclass with hkind | hkind
    · rw [hkind] at henum
      exact absurd henum (by decide)
    · rw [hkind] at henum
      exact absurd henum (by decide)

end Rebodied

/-- A block is read like one whose children are read alike. -/
theorem StepAlike.of_block (hkind : n.kind = n'.kind) (hblock : place.isBlock n.kind = true)
    (hchildren : ReadAlike code place n.children n'.children) : StepAlike code place n n' := by
  intro w hw before before' _ _ s
  subst hw
  rw [w.step_of_isBlock hblock, w.step_of_isBlock (hkind ▸ hblock)]
  exact hchildren w rfl [] [] commentless_nil commentless_nil s

end Bodies

section Items

variable {code : List Char} {place : Place} {n n' : Node}

/-- An item is read alike if it is filed alike, at either place. -/
theorem StepAlike.of_filed (hkind : n.kind = n'.kind)
    (hscope : place = .scope → ScopeItem.ofKind n.kind ≠ .block ∧
      ScopeItem.ofKind n.kind ≠ .namespaceBlock ∧
      ∀ before before', Commentless before → Commentless before' → ∀ namespaces s,
        fileItem code ⟨n, before⟩ namespaces s = fileItem code ⟨n', before'⟩ namespaces s)
    (hbody : place = .body → MemberItem.ofKind n.kind ≠ .access ∧
      MemberItem.ofKind n.kind ≠ .block ∧
      ∀ before before', Commentless before → Commentless before' → ∀ access owner,
        memberFilings code ⟨n, before⟩ access owner =
          memberFilings code ⟨n', before'⟩ access owner) :
    StepAlike code place n n' := by
  intro w hw before before' h h' s
  cases w with
  | scope namespaces =>
      rcases hscope hw.symm with ⟨hblock, hnamespace, hfile⟩
      have hvisit : ∀ s : Collector, visitItem code namespaces before n s =
          visitItem code namespaces before' n' s := by
        intro s
        rw [visitItem_of_item hblock hnamespace, hfile before before' h h',
          visitItem_of_item (hkind ▸ hblock) (hkind ▸ hnamespace)]
      exact hvisit s
  | body =>
      rcases hbody hw.symm with ⟨haccess, hblock, hfile⟩
      have hvisit : ∀ state : ClassRecord × Access, visitMember code before n state =
          visitMember code before' n' state := by
        intro state
        rw [visitMember_of_member haccess hblock, hfile before before' h h',
          visitMember_of_member (hkind ▸ haccess) (hkind ▸ hblock)]
      exact hvisit s

/-- A class is read alike at either place if it is read as the same. -/
theorem StepAlike.of_sameType (hclass : isClassKind n.kind = true)
    (h : ∀ before before', Commentless before → Commentless before' →
      SameType code ⟨n, before⟩ ⟨n', before'⟩) : StepAlike code place n n' := by
  have hitem : ScopeItem.ofKind n.kind = .classType :=
    ScopeItem.ofKind_eq_classType_iff.mpr hclass
  have hmember : MemberItem.ofKind n.kind = .classType :=
    MemberItem.ofKind_eq_classType_iff.mpr hclass
  refine .of_filed (kind_congr (h [] [] commentless_nil commentless_nil).node.outline) ?_ ?_
  · rintro rfl
    refine ⟨hitem ▸ ScopeItem.noConfusion, hitem ▸ ScopeItem.noConfusion, ?_⟩
    intro before before' hbefore hbefore' namespaces s
    exact (h before before' hbefore hbefore').fileItem (Or.inl hitem) namespaces s
  · rintro rfl
    refine ⟨hmember ▸ MemberItem.noConfusion, hmember ▸ MemberItem.noConfusion, ?_⟩
    intro before before' hbefore hbefore' access owner
    exact (h before before' hbefore hbefore').memberFilings (Or.inl hmember) access owner

/-- A declaration is read alike at either place if it is declared alike. -/
theorem StepAlike.of_sameDeclaration (hkind : place.isSingle n.kind = true)
    (h : ∀ before before', Commentless before → Commentless before' →
      SameDeclaration code ⟨n, before⟩ ⟨n', before'⟩) : StepAlike code place n n' := by
  refine .of_filed (kind_congr (h [] [] commentless_nil commentless_nil).node.outline) ?_ ?_
  · rintro rfl
    have hnot : ∀ item : ScopeItem, item.isSingle = false → ScopeItem.ofKind n.kind ≠ item := by
      rintro item hother rfl
      exact Bool.false_ne_true (hother.symm.trans hkind)
    refine ⟨hnot _ rfl, hnot _ rfl, ?_⟩
    intro before before' hbefore hbefore' namespaces s
    exact (h before before' hbefore hbefore').fileItem hkind namespaces s
  · rintro rfl
    have hnot : ∀ item : MemberItem, item.isSingle = false → MemberItem.ofKind n.kind ≠ item := by
      rintro item hother rfl
      exact Bool.false_ne_true (hother.symm.trans hkind)
    refine ⟨hnot _ rfl, hnot _ rfl, ?_⟩
    intro before before' hbefore hbefore' access owner
    exact (h before before' hbefore hbefore').memberFilings hkind access owner

/-- Exchanging a child for one with the same outline brings in no comment. -/
theorem commentless_withChild {child child' : Node} {i : Nat} (h : Commentless n.children)
    (hchild : n.children[i]? = some child) (houtline : child'.outline = child.outline) :
    Commentless (n.withChild i child').children := by
  intro node hnode
  rcases List.mem_or_eq_of_mem_set hnode with hold | rfl
  · exact h node hold
  · rw [kind_congr houtline]
    exact h child (List.mem_of_getElem? hchild)

/-- The siblings in front of a child are among the children. -/
theorem commentless_of_child? {field : String} {l : Located} (h : Commentless n.children)
    (hl : n.child? field = some l) : Commentless l.before := by
  rw [Node.child?_eq] at hl
  rcases Option.bind_eq_some_iff.mp hl with ⟨i, _, hi⟩
  rcases Option.map_eq_some_iff.mp hi with ⟨node, _, rfl⟩
  intro sibling hsibling
  exact h sibling (List.mem_of_mem_take (List.mem_reverse.mp hsibling))

section Templates

variable {l l' : Located}

variable (code) in
/-- Two children of a template declaration of which the same class is made a template. -/
def SameTemplated (l l' : Located) : Prop :=
  Option.Rel (fun t t' => SameType code t t' ∧ isClassKind t.node.kind = true)
    (Collector.templatedClass? l) (Collector.templatedClass? l')

theorem SameType.sameTemplated (h : SameType code l l') (hclass : isClassKind l.node.kind = true) :
    SameTemplated code l l' := by
  unfold SameTemplated Collector.templatedClass?
  rw [← kind_congr h.node.outline, if_pos hclass, if_pos hclass]
  exact .some ⟨h, hclass⟩

theorem SameDeclaration.sameTemplated (h : SameDeclaration code l l')
    (hclass : isClassKind l.node.kind = false) : SameTemplated code l l' := by
  unfold SameTemplated Collector.templatedClass?
  rw [← kind_congr h.node.outline, hclass, if_neg Bool.false_ne_true, if_neg Bool.false_ne_true]
  split
  · rcases h.type_cases with ⟨ht, ht'⟩ | ⟨type, type', ht, ht', htype⟩
    · rw [ht, ht']
      exact .none
    · rw [ht, ht', Option.filter_some, Option.filter_some, ← kind_congr htype.node.outline]
      by_cases hkind : isClassKind type.node.kind = true
      · rw [if_pos hkind, if_pos hkind]
        exact .some ⟨htype, hkind⟩
      · rw [if_neg hkind, if_neg hkind]
        exact .none
  · exact .none

theorem sameTemplated_of_commentless {before before' : List Node} (h : Commentless before)
    (h' : Commentless before') : SameTemplated code ⟨n, before⟩ ⟨n, before'⟩ := by
  -- The node itself may be the class, or it declares one.
  by_cases hclass : isClassKind n.kind = true
  · exact (SameType.of_commentless h h').sameTemplated hclass
  · exact (SameDeclaration.of_commentless h h').sameTemplated (eq_false_of_ne_true hclass)

/-- A template declaration inside another is passed over. -/
theorem templatedClass?_of_template (hkind : ScopeItem.ofKind l.node.kind = .template) :
    Collector.templatedClass? l = none := by
  have hclass : ¬ isClassKind l.node.kind = true := by
    rw [← ScopeItem.ofKind_eq_classType_iff, hkind]
    exact ScopeItem.noConfusion
  have hdeclaration : ¬ (l.node.kind == "declaration") = true := by
    intro hbeq
    rw [beq_iff_eq.mp hbeq] at hkind
    exact absurd hkind (by decide)
  rw [Collector.templatedClass?, if_neg hclass, if_neg hdeclaration]

theorem forall₂_sameTemplated {nodes : List Node} (hnodes : Commentless nodes)
    {before before' : List Node} (h : Commentless before) (h' : Commentless before') :
    List.Forall₂ (SameTemplated code) (locateFrom before nodes) (locateFrom before' nodes) := by
  induction nodes generalizing before before' with
  | nil => exact .nil
  | cons node nodes ih =>
      rcases List.forall_mem_cons.mp hnodes with ⟨hnode, hrest⟩
      exact .cons (sameTemplated_of_commentless h h')
        (ih hrest (commentless_cons hnode h) (commentless_cons hnode h'))

/-- The children of a template declaration of which one is exchanged. -/
theorem forall₂_sameTemplated_set {nodes : List Node} {i : Nat} {child child' : Node}
    (hnodes : Commentless nodes) (hchild : nodes[i]? = some child)
    (houtline : child'.outline = child.outline)
    (hsame : ∀ before before', Commentless before → Commentless before' →
      SameTemplated code ⟨child, before⟩ ⟨child', before'⟩)
    {before before' : List Node} (h : Commentless before) (h' : Commentless before') :
    List.Forall₂ (SameTemplated code) (locateFrom before nodes)
      (locateFrom before' (nodes.set i child')) := by
  -- Nodes in front of the exchanged one are the same on both sides; those behind it differ in what
  -- stands in front of them.
  induction nodes generalizing i before before' with
  | nil => exact .nil
  | cons node nodes ih =>
      rcases List.forall_mem_cons.mp hnodes with ⟨hnode, hrest⟩
      cases i with
      | zero =>
          obtain rfl := Option.some.inj hchild
          have hnode' : child'.kind ≠ "comment" := kind_congr houtline ▸ hnode
          exact .cons (hsame _ _ h h')
            (forall₂_sameTemplated hrest (commentless_cons hnode h) (commentless_cons hnode' h'))
      | succ i =>
          exact .cons (sameTemplated_of_commentless h h')
            (ih hrest hchild (commentless_cons hnode h) (commentless_cons hnode h'))

theorem fileItem_of_template (hkind : ScopeItem.ofKind l.node.kind = .template)
    (namespaces : List String) (s : Collector) :
    fileItem code l namespaces s = s.addTemplate code l.node namespaces := by
  rw [fileItem, hkind]

/-- Two template declarations with the same parameters and the same classes are filed alike. -/
theorem addTemplate_congr
    (hparameters : (n.child? "parameters").map (·.node) = (n'.child? "parameters").map (·.node))
    (hclasses : List.Forall₂ (SameTemplated code) n.located n'.located)
    (namespaces : List String) (s : Collector) :
    s.addTemplate code n namespaces = s.addTemplate code n' namespaces := by
  have htemplated := List.rel_filterMap (fun _ _ hsame => hsame) hclasses
  unfold Collector.addTemplate
  rcases Node.child?_cases_of_map_node hparameters with
    ⟨hlist, hlist'⟩ | ⟨list, front, front', hlist, hlist'⟩
  · rw [hlist, hlist']
    refine bind_congr fun params => foldlM_eq_of_forall₂ (fun s t t' hsame => ?_) htemplated s
    rw [hsame.1.parse hsame.2]
  · rw [hlist, hlist']
    refine bind_congr fun params => foldlM_eq_of_forall₂ (fun s t t' hsame => ?_) htemplated s
    rw [hsame.1.parse hsame.2]

end Templates

section Exchange

variable {x x' : Node} (hx : ∀ before before', Commentless before → Commentless before' →
  SameType code ⟨x, before⟩ ⟨x', before'⟩)

include hx

/-- A declaration in which a child is exchanged for one that is read as the same type. -/
theorem sameDeclaration_withChild {i : Nat} (hfree : CommentFree n)
    (hchild : n.children[i]? = some x) (hdeclarator : n.fields.lookup "declarator" ≠ some i)
    {before before' : List Node} (h : Commentless before) (h' : Commentless before') :
    SameDeclaration code ⟨n, before⟩ ⟨n.withChild i x', before'⟩ where
  node := lookalike_withChild hchild (hx [] [] commentless_nil commentless_nil).node.outline.symm
  comment := docComment_congr h h'
  declarator := (Node.child?_withChild_of_ne hdeclarator).symm
  type := by
    have houtline := (hx [] [] commentless_nil commentless_nil).node.outline.symm
    have hsiblings := commentless_withChild hfree.commentless hchild houtline
    -- The exchanged child may be the type of the declaration.
    by_cases hfield : n.fields.lookup "type" = some i
    · have hfront : Commentless (n.children.take i).reverse := fun node hnode =>
        hfree.commentless node (List.mem_of_mem_take (List.mem_reverse.mp hnode))
      dsimp only
      rw [Node.child?_of_getElem? hfield hchild, Node.child?_withChild_self hfield hchild]
      exact .some (hx _ _ hfront hfront)
    · -- The type is another child, and only stands behind other siblings than before.
      dsimp only
      rcases Node.child?_cases_of_map_node (Node.child?_withChild_of_ne hfield) with
        ⟨htype', htype⟩ | ⟨type, front', front, htype', htype⟩
      · rw [htype, htype']
        exact .none
      · rw [htype, htype']
        exact .some (.of_commentless (commentless_of_child? hfree.commentless htype)
          (commentless_of_child? hsiblings htype'))

namespace Exchanged

variable {item item' : Node}

theorem outline_eq (h : Exchanged x x' place item item') : item'.outline = item.outline := by
  cases h with
  | itself _ hclass => exact (hx [] [] commentless_nil commentless_nil).node.outline.symm
  | child _ _ i hkind hchild hdeclarator => rfl
  | template _ inner inner' i hkind hchild hparameters h => rfl

omit hx in
theorem commentFree (h : Exchanged x x' place item item') (hfree : CommentFree item) :
    CommentFree x := by
  induction h with
  | itself _ hclass => exact hfree
  | child _ item i hkind hchild hdeclarator => exact hfree.of_mem (List.mem_of_getElem? hchild)
  | template _ inner inner' i hkind hchild hparameters _ ih =>
      exact ih (hfree.of_mem (List.mem_of_getElem? hchild))

theorem sameTemplated (h : Exchanged x x' .scope item item') (hfree : CommentFree item)
    {before before' : List Node} (hbefore : Commentless before) (hbefore' : Commentless before') :
    SameTemplated code ⟨item, before⟩ ⟨item', before'⟩ := by
  cases h with
  | itself _ hclass => exact (hx _ _ hbefore hbefore').sameTemplated hclass
  | child _ _ i hkind hchild hdeclarator =>
      have hclass : ¬ isClassKind item.kind = true := by
        intro hclass
        rw [Place.isSingle, ScopeItem.ofKind_eq_classType_iff.mpr hclass] at hkind
        exact Bool.false_ne_true hkind
      exact (sameDeclaration_withChild hx hfree hchild hdeclarator hbefore hbefore').sameTemplated
        (eq_false_of_ne_true hclass)
  | template _ inner inner' i hkind hchild hparameters h =>
      rw [SameTemplated, templatedClass?_of_template hkind, templatedClass?_of_template hkind]
      exact .none

/-- An item is read alike if the node that is exchanged is read as the same type. -/
theorem stepAlike (h : Exchanged x x' place item item') (hfree : CommentFree item) :
    StepAlike code place item item' := by
  cases h with
  | itself _ hclass => exact .of_sameType hclass hx
  | child _ _ i hkind hchild hdeclarator =>
      exact .of_sameDeclaration hkind fun _ _ hbefore hbefore' =>
        sameDeclaration_withChild hx hfree hchild hdeclarator hbefore hbefore'
  | template _ inner inner' i hkind hchild hparameters h =>
      -- A template stands in scopes only, and its children are looked through for classes.
      refine .of_filed rfl (fun _ => ?_) Place.noConfusion
      refine ⟨hkind ▸ ScopeItem.noConfusion, hkind ▸ ScopeItem.noConfusion, ?_⟩
      intro before before' _ _ namespaces s
      have hinner := hfree.of_mem (List.mem_of_getElem? hchild)
      have hlocated := forall₂_sameTemplated_set hfree.commentless hchild (h.outline_eq hx)
        (fun _ _ => h.sameTemplated hx hinner) commentless_nil commentless_nil
      rw [fileItem_of_template hkind, fileItem_of_template hkind]
      exact addTemplate_congr (Node.child?_withChild_of_ne hparameters).symm hlocated namespaces s

end Exchanged

end Exchange

end Items

/-- Where there are no comments, nodes are read alike without a block. -/
theorem readAlike_of_unwraps {code : List Char} {place : Place} {nodes nodes' : List Node}
    (h : Unwraps place nodes nodes') (hfree : ∀ node ∈ nodes, CommentFree node) :
    ReadAlike code place nodes nodes' := by
  -- Induction on where the block stands; what is around it is read alike by the lemmas above.
  induction h with
  | here place block rest hblock =>
      rcases List.forall_mem_cons.mp hfree with ⟨hfirst, hrest⟩
      exact .of_block hblock hfirst.kind_ne hfirst.commentless (commentless_of_commentFree hrest)
  | behind place node rest rest' _ ih =>
      rcases List.forall_mem_cons.mp hfree with ⟨hfirst, hrest⟩
      exact .cons hfirst.kind_ne hfirst.kind_ne (.refl place node) (ih hrest)
  | inBlock place block fields children rest hblock _ ih =>
      rcases List.forall_mem_cons.mp hfree with ⟨hfirst, hrest⟩
      have hchildren := ih fun child hchild => hfirst.of_mem hchild
      exact .cons hfirst.kind_ne hfirst.kind_ne (.of_block rfl hblock hchildren)
        (.refl (commentless_of_commentFree hrest))
  | inNamespace n n' children children' rest hkind hn _ ih =>
      rcases List.forall_mem_cons.mp hfree with ⟨hfirst, hrest⟩
      have hkind' : n'.kind ≠ "comment" := kind_congr hn.lookalike.outline ▸ hfirst.kind_ne
      exact .cons hfirst.kind_ne hkind' (hn.stepAlike hkind (ih (hn.commentFree hfirst)))
        (.refl (commentless_of_commentFree hrest))
  | inClass place n n' item item' children children' rest hclass hn hclause hitem _ ih =>
      rcases List.forall_mem_cons.mp hfree with ⟨hfirst, hrest⟩
      have hchildren := ih (hn.commentFree (hitem.commentFree hfirst))
      have hx : ∀ before before', Commentless before → Commentless before' →
          SameType code ⟨n, before⟩ ⟨n', before'⟩ := fun _ _ h h' =>
        hn.sameType hclass hclause hchildren h h'
      have hkind' : item'.kind ≠ "comment" := kind_congr (hitem.outline_eq hx) ▸ hfirst.kind_ne
      exact .cons hfirst.kind_ne hkind' (hitem.stepAlike hx hfirst)
        (.refl (commentless_of_commentFree hrest))
  | unread place n n' item item' rest hclass henum hn hitem =>
      rcases List.forall_mem_cons.mp hfree with ⟨hfirst, hrest⟩
      have hx : ∀ before before', Commentless before → Commentless before' →
          SameType code ⟨n, before⟩ ⟨n', before'⟩ := fun _ _ _ _ =>
        ⟨hn, fun h => absurd (h.symm.trans hclass) Bool.true_eq_false.mp,
          fun h => absurd (h.symm.trans henum) Bool.true_eq_false.mp⟩
      have hkind' : item'.kind ≠ "comment" := kind_congr (hitem.outline_eq hx) ▸ hfirst.kind_ne
      exact .cons hfirst.kind_ne hkind' (hitem.stepAlike hx hfirst)
        (.refl (commentless_of_commentFree hrest))

/-- Where there are no comments, a header has the same record without a block of conditional
    compilation or linkage, in whatever scope or class body the block stands. -/
theorem extractHeader_unwraps (code : List Char) (path : Path) (tree tree' : Node)
    (hfree : CommentFree tree) (h : Unwraps .scope tree.children tree'.children) :
    extractHeader code path tree = extractHeader code path tree' := by
  have hchildren : ReadAlike code .scope tree.children tree'.children :=
    readAlike_of_unwraps h fun child hchild => hfree.of_mem hchild
  have hwalk : Collector.visitScope code [] [] tree.children =
      Collector.visitScope code [] [] tree'.children :=
    funext (hchildren (.scope []) rfl [] [] commentless_nil commentless_nil)
  unfold extractHeader
  rw [hwalk]

section Conditional

/-- A class with a specifier in a block of conditional compilation. -/
def conditionalSource : List Char :=
  "class A \x7b\n#ifdef X\npublic:\n#endif\nint x; \x7d;".toList

/-- The block, which holds the specifier `public:`. -/
def conditionalMark : Node :=
  { kind := "preproc_ifdef", named := true, start := 10, stop := 33, fields := [("name", 1)]
    children := [leaf "#ifdef" false 10 16, leaf "identifier" true 17 18,
      leaf "access_specifier" true 19 25, leaf ":" false 25 26, leaf "#endif" false 27 33] }

/-- The member `int x;` behind the block. -/
def markedMember : Node :=
  { kind := "field_declaration", named := true, start := 34, stop := 40
    fields := [("declarator", 1), ("type", 0)]
    children := [leaf "primitive_type" true 34 37, leaf "field_identifier" true 38 39,
      leaf ";" false 39 40] }

/-- The body of the class, with the nodes between its braces. -/
def markedBody (members : List Node) : Node :=
  { kind := "field_declaration_list", named := true, start := 8, stop := 42, fields := []
    children := leaf "\x7b" false 8 9 :: members ++ [leaf "\x7d" false 41 42] }

/-- The class `class A`. -/
def markedClass (members : List Node) : Node :=
  { kind := "class_specifier", named := true, start := 0, stop := 42
    fields := [("body", 2), ("name", 1)]
    children := [leaf "class" false 0 5, leaf "type_identifier" true 6 7, markedBody members] }

/-- The tree of the header. -/
def markedTree (members : List Node) : Node :=
  { kind := "translation_unit", named := true, start := 0, stop := 43, fields := []
    children := [markedClass members, leaf ";" false 42 43] }

theorem commentFree_leaf {kind : String} {named : Bool} {start stop : Nat}
    (hkind : kind ≠ "comment") : CommentFree (leaf kind named start stop) :=
  .mk _ hkind fun _ hchild => absurd hchild List.not_mem_nil

theorem commentFree_of_forall {n : Node} (hkind : n.kind ≠ "comment")
    (h : n.children.Forall CommentFree) : CommentFree n :=
  .mk _ hkind (List.forall_iff_forall_mem.mp h)

theorem commentFree_markedTree : CommentFree (markedTree [conditionalMark, markedMember]) := by
  have hmark : CommentFree conditionalMark :=
    commentFree_of_forall (by decide) ⟨commentFree_leaf (by decide), commentFree_leaf (by decide),
      commentFree_leaf (by decide), commentFree_leaf (by decide), commentFree_leaf (by decide)⟩
  have hmember : CommentFree markedMember :=
    commentFree_of_forall (by decide) ⟨commentFree_leaf (by decide), commentFree_leaf (by decide),
      commentFree_leaf (by decide)⟩
  refine commentFree_of_forall (by decide) ⟨commentFree_of_forall (by decide) ?_,
    commentFree_leaf (by decide)⟩
  refine ⟨commentFree_leaf (by decide), commentFree_leaf (by decide), ?_⟩
  exact commentFree_of_forall (by decide) ⟨commentFree_leaf (by decide), hmark, hmember,
    commentFree_leaf (by decide)⟩

/-- The block stands in the body of the class. -/
theorem unwraps_markedTree :
    Unwraps .scope (markedTree [conditionalMark, markedMember]).children
      (markedTree (conditionalMark.children ++ [markedMember])).children := by
  have hbody : Rebodied (markedClass [conditionalMark, markedMember])
      (markedBody [conditionalMark, markedMember]).children
      (markedClass (conditionalMark.children ++ [markedMember]))
      (markedBody (conditionalMark.children ++ [markedMember])).children :=
    .mk _ (markedBody [conditionalMark, markedMember]) 2 [] _ rfl rfl
  have hblock : Unwraps .body (markedBody [conditionalMark, markedMember]).children
      (markedBody (conditionalMark.children ++ [markedMember])).children :=
    .behind _ _ _ _ (.here _ conditionalMark [markedMember, leaf "\x7d" false 41 42] rfl)
  refine .inClass .scope _ _ _ _ _ _ _ rfl hbody ?_ (.itself _ rfl) hblock
  intro body hfound
  obtain rfl := Option.some.inj hfound
  decide

/-- The specifier in the block stays in force behind it. -/
theorem extractHeader_unwraps_conditional :
    CommentFree (markedTree [conditionalMark, markedMember]) ∧
    Unwraps .scope (markedTree [conditionalMark, markedMember]).children
      (markedTree (conditionalMark.children ++ [markedMember])).children ∧
    extractHeader conditionalSource "gp_Test.hxx" (markedTree [conditionalMark, markedMember]) =
      extractHeader conditionalSource "gp_Test.hxx"
        (markedTree (conditionalMark.children ++ [markedMember])) :=
  ⟨commentFree_markedTree, unwraps_markedTree,
    extractHeader_unwraps _ _ _ _ commentFree_markedTree unwraps_markedTree⟩

end Conditional

end Extraction

end HeaderBinding
