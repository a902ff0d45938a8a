/-!
# Syntax Trees

The tree a C++ grammar gives for a header. A node has a kind, says whether the grammar names it, and
covers a range of bytes of the source. Some children can be reached by a field name; which child a
name means is recorded as its index.

Looking at a node often takes its neighbours into account: a documentation comment stands in front
of what it documents. `Located` is a node together with the siblings in front of it.

## Main definitions

* `Node`: A node and everything below it.
* `Located`: A node with the siblings in front of it, nearest first.
* `Node.located`: The children, each with the siblings in front.
* `Node.child?`: The child of a field name.
* `Node.rightmostNamed?`: The last child that the grammar names.
-/

namespace HeaderBinding

namespace Syntax

/-- A node of a syntax tree. -/
structure Node where
  kind : String
  /-- The grammar has a name for the node; marks and keywords have none. -/
  named : Bool
  /-- The offset of the first byte. -/
  start : Nat
  /-- The offset behind the last byte. -/
  stop : Nat
  /-- The index of the child that each field name means. -/
  fields : List (String × Nat)
  children : List Node
deriving Inhabited

/-- A node with the siblings in front of it, nearest first. -/
structure Located where
  node : Node
  before : List Node
deriving Inhabited

/-- Locate the nodes of a list that continues a list of siblings. -/
def locateFrom (before : List Node) : List Node → List Located
  | [] => []
  | node :: rest => ⟨node, before⟩ :: locateFrom (node :: before) rest

namespace Node

/-- The children, each with the siblings in front of it. -/
def located (n : Node) : List Located :=
  locateFrom [] n.children

/-- The child of a field name. -/
def child? (n : Node) (field : String) : Option Located :=
  (n.fields.lookup field).bind fun index => n.located[index]?

/-- The last child that the grammar names. -/
def rightmostNamed? (n : Node) : Option Node :=
  n.children.reverse.find? (·.named)

end Node

/-- A located node of a list is one of the list. -/
theorem node_mem_of_mem_locateFrom {before nodes : List Node} {l : Located}
    (h : l ∈ locateFrom before nodes) : l.node ∈ nodes := by
  induction nodes generalizing before with
  | nil => simp only [locateFrom, List.not_mem_nil] at h
  | cons node rest ih =>
    simp only [locateFrom, List.mem_cons] at h
    rcases h with rfl | h
    · exact List.mem_cons_self
    · exact List.mem_cons_of_mem _ (ih h)

namespace Node

/-- The children of a node are smaller than the node. -/
theorem sizeOf_children_lt (n : Node) : sizeOf n.children < sizeOf n := by
  cases n
  simp only [mk.sizeOf_spec]
  omega

/-- A child of a node is smaller than the node. -/
theorem sizeOf_lt_of_mem_children {n child : Node} (h : child ∈ n.children) :
    sizeOf child < sizeOf n :=
  Nat.lt_trans (List.sizeOf_lt_of_mem h) n.sizeOf_children_lt

/-- The child of a field name is one of the children. -/
theorem mem_children_of_child? {n : Node} {field : String} {l : Located}
    (h : n.child? field = some l) : l.node ∈ n.children := by
  obtain ⟨index, _, hindex⟩ := Option.bind_eq_some_iff.mp h
  exact node_mem_of_mem_locateFrom (List.mem_of_getElem? hindex)

/-- The child of a field name is smaller than the node. -/
theorem sizeOf_lt_of_child? {n : Node} {field : String} {l : Located}
    (h : n.child? field = some l) : sizeOf l.node < sizeOf n :=
  sizeOf_lt_of_mem_children (mem_children_of_child? h)

/-- The last named child is one of the children. -/
theorem mem_children_of_rightmostNamed? {n child : Node} (h : n.rightmostNamed? = some child) :
    child ∈ n.children :=
  List.mem_reverse.mp (List.mem_of_find?_eq_some h)

/-- The last named child is smaller than the node. -/
theorem sizeOf_lt_of_rightmostNamed? {n child : Node} (h : n.rightmostNamed? = some child) :
    sizeOf child < sizeOf n :=
  sizeOf_lt_of_mem_children (mem_children_of_rightmostNamed? h)

end Node

end Syntax

end HeaderBinding
