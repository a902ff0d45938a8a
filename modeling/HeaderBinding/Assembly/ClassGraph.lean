import HeaderBinding.Record.Basic
import Std.Data.HashMap

/-!
# The Order of the Classes

A class can be bound only after its bases. `ClassGraph` holds, for each class of a module, the bases
it has among the classes of that module; bases from elsewhere are taken as given and are no part of
it.

The order is found level by level. The first level holds the classes without bases, each next one
the classes whose last open base stood in the level before, in the order of the input. What is left
over when a level comes out empty cannot be ordered.

If a name is given to several classes, it stands for the last of them.

## Main definitions

* `ClassGraph`: The classes of a module and the bases of each.
* `ClassGraph.ofClasses`: Reading the graph off the class records.
* `ClassGraph.Progress`: The state between two levels.
* `ClassGraph.topologicalOrder`: All classes, bases first, or the names that cannot be placed.
* `sortClasses`: The class records in that order.
-/

namespace HeaderBinding

/-- The classes of a module and their bases among them. -/
structure ClassGraph where
  /-- The names in the order of the input. -/
  names : Array String := #[]
  /-- The position of each name, the last one if there are several. -/
  positions : Std.HashMap String Nat := ∅
  /-- The positions of the bases of each class, each once. -/
  bases : Array (List Nat) := #[]

namespace ClassGraph

/-- The position of each name in a list, the last one if there are several. -/
def lastPositions (names : List String) : Std.HashMap String Nat :=
  (names.zipIdx).foldl (fun positions entry => positions.insert entry.1 entry.2) ∅

/-- The positions that a list of names stands for, each once, in order of first mention. Names
    without a position are passed over. -/
def resolve (positions : Std.HashMap String Nat) (names : List String) : List Nat :=
  names.foldl (fun edges name =>
    match positions[name]? with
    | some target => if edges.contains target then edges else edges ++ [target]
    | none => edges) []

/-- The graph of a list of classes. -/
def ofClasses (classes : List ClassRecord) : ClassGraph :=
  let names := classes.map (·.name)
  let positions := lastPositions names
  { names := names.toArray
    positions
    bases := (classes.map fun c => resolve positions c.superclasses).toArray }

/-- The number of classes. -/
def size (g : ClassGraph) : Nat :=
  g.names.size

/-- The name at a position. -/
def nameAt (g : ClassGraph) (position : Nat) : String :=
  g.names.getD position ""

/-- The bases of a class among the classes of the module, in the order of their declaration. -/
def basesOf (g : ClassGraph) (name : String) : List String :=
  match g.positions[name]? with
  | some position => (g.bases.getD position []).map g.nameAt
  | none => []

/-- The classes that have the class at a position as a base, in ascending order. -/
def dependents (g : ClassGraph) : Array (List Nat) :=
  (g.bases.toList.zipIdx).foldl (fun dependents (bases, derived) =>
    bases.foldl (fun dependents base => dependents.modify base (· ++ [derived])) dependents)
    (Array.replicate g.size [])

/-- The state between two levels. -/
structure Progress where
  /-- For each class, how many of its bases have not been placed. -/
  remaining : Array Nat
  /-- The classes to be placed next. -/
  level : List Nat
  /-- The classes placed so far. -/
  order : List Nat

namespace Progress

/-- Note that one base of a class has been placed. A class without further bases is released. -/
def settle (state : Array Nat × List Nat) (derived : Nat) : Array Nat × List Nat :=
  let remaining := state.1.modify derived (· - 1)
  if remaining[derived]? = some 0 then (remaining, state.2 ++ [derived])
  else (remaining, state.2)

/-- Place a level, and find the classes it releases. -/
def step (dependents : Array (List Nat)) (p : Progress) : Progress :=
  let (remaining, released) := p.level.foldl (fun state node =>
    (dependents.getD node []).foldl settle state) (p.remaining, [])
  { remaining, level := released.mergeSort, order := p.order ++ p.level }

/-- Place levels until one is empty, at most `rounds` of them. -/
def run (dependents : Array (List Nat)) : Nat → Progress → Progress
  | 0, p => p
  | rounds + 1, p => if p.level.isEmpty then p else run dependents rounds (p.step dependents)

end Progress

/-- Nothing is placed, and the classes without bases come first. -/
def start (g : ClassGraph) : Progress :=
  let remaining := g.bases.map (·.length)
  { remaining
    level := (List.range g.size).filter fun i => remaining[i]? = some 0
    order := [] }

/-- The state when no further class can be placed. Each level holds a class at least, so there are
    no more levels than classes. -/
def finish (g : ClassGraph) : Progress :=
  Progress.run g.dependents (g.size + 1) g.start

/-- The positions of all classes, bases first, or else the names of the classes that cannot be
    placed, in the order of the input. -/
def topologicalOrder (g : ClassGraph) : Except (List String) (List Nat) :=
  let last := g.finish
  if last.order.length = g.size then .ok last.order
  else
    .error (((List.range g.size).filter fun i => 0 < last.remaining.getD i 0).map g.nameAt)

end ClassGraph

/-- The classes in an order in which bases come first, or else the names of those that cannot be
    placed. -/
def sortClasses (classes : List ClassRecord) : Except (List String) (List ClassRecord) := do
  let order ← (ClassGraph.ofClasses classes).topologicalOrder
  let slots := classes.toArray
  return order.filterMap fun i => slots[i]?

end HeaderBinding
