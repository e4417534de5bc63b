import CodeAtlas.Table

/-!
# Components

A tour goes from node to node along their children and finds the groups of nodes that reach each
other. It numbers the nodes as it meets them and keeps them on a stack until their group is known.
The mark of a node is the least number on the stack that the tour has seen it reach. If the tour
leaves a node whose mark is still its own number then the node reaches nothing further down the
stack, and with what lies above it, it forms a group. So a group comes after all those it leads to.
-/

namespace CodeAtlas

/-- A node that a tour is inside of. -/
structure Frame where
  /-- The node. -/
  node : Nat
  /-- The children that have not been looked at. -/
  ahead : List Nat

/-- How far a tour has come. -/
structure Tour where
  /-- The nodes that the tour is inside of, last first. -/
  frames : List Frame
  /-- The numbers of the nodes that have been met. -/
  numbers : Table Nat Nat
  /-- The marks of the nodes that have been met. -/
  marks : Table Nat Nat
  /-- The nodes that have been met and are in no group, last first. -/
  stack : List Nat
  /-- The groups that are known. -/
  groups : List (List Nat)

namespace Tour

/-- The tour that has met nothing. -/
def start : Tour := ⟨[], .empty, .empty, [], []⟩

/-- Whether a node has been met. -/
def hasMet (tour : Tour) (node : Nat) : Bool := tour.numbers.has node

/-- The number of a node. -/
def number (tour : Tour) (node : Nat) : Nat := (tour.numbers.get? node).getD 0

/-- The mark of a node. -/
def mark (tour : Tour) (node : Nat) : Nat := (tour.marks.get? node).getD 0

/-- Meets a node and goes inside it. -/
def enter (next : Nat → List Nat) (node : Nat) (tour : Tour) : Tour :=
  { tour with
    frames := ⟨node, next node⟩ :: tour.frames
    numbers := tour.numbers.put node tour.numbers.size
    marks := tour.marks.put node tour.numbers.size
    stack := node :: tour.stack }

/-- Marks a node with a number if that is less than its mark. -/
def lower (node number : Nat) (tour : Tour) : Tour :=
  { tour with marks := tour.marks.put node (min (tour.mark node) number) }

/-- Makes a group of a node and all that lies above it on the stack. -/
def close (node : Nat) (tour : Tour) : Tour :=
  { tour with
    stack := (tour.stack.dropWhile (· != node)).drop 1
    groups := tour.groups ++ [tour.stack.takeWhile (· != node) ++ [node]] }

/-- Looks at a child of a node: goes inside it if it is new. -/
def look (next : Nat → List Nat) (node child : Nat) (tour : Tour) : Tour :=
  if !tour.hasMet child then
    tour.enter next child
  else if tour.stack.contains child then
    tour.lower node (tour.number child)
  else
    tour

/-- Goes on after a node has been left: the node that the tour is inside of now takes over its mark,
and its group is closed if its mark is its own number. -/
def leave (node : Nat) (tour : Tour) : Tour :=
  let passed :=
    match tour.frames with
    | [] => tour
    | parent :: _ => tour.lower parent.node (tour.mark node)
  if passed.mark node = passed.number node then passed.close node else passed

/-- One step of a tour that is inside some node. -/
def step (next : Nat → List Nat) (tour : Tour) : Tour :=
  match tour.frames with
  | [] => tour
  | ⟨node, child :: ahead⟩ :: frames =>
    look next node child { tour with frames := ⟨node, ahead⟩ :: frames }
  | ⟨node, []⟩ :: frames => leave node { tour with frames := frames }

/-- Takes steps until the tour has left all nodes, at most a number of them. -/
def run (next : Nat → List Nat) : Nat → Tour → Tour
  | 0, tour => tour
  | steps + 1, tour => if tour.frames.isEmpty then tour else run next steps (tour.step next)

/-- How many steps a tour takes at most: it enters and leaves each node once and looks at each child
of each node once. -/
def allSteps (next : Nat → List Nat) (size : Nat) : Nat :=
  2 * size + ((List.range size).flatMap next).length

/-- Tours all that a node leads to, unless the node has been met. -/
def explore (next : Nat → List Nat) (size : Nat) (tour : Tour) (root : Nat) : Tour :=
  if tour.hasMet root then tour else run next (allSteps next size) (tour.enter next root)

/-- The tour of all nodes. -/
def all (next : Nat → List Nat) (size : Nat) : Tour :=
  (List.range size).foldl (explore next size) start

/-- The groups of nodes that reach each other, each in ascending order and after those it leads
to. -/
def components (next : Nat → List Nat) (size : Nat) : List (List Nat) :=
  (all next size).groups.map fun group => (List.range size).filter group.contains

end Tour
end CodeAtlas
