import CodeAtlas.SyntaxTree.Basic
import CodeAtlas.Text.Units

/-!
# Flat form of syntax trees

A tree may be written as the list of its nodes in source order, parents first, each with its depth.
The source is kept once; nodes give the offsets of their text.
-/

namespace CodeAtlas
namespace SyntaxTree

/-- One node of the flat form. -/
structure FlatNode where
  /-- The number of nodes above. -/
  depth : Nat
  /-- Whether the grammar names the node. -/
  isNamed : Bool
  /-- Whether the parser supplied the node. -/
  isMissing : Bool
  /-- The grammar's word for the node. -/
  kind : String
  /-- The offset of the start in text units. -/
  start : Nat
  /-- The offset of the end in text units. -/
  stop : Nat
  /-- The name under which the parent holds the node. -/
  role : Option String

/-- A source with the place of each of its text units. -/
structure Source where
  /-- The text units. -/
  units : Array Nat
  /-- The place of each unit, and of the end. -/
  positions : Array Position

namespace Source

/-- The places of units from a given place on. -/
def placeUnits (seen : Array Position) (place : Position) : List Nat → Array Position
  | [] => seen.push place
  | unit :: rest =>
    placeUnits (seen.push place)
      (if unit = 10 then ⟨place.row + 1, 0⟩ else ⟨place.row, place.column + 1⟩) rest

/-- Prepares a source. -/
def ofText (text : String) : Source :=
  let units := Text.units text
  { units := units.toArray, positions := placeUnits #[] ⟨0, 0⟩ units }

/-- The place of an offset; past the end it is that of the end. -/
def position (source : Source) (offset : Nat) : Position :=
  source.positions.getD offset (source.positions.back?.getD ⟨0, 0⟩)

/-- The text between two offsets. -/
def slice (source : Source) (start stop : Nat) : String :=
  String.ofList (Text.ofUnits (source.units.extract start stop).toList)

end Source

/-- The label of a node of the flat form. -/
def FlatNode.label (source : Source) (flat : FlatNode) : Label :=
  { kind := flat.kind
    isNamed := flat.isNamed
    isMissing := flat.isMissing
    role := flat.role
    text := source.slice flat.start flat.stop
    start := source.position flat.start
    stop := source.position flat.stop
    offset := flat.start }

/-- Adds the node before what has been built from the nodes after it: the finished trees at greater
depth at the front become its children. -/
def pushFlat (source : Source) (flat : FlatNode) (built : List (Nat × Node)) : List (Nat × Node) :=
  let below := built.takeWhile fun entry => flat.depth < entry.1
  (flat.depth, Node.mk (flat.label source) (below.map (·.2))) :: built.drop below.length

/-- Reads a tree from its flat form. -/
def Node.ofFlat? (text : String) (nodes : List FlatNode) : Option Node :=
  let source := Source.ofText text
  ((nodes.foldr (pushFlat source) []).head?).map (·.2)

end SyntaxTree
end CodeAtlas
