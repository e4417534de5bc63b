/-!
# Syntax trees

A node carries its kind, the name under which its parent holds it, its text and its place in the
source, and has its children in source order. A node found below another one is smaller, which is
what recursion over syntax trees rests on.
-/

namespace CodeAtlas
namespace SyntaxTree

/-- A place in the source, both numbers from zero. -/
structure Position where
  /-- The line. -/
  row : Nat
  /-- The text unit within the line. -/
  column : Nat
  deriving DecidableEq, Repr

/-- What is known of a node itself. -/
structure Label where
  /-- The grammar's word for the node. -/
  kind : String
  /-- Whether the grammar names the node, as opposed to a bare token. -/
  isNamed : Bool
  /-- Whether the parser supplied the node where the source has none. -/
  isMissing : Bool
  /-- The name under which the parent holds the node. -/
  role : Option String
  /-- The source text of the node. -/
  text : String
  /-- Where the node starts. -/
  start : Position
  /-- Where the node ends. -/
  stop : Position
  /-- The offset of the start in text units. -/
  offset : Nat
  deriving DecidableEq, Repr

/-- A syntax tree. -/
inductive Node where
  /-- A node with its children. -/
  | mk (label : Label) (children : List Node)

namespace Node

/-- What is known of the node itself. -/
def label : Node → Label
  | mk label _ => label

/-- The children in source order. -/
def children : Node → List Node
  | mk _ children => children

/-- The grammar's word for the node. -/
def kind (node : Node) : String := node.label.kind

/-- The source text of the node. -/
def text (node : Node) : String := node.label.text

/-- Whether the grammar names the node. -/
def isNamed (node : Node) : Bool := node.label.isNamed

/-- The first line of the node, counted from one. -/
def startLine (node : Node) : Nat := node.label.start.row + 1

/-- The last line of the node, counted from one. -/
def endLine (node : Node) : Nat := node.label.stop.row + 1

/-- The children that the grammar names. -/
def named (node : Node) : List Node := node.children.filter isNamed

/-- The first child held under a name. -/
def field? (node : Node) (role : String) : Option Node :=
  node.children.find? fun child => child.label.role == some role

/-- All children held under a name. -/
def fields (node : Node) (role : String) : List Node :=
  node.children.filter fun child => child.label.role == some role

/-- The text of the first child held under a name. -/
def fieldText? (node : Node) (role : String) : Option String :=
  (node.field? role).map text

/-- The first named child of one of the given kinds. -/
def firstOf? (node : Node) (kinds : List String) : Option Node :=
  node.named.find? fun child => kinds.contains child.kind

/-- Whether a bare token stands among the children. -/
def hasToken (node : Node) (token : String) : Bool :=
  node.children.any fun child => !child.isNamed && child.kind == token

mutual

/-- The number of nodes of a tree. -/
def size : Node → Nat
  | mk _ children => sizes children + 1

/-- The number of nodes of a list of trees. -/
def sizes : List Node → Nat
  | [] => 0
  | node :: rest => size node + sizes rest

end

theorem size_eq (node : Node) : node.size = sizes node.children + 1 := by
  cases node
  rfl

@[simp]
theorem sizes_append (left right : List Node) :
    sizes (left ++ right) = sizes left + sizes right := by
  induction left with
  | nil => simp [sizes]
  | cons node rest ih => simp [sizes, ih, Nat.add_assoc]

theorem sizes_filter_le (keep : Node → Bool) (nodes : List Node) :
    sizes (nodes.filter keep) ≤ sizes nodes := by
  induction nodes with
  | nil => simp [sizes]
  | cons node rest ih =>
    cases hkeep : keep node <;> simp [hkeep, sizes] <;> omega

theorem size_le_of_mem {node : Node} {nodes : List Node} (h : node ∈ nodes) :
    node.size ≤ sizes nodes := by
  induction nodes with
  | nil => simp at h
  | cons first rest ih =>
    rcases List.mem_cons.1 h with rfl | h
    · simp [sizes]
    · have := ih h
      simp only [sizes]
      omega

theorem size_lt_of_mem_children {node child : Node} (h : child ∈ node.children) :
    child.size < node.size := by
  have hle := size_le_of_mem h
  have hsize := size_eq node
  omega

theorem size_lt_of_mem_named {node child : Node} (h : child ∈ node.named) :
    child.size < node.size :=
  size_lt_of_mem_children (List.mem_filter.1 h).1

theorem size_lt_of_field? {node child : Node} {role : String} (h : node.field? role = some child) :
    child.size < node.size :=
  size_lt_of_mem_children (List.mem_of_find?_eq_some h)

end Node
end SyntaxTree
end CodeAtlas
