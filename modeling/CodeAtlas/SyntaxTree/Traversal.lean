import CodeAtlas.SyntaxTree.Basic

/-!
# Walks over syntax trees

Generated sources nest deeper than a recursive walk can follow, so the walks here keep their pending
nodes on an explicit stack. `visitDescendants` shows a visitor the named nodes below a node in
source order and leaves out what lies below a node at which the visitor says so. `preorder` lists
all nodes.
-/

namespace CodeAtlas
namespace SyntaxTree
namespace Node

/-- Visits the pending nodes and what is named below them. The visitor returns its next state and
whether to go below the node. -/
def visitStack {σ : Type} (visit : σ → Node → σ × Bool) (state : σ) : List Node → σ
  | [] => state
  | node :: rest =>
    let (next, enter) := visit state node
    visitStack visit next (if enter then node.named ++ rest else rest)
termination_by stack => sizes stack
decreasing_by
  have hnamed : sizes node.named ≤ sizes node.children := sizes_filter_le _ _
  have hsize := size_eq node
  split <;> simp only [sizes, sizes_append] <;> omega

/-- Visits the named nodes below a node in source order. -/
def visitDescendants {σ : Type} (visit : σ → Node → σ × Bool) (state : σ) (node : Node) : σ :=
  visitStack visit state node.named

/-- Visits a node and, unless the visitor declines, the named nodes below it. -/
def visitTree {σ : Type} (visit : σ → Node → σ × Bool) (state : σ) (node : Node) : σ :=
  visitStack visit state [node]

/-- The texts of the outermost nodes of the given kinds, the node itself included. -/
def namesOfKind (kinds : List String) (node : Node) : List String :=
  (node.visitTree (fun (names : Array String) found =>
    if kinds.contains found.kind then (names.push found.text, false) else (names, true)) #[]).toList

/-- All nodes of the pending trees in source order, parents first. -/
def preorderStack (seen : Array Node) : List Node → Array Node
  | [] => seen
  | node :: rest => preorderStack (seen.push node) (node.children ++ rest)
termination_by stack => sizes stack
decreasing_by
  have hsize := size_eq node
  simp only [sizes, sizes_append]
  omega

/-- All nodes of a tree in source order, parents first. -/
def preorder (node : Node) : List Node :=
  (preorderStack #[] [node]).toList

/-- The nodes of a tree that have one of the given kinds, the node itself included. -/
def ofKinds (node : Node) (kinds : List String) : List Node :=
  node.preorder.filter fun found => kinds.contains found.kind

end Node
end SyntaxTree
end CodeAtlas
