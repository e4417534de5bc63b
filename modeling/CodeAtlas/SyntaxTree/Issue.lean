import CodeAtlas.SyntaxTree.Traversal

/-!
# Syntax issues

Where a source is malformed, the parser leaves nodes of kind `ERROR` and nodes that stand for
missing text. Each of them is an issue, in source order.
-/

namespace CodeAtlas
namespace SyntaxTree

/-- A malformed place, line and column from one. -/
structure Issue where
  /-- The line. -/
  line : Nat
  /-- The text unit within the line. -/
  column : Nat
  /-- What a reader is told. -/
  message : String
  deriving DecidableEq, Repr

namespace Node

/-- The issue that a node stands for. -/
def issue? (node : Node) : Option Issue :=
  if node.label.isMissing then
    some ⟨node.startLine, node.label.start.column + 1, "Missing " ++ node.kind⟩
  else if node.kind = "ERROR" then
    some ⟨node.startLine, node.label.start.column + 1, "Syntax error"⟩
  else
    none

/-- The issues of a tree. -/
def issues (node : Node) : List Issue :=
  node.preorder.filterMap issue?

end Node
end SyntaxTree
end CodeAtlas
