import CodeAtlas.SyntaxTree.Issue

/-!
# Walks by recursion

The walks over syntax trees keep their pending nodes on a stack. What they do is easier to say by
recursion: a node comes before everything below it, and everything below it comes before the next
sibling. This file gives the two recursions, one that shows named nodes to a visitor and one that
lists all nodes, and proves that the stacks come to the same. A walk finishes the node on top of its
stack, with all that it does below that node, before it turns to the rest of the stack.
-/

namespace CodeAtlas
namespace SyntaxTree

/-- What a visitor is shown on a walk, and what it makes of it. -/
structure Walk (σ : Type) where
  /-- The calls of the visitor in order, each with the state and the node that it is given. -/
  calls : List (σ × Node)
  /-- The state after the last call. -/
  state : σ

namespace Node

/-! ## Walks with a visitor -/

section

variable {σ : Type} (visit : σ → Node → σ × Bool)

mutual

/-- Shows a node to the visitor and then, unless the visitor declines, what is named below it. -/
def walk (state : σ) : Node → Walk σ
  | mk label children =>
    let (next, enter) := visit state (mk label children)
    let below := if enter then walkNamed next children else ⟨[], next⟩
    ⟨(state, mk label children) :: below.calls, below.state⟩

/-- Walks over the named nodes among siblings, one after the other. -/
def walkNamed (state : σ) : List Node → Walk σ
  | [] => ⟨[], state⟩
  | node :: rest =>
    let first := if node.isNamed then walk state node else ⟨[], state⟩
    let others := walkNamed first.state rest
    ⟨first.calls ++ others.calls, others.state⟩

end

/-- A visitor that also writes down each call, with the state and the node that it is given. -/
def recording (seen : σ × List (σ × Node)) (node : Node) : (σ × List (σ × Node)) × Bool :=
  let (next, enter) := visit seen.1 node
  ((next, seen.2 ++ [(seen.1, node)]), enter)

/-- A turn of the loop: the node on top is shown to the visitor and, unless the visitor declines,
its named children are pushed one by one, the last of them first. -/
theorem visitStack_turn (state : σ) (node : Node) (rest : List Node) :
    visitStack visit state (node :: rest) =
      visitStack visit (visit state node).1
        (if (visit state node).2 then node.named.foldr List.cons rest else rest) := by
  rw [visitStack, List.foldr_cons_eq_append']

-- The induction is on the tree, with the rest of the stack left open: what lies below the first of
-- some siblings is done while the others wait on the stack.
mutual

theorem visitStack_cons (state : σ) (rest : List Node) : ∀ node : Node,
    visitStack visit state (node :: rest) = visitStack visit (walk visit state node).state rest
  | mk label children => by
    rw [visitStack_turn, List.foldr_cons_eq_append', walk]
    dsimp only
    split
    case isTrue => exact visitStack_filter_append _ rest children
    case isFalse => rfl

/-- Siblings on top of the stack are walked over before the rest of the stack. -/
theorem visitStack_filter_append (state : σ) (rest : List Node) : ∀ nodes : List Node,
    visitStack visit state (nodes.filter isNamed ++ rest) =
      visitStack visit (walkNamed visit state nodes).state rest
  | [] => rfl
  | node :: others => by
    rw [List.filter_cons, walkNamed]
    dsimp only
    split
    case isTrue =>
      rw [List.cons_append, visitStack_cons state _ node]
      exact visitStack_filter_append _ rest others
    case isFalse => exact visitStack_filter_append state rest others

end

/-- The stack does what the recursion does, for every visitor. -/
theorem visitDescendants_eq (state : σ) (node : Node) :
    node.visitDescendants visit state = (walkNamed visit state node.children).state := by
  have emptied := visitStack_filter_append visit state [] node.children
  rw [List.append_nil] at emptied
  rw [visitDescendants, named, emptied, visitStack]

mutual

/-- Writing down the calls changes neither them nor the state, and adds them to those before. -/
theorem walk_recording (state : σ) (calls : List (σ × Node)) : ∀ node : Node,
    (walk (recording visit) (state, calls) node).state =
      ((walk visit state node).state, calls ++ (walk visit state node).calls)
  | mk label children => by
    rw [walk, walk, recording]
    dsimp only
    split
    case isTrue => rw [walkNamed_recording, List.append_assoc, List.singleton_append]
    case isFalse => rfl

theorem walkNamed_recording (state : σ) (calls : List (σ × Node)) : ∀ nodes : List Node,
    (walkNamed (recording visit) (state, calls) nodes).state =
      ((walkNamed visit state nodes).state, calls ++ (walkNamed visit state nodes).calls)
  | [] => by simp [walkNamed]
  | node :: rest => by
    rw [walkNamed, walkNamed]
    dsimp only
    split
    case isTrue =>
      rw [walk_recording state calls node, walkNamed_recording _ _ rest, List.append_assoc]
    case isFalse => rw [walkNamed_recording state calls rest, List.nil_append]

end

/-- The calls that are written down while the stack is emptied are those of the recursion. -/
theorem visitDescendants_recording (state : σ) (node : Node) :
    node.visitDescendants (recording visit) (state, []) =
      ((walkNamed visit state node.children).state,
        (walkNamed visit state node.children).calls) := by
  rw [visitDescendants_eq, walkNamed_recording, List.nil_append]

end

/-! ## All nodes -/

mutual

/-- A node and everything below it, parents first. -/
def descent : Node → List Node
  | mk label children => mk label children :: descents children

/-- Sibling nodes and everything below them, one after the other. -/
def descents : List Node → List Node
  | [] => []
  | node :: rest => descent node ++ descents rest

end

theorem descent_eq (node : Node) : node.descent = node :: descents node.children := by
  cases node
  rfl

theorem descents_append (left right : List Node) :
    descents (left ++ right) = descents left ++ descents right := by
  induction left with
  | nil => rfl
  | cons node rest induction => simp only [List.cons_append, descents, induction, List.append_assoc]

theorem toList_preorderStack (seen : Array Node) (stack : List Node) :
    (preorderStack seen stack).toList = seen.toList ++ descents stack := by
  fun_induction preorderStack seen stack with
  | case1 seen => simp [descents]
  | case2 seen node rest induction =>
    rw [induction, descents_append, descents, descent_eq]
    simp

theorem preorder_eq_descent (node : Node) : node.preorder = node.descent := by
  rw [preorder, toList_preorderStack, descents, descents]
  simp

/-- What a reader is told of a node that is malformed or missing. -/
def fault (node : Node) : Issue where
  line := node.label.start.row + 1
  column := node.label.start.column + 1
  message := if node.label.isMissing then "Missing " ++ node.kind else "Syntax error"

theorem filterMap_issue? (nodes : List Node) :
    nodes.filterMap issue? =
      (nodes.filter fun node => node.kind == "ERROR" || node.label.isMissing).map fault := by
  induction nodes with
  | nil => rfl
  | cons node rest induction =>
    rw [List.filterMap_cons, List.filter_cons, induction]
    by_cases isMissing : node.label.isMissing <;> by_cases isError : node.kind = "ERROR" <;>
      simp [issue?, fault, startLine, isMissing, isError]

/-- The walks that keep a stack are the recursive ones. Whatever the visitor, it is called with the
states, on the nodes and in the order of the recursion over named descendants that leaves out what
lies below a node at which the visitor declines. The issues of a tree are those of its `ERROR` and
missing nodes, named or not, in the order of the recursion over all nodes. -/
theorem walks_by_recursion (node : Node) :
    (∀ {σ : Type} (visit : σ → Node → σ × Bool) (state : σ),
      node.visitDescendants visit state = (walkNamed visit state node.children).state ∧
      node.visitDescendants (recording visit) (state, []) =
        ((walkNamed visit state node.children).state,
          (walkNamed visit state node.children).calls)) ∧
    node.issues =
      (node.descent.filter fun found => found.kind == "ERROR" || found.label.isMissing).map
        fault := by
  constructor
  · intro σ visit state
    exact ⟨visitDescendants_eq visit state node, visitDescendants_recording visit state node⟩
  · rw [issues, preorder_eq_descent, filterMap_issue?]

end Node
end SyntaxTree
end CodeAtlas
