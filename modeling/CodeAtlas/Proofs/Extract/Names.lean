import CodeAtlas.Extract.Names
import CodeAtlas.Proofs.Outline.Regular

/-!
# What readers of syntax trees share

Every node starts on a line counted from one, and what every visit of a walk keeps is kept by the
walk as a whole, whatever the tree.
-/

namespace CodeAtlas
namespace SyntaxTree
namespace Node

@[simp]
theorem one_le_startLine (node : Node) : 1 ≤ node.startLine :=
  Nat.le_add_left 1 _

theorem visitStack_keeps {σ : Type} {visit : σ → Node → σ × Bool} (keeps : σ → Prop)
    (step : ∀ state node, keeps state → keeps (visit state node).1)
    {state : σ} (holds : keeps state) (stack : List Node) :
    keeps (visitStack visit state stack) := by
  fun_induction visitStack visit state stack with
  | case1 state => exact holds
  | case2 state node rest next enter visited induction =>
    refine induction ?_
    have kept := step state node holds
    rwa [visited] at kept

end Node
end SyntaxTree

@[simp]
theorem Extract.forall_mem_referAll {kind : ReferenceKind} {targets : List String} {line : Nat}
    {holds : Reference → Prop} :
    (∀ reference ∈ Extract.referAll kind targets line, holds reference) ↔
      ∀ target ∈ targets, holds ⟨kind, target, line⟩ :=
  List.forall_mem_map

namespace Outline

open SyntaxTree (Node)

variable {grants : Grants} {visit : Array Outline → Node → Array Outline × Bool}

theorem allRegular_visitStack
    (step : ∀ found node, AllRegular grants found.toList →
      AllRegular grants (visit found node).1.toList)
    (stack : List Node) : AllRegular grants (Node.visitStack visit #[] stack).toList :=
  Node.visitStack_keeps (fun found : Array Outline => AllRegular grants found.toList) step
    allRegular_nil stack

theorem allRegular_visitTree
    (step : ∀ found node, AllRegular grants found.toList →
      AllRegular grants (visit found node).1.toList)
    (node : Node) : AllRegular grants (node.visitTree visit #[]).toList :=
  allRegular_visitStack step [node]

theorem allRegular_visitDescendants
    (step : ∀ found node, AllRegular grants found.toList →
      AllRegular grants (visit found node).1.toList)
    (node : Node) : AllRegular grants (node.visitDescendants visit #[]).toList :=
  allRegular_visitStack step node.named

end Outline
end CodeAtlas
