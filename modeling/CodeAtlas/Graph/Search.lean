/-!
# Depth-first search

A search over nodes that are numbered from zero. It meets every node that can be reached from where
it starts. A node is pending from when it is met until its children are looked at, and the one that
was met last is the first to be taken up.
-/

namespace CodeAtlas
namespace Search

/-- How far a search has come. -/
structure Frontier where
  /-- The nodes met so far, last first. -/
  met : List Nat
  /-- The nodes among them whose children have not been looked at, last first. -/
  pending : List Nat

namespace Frontier

/-- The search that has met nothing. -/
def start : Frontier := ⟨[], []⟩

/-- Meets a node, unless it has been met before. -/
def meet (frontier : Frontier) (node : Nat) : Frontier :=
  if node ∈ frontier.met then frontier else ⟨node :: frontier.met, node :: frontier.pending⟩

/-- Takes up the pending node that was met last and meets its children. -/
def step (next : Nat → List Nat) (frontier : Frontier) : Frontier :=
  match frontier.pending with
  | [] => frontier
  | node :: rest => (next node).foldl meet { frontier with pending := rest }

/-- Goes on until no node is pending, for so many steps at most. -/
def run (next : Nat → List Nat) : Nat → Frontier → Frontier
  | 0, frontier => frontier
  | steps + 1, frontier =>
    if frontier.pending.isEmpty then frontier else run next steps (frontier.step next)

end Frontier

/-- The nodes that can be reached from the given ones, these included. No node is taken up twice, so
there are no more steps than nodes. -/
def reached (next : Nat → List Nat) (size : Nat) (nodes : List Nat) : List Nat :=
  ((nodes.foldl Frontier.meet .start).run next size).met

end Search
end CodeAtlas
