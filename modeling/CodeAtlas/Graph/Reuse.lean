import CodeAtlas.Graph.Metric

/-!
# Graphs after a change

A graph is compared with the one before it by the dependency edges at each node. Nodes that reach no
changed node, neither in the new graph nor in the old one, reach as many nodes as before, so that
the remembered counts of these are taken over.
-/

namespace CodeAtlas
namespace DependencyGraph

variable {α : Type}

/-- The dependency edges that leave and enter a node, as a text. -/
def signature (graph : DependencyGraph α) (node : Nat) : String :=
  let ids (edges : List (GraphEdge α)) : String :=
    Text.join "\n" (Text.sort ((edges.filter (·.dependency)).map GraphEdge.id))
  ids (graph.edgesFrom node) ++ "\x00" ++ ids (graph.edgesInto node)

/-- Whether a node is new or has other dependency edges than before. -/
def isChangedFrom (previous graph : DependencyGraph α) (node : Nat) : Bool :=
  match previous.index? (graph.idAt node) with
  | none => true
  | some old => previous.signature old != graph.signature node

/-- The ids of nodes that are new, gone or have other dependency edges. -/
def changesFrom (previous graph : DependencyGraph α) : List String :=
  ((List.range graph.size).filter (isChangedFrom previous graph)).map graph.idAt
    ++ (previous.nodes.map Element.id).filter fun id => !graph.has id

/-- The ids of all nodes from which one of the given ids can be reached. -/
def ancestorsOf (graph : DependencyGraph α) (ids : List String) : List String :=
  (Search.reached graph.before graph.size (ids.filterMap graph.index?)).map graph.idAt

/-- The remembered counts that a change leaves valid. -/
def keptReach (previous graph : DependencyGraph α) (changed : List String) : Table String Nat :=
  let affected := graph.ancestorsOf changed ++ previous.ancestorsOf changed
  Table.ofList (graph.nodes.filterMap fun node =>
    if affected.contains node.id then none
    else (previous.reach.get? node.id).map (node.id, ·))

/-- A graph as the successor of an earlier one; the ids `touched` count as changed too. -/
def after (previous : DependencyGraph α) (touched : List String) (graph : DependencyGraph α) :
    DependencyGraph α :=
  let changed := distinct (changesFrom previous graph ++ touched)
  { graph with reach := keptReach previous graph changed, changed := changed }

/-- The graph of elements and relationships, as the successor of an earlier one if there is one. -/
def build (options : GraphOptions α) (elements : List Element)
    (relationships : List (Relationship α))
    (earlier : Option (DependencyGraph α × List String)) : DependencyGraph α :=
  let graph := fresh options elements relationships
  match earlier with
  | some (previous, touched) => after previous touched graph
  | none => graph

end DependencyGraph
end CodeAtlas
