import CodeAtlas.Classification
import CodeAtlas.Graph.Metric

/-!
# Boundaries and their scores

A boundary is a set of elements that belong together. Its scores compare the dependencies inside
with those that cross it.
-/

namespace CodeAtlas

/-- A set of elements that belong together. -/
structure Boundary (α : Type) where
  /-- The identity of the boundary. -/
  id : String
  /-- The name of the boundary. -/
  name : String
  /-- The part of a service that it is. -/
  kind : BoundaryKind
  /-- The members, sorted. -/
  memberIds : List String
  /-- What members depend on outside, sorted. -/
  externalDependencyIds : List String
  /-- The share of ordered pairs of members that are joined by a dependency. -/
  cohesion : α
  /-- The share of crossing edges among all edges at members. -/
  coupling : α
  /-- The weighted complexity of the members. -/
  complexity : α

/-- A boundary as a structured value. -/
def Boundary.toJson (boundary : Boundary Float) : Json :=
  .obj
    [("id", .str boundary.id), ("name", .str boundary.name), ("type", .str boundary.kind.name),
     ("memberIds", .texts boundary.memberIds),
     ("externalDependencyIds", .texts boundary.externalDependencyIds),
     ("cohesion", .num boundary.cohesion), ("coupling", .num boundary.coupling),
     ("complexity", .num boundary.complexity)]

namespace Boundary

/-- The identity of the boundary of a set of members. -/
def idOf (memberIds : List String) : String :=
  "boundary-" ++ shortDigest (Text.sort memberIds)

/-- The scores of a set of members. -/
structure Scores (α : Type) where
  /-- The share of ordered pairs of members that are joined by a dependency. -/
  cohesion : α
  /-- The share of crossing edges among all edges at members. -/
  coupling : α
  /-- The weighted complexity of the members. -/
  complexity : α
  /-- What members depend on outside, sorted. -/
  externalDependencyIds : List String

variable {α : Type}

/-- The number of dependencies between different members. -/
def innerPairs (graph : DependencyGraph α) (members : List String) : Nat :=
  (members.map fun id => ((graph.dependenciesOf id).filter members.contains).length).foldl
    (· + ·) 0

/-- The dependency edges that leave members. -/
def leaving (graph : DependencyGraph α) (members : List String) : List (GraphEdge α) :=
  members.flatMap fun id => (graph.outgoing id).filter (·.dependency)

/-- The ids outside that dependency edges of members lead to, one for each edge. -/
def outerTargets (graph : DependencyGraph α) (members : List String) : List String :=
  ((leaving graph members).map fun edge => graph.idAt edge.target).filter
    fun id => !members.contains id

/-- The dependency edges from outside into members. -/
def entering (graph : DependencyGraph α) (members : List String) : List (GraphEdge α) :=
  members.flatMap fun id => (graph.incoming id).filter fun edge =>
    edge.dependency && !members.contains (graph.idAt edge.source)

variable [Scalar α]

/-- The scores of a set of members in a graph. -/
def score (graph : DependencyGraph α) (memberIds : List String) : Scores α :=
  let members := distinct memberIds
  let count := members.length
  let outer := outerTargets graph members
  let crossing := outer.length + (entering graph members).length
  let touching := (leaving graph members).length + (entering graph members).length
  { cohesion := if count < 2 then Scalar.one
      else Scalar.clamp (Scalar.ratio (innerPairs graph members) (count * (count - 1)))
    coupling := if touching = 0 then Scalar.zero else Scalar.clamp (Scalar.ratio crossing touching)
    complexity := graph.complexity members
    externalDependencyIds := Text.sort (distinct outer) }

end Boundary
end CodeAtlas
