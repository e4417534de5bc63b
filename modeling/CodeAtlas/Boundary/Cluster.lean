import CodeAtlas.Boundary.Score
import CodeAtlas.Cluster.Partition
import CodeAtlas.Cluster.Propagation

/-!
# Clusters

The elements are grouped by label propagation over containment and module dependencies. A group that
is too large is cut; one that is too small joins the cluster it is tied to most, if there is room.
What is left over is pooled and cut in the order of files and lines.
-/

namespace CodeAtlas
namespace Boundary

/-- The bounds of cluster sizes and the number of sweeps. -/
structure Limits where
  /-- The least number of members. -/
  minSize : Nat
  /-- The greatest number of members. -/
  maxSize : Nat
  /-- The greatest number of sweeps. -/
  maxSweeps : Nat

/-- The limits unless others are given. -/
def Limits.standard : Limits := ⟨2, 40, 20⟩

/-- The order of elements by file, line and id. -/
def placeOrder (left right : Element) : Ordering :=
  (Text.order left.filePath right.filePath).then
    ((compare left.startLine right.startLine).then (Text.order left.id right.id))

/-- Sorts elements by file, line and id. -/
def sortByPlace (elements : List Element) : List Element :=
  elements.mergeSort fun left right => placeOrder left right != .gt

/-- Clusters under construction. -/
structure Draft where
  /-- The members of each open cluster, by number. -/
  clusters : Table Nat (List Element)
  /-- The open cluster of each element that is in one. -/
  owner : Table String Nat
  /-- The elements that are in no cluster. -/
  pool : List Element
  /-- The number of the next cluster. -/
  next : Nat
  /-- The clusters that were too small when they were opened. -/
  small : List Nat

namespace Draft

/-- No clusters. -/
def empty : Draft := ⟨Table.empty, Table.empty, [], 0, []⟩

/-- Opens a cluster. -/
def add (draft : Draft) (members : List Element) : Draft :=
  { draft with
    clusters := draft.clusters.put draft.next members
    owner := draft.owner.putAll (members.map fun member => (member.id, draft.next))
    next := draft.next + 1 }

/-- Opens clusters for one group of elements. -/
def addGroup (limits : Limits) (draft : Draft) (group : List Element) : Draft :=
  let ordered := sortByPlace group
  if limits.maxSize < ordered.length then
    let cut := Cluster.partition limits.minSize limits.maxSize ordered
    let opened := cut.chunks.foldl add draft
    { opened with pool := opened.pool ++ cut.rest }
  else if ordered.length < limits.minSize then
    { draft.add ordered with small := draft.small ++ [draft.next] }
  else
    draft.add ordered

/-- The first member of a cluster. -/
def first? (draft : Draft) (index : Nat) : Option Element :=
  (draft.clusters.get? index).bind List.head?

/-- Whether one cluster starts before another. -/
def startsBefore (draft : Draft) (left right : Nat) : Bool :=
  match draft.first? left, draft.first? right with
  | some first, some second => placeOrder first second == .lt
  | _, _ => false

/-- The small clusters in the order of their first members. -/
def smallInOrder (draft : Draft) : List Nat :=
  draft.small.mergeSort fun left right => !draft.startsBefore right left

variable {α : Type} [Scalar α]

/-- The weight of the ties of members to each other cluster. -/
def ties (adjacency : Cluster.Adjacency α) (draft : Draft) (index : Nat)
    (members : List Element) : Table Nat α :=
  let neighbours := members.flatMap fun member =>
    ((adjacency.get? member.id).map Table.entries).getD []
  neighbours.foldl (fun weights (neighbour, weight) =>
    match draft.owner.get? neighbour with
    | some target =>
      if target = index then weights
      else weights.update target fun sum => Scalar.add (sum.getD Scalar.zero) weight
    | none => weights) Table.empty

/-- The cluster with the stronger tie, the one that starts first if the ties are equal. -/
def stronger (draft : Draft) (best : Option (Nat × α)) (entry : Nat × α) : Option (Nat × α) :=
  if !Scalar.lt Scalar.zero entry.2 then
    best
  else
    match best with
    | none => some entry
    | some (index, weight) =>
      if Scalar.lt weight entry.2
          || (Scalar.eq weight entry.2 && draft.startsBefore entry.1 index) then
        some entry
      else
        best

/-- The cluster that members are tied to most. -/
def strongest? (adjacency : Cluster.Adjacency α) (draft : Draft) (index : Nat)
    (members : List Element) : Option Nat :=
  ((draft.ties adjacency index members).entries.foldl draft.stronger none).map (·.1)

/-- Moves the members of a cluster into another one. -/
def join (draft : Draft) (index target : Nat) (members into : List Element) : Draft :=
  { draft with
    clusters := (draft.clusters.erase index).put target (sortByPlace (into ++ members))
    owner := draft.owner.putAll (members.map fun member => (member.id, target)) }

/-- Moves the members of a cluster into the pool. -/
def dissolve (draft : Draft) (index : Nat) (members : List Element) : Draft :=
  { draft with
    clusters := draft.clusters.erase index
    owner := members.foldl (fun owner member => owner.erase member.id) draft.owner
    pool := draft.pool ++ members }

/-- Settles a cluster that was too small: unless it has grown, it joins the cluster it is tied to
most or goes into the pool. -/
def settle (limits : Limits) (adjacency : Cluster.Adjacency α) (draft : Draft) (index : Nat) :
    Draft :=
  match draft.clusters.get? index with
  | none => draft
  | some members =>
    if limits.minSize ≤ members.length then
      draft
    else
      match draft.strongest? adjacency index members with
      | none => draft.dissolve index members
      | some target =>
        match draft.clusters.get? target with
        | none => draft.dissolve index members
        | some into =>
          if into.length + members.length ≤ limits.maxSize then
            draft.join index target members into
          else
            draft.dissolve index members

/-- The clusters and the elements that no cluster could take. -/
def finish (limits : Limits) (draft : Draft) : List (List String) × List String :=
  let large := draft.clusters.values.filter (limits.minSize ≤ ·.length)
  let small := draft.clusters.values.filter (·.length < limits.minSize)
  let cut := Cluster.partition limits.minSize limits.maxSize
    (sortByPlace (draft.pool ++ small.flatten))
  let clusters := (large ++ cut.chunks).map fun members => Text.sort (members.map Element.id)
  (Text.sortBy idOf clusters, Text.sort (cut.rest.map Element.id))

end Draft

variable {α : Type} [Scalar α]

/-- The neighbours of elements that relationships tie together. -/
def adjacencyOf (relationships : List (Relationship α)) : Cluster.Adjacency α :=
  relationships.foldl (fun adjacency relationship =>
    Cluster.addUndirected adjacency relationship.sourceId relationship.targetId
      relationship.strength) Table.empty

/-- The elements by their label. -/
def labelGroups (labels : Cluster.Labels) (elements : List Element) :
    Table String (List Element) :=
  Table.group (fun element => (labels.get? element.id).getD element.id) elements

/-- Groups elements into clusters; also gives those that no cluster could take. -/
def cluster (limits : Limits) (elements : List Element) (relationships : List (Relationship α)) :
    List (List String) × List String :=
  let adjacency := adjacencyOf relationships
  let labels := Cluster.propagate (elements.map Element.id) adjacency limits.maxSweeps
  let opened := (labelGroups labels elements).values.foldl (Draft.addGroup limits) Draft.empty
  (opened.smallInOrder.foldl (Draft.settle limits adjacency) opened).finish limits

end Boundary
end CodeAtlas
