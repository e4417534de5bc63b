import CodeAtlas.Number.Scalar
import CodeAtlas.Table
import CodeAtlas.Text.Units

/-!
# Label propagation

Every id starts with itself as its label. In the order of the ids, each takes the label that has the
largest total weight among its neighbours, the smallest such label if there are several. Sweeps
follow each other until one changes nothing or their number is used up.
-/

namespace CodeAtlas
namespace Cluster

/-- The neighbours of each id with the weights of the edges to them. -/
abbrev Adjacency (α : Type) := Table String (Table String α)

/-- The label of each id. -/
abbrev Labels := Table String String

variable {α : Type} [Scalar α]

/-- Adds weight to one direction of an edge. -/
def addDirected (adjacency : Adjacency α) (source target : String) (weight : α) : Adjacency α :=
  adjacency.update source fun row =>
    (row.getD Table.empty).update target fun sum => Scalar.add (sum.getD Scalar.zero) weight

/-- Adds weight to both directions of an edge; an id is no neighbour of itself. -/
def addUndirected (adjacency : Adjacency α) (left right : String) (weight : α) : Adjacency α :=
  if left = right then
    adjacency
  else
    addDirected (addDirected adjacency left right weight) right left weight

/-- The total weight of each label among neighbours that have one. -/
def labelWeights (labels : Labels) (neighbours : Table String α) : Table String α :=
  neighbours.entries.foldl (fun weights (neighbour, weight) =>
    match labels.get? neighbour with
    | some label => weights.update label fun sum => Scalar.add (sum.getD Scalar.zero) weight
    | none => weights) Table.empty

/-- The heavier of two labels, the smaller one at equal weight. -/
def heavier (best : Option (String × α)) (entry : String × α) : Option (String × α) :=
  match best with
  | none => some entry
  | some (label, weight) =>
    if Scalar.lt weight entry.2 || (Scalar.eq weight entry.2 && Text.before entry.1 label) then
      some entry
    else
      best

/-- The label of the largest weight. -/
def heaviest? (weights : Table String α) : Option String :=
  (weights.entries.foldl heavier none).map (·.1)

/-- Lets one id take the label of the largest weight. -/
def relabel (adjacency : Adjacency α) (labels : Labels) (id : String) : Labels :=
  match (adjacency.get? id).bind fun neighbours => heaviest? (labelWeights labels neighbours) with
  | some label => labels.put id label
  | none => labels

/-- One sweep over the ids. -/
def sweep (adjacency : Adjacency α) (order : List String) (labels : Labels) : Labels :=
  order.foldl (relabel adjacency) labels

/-- Sweeps until nothing changes, at most a given number of times. -/
def sweeps (adjacency : Adjacency α) (order : List String) : Nat → Labels → Labels
  | 0, labels => labels
  | count + 1, labels =>
    let next := sweep adjacency order labels
    if next.entries = labels.entries then labels else sweeps adjacency order count next

/-- The labels of ids after propagation. -/
def propagate (ids : List String) (adjacency : Adjacency α) (maxSweeps : Nat) : Labels :=
  let order := Text.sort ids
  sweeps adjacency order maxSweeps (Table.ofList (order.map fun id => (id, id)))

end Cluster
end CodeAtlas
