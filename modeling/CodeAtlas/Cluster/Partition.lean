/-!
# Partitions of a list

An ordered list is cut into consecutive chunks whose sizes lie between two bounds. If as few chunks
as the upper bound allows all reach the lower bound when they are balanced, they are balanced.
Otherwise the chunks are as large as allowed, and what is left over stays out.
-/

namespace CodeAtlas
namespace Cluster

variable {α : Type}

/-- Chunks of a list and the items left over. -/
structure Partition (α : Type) where
  /-- The chunks in order. -/
  chunks : List (List α)
  /-- The items after the last chunk. -/
  rest : List α

/-- Cuts pieces of the given sizes off the front of a list. -/
def slices : List Nat → List α → List (List α)
  | [], _ => []
  | size :: sizes, items => items.take size :: slices sizes (items.drop size)

/-- The sizes of a balanced cut of `total` items into `count` chunks, the larger ones first. -/
def balancedSizes (total count : Nat) : List Nat :=
  List.replicate (total % count) (total / count + 1)
    ++ List.replicate (count - total % count) (total / count)

/-- Cuts a list into chunks of at least `least` and at most `most` items. -/
def partition (least most : Nat) (items : List α) : Partition α :=
  let total := items.length
  if total < least then
    ⟨[], items⟩
  else if total ≤ most then
    ⟨[items], []⟩
  else
    let count := (total + most - 1) / most
    if least ≤ total / count then
      ⟨slices (balancedSizes total count) items, []⟩
    else
      let full := total / most
      ⟨slices (List.replicate full most) items, items.drop (full * most)⟩

end Cluster
end CodeAtlas
