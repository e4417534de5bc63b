import CodeAtlas.Boundary.Cluster
import CodeAtlas.Proofs.Text.Order

/-!
# Places

Clusters are built from where elements stand, not from what else is known about them. A place is
what the order of elements looks at, so that sorted places do not depend on the given order.
-/

namespace CodeAtlas
namespace Boundary

/-- Where an element stands, and its id. -/
structure Place where
  /-- The file. -/
  filePath : String
  /-- The first line. -/
  line : Nat
  /-- The id of the element. -/
  id : String
  deriving DecidableEq, Repr

/-- The place of an element. -/
def placeOf (element : Element) : Place := ⟨element.filePath, element.startLine, element.id⟩

namespace Place

/-- The order of places by file, line and id. -/
def order (left right : Place) : Ordering :=
  (Text.order left.filePath right.filePath).then
    ((compare left.line right.line).then (Text.order left.id right.id))

theorem order_eq_compareLex : order =
    compareLex (fun left right => Text.order left.filePath right.filePath)
      (compareLex (compareOn line) fun left right => Text.order left.id right.id) := rfl

instance : Std.TransCmp order := by
  rw [order_eq_compareLex]
  infer_instance

instance : Std.LawfulEqCmp order where
  compare_self := Std.ReflCmp.compare_self
  eq_of_compare {left right} same := by
    rw [order, Ordering.then_eq_eq, Ordering.then_eq_eq] at same
    obtain ⟨files, lines, ids⟩ := same
    cases left
    cases right
    congr
    · exact Std.LawfulEqCmp.eq_of_compare files
    · exact Std.LawfulEqCmp.eq_of_compare lines
    · exact Std.LawfulEqCmp.eq_of_compare ids

/-- Sorts places. -/
def sort (places : List Place) : List Place :=
  places.mergeSort fun left right => order left right != .gt

theorem sort_perm (places : List Place) : (sort places).Perm places :=
  List.mergeSort_perm places _

theorem sort_eq_of_perm {left right : List Place} (perm : left.Perm right) :
    sort left = sort right :=
  mergeSort_eq_of_perm order perm fun _ _ _ _ => Std.LawfulEqCmp.eq_of_compare

end Place

/-- The places of elements. -/
def places (elements : List Element) : List Place := elements.map placeOf

theorem places_append (first second : List Element) :
    places (first ++ second) = places first ++ places second :=
  List.map_append

theorem length_places (elements : List Element) : (places elements).length = elements.length :=
  List.length_map placeOf

theorem map_id_places (elements : List Element) :
    (places elements).map Place.id = elements.map Element.id := by
  rw [places, List.map_map]
  rfl

theorem places_sortByPlace (elements : List Element) :
    places (sortByPlace elements) = Place.sort (places elements) :=
  List.map_mergeSort fun _ _ _ _ => rfl

theorem length_eq_of_places_eq {left right : List Element} (same : places left = places right) :
    left.length = right.length := by
  rw [← length_places, same, length_places]

theorem ids_eq_of_places_eq {left right : List Element} (same : places left = places right) :
    left.map Element.id = right.map Element.id := by
  rw [← map_id_places, same, map_id_places]

end Boundary

namespace Cluster

variable {α β : Type}

theorem map_slices (image : α → β) (sizes : List Nat) (items : List α) :
    (slices sizes items).map (List.map image) = slices sizes (items.map image) := by
  induction sizes generalizing items with
  | nil => rfl
  | cons size sizes induction =>
    rw [slices, slices, List.map_cons, induction, List.map_take, List.map_drop]

theorem flatten_slices_sublist (sizes : List Nat) (items : List α) :
    (slices sizes items).flatten.Sublist items := by
  induction sizes generalizing items with
  | nil => simp [slices]
  | cons size sizes induction =>
    have rest := (induction (items.drop size)).append_left (items.take size)
    rw [List.take_append_drop] at rest
    rw [slices, List.flatten_cons]
    exact rest

/-- How items are cut depends on their number only. -/
theorem map_partition (image : α → β) (least most : Nat) (items : List α) :
    (partition least most (items.map image)).chunks =
        (partition least most items).chunks.map (List.map image) ∧
      (partition least most (items.map image)).rest =
        (partition least most items).rest.map image := by
  simp only [partition, List.length_map]
  split
  · simp
  split
  · simp
  split
  · simp [map_slices]
  · simp [map_slices]

theorem flatten_chunks_sublist (least most : Nat) (items : List α) :
    (partition least most items).chunks.flatten.Sublist items := by
  unfold partition
  dsimp only
  split
  · simp
  split
  · simp
  split
  · exact flatten_slices_sublist _ items
  · exact flatten_slices_sublist _ items

end Cluster

namespace Boundary

theorem chunks_places (least most : Nat) (elements : List Element) :
    (Cluster.partition least most (places elements)).chunks =
      (Cluster.partition least most elements).chunks.map places :=
  (Cluster.map_partition placeOf least most elements).1

theorem rest_places (least most : Nat) (elements : List Element) :
    (Cluster.partition least most (places elements)).rest =
      places (Cluster.partition least most elements).rest :=
  (Cluster.map_partition placeOf least most elements).2

end Boundary
end CodeAtlas
