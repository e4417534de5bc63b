import CodeAtlas.Proofs.Boundary.Place
import CodeAtlas.Proofs.Table
import Mathlib.Logic.Equiv.Basic

/-!
# Clusters under other numbers

The numbers of the clusters of a draft are names only. Two drafts that differ in these names, in the
order of what they hold and in what else is known about elements settle their small clusters in the
same way, and finish with the same clusters.
-/

namespace CodeAtlas
namespace Boundary
namespace Draft

section Tie

variable {α : Type} [Scalar α]

/-- The weights of ties to clusters with the weight of one more tie. -/
def addTie (draft : Draft) (index : Nat) (weights : Table Nat α) (entry : String × α) :
    Table Nat α :=
  match draft.owner.get? entry.1 with
  | some target =>
    if target = index then weights
    else weights.update target fun sum => Scalar.add (sum.getD Scalar.zero) entry.2
  | none => weights

theorem ties_eq (adjacency : Cluster.Adjacency α) (draft : Draft) (index : Nat)
    (members : List Element) :
    draft.ties adjacency index members =
      ((places members).flatMap fun place =>
        ((adjacency.get? place.id).map Table.entries).getD []).foldl (draft.addTie index)
          Table.empty := by
  rw [places, List.flatMap_map]
  rfl

end Tie

/-- Two drafts have clusters at the same places, up to the numbers of clusters. -/
structure Alike (number : Equiv.Perm Nat) (left right : Draft) : Prop where
  /-- A cluster and the one that stands for it have the same places. -/
  clusters : ∀ index, (right.clusters.get? (number index)).map places =
    (left.clusters.get? index).map places
  /-- Elements are in clusters that stand for each other. -/
  owner : ∀ id, right.owner.get? id = (left.owner.get? id).map number
  /-- The pools have the same places. -/
  pool : (places left.pool).Perm (places right.pool)
  /-- The first draft holds each number once. -/
  leftDistinct : left.clusters.Distinct
  /-- The second draft holds each number once. -/
  rightDistinct : right.clusters.Distinct

/-- An entry under another number. -/
def renumber {α : Type} (number : Equiv.Perm Nat) (entry : Nat × α) : Nat × α :=
  (number entry.1, entry.2)

/-! ## The order of clusters -/

theorem startsBefore_eq (draft : Draft) (left right : Nat) :
    draft.startsBefore left right =
      match (draft.first? left).map placeOf, (draft.first? right).map placeOf with
      | some first, some second => Place.order first second == .lt
      | _, _ => false := by
  unfold startsBefore
  cases draft.first? left <;> cases draft.first? right <;> rfl

theorem map_first?_eq (draft : Draft) (index : Nat) :
    (draft.first? index).map placeOf =
      ((draft.clusters.get? index).map places).bind List.head? := by
  unfold first?
  cases draft.clusters.get? index with
  | none => rfl
  | some members => cases members <;> rfl

theorem get?_putAll_members (owner : Table String Nat) (members : List Element) (target : Nat)
    (id : String) :
    (owner.putAll (members.map fun member => (member.id, target))).get? id =
      if id ∈ members.map Element.id then some target else owner.get? id := by
  induction members generalizing owner with
  | nil => rfl
  | cons member members induction =>
    rw [List.map_cons, Table.putAll_cons, induction, Table.get?_put, List.map_cons]
    by_cases later : id ∈ members.map Element.id
    · simp [later]
    · by_cases same : id = member.id <;> simp [later, same]

theorem get?_eraseAll (owner : Table String Nat) (members : List Element) (id : String) :
    (members.foldl (fun owner member => owner.erase member.id) owner).get? id =
      if id ∈ members.map Element.id then none else owner.get? id := by
  induction members generalizing owner with
  | nil => rfl
  | cons member members induction =>
    rw [List.foldl_cons, induction, Table.get?_erase, List.map_cons]
    by_cases later : id ∈ members.map Element.id
    · simp [later]
    · by_cases same : id = member.id <;> simp [later, same]

namespace Alike

variable {number : Equiv.Perm Nat} {left right : Draft} (alike : Alike number left right)

include alike

theorem map_first? (index : Nat) :
    (right.first? (number index)).map placeOf = (left.first? index).map placeOf := by
  rw [map_first?_eq, map_first?_eq, alike.clusters]

theorem startsBefore (first second : Nat) :
    right.startsBefore (number first) (number second) = left.startsBefore first second := by
  rw [startsBefore_eq, startsBefore_eq, alike.map_first?, alike.map_first?]

theorem get?_eq_none {index : Nat} (absent : left.clusters.get? index = none) :
    right.clusters.get? (number index) = none := by
  have same := alike.clusters index
  rw [absent] at same
  exact Option.map_eq_none_iff.mp same

theorem get?_eq_some {index : Nat} {members : List Element}
    (found : left.clusters.get? index = some members) :
    ∃ twins, right.clusters.get? (number index) = some twins ∧ places twins = places members := by
  have same := alike.clusters index
  rw [found] at same
  exact Option.map_eq_some_iff.mp same

/-! ## Ties -/

variable {α : Type} [Scalar α]

theorem addTie (index : Nat) (weights : Table Nat α) (entry : String × α) :
    right.addTie (number index) (weights.rename number) entry =
      (left.addTie index weights entry).rename number := by
  unfold Draft.addTie
  rw [alike.owner]
  cases left.owner.get? entry.1 with
  | none => rfl
  | some target =>
    simp only [Option.map_some, EmbeddingLike.apply_eq_iff_eq]
    split
    · rfl
    · rw [Table.rename_update number.injective]

theorem ties (adjacency : Cluster.Adjacency α) (index : Nat) {members twins : List Element}
    (same : places twins = places members) :
    right.ties adjacency (number index) twins =
      (left.ties adjacency index members).rename number := by
  rw [ties_eq, ties_eq, same]
  generalize (places members).flatMap _ = entries
  -- The tables stay renamed versions of each other while the entries are added.
  suffices step : ∀ table : Table Nat α,
      entries.foldl (right.addTie (number index)) (table.rename number) =
        (entries.foldl (left.addTie index) table).rename number from step Table.empty
  induction entries with
  | nil => exact fun table => rfl
  | cons entry entries induction =>
    intro table
    rw [List.foldl_cons, List.foldl_cons, alike.addTie, induction]

theorem stronger (best : Option (Nat × α)) (entry : Nat × α) :
    right.stronger (best.map (renumber number)) (renumber number entry) =
      (left.stronger best entry).map (renumber number) := by
  obtain ⟨index, weight⟩ := entry
  unfold Draft.stronger
  cases best with
  | none =>
    by_cases positive : Scalar.lt Scalar.zero weight <;> simp [positive, renumber]
  | some best =>
    simp only [Option.map_some, renumber, alike.startsBefore]
    split
    · rfl
    · split <;> rfl

theorem strongest? (adjacency : Cluster.Adjacency α) (index : Nat) {members twins : List Element}
    (same : places twins = places members) :
    right.strongest? adjacency (number index) twins =
      (left.strongest? adjacency index members).map number := by
  have entries : ∀ (weights : List (Nat × α)) (best : Option (Nat × α)),
      (weights.map (renumber number)).foldl right.stronger (best.map (renumber number)) =
        (weights.foldl left.stronger best).map (renumber number) := by
    intro weights
    induction weights with
    | nil => exact fun best => rfl
    | cons entry weights induction =>
      intro best
      rw [List.map_cons, List.foldl_cons, List.foldl_cons, alike.stronger, induction]
  rw [Draft.strongest?, Draft.strongest?, alike.ties adjacency index same]
  refine (congrArg (Option.map Prod.fst) (entries _ none)).trans ?_
  rw [Option.map_map, Option.map_map]
  rfl

/-! ## Settling small clusters -/

theorem join (index target : Nat) {members twins into onto : List Element}
    (same : places twins = places members) (sameInto : places onto = places into) :
    Alike number (left.join index target members into)
      (right.join (number index) (number target) twins onto) where
  clusters other := by
    simp only [Draft.join, Table.get?_put, Table.get?_erase, EmbeddingLike.apply_eq_iff_eq]
    split
    · simp only [Option.map_some, places_sortByPlace, places_append, same, sameInto]
    split
    · rfl
    · exact alike.clusters other
  owner id := by
    simp only [Draft.join, get?_putAll_members, ids_eq_of_places_eq same, alike.owner]
    split <;> rfl
  pool := alike.pool
  leftDistinct := (alike.leftDistinct.erase index).put target _
  rightDistinct := (alike.rightDistinct.erase (number index)).put (number target) _

theorem dissolve (index : Nat) {members twins : List Element}
    (same : places twins = places members) :
    Alike number (left.dissolve index members) (right.dissolve (number index) twins) where
  clusters other := by
    simp only [Draft.dissolve, Table.get?_erase, EmbeddingLike.apply_eq_iff_eq]
    split
    · rfl
    · exact alike.clusters other
  owner id := by
    simp only [Draft.dissolve, get?_eraseAll, ids_eq_of_places_eq same, alike.owner]
    split <;> rfl
  pool := by
    simp only [Draft.dissolve, places_append, same]
    exact alike.pool.append_right (places members)
  leftDistinct := alike.leftDistinct.erase index
  rightDistinct := alike.rightDistinct.erase (number index)

/-- Settling clusters that stand for each other keeps two drafts alike. -/
theorem settle (limits : Limits) (adjacency : Cluster.Adjacency α) (index : Nat) :
    Alike number (left.settle limits adjacency index)
      (right.settle limits adjacency (number index)) := by
  unfold Draft.settle
  cases found : left.clusters.get? index with
  | none =>
    rw [alike.get?_eq_none found]
    exact alike
  | some members =>
    obtain ⟨twins, isTwins, same⟩ := alike.get?_eq_some found
    rw [isTwins]
    simp only [length_eq_of_places_eq same, alike.strongest? adjacency index same]
    split
    · exact alike
    cases left.strongest? adjacency index members with
    | none => exact alike.dissolve index same
    | some target =>
      cases isInto : left.clusters.get? target with
      | none =>
        simp only [Option.map_some, isInto, alike.get?_eq_none isInto]
        exact alike.dissolve index same
      | some into =>
        obtain ⟨onto, isOnto, sameInto⟩ := alike.get?_eq_some isInto
        simp only [Option.map_some, isInto, isOnto, length_eq_of_places_eq sameInto]
        split
        · exact alike.join index target same sameInto
        · exact alike.dissolve index same

theorem settleAll (limits : Limits) (adjacency : Cluster.Adjacency α) (indices : List Nat) :
    Alike number (indices.foldl (Draft.settle limits adjacency) left)
      ((indices.map number).foldl (Draft.settle limits adjacency) right) := by
  induction indices generalizing left right with
  | nil => exact alike
  | cons index indices induction => exact induction (alike.settle limits adjacency index)

end Alike

/-! ## Finishing -/

/-- The clusters of a draft and the ids left over, from the places of its clusters and its pool. -/
def finishPlaces (limits : Limits) (clusters : List (List Place)) (pool : List Place) :
    List (List String) × List String :=
  let small := clusters.filter (·.length < limits.minSize)
  let large := clusters.filter (limits.minSize ≤ ·.length)
  let cut := Cluster.partition limits.minSize limits.maxSize (Place.sort (pool ++ small.flatten))
  (Text.sortBy idOf ((large ++ cut.chunks).map fun members => Text.sort (members.map Place.id)),
    Text.sort (cut.rest.map Place.id))

theorem finish_eq (limits : Limits) (draft : Draft) :
    draft.finish limits =
      finishPlaces limits (draft.clusters.values.map places) (places draft.pool) := by
  have sized (wanted : Nat → Bool) :
      (draft.clusters.values.map places).filter (fun members => wanted members.length) =
        (draft.clusters.values.filter fun members => wanted members.length).map places := by
    simp only [List.filter_map, Function.comp_def, length_places]
  have small := sized fun length => decide (length < limits.minSize)
  have large := sized fun length => decide (limits.minSize ≤ length)
  have flattened (lists : List (List Element)) :
      (lists.map places).flatten = places lists.flatten := by
    rw [places, List.map_flatten]
    rfl
  simp only [finishPlaces, small, large, flattened, ← places_append, ← places_sortByPlace,
    chunks_places, rest_places, ← List.map_append, List.map_map, Function.comp_def, map_id_places]
  rfl

theorem finishPlaces_eq_of_perm (limits : Limits) {leftClusters rightClusters : List (List Place)}
    {leftPool rightPool : List Place} (clusters : leftClusters.Perm rightClusters)
    (pool : leftPool.Perm rightPool)
    (separated : ∀ first ∈ (finishPlaces limits leftClusters leftPool).1,
      ∀ second ∈ (finishPlaces limits leftClusters leftPool).1,
        idOf first = idOf second → first = second) :
    finishPlaces limits leftClusters leftPool = finishPlaces limits rightClusters rightPool := by
  have sorted : Place.sort (leftPool ++ (leftClusters.filter (·.length < limits.minSize)).flatten) =
      Place.sort (rightPool ++ (rightClusters.filter (·.length < limits.minSize)).flatten) :=
    Place.sort_eq_of_perm (pool.append (clusters.filter _).flatten)
  simp only [finishPlaces, Text.mem_sortBy] at separated ⊢
  rw [← sorted]
  congr 1
  refine Text.sortBy_eq_of_perm (List.Perm.map _ ?_) separated
  exact (clusters.filter _).append_right _

/-- Drafts that are alike finish with the same clusters, if ids tell these apart. -/
theorem Alike.finish {number : Equiv.Perm Nat} {left right : Draft}
    (alike : Alike number left right) (limits : Limits)
    (separated : ∀ first ∈ (left.finish limits).1, ∀ second ∈ (left.finish limits).1,
      idOf first = idOf second → first = second) :
    left.finish limits = right.finish limits := by
  rw [finish_eq] at separated
  rw [finish_eq, finish_eq]
  apply finishPlaces_eq_of_perm limits ?_ alike.pool separated
  exact alike.leftDistinct.perm_map_values alike.rightDistinct number alike.clusters

end Draft
end Boundary
end CodeAtlas
