import CodeAtlas.Proofs.Boundary.Draft
import CodeAtlas.Proofs.Element
import CodeAtlas.Proofs.List
import Mathlib.Data.List.Flatten

/-!
# Clusters and the order of elements

The groups that labels make are opened as clusters one after another. In which order this happens
depends on the order of the elements, and it decides only which number a cluster gets. So clusters
are the same whenever the places of the elements are, in whatever order.
-/

namespace CodeAtlas
namespace Boundary

/-! ## Opening clusters -/

/-- The clusters that a sorted group is opened as, with whether they are too small. -/
def pieces (limits : Limits) (group : List Place) : List (List Place × Bool) :=
  if limits.maxSize < group.length then
    (Cluster.partition limits.minSize limits.maxSize group).chunks.map (·, false)
  else
    [(group, decide (group.length < limits.minSize))]

/-- What a sorted group leaves to the pool. -/
def leftOver (limits : Limits) (group : List Place) : List Place :=
  if limits.maxSize < group.length then
    (Cluster.partition limits.minSize limits.maxSize group).rest
  else
    []

/-- A list of openings has an id at an index. -/
def Holds (openings : List (List Place × Bool)) (index : Nat) (id : String) : Prop :=
  ∃ opening, openings[index]? = some opening ∧ id ∈ opening.1.map Place.id

/-- A draft has opened clusters one after another. -/
structure Draft.Opened (openings : List (List Place × Bool)) (pool : List Place)
    (draft : Draft) : Prop where
  /-- The openings have the numbers so far. -/
  next_eq : draft.next = openings.length
  /-- The clusters are the openings. -/
  clusters : ∀ index, (draft.clusters.get? index).map places = (openings[index]?).map Prod.fst
  /-- The clusters hold each number once. -/
  distinct : draft.clusters.Distinct
  /-- An element is in a cluster that has its id. -/
  holds : ∀ id index, draft.owner.get? id = some index → Holds openings index id
  /-- An element that is in no cluster has an id that no cluster has. -/
  absent : ∀ id, draft.owner.get? id = none → ∀ index, ¬ Holds openings index id
  /-- The small clusters are those that were opened as such. -/
  small_iff : ∀ index, index ∈ draft.small ↔ ∃ members, openings[index]? = some (members, true)
  /-- No small cluster is listed twice. -/
  small_nodup : draft.small.Nodup
  /-- What is left over is in the pool. -/
  pool_eq : places draft.pool = pool

theorem Draft.opened_empty : Opened [] [] Draft.empty where
  next_eq := rfl
  clusters _ := rfl
  distinct := Table.distinct_empty
  holds _ _ found := by simp [Draft.empty] at found
  absent _ _ _ := by simp [Holds]
  small_iff _ := by simp [Draft.empty]
  small_nodup := List.nodup_nil
  pool_eq := rfl

theorem holds_append_singleton {openings : List (List Place × Bool)} {opening : List Place × Bool}
    {index : Nat} {id : String} :
    Holds (openings ++ [opening]) index id ↔
      if index = openings.length then id ∈ opening.1.map Place.id else Holds openings index id := by
  rw [Holds, getElem?_append_singleton]
  split
  · simp
  · rfl

theorem Draft.Opened.lt_of_mem_small {openings : List (List Place × Bool)} {pool : List Place}
    {draft : Draft} (opened : Opened openings pool draft) {index : Nat}
    (member : index ∈ draft.small) : index < draft.next := by
  obtain ⟨members, isOpening⟩ := (opened.small_iff index).mp member
  rw [opened.next_eq]
  exact (List.getElem?_eq_some_iff.mp isOpening).1

/-- A draft with one more cluster, which is too small or not. -/
def Draft.addPiece (draft : Draft) (members : List Element) (isSmall : Bool) : Draft :=
  { draft.add members with
    small := if isSmall then draft.small ++ [draft.next] else draft.small }

theorem Draft.Opened.addPiece {openings : List (List Place × Bool)} {pool : List Place}
    {draft : Draft} (opened : Opened openings pool draft) (members : List Element)
    (isSmall : Bool) :
    Opened (openings ++ [(places members, isSmall)]) pool (draft.addPiece members isSmall) where
  next_eq := by
    rw [List.length_append, List.length_singleton, ← opened.next_eq]
    rfl
  clusters index := by
    simp only [Draft.addPiece, Draft.add, Table.get?_put, getElem?_append_singleton,
      opened.next_eq]
    split
    · rfl
    · exact opened.clusters index
  distinct := opened.distinct.put draft.next members
  holds id index found := by
    simp only [Draft.addPiece, Draft.add, get?_putAll_members, opened.next_eq] at found
    rw [holds_append_singleton, map_id_places]
    split at found
    case isTrue member =>
      rw [if_pos (Option.some.inj found).symm]
      exact member
    case isFalse =>
      obtain ⟨opening, isOpening, member⟩ := opened.holds id index found
      rw [if_neg (List.getElem?_eq_some_iff.mp isOpening).1.ne]
      exact ⟨opening, isOpening, member⟩
  absent id none index := by
    simp only [Draft.addPiece, Draft.add, get?_putAll_members] at none
    rw [holds_append_singleton, map_id_places]
    split at none
    case isTrue => simp at none
    case isFalse notMember =>
      split
      · exact notMember
      · exact opened.absent id none index
  small_iff index := by
    rw [getElem?_append_singleton, ← opened.next_eq]
    have old := opened.small_iff index
    cases isSmall with
    | false =>
      split
      case isTrue last =>
        have unlisted : index ∉ draft.small := fun member =>
          (opened.lt_of_mem_small member).ne last
        simpa [Draft.addPiece] using unlisted
      case isFalse => exact old
    | true =>
      split
      case isTrue last => simp [Draft.addPiece, last]
      case isFalse other => simpa [Draft.addPiece, other] using old
  small_nodup := by
    cases isSmall with
    | false => exact opened.small_nodup
    | true =>
      refine opened.small_nodup.append (List.nodup_singleton draft.next) ?_
      rw [List.disjoint_singleton]
      exact fun member => (opened.lt_of_mem_small member).ne rfl
  pool_eq := opened.pool_eq

theorem Draft.Opened.addChunks {openings : List (List Place × Bool)} {pool : List Place}
    {draft : Draft} (opened : Opened openings pool draft) (chunks : List (List Element)) :
    Opened (openings ++ (chunks.map places).map (·, false)) pool
      (chunks.foldl Draft.add draft) := by
  induction chunks generalizing openings draft with
  | nil => simpa using opened
  | cons chunk chunks induction =>
    have rest := induction (opened.addPiece chunk false)
    rw [List.append_assoc] at rest
    exact rest

theorem Draft.Opened.addGroup (limits : Limits) {openings : List (List Place × Bool)}
    {pool : List Place} {draft : Draft} (opened : Opened openings pool draft)
    (group : List Element) :
    Opened (openings ++ pieces limits (Place.sort (places group)))
      (pool ++ leftOver limits (Place.sort (places group))) (draft.addGroup limits group) := by
  rw [← places_sortByPlace]
  simp only [Draft.addGroup, pieces, leftOver, length_places]
  split
  · rw [chunks_places, rest_places]
    have added := opened.addChunks (Cluster.partition limits.minSize limits.maxSize
      (sortByPlace group)).chunks
    exact { added with
      pool_eq := by rw [places_append, added.pool_eq] }
  · rw [List.append_nil]
    split
    case isTrue small =>
      rw [decide_eq_true small]
      exact opened.addPiece (sortByPlace group) true
    case isFalse large =>
      rw [decide_eq_false large]
      exact opened.addPiece (sortByPlace group) false

theorem Draft.Opened.addGroups (limits : Limits) {openings : List (List Place × Bool)}
    {pool : List Place} {draft : Draft} (opened : Opened openings pool draft)
    (groups : List (List Element)) :
    Opened
      (openings ++ (groups.map fun group => Place.sort (places group)).flatMap (pieces limits))
      (pool ++ (groups.map fun group => Place.sort (places group)).flatMap (leftOver limits))
      (groups.foldl (Draft.addGroup limits) draft) := by
  induction groups generalizing openings pool draft with
  | nil => simpa using opened
  | cons group groups induction =>
    have rest := induction (opened.addGroup limits group)
    rw [List.append_assoc, List.append_assoc] at rest
    exact rest

/-! ## The numbers of clusters -/

/-- A permutation of the numbers after the first. -/
def shift (number : Equiv.Perm Nat) : Equiv.Perm Nat where
  toFun
    | 0 => 0
    | index + 1 => number index + 1
  invFun
    | 0 => 0
    | index + 1 => number.symm index + 1
  left_inv index := by cases index <;> simp
  right_inv index := by cases index <;> simp

theorem exists_number_of_perm {α : Type} {left right : List α} (perm : left.Perm right) :
    ∃ number : Equiv.Perm Nat, ∀ index, right[number index]? = left[index]? := by
  induction perm with
  | nil => exact ⟨.refl Nat, fun index => rfl⟩
  | cons value _ induction =>
    obtain ⟨number, same⟩ := induction
    refine ⟨shift number, fun index => ?_⟩
    cases index with
    | zero => rfl
    | succ index => exact same index
  | swap first second rest =>
    refine ⟨Equiv.swap 0 1, fun index => ?_⟩
    match index with
    | 0 => simp
    | 1 => simp
    | index + 2 => rw [Equiv.swap_apply_of_ne_of_ne (by omega) (by omega)]; rfl
  | trans _ _ leftInduction rightInduction =>
    obtain ⟨first, leftSame⟩ := leftInduction
    obtain ⟨second, rightSame⟩ := rightInduction
    exact ⟨first.trans second, fun index => (rightSame (first index)).trans (leftSame index)⟩

theorem holds_number_iff {left right : List (List Place × Bool)} {number : Equiv.Perm Nat}
    (same : ∀ index, right[number index]? = left[index]?) (index : Nat) (id : String) :
    Holds right (number index) id ↔ Holds left index id := by
  rw [Holds, Holds, same]

/-- Every id is in one opening at most. -/
def Separate (openings : List (List Place × Bool)) : Prop :=
  ∀ id first second, Holds openings first id → Holds openings second id → first = second

/-- Drafts that have opened the same clusters in another order are alike. -/
theorem Draft.Opened.alike {leftOpenings rightOpenings : List (List Place × Bool)}
    {leftPool rightPool : List Place} {left right : Draft}
    (leftOpened : Opened leftOpenings leftPool left)
    (rightOpened : Opened rightOpenings rightPool right) {number : Equiv.Perm Nat}
    (same : ∀ index, rightOpenings[number index]? = leftOpenings[index]?)
    (separate : Separate leftOpenings)
    (pool : leftPool.Perm rightPool) : Alike number left right where
  clusters index := by rw [rightOpened.clusters, leftOpened.clusters, same]
  owner id := by
    cases isRight : right.owner.get? id with
    | none =>
      cases isLeft : left.owner.get? id with
      | none => rfl
      | some index =>
        have held := (holds_number_iff same index id).mpr (leftOpened.holds id index isLeft)
        exact absurd held (rightOpened.absent id isRight (number index))
    | some target =>
      obtain ⟨index, rfl⟩ := number.surjective target
      have held := (holds_number_iff same index id).mp (rightOpened.holds id (number index) isRight)
      cases isLeft : left.owner.get? id with
      | none => exact absurd held (leftOpened.absent id isLeft index)
      | some other =>
        rw [separate id index other held (leftOpened.holds id other isLeft)]
        rfl
  pool := by rw [leftOpened.pool_eq, rightOpened.pool_eq]; exact pool
  leftDistinct := leftOpened.distinct
  rightDistinct := rightOpened.distinct

/-! ## The order of small clusters -/

instance {α : Type} (key : α → Place) :
    Std.TransCmp fun left right => Place.order (key left) (key right) where
  eq_swap := Std.OrientedCmp.eq_swap
  isLE_trans := Std.TransCmp.isLE_trans

/-- The place that a cluster starts at. -/
def Draft.start (draft : Draft) (index : Nat) : Place :=
  ((draft.first? index).map placeOf).getD ⟨"", 0, ""⟩

theorem Draft.smallInOrder_eq {draft : Draft}
    (present : ∀ index ∈ draft.small, (draft.first? index).isSome) :
    draft.smallInOrder = draft.small.mergeSort fun left right =>
      Place.order (draft.start left) (draft.start right) != .gt := by
  have starts (left right : Nat) (leftSmall : left ∈ draft.small)
      (rightSmall : right ∈ draft.small) :
      (!draft.startsBefore right left) =
        (Place.order (draft.start left) (draft.start right) != .gt) := by
    obtain ⟨first, isFirst⟩ := Option.isSome_iff_exists.mp (present left leftSmall)
    obtain ⟨second, isSecond⟩ := Option.isSome_iff_exists.mp (present right rightSmall)
    have swapped : Place.order (placeOf second) (placeOf first) =
        (Place.order (placeOf first) (placeOf second)).swap := Std.OrientedCmp.eq_swap
    rw [startsBefore_eq, Draft.start, Draft.start, isFirst, isSecond]
    simp only [Option.map_some, Option.getD_some, swapped]
    cases Place.order (placeOf first) (placeOf second) <;> rfl
  have sorted := List.map_mergeSort (f := fun index => index)
    (fun left leftSmall right rightSmall => starts left right leftSmall rightSmall)
  simpa [Draft.smallInOrder] using sorted

theorem Draft.Opened.holds_start {openings : List (List Place × Bool)} {pool : List Place}
    {draft : Draft} (opened : Opened openings pool draft)
    (full : ∀ members, (members, true) ∈ openings → members ≠ []) {index : Nat}
    (isSmall : index ∈ draft.small) :
    (draft.first? index).isSome ∧ Holds openings index (draft.start index).id := by
  obtain ⟨members, isOpening⟩ := (opened.small_iff index).mp isSmall
  have cluster := opened.clusters index
  rw [isOpening, Option.map_some] at cluster
  obtain ⟨first, rest, rfl⟩ := List.exists_cons_of_ne_nil
    (full members (List.mem_of_getElem? isOpening))
  have start : (draft.first? index).map placeOf = some first := by
    rw [map_first?_eq, cluster]
    rfl
  refine ⟨?_, (first :: rest, true), isOpening, ?_⟩
  · rw [← Option.isSome_map, start]
    rfl
  · rw [Draft.start, start]
    exact List.mem_cons_self

/-- Small clusters are settled in an order that does not depend on their numbers. -/
theorem Draft.Opened.smallInOrder {leftOpenings rightOpenings : List (List Place × Bool)}
    {leftPool rightPool : List Place} {left right : Draft}
    (leftOpened : Opened leftOpenings leftPool left)
    (rightOpened : Opened rightOpenings rightPool right) {number : Equiv.Perm Nat}
    (alike : Alike number left right)
    (same : ∀ index, rightOpenings[number index]? = leftOpenings[index]?)
    (separate : Separate leftOpenings)
    (full : ∀ members, (members, true) ∈ leftOpenings → members ≠ []) :
    right.smallInOrder = left.smallInOrder.map number := by
  have listed (index : Nat) : number index ∈ right.small ↔ index ∈ left.small := by
    rw [rightOpened.small_iff, leftOpened.small_iff, same]
  have perm : (left.small.map number).Perm right.small := by
    apply (List.perm_ext_iff_of_nodup (leftOpened.small_nodup.map number.injective)
      rightOpened.small_nodup).mpr
    intro target
    obtain ⟨index, rfl⟩ := number.surjective target
    rw [listed, List.mem_map_of_injective number.injective]
  have start (index : Nat) : right.start (number index) = left.start index := by
    rw [Draft.start, Draft.start, alike.map_first?]
  have rightPresent : ∀ index ∈ right.small, (right.first? index).isSome := by
    intro target member
    obtain ⟨index, rfl⟩ := number.surjective target
    have present := (leftOpened.holds_start full ((listed index).mp member)).1
    rw [← Option.isSome_map, ← alike.map_first?, Option.isSome_map] at present
    exact present
  rw [Draft.smallInOrder_eq rightPresent,
    Draft.smallInOrder_eq fun index member => (leftOpened.holds_start full member).1,
    List.map_mergeSort (s := fun left' right' =>
      Place.order (right.start left') (right.start right') != .gt)
      fun first _ second _ => by rw [start, start]]
  refine (mergeSort_eq_of_perm (fun left' right' =>
    Place.order (right.start left') (right.start right')) perm ?_).symm
  intro first firstMember second secondMember equal
  obtain ⟨first, firstSmall, rfl⟩ := List.mem_map.mp firstMember
  obtain ⟨second, secondSmall, rfl⟩ := List.mem_map.mp secondMember
  rw [start, start] at equal
  have firstHeld := (leftOpened.holds_start full firstSmall).2
  rw [Std.LawfulEqCmp.eq_of_compare equal] at firstHeld
  rw [separate _ first second firstHeld (leftOpened.holds_start full secondSmall).2]

/-! ## Groups -/

/-- The places of the groups that labels make, each sorted. -/
def sortedGroups (labels : Cluster.Labels) (elements : List Element) : List (List Place) :=
  (labelGroups labels elements).values.map fun group => Place.sort (places group)

theorem mem_values_labelGroups {labels : Cluster.Labels} {elements group : List Element}
    {label : String} (member : (label, group) ∈ (labelGroups labels elements).entries) :
    group ≠ [] ∧
      group = elements.filter fun element => (labels.get? element.id).getD element.id = label := by
  have found := (Table.distinct_group _ elements).get?_eq_some_iff.mpr member
  rw [Table.get?_group] at found
  split at found
  case isTrue => simp at found
  case isFalse full =>
    rw [← Option.some.inj found]
    exact ⟨full, rfl⟩

theorem sortedGroups_perm (labels : Cluster.Labels) {left right : List Element}
    (perm : (places left).Perm (places right)) :
    (sortedGroups labels left).Perm (sortedGroups labels right) := by
  apply (Table.distinct_group _ left).perm_map_values (Table.distinct_group _ right) (.refl String)
  intro label
  have filtered (elements : List Element) :
      places (elements.filter fun element => (labels.get? element.id).getD element.id = label) =
        (places elements).filter fun place => (labels.get? place.id).getD place.id = label := by
    rw [places, places, List.filter_map]
    rfl
  have groups := perm.filter fun place => (labels.get? place.id).getD place.id = label
  rw [← filtered, ← filtered] at groups
  have empty : (left.filter fun element => (labels.get? element.id).getD element.id = label) = [] ↔
      (right.filter fun element => (labels.get? element.id).getD element.id = label) = [] := by
    rw [← List.length_eq_zero_iff, ← List.length_eq_zero_iff, ← length_places, groups.length_eq,
      length_places]
  rw [Equiv.refl_apply, Table.get?_group, Table.get?_group]
  by_cases none : (left.filter fun element => (labels.get? element.id).getD element.id = label) = []
  · rw [if_pos none, if_pos (empty.mp none)]
  · rw [if_neg none, if_neg fun other => none (empty.mpr other), Option.map_some, Option.map_some,
      Place.sort_eq_of_perm groups]

theorem nodup_sortedGroups (labels : Cluster.Labels) {elements : List Element}
    (distinct : DistinctIds elements) :
    ((sortedGroups labels elements).flatMap fun group => group.map Place.id).Nodup := by
  have perm : ((sortedGroups labels elements).flatMap fun group => group.map Place.id).Perm
      ((labelGroups labels elements).entries.flatMap fun entry => entry.2.map Element.id) := by
    rw [sortedGroups, Table.values, List.map_map, List.flatMap_map]
    refine List.Perm.flatMap_left _ fun entry _ => ?_
    rw [← map_id_places]
    exact (Place.sort_perm _).map Place.id
  rw [perm.nodup_iff, List.nodup_flatMap]
  constructor
  · rintro ⟨label, group⟩ member
    rw [(mem_values_labelGroups member).2]
    exact distinct.filter _
  · have keys : (labelGroups labels elements).entries.Pairwise fun first second =>
        first.1 ≠ second.1 := List.pairwise_map.mp (Table.distinct_group _ elements)
    refine List.Pairwise.imp_of_mem ?_ keys
    rintro ⟨firstLabel, firstGroup⟩ ⟨secondLabel, secondGroup⟩ firstMember secondMember different
    change (firstGroup.map Element.id).Disjoint (secondGroup.map Element.id)
    rw [List.disjoint_left, (mem_values_labelGroups firstMember).2,
      (mem_values_labelGroups secondMember).2]
    intro id inFirst inSecond
    obtain ⟨first, isFirst, rfl⟩ := List.mem_map.mp inFirst
    obtain ⟨second, isSecond, sameId⟩ := List.mem_map.mp inSecond
    rw [List.mem_filter, decide_eq_true_eq] at isFirst isSecond
    have same := distinct.eq_of_id_eq isSecond.1 isFirst.1 sameId
    subst same
    exact different (isFirst.2.symm.trans isSecond.2)

theorem separate_of_nodup {openings : List (List Place × Bool)}
    (nodup : (openings.flatMap fun opening => opening.1.map Place.id).Nodup) :
    Separate openings := by
  have disjoint := List.pairwise_iff_getElem.mp (List.nodup_flatMap.mp nodup).2
  rintro id first second ⟨opening, isFirst, inFirst⟩ ⟨other, isSecond, inSecond⟩
  obtain ⟨first_lt, rfl⟩ := List.getElem?_eq_some_iff.mp isFirst
  obtain ⟨second_lt, rfl⟩ := List.getElem?_eq_some_iff.mp isSecond
  rcases lt_trichotomy first second with less | equal | greater
  · exact absurd inSecond (List.disjoint_left.mp (disjoint _ _ first_lt second_lt less) inFirst)
  · exact equal
  · exact absurd inFirst (List.disjoint_left.mp (disjoint _ _ second_lt first_lt greater) inSecond)

theorem flatMap_pieces_sublist (limits : Limits) (group : List Place) :
    ((pieces limits group).flatMap fun piece => piece.1.map Place.id).Sublist
      (group.map Place.id) := by
  unfold pieces
  split
  · rw [List.flatMap_map, List.flatMap_def, ← List.map_flatten]
    exact (Cluster.flatten_chunks_sublist _ _ group).map Place.id
  · simp

theorem full_of_mem_pieces {limits : Limits} {group members : List Place} (full : group ≠ [])
    (member : (members, true) ∈ pieces limits group) : members ≠ [] := by
  unfold pieces at member
  split at member
  · simp at member
  · simp only [List.mem_singleton, Prod.mk.injEq] at member
    rw [member.1]
    exact full

/-- The openings of the groups that labels make. -/
def groupOpenings (limits : Limits) (labels : Cluster.Labels) (elements : List Element) :
    List (List Place × Bool) :=
  (sortedGroups labels elements).flatMap (pieces limits)

theorem separate_groupOpenings (limits : Limits) (labels : Cluster.Labels)
    {elements : List Element} (distinct : DistinctIds elements) :
    Separate (groupOpenings limits labels elements) := by
  apply separate_of_nodup
  rw [groupOpenings, List.flatMap_assoc]
  exact (nodup_sortedGroups labels distinct).sublist
    (List.Sublist.flatMap_right _ fun group _ => flatMap_pieces_sublist limits group)

theorem full_of_mem_groupOpenings {limits : Limits} {labels : Cluster.Labels}
    {elements : List Element} (members : List Place)
    (member : (members, true) ∈ groupOpenings limits labels elements) : members ≠ [] := by
  obtain ⟨group, isGroup, isPiece⟩ := List.mem_flatMap.mp member
  obtain ⟨held, isHeld, rfl⟩ := List.mem_map.mp isGroup
  obtain ⟨⟨label, held⟩, isEntry, rfl⟩ := List.mem_map.mp isHeld
  refine full_of_mem_pieces (fun empty => (mem_values_labelGroups isEntry).1 ?_) isPiece
  have nothing := (Place.sort_perm (places held)).symm
  rw [empty] at nothing
  exact List.map_eq_nil_iff.mp nothing.eq_nil

/-! ## Clusters -/

variable {α : Type}

/-- What a relationship ties together, and how. -/
def tie (relationship : Relationship α) : String × String × α :=
  (relationship.sourceId, relationship.targetId, relationship.strength)

variable [Scalar α]

theorem adjacencyOf_eq (relationships : List (Relationship α)) :
    adjacencyOf relationships =
      (relationships.map tie).foldl (fun adjacency (sourceId, targetId, strength) =>
        Cluster.addUndirected adjacency sourceId targetId strength) Table.empty := by
  rw [List.foldl_map]
  rfl

/-- The clusters of elements that have labels. -/
def clusterLabelled (limits : Limits) (adjacency : Cluster.Adjacency α) (labels : Cluster.Labels)
    (elements : List Element) : List (List String) × List String :=
  let opened := (labelGroups labels elements).values.foldl (Draft.addGroup limits) Draft.empty
  (opened.smallInOrder.foldl (Draft.settle limits adjacency) opened).finish limits

theorem cluster_eq (limits : Limits) (elements : List Element)
    (relationships : List (Relationship α)) :
    cluster limits elements relationships =
      clusterLabelled limits (adjacencyOf relationships)
        (Cluster.propagate (elements.map Element.id) (adjacencyOf relationships) limits.maxSweeps)
        elements := rfl

theorem clusterLabelled_eq_of_places (limits : Limits) (adjacency : Cluster.Adjacency α)
    (labels : Cluster.Labels) {left right : List Element} (distinct : DistinctIds left)
    (samePlaces : (places left).Perm (places right))
    (separated : ∀ first ∈ (clusterLabelled limits adjacency labels left).1,
      ∀ second ∈ (clusterLabelled limits adjacency labels left).1,
        idOf first = idOf second → first = second) :
    clusterLabelled limits adjacency labels left =
      clusterLabelled limits adjacency labels right := by
  have groups := sortedGroups_perm labels samePlaces
  obtain ⟨number, same⟩ := exists_number_of_perm (groups.flatMap_right (pieces limits))
  have leftOpened := Draft.opened_empty.addGroups limits (labelGroups labels left).values
  have rightOpened := Draft.opened_empty.addGroups limits (labelGroups labels right).values
  have separate := separate_groupOpenings limits labels distinct
  have alike := leftOpened.alike rightOpened same separate (groups.flatMap_right (leftOver limits))
  have order := leftOpened.smallInOrder rightOpened alike same separate full_of_mem_groupOpenings
  simp only [clusterLabelled, order]
  exact (alike.settleAll limits adjacency _).finish limits separated

/-- Elements at the same places with the same ties have the same clusters. -/
theorem cluster_eq_of_places (limits : Limits) {left right : List Element}
    {leftTies rightTies : List (Relationship α)} (distinct : DistinctIds left)
    (samePlaces : (places left).Perm (places right))
    (sameTies : leftTies.map tie = rightTies.map tie)
    (separated : ∀ first ∈ (cluster limits left leftTies).1,
      ∀ second ∈ (cluster limits left leftTies).1, idOf first = idOf second → first = second) :
    cluster limits left leftTies = cluster limits right rightTies := by
  have adjacency : adjacencyOf leftTies = adjacencyOf rightTies := by
    rw [adjacencyOf_eq, adjacencyOf_eq, sameTies]
  have ids : (left.map Element.id).Perm (right.map Element.id) := by
    rw [← map_id_places, ← map_id_places]
    exact samePlaces.map Place.id
  rw [cluster_eq] at separated
  rw [cluster_eq, cluster_eq, clusterLabelled_eq_of_places limits _ _ distinct samePlaces separated,
    Cluster.propagate, Cluster.propagate, adjacency, Text.sort_eq_of_perm ids]

end Boundary
end CodeAtlas
