import CodeAtlas.Proofs.Boundary.Members
import CodeAtlas.Proofs.Cluster.Propagation
import CodeAtlas.Proofs.Graph.Multiplicity

/-!
# Boundaries and the order of elements and relationships

The order of relationships decides in which order the neighbours of an id are listed, and so the
order in which ties are weighed when a small cluster looks for another one to join. Ties of equal
weight are told apart by where the clusters start, which no two open clusters share. So every small
cluster makes the same choice, and boundaries depend neither on the order of elements nor on that of
relationships.
-/

namespace CodeAtlas
namespace Boundary

open DependencyGraph
open Cluster

/-! ## Neighbours -/

theorem adjacencyOf_eq_foldl {α : Type} [Scalar α] (relationships : List (Relationship α)) :
    adjacencyOf relationships =
      (relationships.flatMap fun relationship =>
        directions relationship.sourceId relationship.targetId relationship.strength).foldl
          (fun adjacency step => addDirected adjacency step.1 step.2.1 step.2.2) Table.empty := by
  rw [List.foldl_flatMap, adjacencyOf]
  simp only [addUndirected_eq]

theorem sameNeighbours_adjacencyOf {left right : List (Relationship Rat)}
    (perm : left.Perm right) : SameNeighbours (adjacencyOf left) (adjacencyOf right) := by
  intro id
  rw [adjacencyOf_eq_foldl, adjacencyOf_eq_foldl, neighboursOf_foldl_addDirected,
    neighboursOf_foldl_addDirected]
  exact entries_tally_perm (((perm.flatMap_right _).filter _).map Prod.snd)

namespace Draft

/-! ## Weighing ties -/

section Ties

variable {α : Type} [Scalar α]

/-- The cluster that a neighbour is in with the weight of the edge to it, unless it is the given
cluster. -/
def tied (draft : Draft) (index : Nat) (neighbour : String × α) : Option (Nat × α) :=
  (draft.owner.get? neighbour.1).bind fun target =>
    if target = index then none else some (target, neighbour.2)

/-- The clusters that the neighbours of members are in, with the weights of the edges to them. -/
def tiedTo (adjacency : Adjacency α) (draft : Draft) (index : Nat) (members : List Element) :
    List (Nat × α) :=
  (members.flatMap fun member => neighboursOf adjacency member.id).filterMap (draft.tied index)

theorem ties_eq_tally (adjacency : Adjacency α) (draft : Draft) (index : Nat)
    (members : List Element) :
    draft.ties adjacency index members = tally (draft.tiedTo adjacency index members) := by
  rw [tally, tiedTo, List.foldl_filterMap, ties]
  congr 1
  funext weights neighbour
  simp only [tied]
  cases draft.owner.get? neighbour.1 with
  | none => rfl
  | some target =>
    by_cases same : target = index
    · simp only [Option.bind_some, if_pos same]
    · simp only [Option.bind_some, if_neg same, addWeight]

omit [Scalar α] in
theorem exists_owner_of_mem_tiedTo {adjacency : Adjacency α} {draft : Draft} {index : Nat}
    {members : List Element} {entry : Nat × α}
    (member : entry ∈ draft.tiedTo adjacency index members) :
    ∃ id, draft.owner.get? id = some entry.1 := by
  obtain ⟨⟨id, weight⟩, -, isTied⟩ := List.mem_filterMap.mp member
  obtain ⟨target, isOwner, other⟩ := Option.bind_eq_some_iff.mp isTied
  split at other
  case isTrue => simp at other
  case isFalse =>
    rw [← Option.some.inj other]
    exact ⟨id, isOwner⟩

theorem strongest?_eq (adjacency : Adjacency α) (draft : Draft) (index : Nat)
    (members : List Element) :
    draft.strongest? adjacency index members =
      (((tally (draft.tiedTo adjacency index members)).entries.filter
        fun entry => Scalar.lt Scalar.zero entry.2).foldl
          (keepBetter (outweighs draft.startsBefore)) none).map Prod.fst := by
  rw [strongest?, ties_eq_tally, List.foldl_filter]
  congr 2
  funext best entry
  unfold stronger
  cases best <;> cases Scalar.lt Scalar.zero entry.2 <;> rfl

end Ties

/-! ## Where clusters start -/

/-- Every element is in the cluster that it is noted to be in. -/
def Owned (draft : Draft) : Prop :=
  ∀ id index, draft.owner.get? id = some index →
    ∃ members, draft.clusters.get? index = some members ∧ id ∈ members.map Element.id

variable {limits : Limits} {elements : List Element} {draft : Draft}

theorem Owned.exists_start (owned : draft.Owned) {id : String} {index : Nat}
    (owns : draft.owner.get? id = some index) :
    ∃ members, ∃ first ∈ members, draft.clusters.get? index = some members ∧
      draft.first? index = some first ∧ draft.start index = placeOf first := by
  obtain ⟨members, found, member⟩ := owned id index owns
  cases members with
  | nil => simp at member
  | cons first rest =>
    have isFirst : draft.first? index = some first := by rw [first?, found]; rfl
    exact ⟨first :: rest, first, List.mem_cons_self, found, isFirst, by rw [start, isFirst]; rfl⟩

theorem Divides.index_eq (divides : draft.Divides limits elements)
    (distinct : DistinctIds elements) {first second : Nat} {members others : List Element}
    {id : String} (found : draft.clusters.get? first = some members)
    (foundOther : draft.clusters.get? second = some others)
    (member : id ∈ members.map Element.id) (other : id ∈ others.map Element.id) :
    first = second := by
  by_contra different
  have kept : others ∈ (draft.clusters.erase first).values := by
    rw [(divides.distinct.erase first).mem_values]
    exact ⟨second, by rw [Table.get?_erase, if_neg (Ne.symm different), foundOther]⟩
  have rest : id ∈ (draft.clusters.erase first).values.flatten.map Element.id := by
    obtain ⟨element, isElement, rfl⟩ := List.mem_map.mp other
    exact List.mem_map_of_mem (List.mem_flatten_of_mem kept isElement)
  have nodup : DistinctIds (draft.clusters.values.flatten ++ draft.pool) :=
    distinct.of_perm divides.perm.symm
  have values := (divides.distinct.values_perm_of_get? found).flatten.map Element.id
  rw [DistinctIds, List.map_append] at nodup
  have divided := values.nodup_iff.mp nodup.of_append_left
  rw [List.flatten_cons, List.map_append] at divided
  exact List.disjoint_of_nodup_append divided member rest

/-- Clusters that elements are in are ranked by where they start. -/
theorem Owned.ranks_startsBefore (owned : draft.Owned) (divides : draft.Divides limits elements)
    (distinct : DistinctIds elements) {indices : List Nat}
    (present : ∀ index ∈ indices, ∃ id, draft.owner.get? id = some index) :
    Ranks draft.startsBefore indices := by
  refine .of_order Place.order draft.start (fun first isFirst second isSecond => ?_)
    fun first isFirst second isSecond same => ?_
  · obtain ⟨id, owns⟩ := present first isFirst
    obtain ⟨otherId, ownsOther⟩ := present second isSecond
    obtain ⟨_, _, _, _, first?_eq, start_eq⟩ := owned.exists_start owns
    obtain ⟨_, _, _, _, otherFirst?_eq, otherStart_eq⟩ := owned.exists_start ownsOther
    rw [startsBefore, first?_eq, otherFirst?_eq, start_eq, otherStart_eq]
    exact beq_iff_eq
  · -- Clusters that start at one place have the id of their first element in common.
    obtain ⟨id, owns⟩ := present first isFirst
    obtain ⟨otherId, ownsOther⟩ := present second isSecond
    obtain ⟨members, head, isHead, found, _, start_eq⟩ := owned.exists_start owns
    obtain ⟨others, other, isOther, foundOther, _, otherStart_eq⟩ := owned.exists_start ownsOther
    rw [start_eq, otherStart_eq] at same
    have sameId : head.id = other.id := congrArg Place.id same
    refine divides.index_eq distinct found foundOther (List.mem_map_of_mem isHead) ?_
    rw [sameId]
    exact List.mem_map_of_mem isOther

/-- With the same neighbours members are tied to the same cluster most. -/
theorem Owned.strongest?_eq (owned : draft.Owned) (divides : draft.Divides limits elements)
    (distinct : DistinctIds elements) {left right : Adjacency Rat}
    (same : SameNeighbours left right) (index : Nat) (members : List Element) :
    draft.strongest? left index members = draft.strongest? right index members := by
  have tied : (draft.tiedTo left index members).Perm (draft.tiedTo right index members) :=
    (List.Perm.flatMap_left members fun member _ => same member.id).filterMap _
  have totals := (entries_tally_perm tied).filter fun entry => Scalar.lt Scalar.zero entry.2
  have starts : Ranks draft.startsBefore (tally (draft.tiedTo left index members)).keys := by
    refine owned.ranks_startsBefore divides distinct fun target isTarget => ?_
    obtain ⟨entry, isEntry, rfl⟩ := List.mem_map.mp (mem_of_mem_keys_tally isTarget)
    exact exists_owner_of_mem_tiedTo isEntry
  have best := (ranks_outweighs (starts.of_subset
    (List.filter_sublist.map Prod.fst).subset)).foldl_eq_of_perm totals
  rw [Draft.strongest?_eq, Draft.strongest?_eq, best]

/-! ## Settling small clusters -/

theorem Opened.owned {openings : List (List Place × Bool)} {pool : List Place}
    (opened : Opened openings pool draft) : draft.Owned := by
  intro id index owns
  obtain ⟨opening, isOpening, member⟩ := opened.holds id index owns
  have cluster := opened.clusters index
  rw [isOpening, Option.map_some] at cluster
  obtain ⟨members, found, same⟩ := Option.map_eq_some_iff.mp cluster
  refine ⟨members, found, ?_⟩
  rw [← map_id_places, same]
  exact member

theorem Owned.ne_of_notMem (owned : draft.Owned) {index other : Nat} {members : List Element}
    {id : String} (found : draft.clusters.get? index = some members)
    (owns : draft.owner.get? id = some other) (absent : id ∉ members.map Element.id) :
    other ≠ index := by
  rintro rfl
  obtain ⟨others, isOthers, member⟩ := owned id other owns
  rw [found] at isOthers
  exact absent (Option.some.inj isOthers ▸ member)

theorem Owned.dissolve (owned : draft.Owned) {index : Nat} {members : List Element}
    (found : draft.clusters.get? index = some members) : (draft.dissolve index members).Owned := by
  intro id other owns
  rw [Draft.dissolve, get?_eraseAll] at owns
  split at owns
  case isTrue => simp at owns
  case isFalse absent =>
    obtain ⟨others, isOthers, member⟩ := owned id other owns
    refine ⟨others, ?_, member⟩
    rw [Draft.dissolve, Table.get?_erase, if_neg (owned.ne_of_notMem found owns absent), isOthers]

theorem Owned.join (owned : draft.Owned) {index target : Nat} {members into : List Element}
    (found : draft.clusters.get? index = some members)
    (foundInto : draft.clusters.get? target = some into) :
    (draft.join index target members into).Owned := by
  have joined (id : String) : id ∈ (sortByPlace (into ++ members)).map Element.id ↔
      id ∈ into.map Element.id ∨ id ∈ members.map Element.id := by
    rw [((sortByPlace_perm _).map Element.id).mem_iff, List.map_append, List.mem_append]
  intro id other owns
  simp only [Draft.join, get?_putAll_members] at owns
  simp only [Draft.join, Table.get?_put, Table.get?_erase]
  split at owns
  case isTrue member =>
    obtain rfl := Option.some.inj owns
    exact ⟨_, if_pos rfl, (joined id).mpr (.inr member)⟩
  case isFalse absent =>
    obtain ⟨others, isOthers, member⟩ := owned id other owns
    by_cases isTarget : other = target
    · subst isTarget
      obtain rfl := Option.some.inj (foundInto.symm.trans isOthers)
      exact ⟨_, if_pos rfl, (joined id).mpr (.inl member)⟩
    · refine ⟨others, ?_, member⟩
      rw [if_neg isTarget, if_neg (owned.ne_of_notMem found owns absent), isOthers]

theorem Owned.settle {α : Type} [Scalar α] (owned : draft.Owned) (limits : Limits)
    (adjacency : Adjacency α) (index : Nat) : (draft.settle limits adjacency index).Owned := by
  rcases settle_cases limits adjacency draft index with
    kept | ⟨members, found, dissolved | ⟨target, into, -, foundInto, -, joined⟩⟩
  · rw [kept]
    exact owned
  · rw [dissolved]
    exact owned.dissolve found
  · rw [joined]
    exact owned.join found foundInto

theorem Owned.settleAll_eq (owned : draft.Owned) (divides : draft.Divides limits elements)
    (distinct : DistinctIds elements) {left right : Adjacency Rat}
    (same : SameNeighbours left right) (indices : List Nat) :
    indices.foldl (Draft.settle limits left) draft =
      indices.foldl (Draft.settle limits right) draft := by
  induction indices generalizing draft with
  | nil => rfl
  | cons index indices induction =>
    -- The two runs stay at one draft, so that the invariants are carried along only one of them.
    have step : draft.settle limits left index = draft.settle limits right index := by
      unfold Draft.settle
      simp only [owned.strongest?_eq divides distinct same]
    rw [List.foldl_cons, List.foldl_cons, ← step]
    exact induction (owned.settle limits left index) (divides.settle left index)

end Draft

/-! ## Clusters -/

/-- With the same neighbours elements that have labels make the same clusters. -/
theorem clusterLabelled_eq_of_sameNeighbours {limits : Limits} (positive : 1 ≤ limits.minSize)
    (ordered : limits.minSize ≤ limits.maxSize) {left right : Adjacency Rat}
    (same : SameNeighbours left right) (labels : Labels) {elements : List Element}
    (distinct : DistinctIds elements) :
    clusterLabelled limits left labels elements =
      clusterLabelled limits right labels elements := by
  let groups := (labelGroups labels elements).values
  have perm : groups.flatten.Perm elements := Table.flatten_values_group_perm _ elements
  have owned := (Draft.opened_empty.addGroups limits groups).owned
  have divides := ((Draft.divides_empty limits).addGroups positive ordered groups).of_perm perm
  exact congrArg (Draft.finish limits) (owned.settleAll_eq divides distinct same _)

/-- Elements and ties in another order make the same clusters, if ids tell these apart. -/
theorem cluster_eq_of_perm {limits : Limits} (positive : 1 ≤ limits.minSize)
    (ordered : limits.minSize ≤ limits.maxSize) {left right : List Element}
    {leftTies rightTies : List (Relationship Rat)} (distinct : DistinctIds left)
    (perm : left.Perm right) (ties : leftTies.Perm rightTies)
    (ids : IdsTellApart (cluster limits left leftTies).1) :
    cluster limits left leftTies = cluster limits right rightTies := by
  -- The ties are exchanged first, for one order of the elements, and then the elements.
  have same := sameNeighbours_adjacencyOf ties
  rw [cluster_eq, cluster_eq, ← same.propagate_eq (perm.map Element.id),
    ← clusterLabelled_eq_of_sameNeighbours positive ordered same _ (distinct.of_perm perm)]
  exact clusterLabelled_eq_of_places limits _ _ distinct (perm.map placeOf) ids

theorem structural_perm {α : Type} {left right : List Element} (perm : left.Perm right)
    {relationships others : List (Relationship α)} (relationshipsPerm : relationships.Perm others) :
    (structural left relationships).Perm (structural right others) := by
  have ids (id : String) : (left.map Element.id).contains id = (right.map Element.id).contains id :=
    (perm.map Element.id).contains_eq
  unfold structural
  simp only [ids]
  exact relationshipsPerm.filter _

/-! ## Boundaries -/

theorem sameAt_of_edges_perm {α : Type} {kinds : List RelationshipKind}
    {left right : DependencyGraph α} (same : SameCounts kinds left right)
    (perm : left.edges.Perm right.edges) (id : String) : SameAt left right id where
  has_eq := by rw [has, has, same.index?_eq]
  targetIds := by
    rw [targetIds, targetIds, outgoing, outgoing, same.index?_eq, funext same.idAt_eq]
    cases right.index? id with
    | none => exact .nil
    | some node => exact ((perm.filter _).filter _).map _
  sourceIds := by
    rw [sourceIds, sourceIds, incoming, incoming, same.index?_eq, funext same.idAt_eq]
    cases right.index? id with
    | none => exact .nil
    | some node => exact ((perm.filter _).filter _).map _
  dependenciesOf := by
    rw [dependenciesOf, dependenciesOf, same.index?_eq, same.next_eq, funext same.idAt_eq]
  isInCycle_eq := same.isInCycle_eq id

/-- Elements and relationships in another order give the same scores. -/
theorem score_build_eq_of_perm {α : Type} [Scalar α] (options : GraphOptions α)
    {elements others : List Element} (distinct : DistinctIds elements)
    (perm : elements.Perm others) {relationships otherRelationships : List (Relationship α)}
    (relationshipsPerm : relationships.Perm otherRelationships)
    (earlier other : Option (DependencyGraph α × List String)) (memberIds : List String) :
    score (build options elements relationships earlier) memberIds =
      score (build options others otherRelationships other) memberIds := by
  rw [← build_eq_of_perm options distinct perm otherRelationships other]
  have same := sameCounts_of_perm options distinct relationshipsPerm earlier other
  have edges := edges_build_perm options elements relationshipsPerm earlier other
  refine score_eq_of_sameAt same.leftBuilt same.rightBuilt ?_ fun id _ =>
    sameAt_of_edges_perm same edges id
  rw [weights_build, weights_build]

/-- Detection gives the same boundaries and leaves the same ids over, in whatever order elements and
relationships are given. -/
theorem detect_eq_of_perm (detector : Detector) (options : GraphOptions Rat)
    (positive : 1 ≤ detector.limits.minSize)
    (ordered : detector.limits.minSize ≤ detector.limits.maxSize)
    {elements others : List Element} {relationships otherRelationships : List (Relationship Rat)}
    (distinct : DistinctIds elements) (perm : elements.Perm others)
    (relationshipsPerm : relationships.Perm otherRelationships)
    (ids : IdsTellApart (clustersOf detector elements relationships))
    (earlier other : Option (DependencyGraph Rat × List String)) :
    let detection := detector.detect elements relationships
      (build options elements relationships earlier) none
    let again := detector.detect others otherRelationships
      (build options others otherRelationships other) none
    detection.boundaries = again.boundaries ∧ detection.unassigned = again.unassigned := by
  intro detection again
  have members : (candidates elements).Perm (candidates others) := perm.filter _
  have distinctMembers : DistinctIds (candidates elements) := distinct.filter _
  have clusters : (detection.clusters, detection.unassigned) =
      (again.clusters, again.unassigned) :=
    cluster_eq_of_perm positive ordered distinctMembers members
      (structural_perm members relationshipsPerm) ids
  obtain ⟨sameClusters, sameUnassigned⟩ := Prod.mk.inj clusters
  refine ⟨?_, sameUnassigned⟩
  have found (id : String) := Table.get?_ofList_eq_of_perm
    (members.map fun element => (element.id, element)) (by rwa [List.map_map]) id
  change nameApart (Text.sortBy Boundary.id (detection.clusters.map _)) =
    nameApart (Text.sortBy Boundary.id (again.clusters.map _))
  rw [sameClusters]
  congr 3
  funext memberIds
  have scores := score_build_eq_of_perm options distinct perm relationshipsPerm earlier other
    memberIds
  simp only [ofCluster, scoreAgain, Option.bind_none, funext found, scores]

/-- The function `a` is tied to two others equally, and a boundary has room for one of them only.
Which one it is does not depend on which tie is given first. -/
theorem detect_eq_of_perm_equal_ties :
    let function (id : String) := Element.sketch id "main.ts" []
    let options : GraphOptions Rat := ⟨RelationshipKind.references, ⟨1, 2, 3⟩⟩
    let elements := [function "a", function "b", function "c", stub "x"]
    let others := [stub "x", function "c", function "b", function "a"]
    let relationships :=
      [Relationship.sketch "a" .dependsOn "b", Relationship.sketch "a" .dependsOn "c"]
    let otherRelationships :=
      [Relationship.sketch "a" .dependsOn "c", Relationship.sketch "a" .dependsOn "b"]
    let detector : Detector := ⟨⟨[], false⟩, ⟨2, 2, 0⟩⟩
    let detection := detector.detect elements relationships
      (build options elements relationships none) none
    let again := detector.detect others otherRelationships
      (build options others otherRelationships none) none
    1 ≤ detector.limits.minSize ∧ detector.limits.minSize ≤ detector.limits.maxSize ∧
      DistinctIds elements ∧ elements.Perm others ∧ relationships.Perm otherRelationships ∧
      IdsTellApart (clustersOf detector elements relationships) ∧
      detection.boundaries = again.boundaries ∧ detection.unassigned = again.unassigned := by
  intro function options elements others relationships otherRelationships detector detection again
  have positive : 1 ≤ detector.limits.minSize := by decide
  have ordered : detector.limits.minSize ≤ detector.limits.maxSize := by decide
  have distinct : DistinctIds elements := by decide
  have perm : elements.Perm others := (List.reverse_perm elements).symm
  have relationshipsPerm : relationships.Perm otherRelationships := .swap ..
  -- Three elements are too few for two clusters of at least two.
  have divided : Grouped detector.limits ((candidates elements).map Element.id)
      (cluster detector.limits (candidates elements)
        (structural (candidates elements) relationships)) :=
    clusterLabelled_divided positive ordered _ _ (candidates elements)
  have few : (clustersOf detector elements relationships).length * 2 ≤ 3 := divided.length_mul_le
  have ids : IdsTellApart (clustersOf detector elements relationships) := by
    match clustersOf detector elements relationships, few with
    | [], _ => simp [IdsTellApart]
    | [single], _ => simp [IdsTellApart]
    | _ :: _ :: rest, few =>
      simp only [List.length_cons] at few
      omega
  exact ⟨positive, ordered, distinct, perm, relationshipsPerm, ids,
    detect_eq_of_perm detector options positive ordered distinct perm relationshipsPerm ids
      none none⟩

end Boundary
end CodeAtlas
