import CodeAtlas.Proofs.Boundary.Reuse
import CodeAtlas.Proofs.Cluster.Partition

/-!
# The members of boundaries

While clusters are opened, joined and dissolved, every element stays in one cluster or in the pool,
and no cluster grows too large. So boundaries and the ids left over share out the elements that can
be in a boundary, and all boundaries are of the wanted size.
-/

namespace CodeAtlas
namespace Boundary

open DependencyGraph
open scoped List

/-- A draft shares out elements among its clusters and its pool. -/
structure Draft.Divides (limits : Limits) (elements : List Element) (draft : Draft) : Prop where
  /-- Every element is in one place. -/
  perm : (draft.clusters.values.flatten ++ draft.pool).Perm elements
  /-- No cluster is too large. -/
  le_maxSize : ∀ members ∈ draft.clusters.values, members.length ≤ limits.maxSize
  /-- Every cluster has a number of its own. -/
  distinct : draft.clusters.Distinct
  /-- Numbers from the next one on are free. -/
  free : ∀ index, draft.next ≤ index → draft.clusters.get? index = none

theorem sortByPlace_perm (elements : List Element) : (sortByPlace elements).Perm elements :=
  List.mergeSort_perm elements _

namespace Draft

variable {limits : Limits} {elements : List Element} {draft : Draft}

/-! ## Opening clusters -/

theorem divides_empty (limits : Limits) : Draft.empty.Divides limits [] where
  perm := .nil
  le_maxSize _ member := by simp [Draft.empty, Table.values, Table.empty] at member
  distinct := Table.distinct_empty
  free _ _ := rfl

theorem Divides.of_perm (divides : draft.Divides limits elements) {others : List Element}
    (perm : elements.Perm others) : draft.Divides limits others :=
  { divides with perm := divides.perm.trans perm }

theorem Divides.add (divides : draft.Divides limits elements) {members : List Element}
    (fits : members.length ≤ limits.maxSize) :
    (draft.add members).Divides limits (elements ++ members) := by
  have values : (draft.clusters.put draft.next members).values.Perm
      (members :: draft.clusters.values) := by
    have put := divides.distinct.values_put_perm draft.next members
    rwa [Table.erase_of_get?_eq_none (divides.free draft.next le_rfl)] at put
  refine ⟨?_, fun others member => ?_, divides.distinct.put draft.next members, ?_⟩
  · calc (draft.clusters.put draft.next members).values.flatten ++ draft.pool
        ~ members ++ draft.clusters.values.flatten ++ draft.pool :=
          values.flatten.append_right draft.pool
      _ = members ++ (draft.clusters.values.flatten ++ draft.pool) := List.append_assoc ..
      _ ~ members ++ elements := divides.perm.append_left members
      _ ~ elements ++ members := List.perm_append_comm
  · rcases List.mem_cons.mp (values.mem_iff.mp member) with rfl | earlier
    · exact fits
    · exact divides.le_maxSize others earlier
  · intro index above
    have later : draft.next < index := above
    rw [Draft.add, Table.get?_put, if_neg later.ne', divides.free index later.le]

theorem Divides.addAll (divides : draft.Divides limits elements) {chunks : List (List Element)}
    (fit : ∀ chunk ∈ chunks, chunk.length ≤ limits.maxSize) :
    (chunks.foldl Draft.add draft).Divides limits (elements ++ chunks.flatten) := by
  induction chunks generalizing draft elements with
  | nil => simpa using divides
  | cons chunk chunks induction =>
    have rest := induction (divides.add (fit chunk List.mem_cons_self))
      fun other member => fit other (List.mem_cons_of_mem chunk member)
    rw [List.append_assoc] at rest
    exact rest

theorem Divides.addGroup (divides : draft.Divides limits elements)
    (positive : 1 ≤ limits.minSize) (ordered : limits.minSize ≤ limits.maxSize)
    (group : List Element) :
    (draft.addGroup limits group).Divides limits (elements ++ group) := by
  refine Divides.of_perm ?_ ((sortByPlace_perm group).append_left elements)
  unfold Draft.addGroup
  dsimp only
  split
  case isTrue =>
    have within := Cluster.partition_within positive ordered (sortByPlace group)
    have opened := divides.addAll within.le_most
    refine ⟨?_, opened.le_maxSize, opened.distinct, opened.free⟩
    have pooled := opened.perm.append_right
      (Cluster.partition limits.minSize limits.maxSize (sortByPlace group)).rest
    rwa [List.append_assoc, List.append_assoc, within.flatten_eq] at pooled
  case isFalse fits =>
    have added := divides.add (Nat.le_of_not_lt fits)
    split
    · exact ⟨added.perm, added.le_maxSize, added.distinct, added.free⟩
    · exact added

theorem Divides.addGroups (divides : draft.Divides limits elements)
    (positive : 1 ≤ limits.minSize) (ordered : limits.minSize ≤ limits.maxSize)
    (groups : List (List Element)) :
    (groups.foldl (Draft.addGroup limits) draft).Divides limits (elements ++ groups.flatten) := by
  induction groups generalizing draft elements with
  | nil => simpa using divides
  | cons group groups induction =>
    have rest := induction (divides.addGroup positive ordered group)
    rw [List.append_assoc] at rest
    exact rest

/-! ## Settling small clusters -/

section Settle

variable {α : Type} [Scalar α]

theorem get?_addTie {index : Nat} {weights : Table Nat α} (absent : weights.get? index = none)
    (entry : String × α) : (draft.addTie index weights entry).get? index = none := by
  unfold Draft.addTie
  split
  · split
    · exact absent
    case isFalse different => rw [Table.get?_update, if_neg (Ne.symm different), absent]
  · exact absent

theorem get?_ties_self (adjacency : Cluster.Adjacency α) (draft : Draft) (index : Nat)
    (members : List Element) : (draft.ties adjacency index members).get? index = none := by
  rw [ties_eq]
  generalize (places members).flatMap _ = entries
  suffices kept : ∀ weights : Table Nat α, weights.get? index = none →
      (entries.foldl (draft.addTie index) weights).get? index = none from kept _ rfl
  induction entries with
  | nil => exact fun weights absent => absent
  | cons entry entries induction =>
    exact fun weights absent => induction _ (get?_addTie absent entry)

theorem mem_of_foldl_stronger {entries : List (Nat × α)} {best : Option (Nat × α)}
    {found : Nat × α} (isFound : entries.foldl draft.stronger best = some found) :
    best = some found ∨ found ∈ entries := by
  induction entries generalizing best with
  | nil => exact .inl isFound
  | cons entry entries induction =>
    rcases induction isFound with earlier | later
    · have either : draft.stronger best entry = best ∨
          draft.stronger best entry = some entry := by
        unfold Draft.stronger
        split
        · exact .inl rfl
        split
        · exact .inr rfl
        split
        · exact .inr rfl
        · exact .inl rfl
      rcases either with kept | taken
      · exact .inl (kept ▸ earlier)
      · rw [taken] at earlier
        exact .inr (Option.some.inj earlier ▸ List.mem_cons_self)
    · exact .inr (List.mem_cons_of_mem entry later)

theorem strongest?_ne {adjacency : Cluster.Adjacency α} {index target : Nat}
    {members : List Element} (found : draft.strongest? adjacency index members = some target) :
    target ≠ index := by
  obtain ⟨entry, isEntry, rfl⟩ := Option.map_eq_some_iff.mp found
  rcases mem_of_foldl_stronger isEntry with none | member
  · simp at none
  · intro same
    have absent := get?_ties_self adjacency draft index members
    rw [Table.get?_eq_none_iff] at absent
    exact absent (List.mem_map.mpr ⟨entry, member, same⟩)

theorem Divides.dissolve (divides : draft.Divides limits elements) {index : Nat}
    {members : List Element} (found : draft.clusters.get? index = some members) :
    (draft.dissolve index members).Divides limits elements := by
  have values := divides.distinct.values_perm_of_get? found
  refine ⟨?_, fun others member => ?_, divides.distinct.erase index, fun other above => ?_⟩
  · calc (draft.clusters.erase index).values.flatten ++ (draft.pool ++ members)
        = (draft.clusters.erase index).values.flatten ++ draft.pool ++ members :=
          (List.append_assoc ..).symm
      _ ~ members ++ ((draft.clusters.erase index).values.flatten ++ draft.pool) :=
          List.perm_append_comm
      _ = members ++ (draft.clusters.erase index).values.flatten ++ draft.pool :=
          (List.append_assoc ..).symm
      _ ~ draft.clusters.values.flatten ++ draft.pool :=
          values.flatten.symm.append_right draft.pool
      _ ~ elements := divides.perm
  · exact divides.le_maxSize others (values.mem_iff.mpr (List.mem_cons_of_mem members member))
  · rw [Draft.dissolve, Table.get?_erase, divides.free other above, ite_self]

theorem Divides.join (divides : draft.Divides limits elements) {index target : Nat}
    {members into : List Element} (different : target ≠ index)
    (found : draft.clusters.get? index = some members)
    (foundInto : draft.clusters.get? target = some into)
    (fits : into.length + members.length ≤ limits.maxSize) :
    (draft.join index target members into).Divides limits elements := by
  have distinct := divides.distinct.erase index
  have kept : (draft.clusters.erase index).get? target = some into := by
    rw [Table.get?_erase, if_neg different, foundInto]
  have joined := distinct.values_put_perm target (sortByPlace (into ++ members))
  have apart := distinct.values_perm_of_get? kept
  have values := divides.distinct.values_perm_of_get? found
  refine ⟨?_, fun others member => ?_, distinct.put target _, fun other above => ?_⟩
  · refine .trans (List.Perm.append_right draft.pool ?_) divides.perm
    generalize ((draft.clusters.erase index).erase target).values = others at joined apart
    calc ((draft.clusters.erase index).put target (sortByPlace (into ++ members))).values.flatten
        ~ sortByPlace (into ++ members) ++ others.flatten := joined.flatten
      _ ~ into ++ members ++ others.flatten := (sortByPlace_perm _).append_right _
      _ ~ members ++ into ++ others.flatten := List.perm_append_comm.append_right _
      _ = members ++ (into :: others).flatten := List.append_assoc ..
      _ ~ members ++ (draft.clusters.erase index).values.flatten :=
          apart.flatten.symm.append_left members
      _ ~ draft.clusters.values.flatten := values.flatten.symm
  · rcases List.mem_cons.mp (joined.mem_iff.mp member) with rfl | other
    · rw [(sortByPlace_perm _).length_eq, List.length_append]
      exact fits
    · have earlier := apart.mem_iff.mpr (List.mem_cons_of_mem into other)
      exact divides.le_maxSize others (values.mem_iff.mpr (List.mem_cons_of_mem members earlier))
  · have below : other ≠ target := by
      rintro rfl
      rw [divides.free other above] at foundInto
      simp at foundInto
    rw [Draft.join, Table.get?_put, if_neg below, Table.get?_erase, divides.free other above,
      ite_self]

/-- Settling a cluster leaves all as it is, or moves the members of the cluster into the pool or
into another cluster that has room for them. -/
theorem settle_cases (limits : Limits) (adjacency : Cluster.Adjacency α) (draft : Draft)
    (index : Nat) :
    draft.settle limits adjacency index = draft ∨
      ∃ members, draft.clusters.get? index = some members ∧
        (draft.settle limits adjacency index = draft.dissolve index members ∨
          ∃ target into, target ≠ index ∧ draft.clusters.get? target = some into ∧
            into.length + members.length ≤ limits.maxSize ∧
            draft.settle limits adjacency index = draft.join index target members into) := by
  unfold Draft.settle
  split
  · exact .inl rfl
  case h_2 members found =>
    split
    · exact .inl rfl
    refine .inr ⟨members, found, ?_⟩
    split
    · exact .inl rfl
    case h_2 target isStrongest =>
      split
      · exact .inl rfl
      case h_2 into foundInto =>
        split
        case isTrue fits =>
          exact .inr ⟨target, into, strongest?_ne isStrongest, foundInto, fits, rfl⟩
        case isFalse => exact .inl rfl

theorem Divides.settle (divides : draft.Divides limits elements)
    (adjacency : Cluster.Adjacency α) (index : Nat) :
    (draft.settle limits adjacency index).Divides limits elements := by
  rcases settle_cases limits adjacency draft index with
    kept | ⟨members, found, dissolved | ⟨target, into, different, foundInto, fits, joined⟩⟩
  · rw [kept]
    exact divides
  · rw [dissolved]
    exact divides.dissolve found
  · rw [joined]
    exact divides.join different found foundInto fits

theorem Divides.settleAll (divides : draft.Divides limits elements)
    (adjacency : Cluster.Adjacency α) (indices : List Nat) :
    (indices.foldl (Draft.settle limits adjacency) draft).Divides limits elements := by
  induction indices generalizing draft with
  | nil => exact divides
  | cons index indices induction => exact induction (divides.settle adjacency index)

end Settle

end Draft

/-! ## Clusters -/

/-- Clusters and the ids left over share out ids within the limits. -/
structure Grouped (limits : Limits) (ids : List String)
    (clusters : List (List String) × List String) : Prop where
  /-- Every id is in one place. -/
  perm : (clusters.1.flatten ++ clusters.2).Perm ids
  /-- No cluster is too small. -/
  minSize_le : ∀ memberIds ∈ clusters.1, limits.minSize ≤ memberIds.length
  /-- No cluster is too large. -/
  le_maxSize : ∀ memberIds ∈ clusters.1, memberIds.length ≤ limits.maxSize
  /-- The members of a cluster are sorted. -/
  sorted : ∀ memberIds ∈ clusters.1,
    memberIds.Pairwise fun left right => Text.notAfter left right
  /-- The ids left over are too few for a cluster. -/
  lt_minSize : clusters.2.length < limits.minSize

/-- Clusters that are large enough take their share of the ids. -/
theorem Grouped.length_mul_le {limits : Limits} {ids : List String}
    {clusters : List (List String) × List String} (divided : Grouped limits ids clusters) :
    clusters.1.length * limits.minSize ≤ ids.length := by
  have total := divided.perm.length_eq
  rw [List.length_append] at total
  have shares := Cluster.length_mul_le divided.minSize_le
  omega

/-- The ids of each list of elements, sorted. -/
def idsOf (members : List Element) : List String := Text.sort (members.map Element.id)

theorem length_idsOf (members : List Element) : (idsOf members).length = members.length := by
  rw [idsOf, (Text.sort_perm _).length_eq, List.length_map]

theorem flatten_map_idsOf_perm (clusters : List (List Element)) :
    (clusters.map idsOf).flatten.Perm (clusters.flatten.map Element.id) := by
  rw [List.map_flatten, ← List.flatMap_def, ← List.flatMap_def]
  exact List.Perm.flatMap_left clusters fun members _ => Text.sort_perm _

namespace Draft

/-- The clusters of a draft that are large enough. -/
def large (limits : Limits) (draft : Draft) : List (List Element) :=
  draft.clusters.values.filter (limits.minSize ≤ ·.length)

/-- What is not in a cluster that is large enough, in the order of places. -/
def remainder (limits : Limits) (draft : Draft) : List Element :=
  sortByPlace (draft.pool ++ (draft.clusters.values.filter (·.length < limits.minSize)).flatten)

variable {limits : Limits} {elements : List Element} {draft : Draft}

theorem Divides.large_remainder_perm (divides : draft.Divides limits elements) :
    ((draft.large limits).flatten ++ draft.remainder limits).Perm elements := by
  have complement : draft.clusters.values.filter (·.length < limits.minSize) =
      draft.clusters.values.filter fun members => !decide (limits.minSize ≤ members.length) :=
    List.filter_congr fun members _ => by rw [Bool.eq_iff_iff]; simp
  rw [remainder, complement]
  generalize isSmall : (draft.clusters.values.filter fun members =>
    !decide (limits.minSize ≤ members.length)) = small
  have clusters : (draft.large limits).flatten ++ small.flatten ~
      draft.clusters.values.flatten := by
    rw [← isSmall, ← List.flatten_append]
    exact (List.filter_append_perm _ _).flatten
  calc (draft.large limits).flatten ++ sortByPlace (draft.pool ++ small.flatten)
      ~ (draft.large limits).flatten ++ (draft.pool ++ small.flatten) :=
        (sortByPlace_perm _).append_left _
    _ ~ (draft.large limits).flatten ++ (small.flatten ++ draft.pool) :=
        List.perm_append_comm.append_left _
    _ = (draft.large limits).flatten ++ small.flatten ++ draft.pool := (List.append_assoc ..).symm
    _ ~ draft.clusters.values.flatten ++ draft.pool := clusters.append_right draft.pool
    _ ~ elements := divides.perm

theorem Divides.finish (divides : draft.Divides limits elements) (positive : 1 ≤ limits.minSize)
    (ordered : limits.minSize ≤ limits.maxSize) :
    Grouped limits (elements.map Element.id) (draft.finish limits) := by
  let cut := Cluster.partition limits.minSize limits.maxSize (draft.remainder limits)
  have within : cut.Within limits.minSize limits.maxSize (draft.remainder limits) :=
    Cluster.partition_within positive ordered _
  have sized : ∀ members ∈ draft.large limits ++ cut.chunks,
      limits.minSize ≤ members.length ∧ members.length ≤ limits.maxSize := by
    intro members member
    rcases List.mem_append.mp member with isLarge | isChunk
    · obtain ⟨present, enough⟩ := List.mem_filter.mp isLarge
      exact ⟨by simpa using enough, divides.le_maxSize members present⟩
    · exact ⟨within.least_le members isChunk, within.le_most members isChunk⟩
  have clusters (memberIds : List String) (member : memberIds ∈ (draft.finish limits).1) :
      ∃ members ∈ draft.large limits ++ cut.chunks, idsOf members = memberIds :=
    List.mem_map.mp (Text.mem_sortBy.mp member)
  refine ⟨?_, fun memberIds member => ?_, fun memberIds member => ?_, fun memberIds member => ?_,
    ?_⟩
  · calc (draft.finish limits).1.flatten ++ (draft.finish limits).2
        ~ ((draft.large limits ++ cut.chunks).map idsOf).flatten ++ cut.rest.map Element.id :=
          (Text.sortBy_perm idOf _).flatten.append (Text.sort_perm _)
      _ ~ (draft.large limits ++ cut.chunks).flatten.map Element.id ++ cut.rest.map Element.id :=
          (flatten_map_idsOf_perm _).append_right _
      _ = ((draft.large limits).flatten ++ draft.remainder limits).map Element.id := by
          rw [← List.map_append, List.flatten_append, List.append_assoc, within.flatten_eq]
      _ ~ elements.map Element.id := divides.large_remainder_perm.map Element.id
  · obtain ⟨members, isMembers, rfl⟩ := clusters memberIds member
    rw [length_idsOf]
    exact (sized members isMembers).1
  · obtain ⟨members, isMembers, rfl⟩ := clusters memberIds member
    rw [length_idsOf]
    exact (sized members isMembers).2
  · obtain ⟨members, -, rfl⟩ := clusters memberIds member
    exact Text.pairwise_sort _
  · change (Text.sort (cut.rest.map Element.id)).length < limits.minSize
    rw [(Text.sort_perm _).length_eq, List.length_map]
    exact within.rest_lt

end Draft

variable {α : Type} [Scalar α]

/-- Clusters share out the ids of the elements, whatever labels these have. -/
theorem clusterLabelled_divided {limits : Limits} (positive : 1 ≤ limits.minSize)
    (ordered : limits.minSize ≤ limits.maxSize) (adjacency : Cluster.Adjacency α)
    (labels : Cluster.Labels) (elements : List Element) :
    Grouped limits (elements.map Element.id)
      (clusterLabelled limits adjacency labels elements) := by
  have groups : (labelGroups labels elements).values.flatten.Perm elements :=
    Table.flatten_values_group_perm _ elements
  have opened := (Draft.divides_empty limits).addGroups positive ordered
    (labelGroups labels elements).values
  exact ((opened.of_perm groups).settleAll adjacency _).finish positive ordered

/-! ## Boundaries -/

omit [Scalar α] in
theorem map_memberIds_nameApart (boundaries : List (Boundary α)) :
    (nameApart boundaries).map memberIds = boundaries.map memberIds := by
  suffices kept : ∀ state : Table String Nat × List (Boundary α),
      (boundaries.foldl nameStep state).2.map memberIds =
        state.2.map memberIds ++ boundaries.map memberIds from kept (Table.empty, [])
  induction boundaries with
  | nil => simp
  | cons boundary boundaries induction =>
    intro state
    rw [List.foldl_cons, induction, nameStep]
    simp

theorem map_memberIds_detect_perm (detector : Detector) (elements : List Element)
    (relationships : List (Relationship α)) (graph : DependencyGraph α)
    (earlier : Option (Earlier α)) :
    ((detector.detect elements relationships graph earlier).boundaries.map memberIds).Perm
      (detector.detect elements relationships graph earlier).clusters := by
  unfold Detector.detect
  dsimp only
  rw [map_memberIds_nameApart]
  refine ((Text.sortBy_perm Boundary.id _).map memberIds).trans ?_
  rw [List.map_map]
  exact .of_eq (List.map_id _)

/-- Boundaries and the ids left over share out the elements that are not external: each is in one
place, every boundary has a number of members within the limits, sorted, and fewer ids are left over
than a boundary needs. -/
theorem detect_divides (detector : Detector) {elements : List Element}
    (relationships : List (Relationship α)) (graph : DependencyGraph α)
    (distinct : DistinctIds elements) (positive : 1 ≤ detector.limits.minSize)
    (ordered : detector.limits.minSize ≤ detector.limits.maxSize) :
    let detection := detector.detect elements relationships graph none
    let inner := elements.filter fun element => !element.isExternal
    (detection.boundaries.flatMap memberIds ++ detection.unassigned).Perm
        (inner.map Element.id) ∧
      (detection.boundaries.flatMap memberIds ++ detection.unassigned).Nodup ∧
      (∀ boundary ∈ detection.boundaries,
        detector.limits.minSize ≤ boundary.memberIds.length ∧
        boundary.memberIds.length ≤ detector.limits.maxSize ∧
        boundary.memberIds.Pairwise fun left right => Text.before left right) ∧
      detection.unassigned.length < detector.limits.minSize := by
  intro detection inner
  have divided : Grouped detector.limits (inner.map Element.id)
      (detection.clusters, detection.unassigned) :=
    clusterLabelled_divided positive ordered _ _ inner
  have members : (detection.boundaries.map memberIds).Perm detection.clusters :=
    map_memberIds_detect_perm detector elements relationships graph none
  have perm : (detection.boundaries.flatMap memberIds ++ detection.unassigned).Perm
      (inner.map Element.id) := by
    rw [List.flatMap_def]
    exact (members.flatten.append_right _).trans divided.perm
  have nodup := perm.nodup_iff.mpr (distinct.filter fun element => !element.isExternal)
  refine ⟨perm, nodup, fun boundary member => ?_, divided.lt_minSize⟩
  have isCluster : boundary.memberIds ∈ detection.clusters :=
    members.mem_iff.mp (List.mem_map_of_mem member)
  have once : boundary.memberIds.Nodup :=
    (List.nodup_flatMap.mp (List.nodup_append.mp nodup).1).1 boundary member
  exact ⟨divided.minSize_le _ isCluster, divided.le_maxSize _ isCluster,
    Text.pairwise_before (divided.sorted _ isCluster) once⟩

/-- Three functions are tied together, which is one too many for a boundary. It is pooled with two
that are tied to nothing but a stub, where it is one too many again. -/
theorem detect_divides_pooled :
    let function (id : String) := Element.sketch id "main.ts" []
    let elements := [function "a", function "b", stub "x", function "c", function "d", function "e"]
    let relationships := [Relationship.sketch "a" .dependsOn "b",
      Relationship.sketch "c" .dependsOn "b", Relationship.sketch "d" .dependsOn "x"]
    let detector : Detector := ⟨⟨[], false⟩, ⟨2, 2, 1⟩⟩
    let graph := build ⟨RelationshipKind.references, ⟨1, 2, 3⟩⟩ elements relationships none
    let detection := detector.detect elements relationships graph none
    DistinctIds elements ∧ 1 ≤ detector.limits.minSize ∧
      detector.limits.minSize ≤ detector.limits.maxSize ∧
      (detection.boundaries.flatMap memberIds ++ detection.unassigned).Perm
        ["a", "b", "c", "d", "e"] ∧
      detection.unassigned.length < 2 := by
  intro function elements relationships detector graph detection
  have distinct : DistinctIds elements := by decide
  have divides := detect_divides detector relationships graph distinct (by decide) (by decide)
  exact ⟨distinct, by decide, by decide, divides.1, divides.2.2.2⟩

end Boundary
end CodeAtlas
