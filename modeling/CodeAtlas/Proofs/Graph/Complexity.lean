import CodeAtlas.Proofs.Graph.Neighbours

/-!
# Growing complexity

The complexity of some ids weighs the dependency edges that leave them, the distinct targets of
these and the ids in cycles. None of the three shrinks when ids or relationships are added: an edge
still leaves the same id, and a walk back to an id still leads back to it.
-/

namespace CodeAtlas
namespace DependencyGraph

variable {α : Type}

/-- One graph lies within another: it has the same nodes, and the other has each of its edges at
least as often. -/
structure Within (small large : DependencyGraph α) : Prop where
  /-- The first graph has been built. -/
  smallBuilt : Built small
  /-- The second graph has been built. -/
  largeBuilt : Built large
  /-- The components of the first graph are those of its dependencies. -/
  smallToured : small.components = Tour.components small.next small.size
  /-- The components of the second graph are those of its dependencies. -/
  largeToured : large.components = Tour.components large.next large.size
  /-- The nodes are the same. -/
  nodes : small.nodes = large.nodes
  /-- The second graph has all edges of the first. -/
  edges : small.edges.Subperm large.edges

theorem within_build (options : GraphOptions α) {elements : List Element}
    (distinct : DistinctIds elements) {fewer more : List (Relationship α)}
    (subperm : fewer.Subperm more) (earlier other : Option (DependencyGraph α × List String)) :
    Within (build options elements fewer earlier) (build options elements more other) where
  smallBuilt := built_build options distinct fewer earlier
  largeBuilt := built_build options distinct more other
  smallToured := components_build options elements fewer earlier
  largeToured := components_build options elements more other
  nodes := by rw [nodes_build, nodes_build]
  edges := by
    rw [edges_build, edges_build]
    obtain ⟨middle, perm, sublist⟩ := subperm
    exact ⟨_, perm.flatMap_right _, sublist.flatMap _⟩

namespace Within

variable {small large : DependencyGraph α} (within : Within small large)

include within

theorem idAt_eq (node : Nat) : small.idAt node = large.idAt node := by
  rw [idAt, idAt, within.nodes]

theorem has_eq (id : String) : small.has id = large.has id := by
  rw [has, has, index?, index?, within.nodes]

theorem joined {source target : String} (joined : small.Joined source target) :
    large.Joined source target := by
  obtain ⟨edge, isEdge, isDependency, rfl, rfl⟩ := joined
  exact ⟨edge, within.edges.subset isEdge, isDependency, (within.idAt_eq _).symm,
    (within.idAt_eq _).symm⟩

theorem isInCycle {id : String} (cyclic : small.isInCycle id) : large.isInCycle id := by
  rw [within.largeBuilt.isInCycle_iff within.largeToured]
  exact Relation.TransGen.mono (fun _ _ => within.joined) id id
    ((within.smallBuilt.isInCycle_iff within.smallToured).mp cyclic)

theorem length_targetIds_le {ids others : List String} (nodup : ids.Nodup)
    (othersNodup : others.Nodup) (subset : ids ⊆ others) :
    (ids.flatMap small.targetIds).length ≤ (others.flatMap large.targetIds).length := by
  rw [← Boundary.length_leaving, ← Boundary.length_leaving,
    (within.smallBuilt.leaving_perm nodup).length_eq,
    (within.largeBuilt.leaving_perm othersNodup).length_eq, ← List.countP_eq_length_filter,
    ← List.countP_eq_length_filter]
  refine (within.edges.countP_le _).trans (List.countP_mono_left fun edge _ leaves => ?_)
  rw [decide_eq_true_eq] at leaves ⊢
  exact ⟨leaves.1, subset (within.idAt_eq edge.source ▸ leaves.2)⟩

theorem targetIds_subset {ids others : List String} (subset : ids ⊆ others) :
    ids.flatMap small.targetIds ⊆ others.flatMap large.targetIds := by
  intro target member
  obtain ⟨id, isId, isTarget⟩ := List.mem_flatMap.mp member
  rw [within.smallBuilt.mem_targetIds_iff] at isTarget
  exact List.mem_flatMap.mpr
    ⟨id, subset isId, within.largeBuilt.mem_targetIds_iff.mpr (within.joined isTarget)⟩

theorem filter_isInCycle_subset {ids others : List String} (subset : ids ⊆ others) :
    ids.filter small.isInCycle ⊆ others.filter large.isInCycle := by
  intro id member
  obtain ⟨isId, cyclic⟩ := List.mem_filter.mp member
  exact List.mem_filter.mpr ⟨subset isId, within.isInCycle cyclic⟩

end Within

/-- Complexity does not shrink when ids or edges are added. -/
theorem Within.complexity_le {small large : DependencyGraph Rat} (within : Within small large)
    (sameWeights : small.weights = large.weights) (edges : 0 ≤ large.weights.edges)
    (fanOut : 0 ≤ large.weights.fanOut) (cycleMembers : 0 ≤ large.weights.cycleMembers)
    {memberIds others : List String} (subset : memberIds ⊆ others) :
    small.complexity memberIds ≤ large.complexity others := by
  let ids := distinct (memberIds.filter small.has)
  let more := distinct (others.filter large.has)
  have known : ids ⊆ more := by
    intro id member
    obtain ⟨isMember, present⟩ := List.mem_filter.mp (mem_distinct.mp member)
    exact mem_distinct.mpr (List.mem_filter.mpr ⟨subset isMember, within.has_eq id ▸ present⟩)
  have leaving := within.length_targetIds_le (nodup_distinct _) (nodup_distinct _) known
  have targets : (distinct (ids.flatMap small.targetIds)).length ≤
      (distinct (more.flatMap large.targetIds)).length := by
    apply (List.subperm_of_subset (nodup_distinct _) _).length_le
    intro target member
    exact mem_distinct.mpr (within.targetIds_subset known (mem_distinct.mp member))
  have cyclic := (List.subperm_of_subset ((nodup_distinct _).filter small.isInCycle)
    (within.filter_isInCycle_subset known)).length_le
  rw [complexity_by_ids within.smallBuilt, complexity_by_ids within.largeBuilt, sameWeights]
  have weigh {weight : Rat} {count greater : Nat} (nonneg : 0 ≤ weight)
      (ordered : count ≤ greater) : weight * count ≤ weight * greater :=
    mul_le_mul_of_nonneg_left (Nat.cast_le.mpr ordered) nonneg
  exact add_le_add (add_le_add (weigh edges leaving) (weigh fanOut targets))
    (weigh cycleMembers cyclic)

/-- With weights that are not negative, the complexity of some ids is at most that of ids that
include them, in a graph of relationships that include those of the first as often. -/
theorem complexity_build_mono (options : GraphOptions Rat) (edges : 0 ≤ options.weights.edges)
    (fanOut : 0 ≤ options.weights.fanOut) (cycleMembers : 0 ≤ options.weights.cycleMembers)
    {elements : List Element} (distinct : DistinctIds elements)
    {fewer more : List (Relationship Rat)} (subperm : fewer.Subperm more)
    {memberIds others : List String} (subset : memberIds ⊆ others)
    (earlier other : Option (DependencyGraph Rat × List String)) :
    (build options elements fewer earlier).complexity memberIds ≤
      (build options elements more other).complexity others := by
  have within := within_build options distinct subperm earlier other
  have sameWeights : (build options elements fewer earlier).weights =
      (build options elements more other).weights := by
    rw [weights_build, weights_build]
  apply within.complexity_le sameWeights _ _ _ subset
  · rwa [weights_build]
  · rwa [weights_build]
  · rwa [weights_build]

/-- A call that closes a circle of three and stands before the calls that were there, and ids of
which one is repeated and one unknown. -/
theorem complexity_build_mono_circle :
    let options : GraphOptions Rat := ⟨RelationshipKind.references, ⟨1, 2, 3⟩⟩
    let elements := ["a", "b", "c", "d"].map fun id => Element.sketch id "main.ts" []
    let call (source target : String) := Relationship.sketch source .calls target
    let fewer := [call "a" "b", call "a" "d", call "b" "c"]
    let more := [call "c" "a", call "b" "c", call "a" "d", call "a" "b"]
    let memberIds := ["a", "ghost", "a"]
    let others := ["ghost", "c", "b", "a"]
    DistinctIds elements ∧ fewer.Subperm more ∧ memberIds ⊆ others ∧
      (build options elements fewer none).complexity memberIds = 6 ∧
      (build options elements more none).complexity others = 21 ∧
      (build options elements fewer none).complexity memberIds ≤
        (build options elements more none).complexity others := by
  intro options elements call fewer more memberIds others
  have distinct : DistinctIds elements := by decide
  have subperm : fewer.Subperm more :=
    (List.reverse_perm fewer).symm.subperm.trans (List.sublist_cons_self _ _).subperm
  have subset : memberIds ⊆ others := by decide
  have small : build options elements fewer none = ofSorted options elements fewer :=
    fresh_of_sorted options (by decide) fewer
  have large : build options elements more none = ofSorted options elements more :=
    fresh_of_sorted options (by decide) more
  refine ⟨distinct, subperm, subset, ?_, ?_, complexity_build_mono options (by decide +kernel)
    (by decide +kernel) (by decide +kernel) distinct subperm subset none none⟩
  · rw [small]
    decide +kernel
  · rw [large]
    decide +kernel

end DependencyGraph
end CodeAtlas
