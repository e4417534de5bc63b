import CodeAtlas.Boundary.Score
import CodeAtlas.Proofs.Graph.Reuse
import CodeAtlas.Proofs.List

/-!
# Scores of unchanged members

The scores of a set of members look at the dependency edges of its members and at which of them lie
in cycles. They are restated for ids; then members that have not changed have the same scores in a
graph and in its successor.
-/

namespace CodeAtlas

namespace DependencyGraph

variable {α : Type}

theorem outgoing_of_index? {graph : DependencyGraph α} {id : String} {node : Nat}
    (found : graph.index? id = some node) : graph.outgoing id = graph.edgesFrom node := by
  rw [outgoing, found]
  rfl

theorem incoming_of_index? {graph : DependencyGraph α} {id : String} {node : Nat}
    (found : graph.index? id = some node) : graph.incoming id = graph.edgesInto node := by
  rw [incoming, found]
  rfl

/-- The ids that the dependency edges of an id lead to, one for each edge. -/
def targetIds (graph : DependencyGraph α) (id : String) : List String :=
  ((graph.outgoing id).filter (·.dependency)).map fun edge => graph.idAt edge.target

/-- The ids that the dependency edges into an id come from, one for each edge. -/
def sourceIds (graph : DependencyGraph α) (id : String) : List String :=
  ((graph.incoming id).filter (·.dependency)).map fun edge => graph.idAt edge.source

theorem perm_map_of_perm_dependencyIds {left right : List (GraphEdge α)}
    {leftEnd rightEnd : GraphEdge α → String}
    (perm : (dependencyIds left).Perm (dependencyIds right))
    (agree : ∀ first ∈ left, ∀ second ∈ right, first.dependency → second.dependency →
      first.id = second.id → leftEnd first = rightEnd second) :
    ((left.filter (·.dependency)).map leftEnd).Perm
      ((right.filter (·.dependency)).map rightEnd) := by
  refine perm_map_of_perm_keys perm fun first isFirst second isSecond => ?_
  obtain ⟨inLeft, isDependency⟩ := List.mem_filter.mp isFirst
  obtain ⟨inRight, otherDependency⟩ := List.mem_filter.mp isSecond
  exact agree first inLeft second inRight isDependency otherDependency

namespace Comparable

variable {previous graph : DependencyGraph α} (comparable : Comparable previous graph) {id : String}
  (unchanged : id ∉ changesFrom previous graph)

include comparable unchanged

theorem has_eq : previous.has id = graph.has id := by
  rcases index?_of_notMem_changesFrom comparable.built unchanged with
    ⟨gone, absent⟩ | ⟨old, node, isOld, isNode, _⟩
  · rw [has, has, gone, absent]
  · rw [has, has, isOld, isNode]
    rfl

/-- The dependency edges at an id that has not changed lead to the same ids and come from the same
ids. -/
theorem endIds_perm : (previous.targetIds id).Perm (graph.targetIds id) ∧
    (previous.sourceIds id).Perm (graph.sourceIds id) := by
  rcases index?_of_notMem_changesFrom comparable.built unchanged with
    ⟨gone, absent⟩ | ⟨old, node, isOld, isNode, same⟩
  · simp [targetIds, sourceIds, outgoing, incoming, gone, absent]
  have sameId : previous.idAt old = graph.idAt node := by
    rw [(comparable.previousBuilt.index?_eq_some_iff.mp isOld).2,
      (comparable.built.index?_eq_some_iff.mp isNode).2]
  obtain ⟨leave, enter⟩ := comparable.previousBuilt.perm_of_signature_eq comparable.built
    comparable.previousLegible comparable.legible same
  rw [targetIds, targetIds, outgoing_of_index? isOld, outgoing_of_index? isNode, sourceIds,
    sourceIds, incoming_of_index? isOld, incoming_of_index? isNode]
  -- Edges with one id agree at both ends as soon as they agree at one of them.
  constructor
  · refine perm_map_of_perm_dependencyIds leave
      fun edge leaves twin twinLeaves isDependency twinDependency sameEdge => ?_
    obtain ⟨isEdge, rfl⟩ := mem_edgesFrom.mp leaves
    obtain ⟨isTwin, rfl⟩ := mem_edgesFrom.mp twinLeaves
    exact (comparable.agree edge isEdge twin isTwin isDependency twinDependency sameEdge).mp sameId
  · refine perm_map_of_perm_dependencyIds enter
      fun edge enters twin twinEnters isDependency twinDependency sameEdge => ?_
    obtain ⟨isEdge, rfl⟩ := mem_edgesInto.mp enters
    obtain ⟨isTwin, rfl⟩ := mem_edgesInto.mp twinEnters
    exact (comparable.agree edge isEdge twin isTwin isDependency twinDependency sameEdge).mpr sameId

end Comparable

/-! ## Dependencies and complexity by ids -/

theorem Built.mem_dependenciesOf_iff {graph : DependencyGraph α} (built : Built graph)
    {id target : String} : target ∈ graph.dependenciesOf id ↔ graph.Depends id target := by
  unfold dependenciesOf
  split
  case h_1 node found =>
    obtain ⟨node_lt, rfl⟩ := built.index?_eq_some_iff.mp found
    rw [List.mem_map]
    constructor
    · rintro ⟨other, isNext, rfl⟩
      exact (built.depends_idAt_iff node_lt (built.lt_of_mem_next node other isNext)).mpr isNext
    · intro depends
      obtain ⟨other, other_lt, rfl⟩ := built.has_iff.mp (built.has_of_depends depends).2
      exact ⟨other, (built.depends_idAt_iff node_lt other_lt).mp depends, rfl⟩
  case h_2 absent =>
    refine iff_of_false List.not_mem_nil fun depends => ?_
    have present := (built.has_of_depends depends).1
    simp [has, absent] at present

theorem Built.nodup_dependenciesOf {graph : DependencyGraph α} (built : Built graph)
    (id : String) : (graph.dependenciesOf id).Nodup := by
  unfold dependenciesOf
  split
  case h_2 => exact List.nodup_nil
  case h_1 node _ =>
    refine (built.nodup_next node).map_on fun first isFirst second isSecond same => ?_
    exact built.idAt_inj (built.lt_of_mem_next node first isFirst)
      (built.lt_of_mem_next node second isSecond) same

theorem Comparable.dependenciesOf_perm {previous graph : DependencyGraph α}
    (comparable : Comparable previous graph) {id : String}
    (unchanged : id ∉ changesFrom previous graph) :
    (previous.dependenciesOf id).Perm (graph.dependenciesOf id) := by
  apply (List.perm_ext_iff_of_nodup (comparable.previousBuilt.nodup_dependenciesOf id)
    (comparable.built.nodup_dependenciesOf id)).mpr
  intro target
  rw [comparable.previousBuilt.mem_dependenciesOf_iff, comparable.built.mem_dependenciesOf_iff,
    comparable.depends_iff unchanged]

theorem Built.map_filterMap_index? {graph : DependencyGraph α} (built : Built graph)
    (ids : List String) : (ids.filterMap graph.index?).map graph.idAt = ids.filter graph.has := by
  induction ids with
  | nil => rfl
  | cons id ids induction =>
    cases found : graph.index? id with
    | none =>
      have absent : graph.has id = false := by rw [has, found]; rfl
      simp [found, absent, induction]
    | some node =>
      have present : graph.has id = true := by rw [has, found]; rfl
      simp [found, present, induction, (built.index?_eq_some_iff.mp found).2]

theorem complexity_by_ids [Scalar α] {graph : DependencyGraph α} (built : Built graph)
    (memberIds : List String) :
    let ids := distinct (memberIds.filter graph.has)
    graph.complexity memberIds =
      Scalar.add
        (Scalar.add
          (Scalar.mul graph.weights.edges (Scalar.ofNat (ids.flatMap graph.targetIds).length))
          (Scalar.mul graph.weights.fanOut
            (Scalar.ofNat (distinct (ids.flatMap graph.targetIds)).length)))
        (Scalar.mul graph.weights.cycleMembers
          (Scalar.ofNat (ids.filter graph.isInCycle).length)) := by
  intro ids
  let nodes := distinct (memberIds.filterMap graph.index?)
  let edges := nodes.flatMap fun node => (graph.edgesFrom node).filter (·.dependency)
  have node_lt : ∀ node ∈ memberIds.filterMap graph.index?, node < graph.size := by
    intro node member
    obtain ⟨id, _, isNode⟩ := List.mem_filterMap.mp member
    exact (built.index?_eq_some_iff.mp isNode).1
  have target_lt : ∀ target ∈ edges.map (·.target), target < graph.size := by
    intro target member
    obtain ⟨edge, isEdge, rfl⟩ := List.mem_map.mp member
    obtain ⟨_, _, isEdge⟩ := List.mem_flatMap.mp isEdge
    rw [List.mem_filter, mem_edgesFrom] at isEdge
    exact built.target_lt edge isEdge.1.1
  have members : nodes.map graph.idAt = ids := by
    change nodes.map graph.idAt = distinct (memberIds.filter graph.has)
    rw [← built.map_filterMap_index?]
    exact (distinct_map_of_injOn fun first isFirst second isSecond =>
      built.idAt_inj (node_lt first isFirst) (node_lt second isSecond)).symm
  have targets : (edges.map (·.target)).map graph.idAt = ids.flatMap graph.targetIds := by
    rw [← members, List.flatMap_map, List.map_map, List.map_flatMap]
    refine List.flatMap_congr fun node member => ?_
    have isNode := built.index?_eq_some_iff.mpr ⟨node_lt node (mem_distinct.mp member), rfl⟩
    rw [targetIds, outgoing_of_index? isNode]
    rfl
  have fanOut : (distinct (edges.map (·.target))).length =
      (distinct (ids.flatMap graph.targetIds)).length := by
    rw [← targets, ← List.length_map graph.idAt]
    exact congrArg List.length (distinct_map_of_injOn fun first isFirst second isSecond =>
      built.idAt_inj (target_lt first isFirst) (target_lt second isSecond)).symm
  have cyclic : (nodes.filter fun node => graph.isInCycle (graph.idAt node)).length =
      (ids.filter graph.isInCycle).length := by
    rw [← members, List.filter_map, List.length_map]
    rfl
  have count : edges.length = (ids.flatMap graph.targetIds).length := by
    rw [← targets, List.length_map, List.length_map]
  rw [← count, ← fanOut, ← cyclic]
  rfl

end DependencyGraph

namespace Boundary

open DependencyGraph

variable {α : Type}

theorem outerTargets_eq (graph : DependencyGraph α) (members : List String) :
    outerTargets graph members =
      (members.flatMap graph.targetIds).filter fun id => !members.contains id := by
  rw [outerTargets, leaving, List.map_flatMap]
  rfl

theorem length_leaving (graph : DependencyGraph α) (members : List String) :
    (leaving graph members).length = (members.flatMap graph.targetIds).length := by
  have targets : (leaving graph members).map (fun edge => graph.idAt edge.target) =
      members.flatMap graph.targetIds := by
    rw [leaving, List.map_flatMap]
    rfl
  rw [← targets, List.length_map]

theorem length_entering (graph : DependencyGraph α) (members : List String) :
    (entering graph members).length =
      ((members.flatMap graph.sourceIds).filter fun id => !members.contains id).length := by
  have sources : (entering graph members).map (fun edge => graph.idAt edge.source) =
      (members.flatMap graph.sourceIds).filter fun id => !members.contains id := by
    rw [entering, List.map_flatMap, List.filter_flatMap]
    refine List.flatMap_congr fun id _ => ?_
    rw [sourceIds, List.filter_map, List.filter_filter]
    refine congrArg _ (List.filter_congr fun edge _ => ?_)
    exact Bool.and_comm _ _
  rw [← sources, List.length_map]

/-- Two graphs look the same from an id: it has the same dependency edges in both, in whatever
order, and lies in a cycle of both or of neither. -/
structure SameAt (left right : DependencyGraph α) (id : String) : Prop where
  /-- Both graphs have a node with the id, or neither has. -/
  has_eq : left.has id = right.has id
  /-- Dependency edges lead to the same ids. -/
  targetIds : (left.targetIds id).Perm (right.targetIds id)
  /-- Dependency edges come from the same ids. -/
  sourceIds : (left.sourceIds id).Perm (right.sourceIds id)
  /-- The id depends on the same others. -/
  dependenciesOf : (left.dependenciesOf id).Perm (right.dependenciesOf id)
  /-- The id lies in a cycle of both graphs, or of neither. -/
  isInCycle_eq : left.isInCycle id = right.isInCycle id

/-- Scores look at a graph from the members only. -/
theorem score_eq_of_sameAt [Scalar α] {left right : DependencyGraph α}
    (leftBuilt : DependencyGraph.Built left) (rightBuilt : DependencyGraph.Built right)
    (weights : left.weights = right.weights) {memberIds : List String}
    (same : ∀ id ∈ memberIds, SameAt left right id) :
    score left memberIds = score right memberIds := by
  have targets (ids : List String) (subset : ids ⊆ memberIds) :
      (ids.flatMap left.targetIds).Perm (ids.flatMap right.targetIds) :=
    List.Perm.flatMap_left ids fun id member => (same id (subset member)).targetIds
  have sources (ids : List String) (subset : ids ⊆ memberIds) :
      (ids.flatMap left.sourceIds).Perm (ids.flatMap right.sourceIds) :=
    List.Perm.flatMap_left ids fun id member => (same id (subset member)).sourceIds
  have subset : distinct memberIds ⊆ memberIds := fun _ => mem_distinct.mp
  have inner : innerPairs left (distinct memberIds) = innerPairs right (distinct memberIds) := by
    unfold innerPairs
    congr 1
    refine List.map_congr_left fun id member => ?_
    exact ((same id (subset member)).dependenciesOf.filter _).length_eq
  have outer : (outerTargets left (distinct memberIds)).Perm
      (outerTargets right (distinct memberIds)) := by
    rw [outerTargets_eq, outerTargets_eq]
    exact (targets _ subset).filter _
  have leaves : (leaving left (distinct memberIds)).length =
      (leaving right (distinct memberIds)).length := by
    rw [length_leaving, length_leaving, (targets _ subset).length_eq]
  have enters : (entering left (distinct memberIds)).length =
      (entering right (distinct memberIds)).length := by
    rw [length_entering, length_entering, ((sources _ subset).filter _).length_eq]
  have complexities : left.complexity (distinct memberIds) =
      right.complexity (distinct memberIds) := by
    have present : (distinct memberIds).filter left.has = (distinct memberIds).filter right.has :=
      List.filter_congr fun id member => (same id (subset member)).has_eq
    have kept : distinct ((distinct memberIds).filter right.has) ⊆ memberIds := fun id member =>
      subset (List.mem_of_mem_filter (mem_distinct.mp member))
    rw [complexity_by_ids leftBuilt, complexity_by_ids rightBuilt, present, weights,
      (targets _ kept).length_eq, (perm_distinct (targets _ kept)).length_eq,
      List.filter_congr fun id member => (same id (kept member)).isInCycle_eq]
  simp only [score, inner, outer.length_eq, leaves, enters, complexities,
    Text.sort_eq_of_perm (perm_distinct outer)]

/-- Members that have not changed keep their scores, as long as the same of them lie in cycles. -/
theorem score_eq_of_unchanged [Scalar α] {previous graph : DependencyGraph α}
    (comparable : Comparable previous graph) (weights : previous.weights = graph.weights)
    {memberIds : List String} (unchanged : ∀ id ∈ memberIds, id ∉ changesFrom previous graph)
    (cycles : ∀ id ∈ memberIds, previous.isInCycle id = graph.isInCycle id) :
    score previous memberIds = score graph memberIds := by
  refine score_eq_of_sameAt comparable.previousBuilt comparable.built weights fun id member => ?_
  have kept := unchanged id member
  obtain ⟨targets, sources⟩ := comparable.endIds_perm kept
  exact ⟨comparable.has_eq kept, targets, sources, comparable.dependenciesOf_perm kept,
    cycles id member⟩

end Boundary
end CodeAtlas
