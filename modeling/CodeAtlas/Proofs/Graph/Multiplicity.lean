import CodeAtlas.Proofs.Graph.Component

/-!
# How many edges lead from node to node

Whether an edge is a dependency is a matter of its kind. Two graphs of the same elements in which as
many edges of each kind lead from one id to another therefore have the same dependencies, and give
the same answers to all questions about neighbours, reach and cycles.
-/

namespace CodeAtlas
namespace DependencyGraph

variable {α : Type}

/-- The number of edges of a kind that lead from one id to another. -/
def edgeCount (graph : DependencyGraph α) (kind : RelationshipKind) (source target : String) :
    Nat :=
  graph.edges.countP fun edge =>
    edge.kind = kind ∧ graph.idAt edge.source = source ∧ graph.idAt edge.target = target

/-- Whether a dependency edge leads from one node to another. -/
def hasDependency (graph : DependencyGraph α) (node other : Nat) : Bool :=
  graph.edges.any fun edge => edge.dependency && edge.source == node && edge.target == other

theorem dependency_of_mem_edgesOf {kinds : List RelationshipKind} {nodes : List Element}
    {relationship : Relationship α} {edge : GraphEdge α}
    (member : edge ∈ (edgesOf kinds nodes relationship).toOption.getD []) :
    edge.dependency = kinds.contains edge.kind := by
  rcases edgesOf_cases kinds nodes relationship with
    ⟨source, target, _, _, present⟩ | ⟨missing, absent, _⟩
  · rw [present] at member
    simp only [Except.toOption, Option.getD_some, edgesBetween] at member
    split at member
    · simp only [List.mem_cons, List.not_mem_nil, or_false] at member
      rcases member with rfl | rfl <;> rfl
    · rw [List.mem_singleton.mp member]
  · rw [absent] at member
    cases member

theorem targetsOf_edges (graph : DependencyGraph α) (node : Nat) :
    targetsOf graph.edges graph.size node = (List.range graph.size).filter fun other =>
      other != node && graph.hasDependency node other := by
  simp only [targetsOf, hasDependency, List.any_filter]

/-- Two graphs with the same nodes, in which kinds tell dependencies and as many edges of each kind
lead from one id to another. -/
structure SameCounts (kinds : List RelationshipKind) (left right : DependencyGraph α) : Prop where
  /-- The first graph has been built. -/
  leftBuilt : Built left
  /-- The second graph has been built. -/
  rightBuilt : Built right
  /-- The kinds are the dependencies of the first graph. -/
  leftKinds : ∀ edge ∈ left.edges, edge.dependency = kinds.contains edge.kind
  /-- The kinds are the dependencies of the second graph. -/
  rightKinds : ∀ edge ∈ right.edges, edge.dependency = kinds.contains edge.kind
  /-- The components of the first graph are those of its dependencies. -/
  leftToured : left.components = Tour.components left.next left.size
  /-- The components of the second graph are those of its dependencies. -/
  rightToured : right.components = Tour.components right.next right.size
  /-- The nodes are the same. -/
  nodes : left.nodes = right.nodes
  /-- The edges are as many. -/
  counts : ∀ kind source target,
    left.edgeCount kind source target = right.edgeCount kind source target

theorem sameCounts_build {options : GraphOptions α} {elements : List Element}
    (distinct : DistinctIds elements) {left right : List (Relationship α)}
    {earlier other : Option (DependencyGraph α × List String)}
    (counts : ∀ kind source target,
      (build options elements left earlier).edgeCount kind source target =
        (build options elements right other).edgeCount kind source target) :
    SameCounts options.dependencyKinds (build options elements left earlier)
      (build options elements right other) where
  leftBuilt := built_build options distinct left earlier
  rightBuilt := built_build options distinct right other
  leftKinds edge member := by
    rw [edges_build] at member
    obtain ⟨relationship, _, member⟩ := List.mem_flatMap.mp member
    exact dependency_of_mem_edgesOf member
  rightKinds edge member := by
    rw [edges_build] at member
    obtain ⟨relationship, _, member⟩ := List.mem_flatMap.mp member
    exact dependency_of_mem_edgesOf member
  leftToured := components_build options elements left earlier
  rightToured := components_build options elements right other
  nodes := by rw [nodes_build, nodes_build]
  counts := counts

namespace SameCounts

variable {kinds : List RelationshipKind} {left right : DependencyGraph α}
  (same : SameCounts kinds left right)

include same

theorem symm : SameCounts kinds right left :=
  ⟨same.rightBuilt, same.leftBuilt, same.rightKinds, same.leftKinds, same.rightToured,
    same.leftToured, same.nodes.symm,
    fun kind source target => (same.counts kind source target).symm⟩

theorem idAt_eq (node : Nat) : left.idAt node = right.idAt node := by
  rw [idAt, idAt, same.nodes]

theorem size_eq : left.size = right.size := by
  rw [size, size, same.nodes]

/-- An edge has a twin in the other graph. -/
theorem exists_twin {edge : GraphEdge α} (member : edge ∈ left.edges) :
    ∃ twin ∈ right.edges, twin.dependency = edge.dependency ∧ twin.source = edge.source ∧
      twin.target = edge.target := by
  have counted : 0 < left.edgeCount edge.kind (left.idAt edge.source) (left.idAt edge.target) :=
    List.countP_pos_iff.mpr ⟨edge, member, by simp⟩
  rw [same.counts] at counted
  obtain ⟨twin, isTwin, alike⟩ := List.countP_pos_iff.mp counted
  obtain ⟨kind, source, target⟩ := of_decide_eq_true alike
  rw [same.idAt_eq] at source target
  refine ⟨twin, isTwin, ?_, ?_, ?_⟩
  · rw [same.rightKinds twin isTwin, kind, same.leftKinds edge member]
  · exact same.rightBuilt.idAt_inj (same.rightBuilt.source_lt twin isTwin)
      (same.size_eq ▸ same.leftBuilt.source_lt edge member) source
  · exact same.rightBuilt.idAt_inj (same.rightBuilt.target_lt twin isTwin)
      (same.size_eq ▸ same.leftBuilt.target_lt edge member) target

theorem hasDependency_of {node other : Nat} (depends : left.hasDependency node other) :
    right.hasDependency node other := by
  obtain ⟨edge, isEdge, test⟩ := List.any_eq_true.mp depends
  obtain ⟨twin, isTwin, dependency, source, target⟩ := same.exists_twin isEdge
  refine List.any_eq_true.mpr ⟨twin, isTwin, ?_⟩
  rw [dependency, source, target]
  exact test

theorem hasDependency_eq (node other : Nat) :
    left.hasDependency node other = right.hasDependency node other :=
  Bool.eq_iff_iff.mpr ⟨same.hasDependency_of, same.symm.hasDependency_of⟩

theorem dependsOn_eq : left.dependsOn = right.dependsOn := by
  have targets : targetsOf left.edges left.size = targetsOf right.edges right.size := by
    funext node
    rw [left.targetsOf_edges, right.targetsOf_edges, same.size_eq]
    exact List.filter_congr fun other _ => by rw [same.hasDependency_eq]
  rw [same.leftBuilt.dependsOn_eq, targets, same.size_eq, ← same.rightBuilt.dependsOn_eq]

theorem dependedOnBy_eq : left.dependedOnBy = right.dependedOnBy := by
  rw [same.leftBuilt.dependedOnBy_eq, same.rightBuilt.dependedOnBy_eq, same.size_eq,
    same.dependsOn_eq]

theorem next_eq : left.next = right.next := by
  funext node
  rw [next, next, same.dependsOn_eq]

theorem index?_eq (id : String) : left.index? id = right.index? id := by
  rw [index?, index?, same.nodes]

theorem efferent_eq (id : String) : left.efferent id = right.efferent id := by
  rw [efferent, efferent, same.index?_eq, same.next_eq]

theorem afferent_eq (id : String) : left.afferent id = right.afferent id := by
  rw [afferent, afferent, same.index?_eq]
  simp only [before, same.dependedOnBy_eq]

theorem depends_of {source target : String} (depends : left.Depends source target) :
    right.Depends source target := by
  obtain ⟨different, edge, isEdge, isDependency, isSource, isTarget⟩ := depends
  obtain ⟨twin, isTwin, dependency, source, target⟩ := same.exists_twin isEdge
  refine ⟨different, twin, isTwin, dependency ▸ isDependency, ?_, ?_⟩
  · rw [← same.idAt_eq, source, isSource]
  · rw [← same.idAt_eq, target, isTarget]

theorem reaches_iff (source target : String) :
    left.Reaches source target ↔ right.Reaches source target := by
  constructor
  · exact Relation.ReflTransGen.mono (fun _ _ => same.depends_of) source target
  · exact Relation.ReflTransGen.mono (fun _ _ => same.symm.depends_of) source target

theorem components_eq : left.components = right.components := by
  rw [same.leftToured, same.rightToured, same.next_eq, same.size_eq]

theorem hasLoop_eq : left.hasLoop = right.hasLoop :=
  funext fun node => same.hasDependency_eq node node

theorem isInCycle_eq (id : String) : left.isInCycle id = right.isInCycle id := by
  unfold isInCycle componentOf
  rw [same.index?_eq, same.hasLoop_eq, same.components_eq]

theorem cycles_eq : left.cycles = right.cycles := by
  have cyclic : left.isCyclic = right.isCyclic := by
    funext nodes
    rw [isCyclic, isCyclic, same.hasLoop_eq]
  rw [cycles, cycles, same.components_eq, cyclic, funext same.idAt_eq]

end SameCounts

/-! ## Elements and relationships in another order -/

theorem build_eq_of_perm (options : GraphOptions α) {left right : List Element}
    (distinct : DistinctIds left) (perm : left.Perm right)
    (relationships : List (Relationship α)) (earlier : Option (DependencyGraph α × List String)) :
    build options left relationships earlier = build options right relationships earlier := by
  unfold build
  rw [fresh_eq_of_perm options distinct perm]

theorem edges_build_perm (options : GraphOptions α) (elements : List Element)
    {left right : List (Relationship α)} (perm : left.Perm right)
    (earlier other : Option (DependencyGraph α × List String)) :
    (build options elements left earlier).edges.Perm
      (build options elements right other).edges := by
  rw [edges_build, edges_build]
  exact perm.flatMap_right _

theorem sameCounts_of_perm (options : GraphOptions α) {elements : List Element}
    (distinct : DistinctIds elements) {left right : List (Relationship α)}
    (perm : left.Perm right) (earlier other : Option (DependencyGraph α × List String)) :
    SameCounts options.dependencyKinds (build options elements left earlier)
      (build options elements right other) := by
  refine sameCounts_build distinct fun kind source target => ?_
  have ids : (build options elements left earlier).idAt =
      (build options elements right other).idAt := by
    funext node
    rw [idAt, idAt, nodes_build, nodes_build]
  rw [edgeCount, edgeCount, ids]
  exact (edges_build_perm options elements perm earlier other).countP_eq _

end DependencyGraph
end CodeAtlas
