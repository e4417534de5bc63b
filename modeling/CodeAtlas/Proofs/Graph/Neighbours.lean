import CodeAtlas.Proofs.Boundary.Score
import CodeAtlas.Proofs.Graph.Cycle
import CodeAtlas.Proofs.List
import CodeAtlas.Proofs.Number.Ratio
import Mathlib.Combinatorics.Enumerative.DoubleCounting

/-!
# Edges and neighbours

The edges at some ids are those of the graph with an end among them, each as often as the graph has
it. A dependency joins two different nodes however many edges stand for it. Each node lists those
that it depends on and those that depend on it, and a dependency is in one list of either sort. So
both sorts of lists have the same length in all, and no ratio of their lengths leaves the range from
zero to one.
-/

namespace CodeAtlas

namespace DependencyGraph

variable {α : Type}

instance (graph : DependencyGraph α) : DecidableRel graph.Depends := fun source target =>
  inferInstanceAs (Decidable (source ≠ target ∧ graph.Joined source target))

/-! ## Edges at ids -/

section Edges

variable {graph : DependencyGraph α} (built : Built graph)

include built

/-- The edges whose end on one side is the node with an id. -/
theorem Built.edgesAt_eq {side : GraphEdge α → Nat}
    (side_lt : ∀ edge ∈ graph.edges, side edge < graph.size) (id : String) :
    ((graph.index? id).map fun node => graph.edges.filter (side · == node)).getD [] =
      graph.edges.filter fun edge => graph.idAt (side edge) = id := by
  cases found : graph.index? id with
  | none =>
    rw [eq_comm, Option.map_none, Option.getD_none, List.filter_eq_nil_iff]
    intro edge isEdge same
    rw [decide_eq_true_eq] at same
    rw [built.index?_eq_some_iff.mpr ⟨side_lt edge isEdge, same⟩] at found
    cases found
  | some node =>
    obtain ⟨node_lt, rfl⟩ := built.index?_eq_some_iff.mp found
    refine List.filter_congr fun edge isEdge => ?_
    rw [beq_eq_decide, decide_eq_decide]
    exact ⟨fun same => same ▸ rfl, built.idAt_inj (side_lt edge isEdge) node_lt⟩

theorem Built.outgoing_eq (id : String) :
    graph.outgoing id = graph.edges.filter fun edge => graph.idAt edge.source = id :=
  built.edgesAt_eq built.source_lt id

theorem Built.incoming_eq (id : String) :
    graph.incoming id = graph.edges.filter fun edge => graph.idAt edge.target = id :=
  built.edgesAt_eq built.target_lt id

theorem Built.flatMap_outgoing_perm {ids : List String} (nodup : ids.Nodup) :
    (ids.flatMap graph.outgoing).Perm
      (graph.edges.filter fun edge => graph.idAt edge.source ∈ ids) := by
  rw [funext built.outgoing_eq]
  exact flatMap_filter_perm (fun edge => graph.idAt edge.source) graph.edges nodup

theorem Built.flatMap_incoming_perm {ids : List String} (nodup : ids.Nodup) :
    (ids.flatMap graph.incoming).Perm
      (graph.edges.filter fun edge => graph.idAt edge.target ∈ ids) := by
  rw [funext built.incoming_eq]
  exact flatMap_filter_perm (fun edge => graph.idAt edge.target) graph.edges nodup

theorem Built.mem_targetIds_iff {id target : String} :
    target ∈ graph.targetIds id ↔ graph.Joined id target := by
  rw [targetIds, built.outgoing_eq, List.filter_filter, List.mem_map]
  simp only [List.mem_filter, Bool.and_eq_true, decide_eq_true_eq]
  constructor
  · rintro ⟨edge, ⟨isEdge, isDependency, source⟩, isTarget⟩
    exact ⟨edge, isEdge, isDependency, source, isTarget⟩
  · rintro ⟨edge, isEdge, isDependency, source, isTarget⟩
    exact ⟨edge, ⟨isEdge, isDependency, source⟩, isTarget⟩

theorem Built.leaving_perm {ids : List String} (nodup : ids.Nodup) :
    (Boundary.leaving graph ids).Perm (graph.edges.filter fun edge =>
      edge.dependency ∧ graph.idAt edge.source ∈ ids) := by
  have passed : Boundary.leaving graph ids = (ids.flatMap graph.outgoing).filter (·.dependency) :=
    List.filter_flatMap.symm
  rw [passed]
  refine ((built.flatMap_outgoing_perm nodup).filter _).trans (.of_eq ?_)
  rw [List.filter_filter]
  simp only [Bool.decide_and, Bool.decide_eq_true]

end Edges

/-! ## Lists of neighbours -/

section Neighbours

variable {graph : DependencyGraph α} (built : Built graph)

include built

/-- What a list of numbers counts are the ids that stand for them. -/
theorem Built.length_eq_card {nodes : List Nat} (nodup : nodes.Nodup)
    (below : ∀ node ∈ nodes, node < graph.size) {wanted : String → Prop} [DecidablePred wanted]
    (members : ∀ node < graph.size, node ∈ nodes ↔ wanted (graph.idAt node)) :
    nodes.length = ((graph.nodes.map Element.id).toFinset.filter wanted).card := by
  have ids : (nodes.map graph.idAt).Nodup := nodup.map_on fun first isFirst second isSecond =>
    built.idAt_inj (below first isFirst) (below second isSecond)
  rw [← List.length_map graph.idAt, ← List.toFinset_card_of_nodup ids]
  congr 1
  ext id
  rw [Finset.mem_filter, List.mem_toFinset, List.mem_toFinset, ← map_idAt_range]
  simp only [List.mem_map, List.mem_range]
  constructor
  · rintro ⟨node, isNode, rfl⟩
    have node_lt := below node isNode
    exact ⟨⟨node, node_lt, rfl⟩, (members node node_lt).mp isNode⟩
  · rintro ⟨⟨node, node_lt, rfl⟩, isWanted⟩
    exact ⟨node, (members node node_lt).mpr isWanted, rfl⟩

/-- The number of nodes in the list of an id, if the lists hold the nodes that are related. -/
theorem Built.count_eq_card {lists : Nat → List Nat} (related : String → String → Prop)
    [DecidableRel related] (nodup : ∀ node, (lists node).Nodup)
    (below : ∀ node, ∀ other ∈ lists node, other < graph.size)
    (members : ∀ node < graph.size, ∀ other < graph.size,
      other ∈ lists node ↔ related (graph.idAt node) (graph.idAt other))
    (known : ∀ id other, related id other → graph.has id) (id : String) :
    ((graph.index? id).map fun node => (lists node).length).getD 0 =
      ((graph.nodes.map Element.id).toFinset.filter (related id)).card := by
  cases found : graph.index? id with
  | none =>
    have unrelated (other : String) : ¬ related id other := fun isRelated => by
      have present := known id other isRelated
      simp [has, found] at present
    simp [Finset.filter_false_of_mem fun other _ => unrelated other]
  | some node =>
    obtain ⟨node_lt, rfl⟩ := built.index?_eq_some_iff.mp found
    exact built.length_eq_card (nodup node) (below node) (members node node_lt)

theorem Built.efferent_eq_card (id : String) :
    graph.efferent id =
      ((graph.nodes.map Element.id).toFinset.filter (graph.Depends id)).card :=
  built.count_eq_card graph.Depends built.nodup_next built.lt_of_mem_next
    (fun _ node_lt _ other_lt => (built.depends_idAt_iff node_lt other_lt).symm)
    (fun _ _ depends => (built.has_of_depends depends).1) id

theorem Built.afferent_eq_card (id : String) :
    graph.afferent id =
      ((graph.nodes.map Element.id).toFinset.filter fun other => graph.Depends other id).card := by
  refine built.count_eq_card (fun id other => graph.Depends other id) built.nodup_before
    built.lt_of_mem_before (fun node node_lt other other_lt => ?_)
    (fun _ _ depends => (built.has_of_depends depends).2) id
  rw [built.mem_before_iff, built.depends_idAt_iff other_lt node_lt]

/-! ## Sums over all nodes -/

theorem Built.total_eq_sum (count : String → Nat) :
    graph.total count = ∑ id ∈ (graph.nodes.map Element.id).toFinset, count id := by
  rw [total, ← List.sum_eq_foldl, List.sum_toFinset count built.distinct, List.map_map]
  rfl

/-- Counted at either end, all dependencies are as many. -/
theorem Built.total_afferent_eq : graph.total graph.afferent = graph.total graph.efferent := by
  rw [built.total_eq_sum, built.total_eq_sum]
  simp only [built.afferent_eq_card, built.efferent_eq_card]
  exact (Finset.sum_card_bipartiteAbove_eq_sum_card_bipartiteBelow graph.Depends).symm

theorem Built.efferent_le {id : String} (present : id ∈ graph.nodes.map Element.id) :
    graph.efferent id ≤ graph.size - 1 := by
  let ids := (graph.nodes.map Element.id).toFinset
  have size_eq : ids.card = graph.size := by
    rw [List.toFinset_card_of_nodup built.distinct, List.length_map]
    rfl
  have others : ids.filter (graph.Depends id) ⊆ ids.erase id := by
    intro other member
    obtain ⟨isNode, depends⟩ := Finset.mem_filter.mp member
    exact Finset.mem_erase.mpr ⟨depends.1.symm, isNode⟩
  calc
    graph.efferent id = (ids.filter (graph.Depends id)).card := built.efferent_eq_card id
    _ ≤ (ids.erase id).card := Finset.card_le_card others
    _ = graph.size - 1 := by rw [Finset.card_erase_of_mem (List.mem_toFinset.mpr present), size_eq]

theorem Built.map_length_dependsOn :
    graph.dependsOn.toList.map List.length =
      graph.nodes.map fun node => graph.efferent node.id := by
  have lengths : graph.nodes.map (fun node => graph.efferent node.id) =
      (List.range graph.size).map fun node => graph.efferent (graph.idAt node) := by
    rw [← Function.comp_def graph.efferent, ← List.map_map, ← map_idAt_range, List.map_map]
    rfl
  rw [lengths, built.dependsOn_eq, List.map_map]
  refine List.map_congr_left fun node member => ?_
  have node_lt := List.mem_range.mp member
  rw [efferent, built.index?_eq_some_iff.mpr ⟨node_lt, rfl⟩, Option.map_some, Option.getD_some,
    built.next_eq, if_pos node_lt]
  rfl

theorem Built.pairs_le :
    (graph.dependsOn.toList.map List.length).foldl (· + ·) 0 ≤ graph.size * (graph.size - 1) := by
  rw [built.map_length_dependsOn, ← List.sum_eq_foldl]
  refine (List.sum_le_card_nsmul _ (graph.size - 1) fun count member => ?_).trans ?_
  · obtain ⟨node, isNode, rfl⟩ := List.mem_map.mp member
    exact built.efferent_le (List.mem_map_of_mem isNode)
  · rw [List.length_map, nsmul_eq_mul, Nat.cast_id]
    rfl

end Neighbours

/-! ## Edges and reports -/

/-- A relationship gives an edge or a report, and one edge more if it is kept and holds in both
directions. -/
theorem length_edgesOf_add_length_reportOf (kinds : List RelationshipKind)
    (elements : List Element) (relationship : Relationship α) :
    ((edgesOf kinds (Text.sortBy Element.id elements) relationship).toOption.getD []).length +
        (reportOf elements relationship).length =
      1 + if relationship.bidirectional ∧ relationship.sourceId ∈ elements.map Element.id ∧
        relationship.targetId ∈ elements.map Element.id then 1 else 0 := by
  have sorted (id : String) : id ∈ elements.map Element.id ↔
      lastIndex? (Text.sortBy Element.id elements) id ≠ none := by
    rw [ne_eq, lastIndex?_eq_none_iff, not_not]
    exact ((Text.sortBy_perm Element.id elements).map Element.id).mem_iff.symm
  simp only [sorted, reportOf, edgesOf]
  cases lastIndex? (Text.sortBy Element.id elements) relationship.sourceId with
  | none => simp [Except.toOption]
  | some source =>
    cases lastIndex? (Text.sortBy Element.id elements) relationship.targetId with
    | none => simp [Except.toOption]
    | some target => cases isMutual : relationship.bidirectional <;>
        simp [Except.toOption, edgesBetween, isMutual]

theorem length_edges_add_length_diagnostics (options : GraphOptions α) (elements : List Element)
    (relationships : List (Relationship α)) (earlier : Option (DependencyGraph α × List String)) :
    (build options elements relationships earlier).edges.length +
        (diagnostics elements relationships).length =
      relationships.length + relationships.countP fun relationship =>
        relationship.bidirectional ∧ relationship.sourceId ∈ elements.map Element.id ∧
          relationship.targetId ∈ elements.map Element.id := by
  rw [edges_build, diagnostics_eq_flatMap]
  induction relationships with
  | nil => rfl
  | cons relationship relationships induction =>
    have first := length_edgesOf_add_length_reportOf options.dependencyKinds elements relationship
    rw [List.flatMap_cons, List.flatMap_cons, List.length_append, List.length_append,
      List.length_cons, List.countP_cons]
    simp only [decide_eq_true_eq]
    omega

/-- The efferent count of an id is the number of other ids that dependency edges lead to from it,
and the afferent count the number of those from which they lead to it. One node is listed among
those that depend on another if and only if the other is listed among those that the one depends on,
so that both counts have the same sum and the same average. Density and instability are between zero
and one, and the instability of an id is zero if and only if the id depends on nothing. Every
relationship gives an edge or a report, and one edge more if it is kept and holds in both
directions. -/
theorem neighbours_build (options : GraphOptions Rat) {elements : List Element}
    (distinct : DistinctIds elements) (relationships : List (Relationship Rat))
    (earlier : Option (DependencyGraph Rat × List String)) :
    let graph := build options elements relationships earlier
    let ids := elements.map Element.id
    (∀ id, graph.efferent id = (ids.toFinset.filter fun other => graph.Depends id other).card) ∧
      (∀ id, graph.afferent id = (ids.toFinset.filter fun other => graph.Depends other id).card) ∧
      (∀ first second, first ∈ graph.before second ↔ second ∈ graph.next first) ∧
      graph.total graph.afferent = graph.total graph.efferent ∧
      graph.summary.averageAfferent = graph.summary.averageEfferent ∧
      (0 ≤ graph.summary.density ∧ graph.summary.density ≤ 1) ∧
      (∀ id, 0 ≤ graph.instability id ∧ graph.instability id ≤ 1 ∧
        (graph.instability id = 0 ↔ graph.efferent id = 0)) ∧
      graph.summary.edgeCount + (diagnostics elements relationships).length =
        relationships.length + relationships.countP fun relationship =>
          relationship.bidirectional ∧ relationship.sourceId ∈ ids ∧
            relationship.targetId ∈ ids := by
  intro graph ids
  have built : Built graph := built_build options distinct relationships earlier
  have sameIds : (graph.nodes.map Element.id).toFinset = ids.toFinset := by
    refine List.toFinset_eq_of_perm _ _ (List.Perm.map Element.id ?_)
    rw [nodes_build options elements relationships earlier]
    exact Text.sortBy_perm Element.id elements
  refine ⟨fun id => ?_, fun id => ?_, fun _ _ => built.mem_before_iff, built.total_afferent_eq,
    ?_, ?_, fun id => ⟨Scalar.ratio_nonneg _ _, Scalar.ratio_le_one (Nat.le_add_left _ _), ?_⟩,
    length_edges_add_length_diagnostics options elements relationships earlier⟩
  · rw [← sameIds]
    exact built.efferent_eq_card id
  · rw [← sameIds]
    exact built.afferent_eq_card id
  · change Scalar.ratio (graph.total graph.afferent) graph.size =
      Scalar.ratio (graph.total graph.efferent) graph.size
    rw [built.total_afferent_eq]
  · change 0 ≤ (if graph.size < 2 then Scalar.zero else Scalar.ratio _ _ : Rat) ∧
      (if graph.size < 2 then Scalar.zero else Scalar.ratio _ _ : Rat) ≤ 1
    split
    · rw [Scalar.zero_rat]
      exact ⟨le_rfl, zero_le_one⟩
    · exact ⟨Scalar.ratio_nonneg _ _, Scalar.ratio_le_one built.pairs_le⟩
  · rw [instability, Scalar.ratio_eq_div, div_eq_zero_iff, Nat.cast_eq_zero, Nat.cast_eq_zero]
    omega

/-- Two edges of different kinds from `a` to `b`, an edge from `b` to itself, a relationship that
holds in both directions, and one that is dropped. -/
theorem neighbours_build_mutual :
    let options : GraphOptions Rat := ⟨RelationshipKind.references, ⟨1, 2, 3⟩⟩
    let elements := ["a", "b", "c"].map fun id => Element.sketch id "main.ts" []
    let relationships :=
      [Relationship.sketch "a" .calls "b", Relationship.sketch "a" .uses "b",
       Relationship.sketch "b" .calls "b",
       { Relationship.sketch "c" .calls "a" with bidirectional := true },
       { Relationship.sketch "c" .calls "ghost" with bidirectional := true }]
    let graph := build options elements relationships none
    let ids := (elements.map Element.id).toFinset
    DistinctIds elements ∧ graph.efferent "a" = 2 ∧ graph.afferent "a" = 1 ∧
      (ids.filter fun other => graph.Depends "a" other).card = 2 ∧
      (ids.filter fun other => graph.Depends other "a").card = 1 ∧
      graph.total graph.afferent = 3 ∧ graph.instability "b" = 0 ∧
      graph.summary.averageAfferent = graph.summary.averageEfferent ∧
      graph.summary.edgeCount + (diagnostics elements relationships).length = 6 := by
  intro options elements relationships graph ids
  have distinct : DistinctIds elements := by decide
  have isGraph : graph = ofSorted options elements relationships :=
    fresh_of_sorted options (by decide) relationships
  have counts : graph.efferent "a" = 2 ∧ graph.afferent "a" = 1 ∧ graph.efferent "b" = 0 ∧
      graph.total graph.efferent = 3 := by
    rw [isGraph]
    decide +kernel
  obtain ⟨efferent, afferent, -, totals, averages, -, instability, edges⟩ :=
    neighbours_build options distinct relationships none
  exact ⟨distinct, counts.1, counts.2.1, (efferent "a").symm.trans counts.1,
    (afferent "a").symm.trans counts.2.1, totals.trans counts.2.2.2,
    (instability "b").2.2.mpr counts.2.2.1, averages, edges.trans (by decide)⟩

end DependencyGraph
end CodeAtlas
