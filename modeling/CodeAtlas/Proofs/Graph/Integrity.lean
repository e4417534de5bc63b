import CodeAtlas.Graph.Reuse
import CodeAtlas.Proofs.Graph.Basic
import CodeAtlas.Proofs.List

/-!
# Relationships and the edges of a graph

A relationship is in a graph by one edge, or by two opposite ones if it holds in both directions.
One with an end that is no node has no edge and is reported instead. If ids of relationships are
distinct then each of them meets one of these two fates, and none meets both.
-/

namespace CodeAtlas

namespace DependencyGraph

variable {α : Type}

/-- The edges that come from a relationship. -/
def edgesFor (graph : DependencyGraph α) (relationship : Relationship α) : List (GraphEdge α) :=
  graph.edges.filter (·.relationshipId = relationship.id)

/-- The ids of the nodes that an edge leads from and to. -/
def endsOf (graph : DependencyGraph α) (edge : GraphEdge α) : Option String × Option String :=
  (graph.nodes[edge.source]?.map Element.id, graph.nodes[edge.target]?.map Element.id)

/-- A relationship is in a graph: one edge leads from its source to its target, and if it holds in
both directions, one more leads back. -/
def Holds (graph : DependencyGraph α) (relationship : Relationship α) : Prop :=
  let forward := (some relationship.sourceId, some relationship.targetId)
  (graph.edgesFor relationship).map graph.endsOf =
    if relationship.bidirectional then [forward, forward.swap] else [forward]

/-- The diagnostics that report a relationship with a missing end. -/
def reportsOf (diagnostics : List Diagnostic) (relationship : Relationship α) : List Diagnostic :=
  diagnostics.filter fun diagnostic =>
    diagnostic.code = ErrorCode.graphIntegrity.name ∧
      diagnostic.relationshipId = some relationship.id

theorem nodes_build (options : GraphOptions α) (elements : List Element)
    (relationships : List (Relationship α)) (earlier : Option (DependencyGraph α × List String)) :
    (build options elements relationships earlier).nodes = Text.sortBy Element.id elements := by
  cases earlier <;> rfl

theorem weights_build (options : GraphOptions α) (elements : List Element)
    (relationships : List (Relationship α)) (earlier : Option (DependencyGraph α × List String)) :
    (build options elements relationships earlier).weights = options.weights := by
  cases earlier <;> rfl

theorem edges_build (options : GraphOptions α) (elements : List Element)
    (relationships : List (Relationship α)) (earlier : Option (DependencyGraph α × List String)) :
    (build options elements relationships earlier).edges =
      relationships.flatMap fun relationship =>
        (edgesOf options.dependencyKinds (Text.sortBy Element.id elements)
          relationship).toOption.getD [] := by
  have fromOutcomes : (fresh options elements relationships).edges =
      (outcomes options (Text.sortBy Element.id elements) relationships).flatMap
        fun outcome => outcome.toOption.getD [] := rfl
  rw [outcomes, List.flatMap_map] at fromOutcomes
  cases earlier with
  | none => exact fromOutcomes
  | some earlier => exact fromOutcomes

theorem relationshipId_of_mem_edgesOf {kinds : List RelationshipKind} {nodes : List Element}
    {relationship : Relationship α} {edge : GraphEdge α}
    (member : edge ∈ (edgesOf kinds nodes relationship).toOption.getD []) :
    edge.relationshipId = relationship.id := by
  unfold edgesOf at member
  split at member
  case h_1 => simp [Except.toOption] at member
  case h_2 => simp [Except.toOption] at member
  case h_3 =>
    simp only [Except.toOption, Option.getD_some, edgesBetween] at member
    split at member
    · simp only [List.mem_cons, List.not_mem_nil, or_false] at member
      rcases member with rfl | rfl <;> rfl
    · rw [List.mem_singleton.mp member]

/-- The report of one relationship. -/
def reportOf (elements : List Element) (relationship : Relationship α) : List Diagnostic :=
  match edgesOf [] (Text.sortBy Element.id elements) relationship with
  | .error error => [error.diagnostic .warning]
  | .ok _ => []

theorem diagnostics_eq_flatMap (elements : List Element) (relationships : List (Relationship α)) :
    diagnostics elements relationships = relationships.flatMap (reportOf elements) := by
  rw [diagnostics, List.filterMap_eq_flatMap_toList]
  refine List.flatMap_congr fun relationship _ => ?_
  rw [reportOf]
  cases edgesOf [] (Text.sortBy Element.id elements) relationship <;> rfl

/-- Whether ends are missing does not depend on the kinds that are dependencies. -/
theorem edgesOf_cases (kinds : List RelationshipKind) (nodes : List Element)
    (relationship : Relationship α) :
    (∃ source target, lastIndex? nodes relationship.sourceId = some source ∧
      lastIndex? nodes relationship.targetId = some target ∧
      edgesOf kinds nodes relationship = .ok (edgesBetween kinds relationship source target)) ∨
    (∃ missing, edgesOf kinds nodes relationship =
      .error (.missingElement relationship.id missing) ∧
        missing ∈ [relationship.sourceId, relationship.targetId] ∧
        missing ∉ nodes.map Element.id) := by
  rw [edgesOf]
  cases isSource : lastIndex? nodes relationship.sourceId with
  | none =>
    exact .inr ⟨_, rfl, List.mem_cons_self, lastIndex?_eq_none_iff.mp isSource⟩
  | some source =>
    cases isTarget : lastIndex? nodes relationship.targetId with
    | none =>
      exact .inr ⟨_, rfl, List.mem_cons_of_mem _ List.mem_cons_self,
        lastIndex?_eq_none_iff.mp isTarget⟩
    | some target => exact .inl ⟨source, target, rfl, rfl, rfl⟩

theorem relationshipId_of_mem_reportOf {elements : List Element} {relationship : Relationship α}
    {report : Diagnostic} (member : report ∈ reportOf elements relationship) :
    report.code = ErrorCode.graphIntegrity.name ∧ report.relationshipId = some relationship.id := by
  unfold reportOf at member
  rcases edgesOf_cases [] (Text.sortBy Element.id elements) relationship with
    ⟨source, target, _, _, present⟩ | ⟨missing, absent, _⟩
  · simp [present] at member
  · rw [absent, List.mem_singleton] at member
    subst member
    exact ⟨rfl, rfl⟩

theorem map_endsOf_edgesBetween {graph : DependencyGraph α} (kinds : List RelationshipKind)
    {relationship : Relationship α} {source target : Nat}
    (isSource : lastIndex? graph.nodes relationship.sourceId = some source)
    (isTarget : lastIndex? graph.nodes relationship.targetId = some target) :
    let forward := (some relationship.sourceId, some relationship.targetId)
    (edgesBetween kinds relationship source target).map graph.endsOf =
      if relationship.bidirectional then [forward, forward.swap] else [forward] := by
  obtain ⟨_, sourceFound, sourceId⟩ := lastIndex?_eq_some isSource
  obtain ⟨_, targetFound, targetId⟩ := lastIndex?_eq_some isTarget
  unfold edgesBetween
  dsimp only
  split <;> simp [endsOf, sourceFound, targetFound, sourceId, targetId]

section DistinctRelationships

variable {relationships : List (Relationship α)} {relationship : Relationship α}
  (distinct : (relationships.map Relationship.id).Nodup) (member : relationship ∈ relationships)

include distinct member

theorem edgesFor_build (options : GraphOptions α) (elements : List Element)
    (earlier : Option (DependencyGraph α × List String)) :
    (build options elements relationships earlier).edgesFor relationship =
      (edgesOf options.dependencyKinds (Text.sortBy Element.id elements)
        relationship).toOption.getD [] := by
  rw [edgesFor, edges_build]
  exact filter_flatMap_of_nodup Relationship.id
    (fun _ _ isEdge => relationshipId_of_mem_edgesOf isEdge) distinct member

theorem reportsOf_diagnostics (elements : List Element) :
    reportsOf (diagnostics elements relationships) relationship =
      reportOf elements relationship := by
  have coded : reportsOf (diagnostics elements relationships) relationship =
      (diagnostics elements relationships).filter (·.relationshipId = some relationship.id) := by
    refine List.filter_congr fun report isReport => ?_
    rw [diagnostics_eq_flatMap] at isReport
    obtain ⟨other, _, isReport⟩ := List.mem_flatMap.mp isReport
    simp [(relationshipId_of_mem_reportOf isReport).1]
  rw [coded, diagnostics_eq_flatMap]
  refine filter_flatMap_of_nodup (fun relationship => some relationship.id)
    (fun _ _ isReport => (relationshipId_of_mem_reportOf isReport).2) ?_ member
  rw [← Function.comp_def, ← List.map_map]
  exact distinct.map (Option.some_injective String)

/-- A relationship is in a graph and not reported, or reported once and not in the graph. -/
theorem holds_or_reported (options : GraphOptions α) (elements : List Element)
    (earlier : Option (DependencyGraph α × List String)) :
    ((build options elements relationships earlier).Holds relationship ∧
      reportsOf (diagnostics elements relationships) relationship = []) ∨
    ((build options elements relationships earlier).edgesFor relationship = [] ∧
      (reportsOf (diagnostics elements relationships) relationship).length = 1) := by
  rw [Holds, edgesFor_build distinct member, reportsOf_diagnostics distinct member, reportOf]
  rcases edgesOf_cases [] (Text.sortBy Element.id elements) relationship with
    ⟨source, target, isSource, isTarget, present⟩ | ⟨missing, absent, isEnd, noNode⟩
  · left
    have found : edgesOf options.dependencyKinds (Text.sortBy Element.id elements) relationship =
        .ok (edgesBetween options.dependencyKinds relationship source target) := by
      rw [edgesOf, isSource, isTarget]
    rw [← nodes_build options elements relationships earlier] at isSource isTarget
    rw [found, present]
    exact ⟨map_endsOf_edgesBetween options.dependencyKinds isSource isTarget, rfl⟩
  · right
    -- Whether an end is missing does not depend on the kinds that are dependencies.
    rcases edgesOf_cases options.dependencyKinds (Text.sortBy Element.id elements) relationship with
      ⟨source, target, isSource, isTarget, _⟩ | ⟨_, found, _⟩
    · rw [edgesOf, isSource, isTarget] at absent
      cases absent
    · rw [found, absent]
      exact ⟨rfl, rfl⟩

end DistinctRelationships

theorem reportOf_eq_nil {elements : List Element} {relationship : Relationship α}
    (source : relationship.sourceId ∈ elements.map Element.id)
    (target : relationship.targetId ∈ elements.map Element.id) :
    reportOf elements relationship = [] := by
  have sameIds : ((Text.sortBy Element.id elements).map Element.id).Perm
      (elements.map Element.id) := (Text.sortBy_perm Element.id elements).map Element.id
  unfold reportOf
  rcases edgesOf_cases [] (Text.sortBy Element.id elements) relationship with
    ⟨_, _, _, _, present⟩ | ⟨missing, _, isEnd, noNode⟩
  · rw [present]
  · rw [sameIds.mem_iff] at noNode
    simp only [List.mem_cons, List.not_mem_nil, or_false] at isEnd
    rcases isEnd with rfl | rfl
    · exact absurd source noNode
    · exact absurd target noNode

/-- If all ends are elements then nothing is reported, and every relationship is in the graph. -/
theorem holds_of_ends {elements : List Element} {relationships : List (Relationship α)}
    (distinct : (relationships.map Relationship.id).Nodup)
    (sources : ∀ relationship ∈ relationships, relationship.sourceId ∈ elements.map Element.id)
    (targets : ∀ relationship ∈ relationships, relationship.targetId ∈ elements.map Element.id) :
    diagnostics elements relationships = [] ∧
      ∀ options earlier, ∀ relationship ∈ relationships,
        (build options elements relationships earlier).Holds relationship := by
  have unreported (relationship : Relationship α) (member : relationship ∈ relationships) :
      reportOf elements relationship = [] :=
    reportOf_eq_nil (sources relationship member) (targets relationship member)
  refine ⟨?_, fun options earlier relationship member => ?_⟩
  · rw [diagnostics_eq_flatMap]
    exact List.flatMap_eq_nil_iff.mpr unreported
  · rcases holds_or_reported distinct member options elements earlier with
      ⟨holds, _⟩ | ⟨_, reported⟩
    · exact holds
    · rw [reportsOf_diagnostics distinct member, unreported relationship member] at reported
      cases reported

end DependencyGraph
end CodeAtlas
