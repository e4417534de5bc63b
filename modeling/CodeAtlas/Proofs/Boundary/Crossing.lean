import CodeAtlas.Proofs.Graph.Neighbours
import CodeAtlas.Proofs.List

/-!
# Edges at a boundary

The scores of members are counted from the members: over the edges that leave them, over those that
enter them from outside, and over what they depend on. Together these pass every dependency edge
that touches the members once, so that scores are ratios of counts in the graph as a whole.
-/

namespace CodeAtlas
namespace Boundary

open DependencyGraph

variable {α : Type}

/-- The dependency edges with an end among members. -/
def touching (graph : DependencyGraph α) (memberIds : List String) : List (GraphEdge α) :=
  graph.edges.filter fun edge => edge.dependency ∧
    (graph.idAt edge.source ∈ memberIds ∨ graph.idAt edge.target ∈ memberIds)

/-- The dependency edges with exactly one end among members. -/
def crossing (graph : DependencyGraph α) (memberIds : List String) : List (GraphEdge α) :=
  graph.edges.filter fun edge => edge.dependency ∧
    ¬ (graph.idAt edge.source ∈ memberIds ↔ graph.idAt edge.target ∈ memberIds)

/-- The ordered pairs of different members that a dependency edge joins. -/
def joinedPairs (graph : DependencyGraph α) (memberIds : List String) : Finset (String × String) :=
  memberIds.toFinset.offDiag.filter fun pair => graph.Joined pair.1 pair.2

/-! ## Counted edges -/

section Edges

variable {graph : DependencyGraph α} (built : DependencyGraph.Built graph) {members : List String}
  (nodup : members.Nodup)

include built nodup

theorem entering_perm :
    (entering graph members).Perm (graph.edges.filter fun edge =>
      edge.dependency ∧ graph.idAt edge.source ∉ members ∧ graph.idAt edge.target ∈ members) := by
  have passed : entering graph members = (members.flatMap graph.incoming).filter fun edge =>
      edge.dependency && !members.contains (graph.idAt edge.source) := List.filter_flatMap.symm
  rw [passed]
  refine ((built.flatMap_incoming_perm nodup).filter _).trans (.of_eq ?_)
  rw [List.filter_filter]
  refine List.filter_congr fun edge _ => ?_
  simp [Bool.and_assoc]

/-- Edges that leave members and edges that enter them from outside are those that touch them. -/
theorem leaving_append_entering_perm :
    (leaving graph members ++ entering graph members).Perm (touching graph members) := by
  refine ((built.leaving_perm nodup).append (entering_perm built nodup)).trans
    (filter_append_filter_perm graph.edges (fun edge => ?_) fun edge => ?_)
  · tauto
  · tauto

theorem crossing_perm :
    ((leaving graph members).filter (graph.idAt ·.target ∉ members) ++
      entering graph members).Perm (crossing graph members) := by
  have outward := (built.leaving_perm nodup).filter (graph.idAt ·.target ∉ members)
  rw [List.filter_filter] at outward
  simp only [← Bool.decide_and] at outward
  refine (outward.append (entering_perm built nodup)).trans
    (filter_append_filter_perm graph.edges (fun edge => ?_) fun edge => ?_)
  · tauto
  · tauto

theorem length_touching :
    (leaving graph members).length + (entering graph members).length =
      (touching graph members).length := by
  rw [← List.length_append, (leaving_append_entering_perm built nodup).length_eq]

theorem length_crossing :
    (outerTargets graph members).length + (entering graph members).length =
      (crossing graph members).length := by
  have outer : (outerTargets graph members).length =
      ((leaving graph members).filter (graph.idAt ·.target ∉ members)).length := by
    rw [outerTargets, List.filter_map, List.length_map]
    refine congrArg List.length (List.filter_congr fun edge _ => ?_)
    simp
  rw [outer, ← List.length_append, (crossing_perm built nodup).length_eq]

/-! ## Counted pairs -/

theorem innerPairs_eq_card : innerPairs graph members = (joinedPairs graph members).card := by
  have inner (id : String) : ((graph.dependenciesOf id).filter members.contains).length =
      (members.toFinset.filter (graph.Depends id)).card := by
    rw [← List.toFinset_card_of_nodup ((built.nodup_dependenciesOf id).filter _)]
    congr 1
    ext other
    simp [built.mem_dependenciesOf_iff, and_comm]
  have pairs : joinedPairs graph members =
      (members.toFinset ×ˢ members.toFinset).filter fun pair => graph.Depends pair.1 pair.2 := by
    ext pair
    rw [joinedPairs, Finset.mem_filter, Finset.mem_offDiag, Finset.mem_filter, Finset.mem_product]
    exact ⟨fun ⟨⟨isSource, isTarget, different⟩, joined⟩ =>
        ⟨⟨isSource, isTarget⟩, different, joined⟩,
      fun ⟨⟨isSource, isTarget⟩, different, joined⟩ =>
        ⟨⟨isSource, isTarget, different⟩, joined⟩⟩
  calc
    innerPairs graph members
        = ∑ id ∈ members.toFinset, (members.toFinset.filter (graph.Depends id)).card := by
      simp only [innerPairs, inner]
      rw [← List.sum_eq_foldl, List.sum_toFinset _ nodup]
    _ = ∑ id ∈ members.toFinset, ∑ other ∈ members.toFinset,
          if graph.Depends id other then 1 else 0 := by
      simp only [Finset.card_filter]
    _ = (joinedPairs graph members).card := by
      rw [pairs, Finset.card_filter, Finset.sum_product]

end Edges

theorem length_crossing_le (graph : DependencyGraph α) (memberIds : List String) :
    (crossing graph memberIds).length ≤ (touching graph memberIds).length := by
  refine (List.monotone_filter_right graph.edges fun edge crosses => ?_).length_le
  rw [decide_eq_true_eq] at crosses ⊢
  tauto

/-- There are as many ordered pairs as there are ways to choose a member and another one. -/
theorem card_joinedPairs_le (graph : DependencyGraph α) (memberIds : List String) :
    (joinedPairs graph memberIds).card ≤
      memberIds.toFinset.card * (memberIds.toFinset.card - 1) := by
  rw [Nat.mul_sub_one, ← Finset.offDiag_card]
  exact Finset.card_filter_le _ _

/-! ## Scores -/

theorem toFinset_distinct (values : List String) :
    (distinct values).toFinset = values.toFinset := by
  ext value
  rw [List.mem_toFinset, List.mem_toFinset, mem_distinct]

theorem length_distinct (values : List String) :
    (distinct values).length = values.toFinset.card := by
  rw [← List.toFinset_card_of_nodup (nodup_distinct values), toFinset_distinct]

section Scores

variable {graph : DependencyGraph Rat} (built : DependencyGraph.Built graph)
  (memberIds : List String)

include built

theorem coupling_eq_ratio :
    (score graph memberIds).coupling = Scalar.clamp
      (Scalar.ratio (crossing graph memberIds).length (touching graph memberIds).length) := by
  have touches : (leaving graph (distinct memberIds)).length +
      (entering graph (distinct memberIds)).length = (touching graph memberIds).length := by
    rw [length_touching built (nodup_distinct memberIds)]
    simp only [touching, mem_distinct]
  have crosses : (outerTargets graph (distinct memberIds)).length +
      (entering graph (distinct memberIds)).length = (crossing graph memberIds).length := by
    rw [length_crossing built (nodup_distinct memberIds)]
    simp only [crossing, mem_distinct]
  unfold score
  dsimp only
  rw [touches, crosses]
  split
  case isTrue none =>
    rw [none, Scalar.ratio_eq_div, Nat.cast_zero, div_zero, Scalar.zero_rat,
      Scalar.clamp_of_mem le_rfl zero_le_one]
  case isFalse => rfl

theorem cohesion_eq_ratio :
    (score graph memberIds).cohesion = if memberIds.toFinset.card < 2 then 1 else Scalar.clamp
      (Scalar.ratio (joinedPairs graph memberIds).card
        (memberIds.toFinset.card * (memberIds.toFinset.card - 1))) := by
  have pairs : innerPairs graph (distinct memberIds) = (joinedPairs graph memberIds).card := by
    rw [innerPairs_eq_card built (nodup_distinct memberIds), joinedPairs, joinedPairs,
      toFinset_distinct]
  unfold score
  dsimp only
  rw [length_distinct, pairs, Scalar.one_rat]

theorem mem_externalDependencyIds {id : String} :
    id ∈ (score graph memberIds).externalDependencyIds ↔
      id ∉ memberIds ∧ ∃ source ∈ memberIds, graph.Joined source id := by
  unfold score
  dsimp only
  rw [Text.mem_sort, mem_distinct, outerTargets_eq, List.mem_filter, List.mem_flatMap]
  simp only [mem_distinct, built.mem_targetIds_iff, Bool.not_eq_true', ← Bool.not_eq_true,
    List.contains_iff_mem]
  exact and_comm

omit built in
theorem pairwise_externalDependencyIds :
    (score graph memberIds).externalDependencyIds.Pairwise fun left right =>
      Text.before left right :=
  Text.pairwise_before (Text.pairwise_sort _)
    ((Text.sort_perm _).nodup_iff.mpr (nodup_distinct _))

end Scores

/-- Scoring members passes each dependency edge that touches them once. Coupling is the share of the
edges with exactly one end among the members in those with an end there, and zero if there are none.
Cohesion is the share of the ordered pairs of different members that are joined in all such pairs,
and one below two members. No clamp changes these shares. The external dependencies are the ids
outside that dependency edges of members lead to, in their order and each once. -/
theorem score_build (options : GraphOptions Rat) {elements : List Element}
    (distinctIds : DistinctIds elements) (relationships : List (Relationship Rat))
    (earlier : Option (DependencyGraph Rat × List String)) (memberIds : List String) :
    let graph := build options elements relationships earlier
    let scores := score graph memberIds
    let count := memberIds.toFinset.card
    let coupling : Rat := (crossing graph memberIds).length / (touching graph memberIds).length
    let cohesion : Rat := (joinedPairs graph memberIds).card / (count * (count - 1))
    (leaving graph (distinct memberIds) ++ entering graph (distinct memberIds)).Perm
        (touching graph memberIds) ∧
      scores.coupling = (if (touching graph memberIds).length = 0 then 0 else coupling) ∧
      scores.cohesion = (if 2 ≤ count then cohesion else 1) ∧
      Scalar.clamp coupling = coupling ∧ Scalar.clamp cohesion = cohesion ∧
      (scores.externalDependencyIds.Pairwise fun left right => Text.before left right) ∧
      ∀ id, id ∈ scores.externalDependencyIds ↔
        id ∉ memberIds ∧ ∃ source ∈ memberIds, graph.Joined source id := by
  intro graph scores count coupling cohesion
  have built : DependencyGraph.Built graph :=
    built_build options distinctIds relationships earlier
  have isCoupling : coupling =
      Scalar.ratio (crossing graph memberIds).length (touching graph memberIds).length :=
    (Scalar.ratio_eq_div _ _).symm
  have isCohesion : cohesion =
      Scalar.ratio (joinedPairs graph memberIds).card (count * (count - 1)) := by
    have pairs : ((count * (count - 1) : Nat) : Rat) = count * (count - 1) := by
      cases count <;> simp
    rw [Scalar.ratio_eq_div, pairs]
  have couplingClamp : Scalar.clamp coupling = coupling := by
    rw [isCoupling]
    exact Scalar.clamp_ratio (length_crossing_le graph memberIds)
  have cohesionClamp : Scalar.clamp cohesion = cohesion := by
    rw [isCohesion]
    exact Scalar.clamp_ratio (card_joinedPairs_le graph memberIds)
  refine ⟨?_, ?_, ?_, couplingClamp, cohesionClamp, pairwise_externalDependencyIds memberIds,
    fun id => mem_externalDependencyIds built memberIds⟩
  · have passed := leaving_append_entering_perm built (nodup_distinct memberIds)
    simpa only [touching, mem_distinct] using passed
  · have value : scores.coupling = coupling := by
      rw [coupling_eq_ratio built, ← isCoupling, couplingClamp]
    rw [value]
    split
    case isTrue none => rw [isCoupling, none, Scalar.ratio_eq_div, Nat.cast_zero, div_zero]
    case isFalse => rfl
  · change (score graph memberIds).cohesion = _
    rw [cohesion_eq_ratio built, ← isCohesion, cohesionClamp]
    by_cases few : count < 2
    · rw [if_pos few, if_neg (Nat.not_le.mpr few)]
    · rw [if_neg few, if_pos (Nat.not_lt.mp few)]

/-- Members of which one is repeated and one unknown, with two edges of different kinds between
them, an edge from a member to itself, a call that holds in both directions, a call from outside and
an edge that is no dependency. -/
theorem score_build_mirrored :
    let options : GraphOptions Rat := ⟨RelationshipKind.references, ⟨1, 2, 3⟩⟩
    let elements := ["a", "b", "c", "d"].map fun id => Element.sketch id "main.ts" []
    let call (source target : String) := Relationship.sketch source .calls target
    let relationships :=
      [call "a" "b", Relationship.sketch "a" .uses "b", call "b" "b",
       { call "a" "c" with bidirectional := true }, call "d" "a",
       { call "b" "d" with kind := .contains }]
    let graph := build options elements relationships none
    let memberIds := ["b", "a", "ghost", "a"]
    let scores := score graph memberIds
    DistinctIds elements ∧ (touching graph memberIds).length = 6 ∧
      (crossing graph memberIds).length = 3 ∧ scores.coupling = 3 / 6 ∧
      (joinedPairs graph memberIds).card = 1 ∧ scores.cohesion = 1 / 6 ∧
      "c" ∈ scores.externalDependencyIds ∧ "d" ∉ scores.externalDependencyIds := by
  intro options elements call relationships graph memberIds scores
  have distinctIds : DistinctIds elements := by decide
  have isGraph : graph = ofSorted options elements relationships :=
    fresh_of_sorted options (by decide) relationships
  have edges : (touching graph memberIds).length = 6 ∧ (crossing graph memberIds).length = 3 ∧
      (joinedPairs graph memberIds).card = 1 := by
    rw [isGraph]
    decide +kernel
  have ends : graph.Joined "a" "c" ∧ ¬ ∃ source ∈ memberIds, graph.Joined source "d" := by
    rw [isGraph]
    decide +kernel
  obtain ⟨-, coupling, cohesion, -, -, -, external⟩ :=
    score_build options distinctIds relationships none memberIds
  refine ⟨distinctIds, edges.1, edges.2.1, ?_, edges.2.2, ?_,
    (external "c").mpr ⟨by decide, "a", by decide, ends.1⟩,
    fun member => ends.2 ((external "d").mp member).2⟩
  · refine coupling.trans ?_
    rw [edges.1, edges.2.1]
    rfl
  · refine cohesion.trans ?_
    rw [edges.2.2]
    decide +kernel

end Boundary
end CodeAtlas
