import CodeAtlas.Proofs.Graph.Chain
import CodeAtlas.Proofs.Graph.Depth
import CodeAtlas.Proofs.Number.Ratio
import Mathlib.Data.Set.Card

/-!
# Impact

The impact of an id is the share of the nodes that walks along dependency edges lead to from it, the
id itself apart. A search counts these nodes, and what has been counted is remembered, which changes
no later answer. Ids of one component reach the same nodes, and an edge from one component into
another gives up at least the node that it comes from.
-/

namespace CodeAtlas
namespace DependencyGraph

variable {α : Type}

/-- The ids that an id reaches, itself included. -/
def reachedFrom (graph : DependencyGraph α) (id : String) : Set String :=
  {other | graph.Reaches id other}

/-- The other ids that an id reaches over one or more dependency edges. -/
def beyond (graph : DependencyGraph α) (id : String) : Set String :=
  {other | other ≠ id ∧ Relation.TransGen graph.Joined id other}

theorem beyond_eq_diff (graph : DependencyGraph α) (id : String) :
    graph.beyond id = graph.reachedFrom id \ {id} := by
  ext other
  constructor
  · rintro ⟨different, path⟩
    exact ⟨reaches_iff_joined.mpr path.to_reflTransGen, different⟩
  · rintro ⟨reaches, different⟩
    exact ⟨different, transGen_of_reaches (Ne.symm different) reaches⟩

/-! ## What is counted -/

section Counts

variable {graph : DependencyGraph α} (built : Built graph)

include built

theorem Built.has_of_joined {source target : String} (joined : graph.Joined source target) :
    graph.has source ∧ graph.has target := by
  obtain ⟨edge, isEdge, _, rfl, rfl⟩ := joined
  exact ⟨built.has_idAt (built.source_lt edge isEdge), built.has_idAt (built.target_lt edge isEdge)⟩

theorem Built.reachedFrom_eq {node : Nat} (node_lt : node < graph.size) :
    graph.reachedFrom (graph.idAt node) =
      ((Search.reached graph.next graph.size [node]).map graph.idAt).toFinset := by
  ext id
  rw [List.coe_toFinset]
  exact (built.mem_map_reached_iff node_lt).symm

theorem Built.finite_reachedFrom {id : String} (present : graph.has id) :
    (graph.reachedFrom id).Finite := by
  obtain ⟨node, node_lt, rfl⟩ := built.has_iff.mp present
  rw [built.reachedFrom_eq node_lt]
  exact Finset.finite_toSet _

/-- A search meets as many nodes as there are ids that are reached. -/
theorem Built.length_reached {node : Nat} (node_lt : node < graph.size) :
    (Search.reached graph.next graph.size [node]).length =
      (graph.reachedFrom (graph.idAt node)).ncard := by
  rw [built.reachedFrom_eq node_lt, Set.ncard_coe_finset,
    List.toFinset_card_of_nodup (built.nodup_map_reached node_lt), List.length_map]

theorem Built.beyond_of_unknown {id : String} (absent : ¬ graph.has id) : graph.beyond id = ∅ := by
  refine Set.eq_empty_iff_forall_notMem.mpr fun other ⟨_, path⟩ => ?_
  obtain ⟨next, step, _⟩ := Relation.TransGen.head'_iff.mp path
  exact absent (built.has_of_joined step).1

theorem Built.finite_beyond (id : String) : (graph.beyond id).Finite := by
  by_cases present : graph.has id
  · rw [beyond_eq_diff]
    exact (built.finite_reachedFrom present).sdiff
  · rw [built.beyond_of_unknown present]
    exact Set.finite_empty

theorem Built.ncard_beyond_add_one {id : String} (present : graph.has id) :
    (graph.beyond id).ncard + 1 = (graph.reachedFrom id).ncard := by
  rw [beyond_eq_diff]
  exact Set.ncard_sdiff_singleton_add_one .refl (built.finite_reachedFrom present)

/-- What is remembered or counted is the number of ids beyond. -/
theorem Built.reachOf_eq_ncard (faithful : graph.Faithful) (id : String) :
    graph.reachOf id = (graph.beyond id).ncard := by
  rw [faithful.reachOf_eq]
  cases found : graph.index? id with
  | none =>
    have absent : ¬ graph.has id := by simp [has, found]
    have unknown : graph.bare.index? id = none := found
    rw [built.beyond_of_unknown absent, Set.ncard_empty, reachOf, unknown]
  | some node =>
    obtain ⟨node_lt, rfl⟩ := built.index?_eq_some_iff.mp found
    have counted := built.ncard_beyond_add_one (built.has_idAt node_lt)
    rw [reachOf_bare found, countReached, built.length_reached node_lt]
    omega

theorem Built.ncard_beyond_lt_size {id : String} (present : graph.has id) :
    (graph.beyond id).ncard < graph.size := by
  have counted := built.ncard_beyond_add_one present
  obtain ⟨node, node_lt, rfl⟩ := built.has_iff.mp present
  have below : ∀ other ∈ [node], other < graph.size := by simpa using node_lt
  have subset : Search.reached graph.next graph.size [node] ⊆ List.range graph.size :=
    fun other met => List.mem_range.mpr (Search.lt_of_mem_reached built.lt_of_mem_next _ below met)
  have few := (List.subperm_of_subset (Search.nodup_reached built.lt_of_mem_next _ below)
    subset).length_le
  rw [built.length_reached node_lt, List.length_range] at few
  omega

/-! ## Components -/

omit built in
theorem reachedFrom_subset {source target : String} (reaches : graph.Reaches source target) :
    graph.reachedFrom target ⊆ graph.reachedFrom source :=
  fun _ further => reaches.trans further

theorem Built.ncard_beyond_eq {first second : String} (isFirst : graph.has first)
    (isSecond : graph.has second) (there : graph.Reaches first second)
    (back : graph.Reaches second first) :
    (graph.beyond first).ncard = (graph.beyond second).ncard := by
  have same : graph.reachedFrom first = graph.reachedFrom second :=
    Set.Subset.antisymm (reachedFrom_subset back) (reachedFrom_subset there)
  have firstCount := built.ncard_beyond_add_one isFirst
  have secondCount := built.ncard_beyond_add_one isSecond
  rw [same] at firstCount
  omega

/-- An id from which there is no way back to another reaches fewer ids than the other. -/
theorem Built.ncard_beyond_lt {source target : String} (isSource : graph.has source)
    (isTarget : graph.has target) (there : graph.Reaches source target)
    (oneWay : ¬ graph.Reaches target source) :
    (graph.beyond target).ncard < (graph.beyond source).ncard := by
  have fewer : (graph.reachedFrom target).ncard < (graph.reachedFrom source).ncard := by
    apply Set.ncard_lt_ncard _ (built.finite_reachedFrom isSource)
    exact (Set.ssubset_iff_of_subset (reachedFrom_subset there)).mpr ⟨source, .refl, oneWay⟩
  have sourceCount := built.ncard_beyond_add_one isSource
  have targetCount := built.ncard_beyond_add_one isTarget
  omega

theorem Built.has_of_reaches {source target : String} (isSource : graph.has source)
    (reaches : graph.Reaches source target) : graph.has target := by
  cases reaches with
  | refl => exact isSource
  | tail _ step => exact (built.has_of_depends step).2

omit built in
/-- Each id of a component stands for it. -/
theorem around_eq_of_mem {id other : String} (member : other ∈ graph.around id) :
    graph.around other = graph.around id := by
  obtain ⟨there, back⟩ := member
  ext third
  exact ⟨fun ⟨out, home⟩ => ⟨there.trans out, home.trans back⟩,
    fun ⟨out, home⟩ => ⟨back.trans out, home.trans there⟩⟩

theorem Built.has_of_isComponent {ids : Set String} (isComponent : graph.IsComponent ids)
    {id : String} (member : id ∈ ids) : graph.has id ∧ graph.around id = ids := by
  obtain ⟨representative, present, rfl⟩ := isComponent
  exact ⟨built.has_of_reaches present member.1, around_eq_of_mem member⟩

end Counts

/-! ## Shares -/

section Shares

variable {graph : DependencyGraph Rat} (built : Built graph) (faithful : graph.Faithful)

include built faithful

theorem Built.impact_eq_ratio (id : String) :
    graph.impact id = Scalar.ratio (graph.beyond id).ncard graph.size := by
  rw [impact, built.reachOf_eq_ncard faithful]

theorem Built.impact_of_unknown {id : String} (absent : ¬ graph.has id) : graph.impact id = 0 := by
  rw [built.impact_eq_ratio faithful, built.beyond_of_unknown absent, Set.ncard_empty,
    Scalar.ratio_eq_div, Nat.cast_zero, zero_div]

theorem Built.impact_lt_one (id : String) : graph.impact id < 1 := by
  by_cases present : graph.has id
  · have fewer := built.ncard_beyond_lt_size present
    have positive : 0 < graph.size := Nat.zero_lt_of_lt fewer
    rw [built.impact_eq_ratio faithful, Scalar.ratio_eq_div, div_lt_one (Nat.cast_pos.mpr positive)]
    exact Nat.cast_lt.mpr fewer
  · rw [built.impact_of_unknown faithful present]
    exact zero_lt_one

theorem Built.impact_eq_of_isComponent {ids : Set String} (isComponent : graph.IsComponent ids)
    {first second : String} (isFirst : first ∈ ids) (isSecond : second ∈ ids) :
    graph.impact first = graph.impact second := by
  obtain ⟨hasFirst, aroundFirst⟩ := built.has_of_isComponent isComponent isFirst
  obtain ⟨hasSecond, _⟩ := built.has_of_isComponent isComponent isSecond
  obtain ⟨there, back⟩ : second ∈ graph.around first := aroundFirst ▸ isSecond
  rw [built.impact_eq_ratio faithful, built.impact_eq_ratio faithful,
    built.ncard_beyond_eq hasFirst hasSecond there back]

/-- Along an edge into another component the impact decreases. -/
theorem Built.impact_lt_of_joined {upper lower : Set String} (isUpper : graph.IsComponent upper)
    (isLower : graph.IsComponent lower) (apart : upper ≠ lower) {source target : String}
    (isSource : source ∈ upper) (isTarget : target ∈ lower)
    (joined : graph.Joined source target) : graph.impact target < graph.impact source := by
  obtain ⟨hasSource, aroundSource⟩ := built.has_of_isComponent isUpper isSource
  obtain ⟨hasTarget, aroundTarget⟩ := built.has_of_isComponent isLower isTarget
  have there : graph.Reaches source target := reaches_iff_joined.mpr (.single joined)
  -- With a way back, both ends would be in one component.
  have oneWay : ¬ graph.Reaches target source := fun back =>
    apart (aroundSource.symm.trans ((around_eq_of_mem ⟨back, there⟩).trans aroundTarget))
  have positive : 0 < graph.size := Nat.zero_lt_of_lt (built.ncard_beyond_lt_size hasSource)
  rw [built.impact_eq_ratio faithful, built.impact_eq_ratio faithful]
  exact Scalar.ratio_lt_ratio positive (built.ncard_beyond_lt hasSource hasTarget there oneWay)

end Shares

/-- Whatever a graph has been asked before, the impact of an id is the number of other nodes that it
reaches over one or more dependency edges, divided by the number of nodes, and zero if the id is
unknown. So it is at least zero and less than one, the same for all ids of a strongly connected
component, and greater for the source of a dependency edge than for its target if these are in
different components. -/
theorem impact_build (options : GraphOptions Rat) {elements : List Element}
    (distinct : DistinctIds elements) (relationships : List (Relationship Rat))
    (asked : List String) :
    let graph := asked.foldl remember (build options elements relationships none)
    (∀ id ∈ elements.map Element.id, (graph.beyond id).Finite ∧
        graph.impact id = (graph.beyond id).ncard / elements.length) ∧
      (∀ id ∉ elements.map Element.id, graph.impact id = 0) ∧
      (∀ id, 0 ≤ graph.impact id ∧ graph.impact id < 1) ∧
      (∀ ids, graph.IsComponent ids → ∀ first ∈ ids, ∀ second ∈ ids,
        graph.impact first = graph.impact second) ∧
      ∀ upper lower, graph.IsComponent upper → graph.IsComponent lower → upper ≠ lower →
        ∀ source ∈ upper, ∀ target ∈ lower, graph.Joined source target →
          graph.impact target < graph.impact source := by
  intro graph
  let version : Version Rat := ⟨options, elements, relationships, []⟩
  have follows : Follows graph version := (follows_fresh version).rememberAll asked
  have faithful : graph.Faithful := follows.faithful
  have built : Built graph :=
    .of_bare (follows.bare_eq.symm ▸ built_fresh options distinct relationships)
  have isNodes : graph.nodes = Text.sortBy Element.id elements :=
    congrArg DependencyGraph.nodes follows.bare_eq
  have sameIds : (graph.nodes.map Element.id).Perm (elements.map Element.id) := by
    rw [isNodes]
    exact (Text.sortBy_perm Element.id elements).map Element.id
  have size_eq : graph.size = elements.length := by
    simpa [size] using sameIds.length_eq
  refine ⟨fun id _ => ⟨built.finite_beyond id, ?_⟩, fun id absent => ?_,
    fun id => ⟨Scalar.ratio_nonneg _ _, built.impact_lt_one faithful id⟩,
    fun ids isComponent first isFirst second isSecond =>
      built.impact_eq_of_isComponent faithful isComponent isFirst isSecond,
    fun upper lower isUpper isLower apart source isSource target isTarget =>
      built.impact_lt_of_joined faithful isUpper isLower apart isSource isTarget⟩
  · rw [built.impact_eq_ratio faithful, Scalar.ratio_eq_div, size_eq]
  · refine built.impact_of_unknown faithful fun present => absent ?_
    obtain ⟨node, node_lt, rfl⟩ := built.has_iff.mp present
    rw [← sameIds.mem_iff, ← map_idAt_range]
    exact List.mem_map_of_mem (List.mem_range.mpr node_lt)

/-- Two circles, the first of which depends on the second, and an element that depends on the first,
after some questions, one of them about an unknown id and one asked twice. -/
theorem impact_build_two_circles :
    let options : GraphOptions Rat := ⟨RelationshipKind.references, ⟨1, 2, 3⟩⟩
    let elements := ["a", "b", "c", "d", "e"].map fun id => Element.sketch id "main.ts" []
    let relationships :=
      [("a", "b"), ("b", "a"), ("b", "c"), ("c", "d"), ("d", "c"), ("e", "a")].map
        fun (source, target) => Relationship.sketch source .calls target
    let graph := ["a", "ghost", "e", "a"].foldl remember (build options elements relationships none)
    DistinctIds elements ∧ graph.impact "a" = 3 / 5 ∧
      (3 / 5 : Rat) = (graph.beyond "a").ncard / elements.length ∧ graph.impact "ghost" = 0 ∧
      graph.IsComponent (graph.around "a") ∧ graph.IsComponent (graph.around "c") ∧
      graph.around "a" ≠ graph.around "c" ∧ graph.impact "a" = graph.impact "b" ∧
      graph.Joined "b" "c" ∧ graph.impact "c" < graph.impact "b" := by
  intro options elements relationships graph
  have distinct : DistinctIds elements := by decide
  have isGraph : graph = ["a", "ghost", "e", "a"].foldl remember
      (ofSorted options elements relationships) :=
    congrArg (List.foldl remember · ["a", "ghost", "e", "a"])
      (fresh_of_sorted options (by decide) relationships)
  have values : graph.impact "a" = 3 / 5 ∧ graph.impact "c" = 1 / 5 := by
    rw [isGraph]
    decide +kernel
  have edges : graph.Joined "a" "b" ∧ graph.Joined "b" "a" ∧ graph.Joined "b" "c" := by
    rw [isGraph]
    decide +kernel
  have known : graph.has "a" ∧ graph.has "c" := by
    rw [isGraph]
    decide +kernel
  obtain ⟨shares, unknown, -, together, decreases⟩ :=
    impact_build options distinct relationships ["a", "ghost", "e", "a"]
  have upper : graph.IsComponent (graph.around "a") := ⟨"a", known.1, rfl⟩
  have lower : graph.IsComponent (graph.around "c") := ⟨"c", known.2, rfl⟩
  have isSource : "b" ∈ graph.around "a" :=
    ⟨reaches_iff_joined.mpr (.single edges.1), reaches_iff_joined.mpr (.single edges.2.1)⟩
  have apart : graph.around "a" ≠ graph.around "c" := by
    intro same
    have equal : graph.impact "a" = graph.impact "c" :=
      together _ upper "a" ⟨.refl, .refl⟩ "c" (same ▸ ⟨.refl, .refl⟩)
    rw [values.1, values.2] at equal
    exact absurd equal (by decide +kernel)
  exact ⟨distinct, values.1, values.1.symm.trans (shares "a" (by decide)).2,
    unknown "ghost" (by decide), upper, lower, apart,
    together _ upper "a" ⟨.refl, .refl⟩ "b" isSource, edges.2.2,
    decreases _ _ upper lower apart "b" isSource "c" ⟨.refl, .refl⟩ edges.2.2⟩

end DependencyGraph
end CodeAtlas
