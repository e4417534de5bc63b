import CodeAtlas.Proofs.Graph.Component
import CodeAtlas.Proofs.List
import Mathlib.Data.List.Chain

/-!
# Cycles of a graph

Components are found along dependencies between different nodes, and edges from a node to itself are
looked at apart. Both together give the cycles: a node lies in one if and only if a walk along
dependency edges leads back to it, and two nodes are in one group if and only if one such walk
passes both.
-/

namespace CodeAtlas

/-! ## Walks of a relation -/

section Walks

variable {α : Type} {related : α → α → Prop}

theorem transGen_of_isChain {first last : α} {via : List α}
    (walk : (first :: (via ++ [last])).IsChain related) :
    Relation.TransGen related first last := by
  induction via generalizing first with
  | nil => exact .single (List.isChain_cons_cons.mp walk).1
  | cons second via induction =>
    obtain ⟨step, rest⟩ := List.isChain_cons_cons.mp walk
    exact .head step (induction rest)

theorem exists_isChain_of_transGen {first last : α}
    (path : Relation.TransGen related first last) :
    ∃ via, (first :: (via ++ [last])).IsChain related := by
  induction path using Relation.TransGen.head_induction_on with
  | single step => exact ⟨[], List.isChain_pair.mpr step⟩
  | head step _ induction =>
    obtain ⟨via, walk⟩ := induction
    exact ⟨_ :: via, List.isChain_cons_cons.mpr ⟨step, walk⟩⟩

/-- A walk that ends where it starts leads from its start to whatever it passes, and back. -/
theorem transGen_of_mem_closed {start passed : α} {via : List α}
    (walk : (start :: (via ++ [start])).IsChain related) (member : passed ∈ start :: via) :
    Relation.TransGen related start passed ∧ Relation.TransGen related passed start := by
  rcases List.mem_cons.mp member with rfl | inner
  · exact ⟨transGen_of_isChain walk, transGen_of_isChain walk⟩
  · obtain ⟨before, after, rfl⟩ := List.append_of_mem inner
    rw [List.append_assoc, List.cons_append, List.isChain_cons_split] at walk
    exact ⟨transGen_of_isChain walk.1, transGen_of_isChain walk.2⟩

end Walks

namespace DependencyGraph

variable {α : Type}

/-- A dependency edge leads from one id to another or to the same. -/
def Joined (graph : DependencyGraph α) (source target : String) : Prop :=
  ∃ edge ∈ graph.edges,
    edge.dependency ∧ graph.idAt edge.source = source ∧ graph.idAt edge.target = target

/-- A walk along dependency edges from an id back to it, by way of others. It has one edge more than
it has ids on its way. -/
def ClosedWalk (graph : DependencyGraph α) (start : String) (via : List String) : Prop :=
  (start :: (via ++ [start])).IsChain graph.Joined

instance (graph : DependencyGraph α) : DecidableRel graph.Joined := fun source target =>
  inferInstanceAs (Decidable (∃ edge ∈ graph.edges,
    edge.dependency = true ∧ graph.idAt edge.source = source ∧ graph.idAt edge.target = target))

instance (graph : DependencyGraph α) (start : String) (via : List String) :
    Decidable (graph.ClosedWalk start via) :=
  inferInstanceAs (Decidable ((start :: (via ++ [start])).IsChain graph.Joined))

/-! ## Walks along dependency edges -/

section Walk

variable {graph : DependencyGraph α}

/-- Edges from an id to itself add nothing to what is reached. -/
theorem reaches_iff_joined {source target : String} :
    graph.Reaches source target ↔ Relation.ReflTransGen graph.Joined source target := by
  refine ⟨Relation.ReflTransGen.mono (fun _ _ depends => depends.2) source target, fun path => ?_⟩
  induction path with
  | refl => exact .refl
  | @tail middle last _ step induction =>
    by_cases same : middle = last
    · exact same ▸ induction
    · exact induction.tail ⟨same, step⟩

theorem transGen_of_reaches {source target : String} (different : source ≠ target)
    (path : graph.Reaches source target) : Relation.TransGen graph.Joined source target :=
  (Relation.reflTransGen_iff_eq_or_transGen.mp (reaches_iff_joined.mp path)).resolve_left
    different.symm

theorem exists_closedWalk_iff {id : String} :
    (∃ via, graph.ClosedWalk id via) ↔ Relation.TransGen graph.Joined id id :=
  ⟨fun ⟨_, walk⟩ => transGen_of_isChain walk, exists_isChain_of_transGen⟩

/-- One closed walk passes two ids if and only if walks lead from each to the other. -/
theorem exists_closedWalk_through_iff {first second : String} :
    (∃ start via, graph.ClosedWalk start via ∧ first ∈ start :: via ∧ second ∈ start :: via) ↔
      Relation.TransGen graph.Joined first second ∧
        Relation.TransGen graph.Joined second first := by
  constructor
  · rintro ⟨start, via, walk, isFirst, isSecond⟩
    have passesFirst := transGen_of_mem_closed walk isFirst
    have passesSecond := transGen_of_mem_closed walk isSecond
    exact ⟨passesFirst.2.trans passesSecond.1, passesSecond.2.trans passesFirst.1⟩
  · rintro ⟨there, back⟩
    obtain ⟨out, outward⟩ := exists_isChain_of_transGen there
    obtain ⟨home, homeward⟩ := exists_isChain_of_transGen back
    refine ⟨first, out ++ second :: home, ?_, by simp, by simp⟩
    rw [ClosedWalk, List.append_assoc, List.cons_append, List.isChain_cons_split]
    exact ⟨outward, homeward⟩

/-- A walk back to an id is an edge to itself or passes another id. -/
theorem transGen_self_iff {id : String} :
    Relation.TransGen graph.Joined id id ↔
      graph.Joined id id ∨ ∃ other ≠ id, graph.Reaches id other ∧ graph.Reaches other id := by
  constructor
  · intro path
    obtain ⟨other, step, rest⟩ := Relation.TransGen.head'_iff.mp path
    by_cases same : other = id
    · exact .inl (same ▸ step)
    · exact .inr ⟨other, same, reaches_iff_joined.mpr (.single step),
        reaches_iff_joined.mpr rest⟩
  · rintro (loop | ⟨other, different, there, back⟩)
    · exact .single loop
    · exact (transGen_of_reaches different.symm there).trans (transGen_of_reaches different back)

end Walk

/-! ## Nodes in cycles -/

section Cycles

variable {graph : DependencyGraph α} (built : Built graph)

include built

theorem Built.hasLoop_iff {node : Nat} (node_lt : node < graph.size) :
    graph.hasLoop node ↔ graph.Joined (graph.idAt node) (graph.idAt node) := by
  simp only [hasLoop, List.any_eq_true, Bool.and_eq_true, beq_iff_eq]
  constructor
  · rintro ⟨edge, isEdge, ⟨isDependency, rfl⟩, target⟩
    exact ⟨edge, isEdge, isDependency, rfl, by rw [target]⟩
  · rintro ⟨edge, isEdge, isDependency, source, target⟩
    have isSource := built.idAt_inj (built.source_lt edge isEdge) node_lt source
    have isTarget := built.idAt_inj (built.target_lt edge isEdge) node_lt target
    exact ⟨edge, isEdge, ⟨isDependency, isSource⟩, isTarget⟩

variable (toured : graph.components = Tour.components graph.next graph.size)

include toured

theorem Built.exists_component {node : Nat} (node_lt : node < graph.size) :
    ∃ component ∈ graph.components, node ∈ component := by
  rw [toured]
  exact List.mem_flatten.mp ((Tour.flatten_components_perm built.lt_of_mem_next).mem_iff.mpr
    (List.mem_range.mpr node_lt))

theorem Built.component_eq {component another : List Nat}
    (isComponent : component ∈ graph.components) (isAnother : another ∈ graph.components)
    {node : Nat} (member : node ∈ component) (inAnother : node ∈ another) :
    component = another := by
  obtain ⟨place, isPlace⟩ := List.mem_iff_getElem?.mp isComponent
  obtain ⟨other, isOther⟩ := List.mem_iff_getElem?.mp isAnother
  have nodup : graph.components.flatten.Nodup :=
    toured ▸ Tour.nodup_flatten_components built.lt_of_mem_next
  rw [place_eq_of_mem nodup isPlace isOther member inAnother, isOther] at isPlace
  exact (Option.some.inj isPlace).symm

theorem Built.componentOf_eq {component : List Nat} (isComponent : component ∈ graph.components)
    {node : Nat} (member : node ∈ component) : graph.componentOf node = component := by
  have found : (graph.components.find? (·.contains node)).isSome := by
    rw [List.find?_isSome]
    exact ⟨component, isComponent, List.contains_iff_mem.mpr member⟩
  obtain ⟨another, isAnother⟩ := Option.isSome_iff_exists.mp found
  rw [componentOf, isAnother, Option.getD_some]
  have inAnother : node ∈ another := by simpa using List.find?_some isAnother
  exact built.component_eq toured (List.mem_of_find?_eq_some isAnother) isComponent inAnother member

/-- The ids of a component are those that one of them reaches and is reached from. -/
theorem Built.mem_map_component_iff {component : List Nat}
    (isComponent : component ∈ graph.components) {node : Nat} (member : node ∈ component)
    {id : String} :
    id ∈ component.map graph.idAt ↔
      graph.Reaches (graph.idAt node) id ∧ graph.Reaches id (graph.idAt node) := by
  have node_lt := built.lt_of_mem_component toured isComponent member
  constructor
  · intro inside
    obtain ⟨other, isOther, rfl⟩ := List.mem_map.mp inside
    have other_lt := built.lt_of_mem_component toured isComponent isOther
    obtain ⟨there, back⟩ := (Tour.exists_component_iff built.lt_of_mem_next node_lt other_lt).mp
      ⟨component, toured ▸ isComponent, member, isOther⟩
    exact ⟨built.reaches_idAt node_lt there, built.reaches_idAt other_lt back⟩
  · rintro ⟨reaches, returns⟩
    obtain ⟨other, other_lt, there, rfl⟩ := built.search_of_reaches node_lt reaches
    have back := (built.reaches_idAt_iff other_lt node_lt).mp returns
    obtain ⟨another, isAnother, inAnother, isOther⟩ := (Tour.exists_component_iff
      built.lt_of_mem_next node_lt other_lt).mpr ⟨there, back⟩
    rw [← toured] at isAnother
    obtain rfl := built.component_eq toured isAnother isComponent inAnother member
    exact List.mem_map_of_mem isOther

theorem Built.one_lt_length_iff {component : List Nat} (isComponent : component ∈ graph.components)
    {node : Nat} (member : node ∈ component) :
    1 < component.length ↔ ∃ other ≠ graph.idAt node,
      graph.Reaches (graph.idAt node) other ∧ graph.Reaches other (graph.idAt node) := by
  have node_lt := built.lt_of_mem_component toured isComponent member
  have ascending := Tour.ascending_of_mem_components (toured ▸ isComponent)
  simp only [← built.mem_map_component_iff toured isComponent member]
  rw [one_lt_length_iff_of_mem (ascending.imp fun ordered => ordered.ne) member]
  constructor
  · rintro ⟨other, isOther, different⟩
    have other_lt := built.lt_of_mem_component toured isComponent isOther
    exact ⟨graph.idAt other, fun same => different (built.idAt_inj other_lt node_lt same),
      List.mem_map_of_mem isOther⟩
  · rintro ⟨id, different, inside⟩
    obtain ⟨other, isOther, rfl⟩ := List.mem_map.mp inside
    exact ⟨other, isOther, fun same => different (by rw [same])⟩

/-- An id is in a cycle if and only if a walk leads back to it. -/
theorem Built.isInCycle_iff {id : String} :
    graph.isInCycle id ↔ Relation.TransGen graph.Joined id id := by
  unfold isInCycle
  split
  case h_1 absent =>
    refine iff_of_false Bool.false_ne_true fun path => ?_
    obtain ⟨other, ⟨edge, isEdge, _, source, _⟩, _⟩ := Relation.TransGen.head'_iff.mp path
    have found := built.index?_eq_some_iff.mpr ⟨built.source_lt edge isEdge, source⟩
    rw [absent] at found
    cases found
  case h_2 node found =>
    obtain ⟨node_lt, rfl⟩ := built.index?_eq_some_iff.mp found
    obtain ⟨component, isComponent, member⟩ := built.exists_component toured node_lt
    rw [Bool.or_eq_true, decide_eq_true_eq, built.hasLoop_iff node_lt,
      built.componentOf_eq toured isComponent member,
      built.one_lt_length_iff toured isComponent member, transGen_self_iff]

theorem Built.isCyclic_eq_isInCycle {component : List Nat}
    (isComponent : component ∈ graph.components) {node : Nat} (member : node ∈ component) :
    graph.isCyclic component = graph.isInCycle (graph.idAt node) := by
  have node_lt := built.lt_of_mem_component toured isComponent member
  have found := built.index?_eq_some_iff.mpr ⟨node_lt, rfl⟩
  rw [isInCycle, found, isCyclic]
  dsimp only
  rw [built.componentOf_eq toured isComponent member]
  match component, member with
  | [single], member =>
    rw [List.mem_singleton.mp member]
    simp
  | first :: second :: rest, _ => simp

/-! ## Groups -/

omit built toured in
theorem map_memberIds_cycles_perm (graph : DependencyGraph α) :
    (graph.cycles.map CycleGroup.memberIds).Perm
      ((graph.components.filter graph.isCyclic).map fun nodes => nodes.map graph.idAt) := by
  refine ((Text.sortBy_perm CycleGroup.id _).map CycleGroup.memberIds).trans (.of_eq ?_)
  rw [List.map_map]
  rfl

omit built toured in
theorem exists_cycles_iff (graph : DependencyGraph α) (wanted : List String → Prop) :
    (∃ group ∈ graph.cycles, wanted group.memberIds) ↔
      ∃ component ∈ graph.components, graph.isCyclic component ∧
        wanted (component.map graph.idAt) := by
  have members := fun ids => (map_memberIds_cycles_perm graph).mem_iff (a := ids)
  simp only [List.mem_map, List.mem_filter] at members
  constructor
  · rintro ⟨group, isGroup, holds⟩
    obtain ⟨component, ⟨isComponent, cyclic⟩, same⟩ := (members group.memberIds).mp
      ⟨group, isGroup, rfl⟩
    exact ⟨component, isComponent, cyclic, same ▸ holds⟩
  · rintro ⟨component, isComponent, cyclic, holds⟩
    obtain ⟨group, isGroup, same⟩ := (members _).mpr ⟨component, ⟨isComponent, cyclic⟩, rfl⟩
    exact ⟨group, isGroup, same ▸ holds⟩

theorem Built.pairwise_disjoint_cycles :
    graph.cycles.Pairwise fun left right => left.memberIds.Disjoint right.memberIds := by
  have nodup : graph.componentIds.flatten.Nodup :=
    (built.flatten_componentIds_perm toured).nodup_iff.mpr built.distinct
  have cyclic : ((graph.components.filter graph.isCyclic).map fun nodes =>
      nodes.map graph.idAt).Sublist graph.componentIds := List.filter_sublist.map _
  have apart := (List.nodup_flatten.mp nodup).2.sublist cyclic
  exact List.pairwise_map.mp (((map_memberIds_cycles_perm graph).pairwise_iff
    fun disjoint => List.disjoint_comm.mp disjoint).mpr apart)

theorem Built.memberIds_ne_nil {group : CycleGroup} (member : group ∈ graph.cycles) :
    group.memberIds ≠ [] := by
  have listed := (map_memberIds_cycles_perm graph).mem_iff.mp (List.mem_map_of_mem member)
  obtain ⟨component, isCyclic, same⟩ := List.mem_map.mp listed
  rw [← same]
  exact built.componentIds_ne_nil toured (List.mem_map_of_mem (List.mem_filter.mp isCyclic).1)

theorem Built.mem_cycles_iff {id : String} :
    (∃ group ∈ graph.cycles, id ∈ group.memberIds) ↔ graph.isInCycle id := by
  rw [exists_cycles_iff graph fun ids => id ∈ ids]
  constructor
  · rintro ⟨component, isComponent, cyclic, member⟩
    obtain ⟨node, isNode, rfl⟩ := List.mem_map.mp member
    rwa [← built.isCyclic_eq_isInCycle toured isComponent isNode]
  · intro cyclic
    cases found : graph.index? id with
    | none => simp [isInCycle, found] at cyclic
    | some node =>
      obtain ⟨node_lt, rfl⟩ := built.index?_eq_some_iff.mp found
      obtain ⟨component, isComponent, member⟩ := built.exists_component toured node_lt
      exact ⟨component, isComponent, (built.isCyclic_eq_isInCycle toured isComponent member).trans
        cyclic, List.mem_map_of_mem member⟩

/-- Two ids in cycles share a group if and only if a closed walk passes both. -/
theorem Built.share_cycle_iff {first second : String} (isFirst : graph.isInCycle first)
    (isSecond : graph.isInCycle second) :
    (∃ group ∈ graph.cycles, first ∈ group.memberIds ∧ second ∈ group.memberIds) ↔
      ∃ start via, graph.ClosedWalk start via ∧ first ∈ start :: via ∧ second ∈ start :: via := by
  have isNode {id : String} (cyclic : graph.isInCycle id) : id ∈ graph.nodes.map Element.id := by
    obtain ⟨group, isGroup, member⟩ := (built.mem_cycles_iff toured).mpr cyclic
    have listed := (map_memberIds_cycles_perm graph).mem_iff.mp (List.mem_map_of_mem isGroup)
    obtain ⟨component, isComponent, same⟩ := List.mem_map.mp listed
    refine (built.flatten_componentIds_perm toured).mem_iff.mp (List.mem_flatten.mpr ?_)
    exact ⟨group.memberIds, same ▸ List.mem_map_of_mem (List.mem_filter.mp isComponent).1, member⟩
  have shared : (∃ group ∈ graph.cycles, first ∈ group.memberIds ∧ second ∈ group.memberIds) ↔
      ∃ ids ∈ graph.componentIds, first ∈ ids ∧ second ∈ ids := by
    rw [exists_cycles_iff graph fun ids => first ∈ ids ∧ second ∈ ids]
    constructor
    · rintro ⟨component, isComponent, -, both⟩
      exact ⟨component.map graph.idAt, List.mem_map_of_mem isComponent, both⟩
    · rintro ⟨ids, isIds, inFirst, inSecond⟩
      obtain ⟨component, isComponent, rfl⟩ := List.mem_map.mp isIds
      obtain ⟨node, member, rfl⟩ := List.mem_map.mp inFirst
      exact ⟨component, isComponent, (built.isCyclic_eq_isInCycle toured isComponent member).trans
        isFirst, inFirst, inSecond⟩
  rw [shared, built.exists_componentIds_iff toured (isNode isFirst) (isNode isSecond),
    exists_closedWalk_through_iff]
  by_cases same : first = second
  · subst same
    have cycle := (built.isInCycle_iff toured).mp isFirst
    exact iff_of_true ⟨.refl, .refl⟩ ⟨cycle, cycle⟩
  · refine ⟨fun ⟨there, back⟩ => ⟨transGen_of_reaches same there,
      transGen_of_reaches (Ne.symm same) back⟩, fun ⟨there, back⟩ => ?_⟩
    exact ⟨reaches_iff_joined.mpr there.to_reflTransGen,
      reaches_iff_joined.mpr back.to_reflTransGen⟩

end Cycles

/-- An id is in a cycle if and only if a walk along dependency edges leads from it back to it. The
groups of cycles are in the order of their ids, not empty and share no member, their members are the
ids in cycles, and two of these are in one group if and only if one closed walk passes both. -/
theorem cycles_build (options : GraphOptions α) {elements : List Element}
    (distinct : DistinctIds elements) (relationships : List (Relationship α))
    (earlier : Option (DependencyGraph α × List String)) :
    let graph := build options elements relationships earlier
    (∀ id, graph.isInCycle id ↔ ∃ via, graph.ClosedWalk id via) ∧
      (graph.cycles.Pairwise fun left right => Text.notAfter left.id right.id) ∧
      (graph.cycles.Pairwise fun left right => left.memberIds.Disjoint right.memberIds) ∧
      (∀ group ∈ graph.cycles, group.memberIds ≠ []) ∧
      (∀ id, (∃ group ∈ graph.cycles, id ∈ group.memberIds) ↔ graph.isInCycle id) ∧
      ∀ first second, graph.isInCycle first → graph.isInCycle second →
        ((∃ group ∈ graph.cycles, first ∈ group.memberIds ∧ second ∈ group.memberIds) ↔
          ∃ start via, graph.ClosedWalk start via ∧
            first ∈ start :: via ∧ second ∈ start :: via) := by
  intro graph
  have built : Built graph := built_build options distinct relationships earlier
  have toured := components_build options elements relationships earlier
  refine ⟨fun id => ?_, Text.pairwise_sortBy CycleGroup.id _,
    built.pairwise_disjoint_cycles toured, fun group => built.memberIds_ne_nil toured,
    fun id => built.mem_cycles_iff toured, fun first second isFirst isSecond => ?_⟩
  · rw [exists_closedWalk_iff]
    exact built.isInCycle_iff toured
  · exact built.share_cycle_iff toured isFirst isSecond

/-- A circle of two and an element that depends on itself: the two are in one group and the third is
in a cycle, but nothing leads back to what that depends on. -/
theorem cycles_build_circle_and_loop :
    let options : GraphOptions Rat := ⟨RelationshipKind.references, ⟨1, 2, 3⟩⟩
    let elements := ["a", "b", "c", "d"].map fun id => Element.sketch id "main.ts" []
    let relationships := [("a", "b"), ("b", "a"), ("b", "c"), ("c", "c"), ("c", "d")].map
      fun (source, target) => Relationship.sketch source .calls target
    let graph := build options elements relationships none
    DistinctIds elements ∧ graph.ClosedWalk "a" ["b"] ∧ graph.ClosedWalk "c" [] ∧
      (∃ group ∈ graph.cycles, "a" ∈ group.memberIds ∧ "b" ∈ group.memberIds) ∧
      graph.isInCycle "c" ∧ ¬ ∃ via, graph.ClosedWalk "d" via := by
  intro options elements relationships graph
  have distinct : DistinctIds elements := by decide
  have isGraph : graph = ofSorted options elements relationships :=
    fresh_of_sorted options (by decide) relationships
  have circle : graph.ClosedWalk "a" ["b"] ∧ graph.ClosedWalk "b" ["a"] := by
    rw [isGraph]
    decide +kernel
  have loop : graph.ClosedWalk "c" [] := by
    rw [isGraph]
    decide +kernel
  have outside : graph.isInCycle "d" = false := by
    rw [isGraph]
    decide +kernel
  obtain ⟨walks, -, -, -, -, shared⟩ := cycles_build options distinct relationships none
  refine ⟨distinct, circle.1, loop, ?_, (walks "c").mpr ⟨[], loop⟩, fun walk => ?_⟩
  · exact (shared "a" "b" ((walks "a").mpr ⟨_, circle.1⟩) ((walks "b").mpr ⟨_, circle.2⟩)).mpr
      ⟨"a", ["b"], circle.1, by simp, by simp⟩
  · exact Bool.false_ne_true (outside.symm.trans ((walks "d").mpr walk))

end DependencyGraph
end CodeAtlas
