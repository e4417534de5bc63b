import CodeAtlas.Proofs.Graph.Cycle
import CodeAtlas.Proofs.List
import Mathlib.Order.Bounds.Defs

/-!
# The depth of a graph

The depth of a component is the number of steps in the longest chain of dependencies that leads from
it to other components. It is measured in one pass: when the pass comes to a component, all those
that it depends on have been measured.
-/

namespace CodeAtlas

namespace DependencyGraph

variable {α : Type}

/-! ## Depths in one pass -/

/-- Components with their depths, each measured above those before it. -/
def depths (graph : DependencyGraph α) (groups : List (List Nat)) : List (List Nat × Nat) :=
  groups.foldl (fun depths nodes => depths ++ [(nodes, graph.depthAbove depths nodes)]) []

/-- The depths that dependencies of nodes give, from the depths already known. -/
def stepsAbove (graph : DependencyGraph α) (depths : List (List Nat × Nat)) (nodes : List Nat) :
    List Nat :=
  (nodes.flatMap graph.next).filterMap fun target =>
    if nodes.contains target then
      none
    else
      (depths.find? (·.1.contains target)).map (·.2 + 1)

theorem maxDepth_eq (graph : DependencyGraph α) :
    graph.maxDepth = ((graph.depths graph.components).map Prod.snd).foldl max 0 := rfl

theorem depthAbove_eq (graph : DependencyGraph α) (depths : List (List Nat × Nat))
    (nodes : List Nat) :
    graph.depthAbove depths nodes = (graph.stepsAbove depths nodes).foldl max 0 := rfl

theorem depths_append_singleton (graph : DependencyGraph α) (groups : List (List Nat))
    (last : List Nat) :
    graph.depths (groups ++ [last]) =
      graph.depths groups ++ [(last, graph.depthAbove (graph.depths groups) last)] := by
  rw [depths, List.foldl_append]
  rfl

theorem map_fst_depths (graph : DependencyGraph α) (groups : List (List Nat)) :
    (graph.depths groups).map Prod.fst = groups := by
  induction groups using List.reverseRecOn with
  | nil => rfl
  | append_singleton groups last induction =>
    rw [depths_append_singleton, List.map_append, induction]
    rfl

theorem mem_stepsAbove {graph : DependencyGraph α} {depths : List (List Nat × Nat)}
    {nodes : List Nat} {depth : Nat} :
    depth ∈ graph.stepsAbove depths nodes ↔ ∃ node ∈ nodes, ∃ target ∈ graph.next node,
      target ∉ nodes ∧ ∃ entry, depths.find? (·.1.contains target) = some entry ∧
        entry.2 + 1 = depth := by
  simp only [stepsAbove, List.mem_filterMap, List.mem_flatMap, List.contains_iff_mem]
  constructor
  · rintro ⟨target, ⟨node, isNode, isTarget⟩, isDepth⟩
    split at isDepth
    case isTrue => cases isDepth
    case isFalse outside =>
      exact ⟨node, isNode, target, isTarget, outside, Option.map_eq_some_iff.mp isDepth⟩
  · rintro ⟨node, isNode, target, isTarget, outside, entry, isEntry, rfl⟩
    exact ⟨target, ⟨node, isNode, isTarget⟩, by rw [if_neg outside, isEntry, Option.map_some]⟩

/-! ## Chains of components -/

/-- One group of nodes depends on another one. -/
def Above (graph : DependencyGraph α) (upper lower : List Nat) : Prop :=
  upper ≠ lower ∧ ∃ node ∈ upper, ∃ child ∈ lower, child ∈ graph.next node

/-- Components below a first one, each of which depends on the next. -/
structure Descends (graph : DependencyGraph α) (top : List Nat) (below : List (List Nat)) :
    Prop where
  /-- Each component depends on the next. -/
  chain : (top :: below).IsChain graph.Above
  /-- They are components. -/
  components : ∀ component ∈ top :: below, component ∈ graph.components

/-- The longest chain of components below one has a number of steps. -/
def HasDepth (graph : DependencyGraph α) (top : List Nat) (depth : Nat) : Prop :=
  IsGreatest {length | ∃ below, graph.Descends top below ∧ below.length = length} depth

theorem Descends.cons {graph : DependencyGraph α} {top lower : List Nat}
    {below : List (List Nat)} (isTop : top ∈ graph.components) (above : graph.Above top lower)
    (descends : graph.Descends lower below) : graph.Descends top (lower :: below) where
  chain := List.isChain_cons_cons.mpr ⟨above, descends.chain⟩
  components component member := by
    rcases List.mem_cons.mp member with rfl | member
    · exact isTop
    · exact descends.components component member

theorem Descends.tail {graph : DependencyGraph α} {top lower : List Nat}
    {below : List (List Nat)} (descends : graph.Descends top (lower :: below)) :
    graph.Above top lower ∧ graph.Descends lower below :=
  ⟨(List.isChain_cons_cons.mp descends.chain).1, (List.isChain_cons_cons.mp descends.chain).2,
    fun component member => descends.components component (List.mem_cons_of_mem top member)⟩

section Depth

variable {graph : DependencyGraph α} (built : Built graph)
  (toured : graph.components = Tour.components graph.next graph.size)

include built toured

theorem Built.idxOf_lt_of_above {upper lower : List Nat} (isUpper : upper ∈ graph.components)
    (isLower : lower ∈ graph.components) (above : graph.Above upper lower) :
    graph.components.idxOf lower < graph.components.idxOf upper := by
  obtain ⟨different, node, isNode, child, isChild, step⟩ := above
  have upperPlace := List.getElem?_idxOf isUpper
  have lowerPlace := List.getElem?_idxOf isLower
  have ordered : graph.components.idxOf lower ≤ graph.components.idxOf upper := by
    rw [toured] at upperPlace lowerPlace ⊢
    exact (Tour.settled_components built.lt_of_mem_next).place_le
      (Tour.nodup_flatten_components built.lt_of_mem_next) (.single step) upperPlace isNode
      lowerPlace isChild
  refine Nat.lt_of_le_of_ne ordered fun same => different ?_
  rw [same, upperPlace] at lowerPlace
  exact Option.some.inj lowerPlace

/-- No component comes twice in a chain. -/
theorem Built.nodup_of_descends {top : List Nat} {below : List (List Nat)}
    (descends : graph.Descends top below) : (top :: below).Nodup := by
  have places : ((top :: below).map graph.components.idxOf).IsChain (· > ·) := by
    rw [List.isChain_map]
    refine descends.chain.imp_of_mem_imp fun upper lower isUpper isLower above => ?_
    exact built.idxOf_lt_of_above toured (descends.components upper isUpper)
      (descends.components lower isLower) above
  exact .of_map _ ((List.isChain_iff_pairwise.mp places).imp fun ordered => ordered.ne')

theorem Built.mem_of_above {groups rest : List (List Nat)} {last lower : List Nat}
    (split : graph.components = groups ++ last :: rest) (isLower : lower ∈ graph.components)
    (above : graph.Above last lower) : lower ∈ groups := by
  have isLast : last ∈ graph.components := split ▸ by simp
  have nodup : graph.components.flatten.Nodup :=
    toured ▸ Tour.nodup_flatten_components built.lt_of_mem_next
  have before := built.idxOf_lt_of_above toured isLast isLower above
  obtain ⟨_, node, isNode, _⟩ := above
  have lastPlace : graph.components.idxOf last = groups.length :=
    place_eq_of_mem nodup (List.getElem?_idxOf isLast) (by rw [split]; simp) isNode isNode
  have lowerPlace := List.getElem?_idxOf isLower
  rw [lastPlace] at before
  generalize graph.components.idxOf lower = place at before lowerPlace
  rw [split, List.getElem?_append_left before] at lowerPlace
  exact List.mem_of_getElem? lowerPlace

theorem Built.find?_depths {groups rest : List (List Nat)} {lower : List Nat}
    (split : graph.components = groups ++ rest) (isLower : lower ∈ groups) {child : Nat}
    (isChild : child ∈ lower) :
    ∃ depth, (lower, depth) ∈ graph.depths groups ∧
      (graph.depths groups).find? (·.1.contains child) = some (lower, depth) := by
  have listed : lower ∈ (graph.depths groups).map Prod.fst := by rwa [map_fst_depths]
  obtain ⟨measured, isMeasured, rfl⟩ := List.mem_map.mp listed
  have found : ((graph.depths groups).find? (·.1.contains child)).isSome := by
    rw [List.find?_isSome]
    exact ⟨measured, isMeasured, List.contains_iff_mem.mpr isChild⟩
  obtain ⟨⟨group, depth⟩, isEntry⟩ := Option.isSome_iff_exists.mp found
  have isGroup : group ∈ groups := by
    rw [← map_fst_depths graph groups]
    exact List.mem_map_of_mem (List.mem_of_find?_eq_some isEntry)
  have member : child ∈ group := by simpa using List.find?_some isEntry
  have same : group = measured.1 := built.component_eq toured
    (split ▸ List.mem_append_left rest isGroup) (split ▸ List.mem_append_left rest isLower)
    member isChild
  subst same
  exact ⟨depth, List.mem_of_find?_eq_some isEntry, isEntry⟩

/-- A component has the depth that is measured above those before it. -/
theorem Built.hasDepth_depthAbove {groups rest : List (List Nat)} {last : List Nat}
    (split : graph.components = groups ++ last :: rest)
    (measured : ∀ entry ∈ graph.depths groups, graph.HasDepth entry.1 entry.2) :
    graph.HasDepth last (graph.depthAbove (graph.depths groups) last) := by
  have isLast : last ∈ graph.components := split ▸ by simp
  obtain ⟨attained, bound⟩ := isGreatest_foldl_max (graph.stepsAbove (graph.depths groups) last)
  rw [← depthAbove_eq] at attained bound
  constructor
  · rcases attained with none | isStep
    · rw [none]
      exact ⟨[], ⟨List.isChain_singleton last, by simpa using isLast⟩, rfl⟩
    · obtain ⟨node, isNode, child, isChild, outside, entry, isEntry, same⟩ :=
        mem_stepsAbove.mp isStep
      have listed := List.mem_of_find?_eq_some isEntry
      have member : child ∈ entry.1 := by simpa using List.find?_some isEntry
      obtain ⟨below, descends, length⟩ := (measured entry listed).1
      have different : last ≠ entry.1 := fun equal => outside (equal ▸ member)
      refine ⟨entry.1 :: below,
        .cons isLast ⟨different, node, isNode, child, member, isChild⟩ descends, ?_⟩
      rw [List.length_cons, length, same]
  · rintro _ ⟨below, descends, rfl⟩
    cases below with
    | nil => exact Nat.zero_le _
    | cons lower below =>
      obtain ⟨above, descends⟩ := descends.tail
      have isLower := built.mem_of_above toured split
        (descends.components lower List.mem_cons_self) above
      obtain ⟨different, node, isNode, child, isChild, step⟩ := above
      obtain ⟨depth, isMeasured, found⟩ := built.find?_depths toured split isLower isChild
      have outside : child ∉ last := fun member => different (built.component_eq toured isLast
        (descends.components lower List.mem_cons_self) member isChild)
      have counted : depth + 1 ∈ graph.stepsAbove (graph.depths groups) last :=
        mem_stepsAbove.mpr ⟨node, isNode, child, step, outside, _, found, rfl⟩
      have shorter : below.length ≤ depth := (measured _ isMeasured).2 ⟨below, descends, rfl⟩
      exact (Nat.succ_le_succ shorter).trans (bound (.inr counted))

/-- All components that the pass has come to have the depths that it has measured. -/
theorem Built.hasDepth_of_mem_depths {groups rest : List (List Nat)}
    (split : graph.components = groups ++ rest) :
    ∀ entry ∈ graph.depths groups, graph.HasDepth entry.1 entry.2 := by
  induction groups using List.reverseRecOn generalizing rest with
  | nil => simp [depths]
  | append_singleton groups last induction =>
    rw [List.append_assoc, List.singleton_append] at split
    have measured := induction split
    intro entry member
    rw [depths_append_singleton, List.mem_append, List.mem_singleton] at member
    rcases member with earlier | rfl
    · exact measured entry earlier
    · exact built.hasDepth_depthAbove toured split measured

/-- The depth of a graph is the length of its longest chain of components. -/
theorem Built.isGreatest_maxDepth (nonempty : graph.components ≠ []) :
    IsGreatest {length | ∃ top below, graph.Descends top below ∧ below.length = length}
      graph.maxDepth := by
  have measured := built.hasDepth_of_mem_depths toured (List.append_nil graph.components).symm
  obtain ⟨attained, bound⟩ :=
    isGreatest_foldl_max ((graph.depths graph.components).map Prod.snd)
  rw [← maxDepth_eq] at attained bound
  constructor
  · rcases attained with none | isDepth
    · obtain ⟨top, isTop⟩ := List.exists_mem_of_ne_nil _ nonempty
      rw [none]
      exact ⟨top, [], ⟨List.isChain_singleton top, by simpa using isTop⟩, rfl⟩
    · obtain ⟨entry, isEntry, same⟩ := List.mem_map.mp isDepth
      rw [← same]
      exact ⟨entry.1, (measured entry isEntry).1⟩
  · rintro _ ⟨top, below, descends, rfl⟩
    have listed : top ∈ (graph.depths graph.components).map Prod.fst := by
      rw [map_fst_depths]
      exact descends.components top List.mem_cons_self
    obtain ⟨entry, isEntry, rfl⟩ := List.mem_map.mp listed
    exact ((measured entry isEntry).2 ⟨below, descends, rfl⟩).trans
      (bound (.inr (List.mem_map_of_mem isEntry)))

end Depth

/-! ## Components as sets of ids -/

/-- The ids that an id is reached from and reaches. -/
def around (graph : DependencyGraph α) (id : String) : Set String :=
  {other | graph.Reaches id other ∧ graph.Reaches other id}

/-- A strongly connected component: the ids that one id of the graph shares its reach with. -/
def IsComponent (graph : DependencyGraph α) (ids : Set String) : Prop :=
  ∃ id, graph.has id ∧ ids = graph.around id

/-- A dependency edge leads from one set of ids into another. -/
def LeadsInto (graph : DependencyGraph α) (upper lower : Set String) : Prop :=
  ∃ source ∈ upper, ∃ target ∈ lower, graph.Joined source target

/-- Different strongly connected components, each with a dependency edge into the next. -/
structure ComponentChain (graph : DependencyGraph α) (chain : List (Set String)) : Prop where
  /-- They are strongly connected components. -/
  components : ∀ ids ∈ chain, graph.IsComponent ids
  /-- No component comes twice. -/
  nodup : chain.Nodup
  /-- An edge leads from each into the next. -/
  linked : chain.IsChain graph.LeadsInto

/-- The ids of nodes, as a set. -/
def idSet (graph : DependencyGraph α) (nodes : List Nat) : Set String :=
  {id | id ∈ nodes.map graph.idAt}

section Sets

variable {graph : DependencyGraph α} (built : Built graph)
  (toured : graph.components = Tour.components graph.next graph.size)

include built toured

theorem Built.around_eq_idSet {component : List Nat} (isComponent : component ∈ graph.components)
    {node : Nat} (member : node ∈ component) :
    graph.around (graph.idAt node) = graph.idSet component :=
  Set.ext fun _ => (built.mem_map_component_iff toured isComponent member).symm

theorem Built.exists_mem_component {component : List Nat}
    (isComponent : component ∈ graph.components) : ∃ node, node ∈ component := by
  rw [toured] at isComponent
  exact List.exists_mem_of_ne_nil component
    ((Tour.settled_components built.lt_of_mem_next).nonempty component isComponent)

theorem Built.isComponent_iff {ids : Set String} :
    graph.IsComponent ids ↔ ∃ component ∈ graph.components, graph.idSet component = ids := by
  constructor
  · rintro ⟨id, present, rfl⟩
    obtain ⟨node, node_lt, rfl⟩ := built.has_iff.mp present
    obtain ⟨component, isComponent, member⟩ := built.exists_component toured node_lt
    exact ⟨component, isComponent, (built.around_eq_idSet toured isComponent member).symm⟩
  · rintro ⟨component, isComponent, rfl⟩
    obtain ⟨node, member⟩ := built.exists_mem_component toured isComponent
    exact ⟨graph.idAt node, built.has_idAt (built.lt_of_mem_component toured isComponent member),
      (built.around_eq_idSet toured isComponent member).symm⟩

theorem Built.idSet_inj {component another : List Nat}
    (isComponent : component ∈ graph.components) (isAnother : another ∈ graph.components)
    (same : graph.idSet component = graph.idSet another) : component = another := by
  obtain ⟨node, member⟩ := built.exists_mem_component toured isComponent
  have inside : graph.idAt node ∈ graph.idSet another := same ▸ List.mem_map_of_mem member
  have node_lt := built.lt_of_mem_component toured isComponent member
  exact built.component_eq toured isComponent isAnother member
    ((built.mem_map_component toured isAnother node_lt).mp inside)

theorem Built.leadsInto_iff {upper lower : List Nat} (isUpper : upper ∈ graph.components)
    (isLower : lower ∈ graph.components) (different : upper ≠ lower) :
    graph.LeadsInto (graph.idSet upper) (graph.idSet lower) ↔ graph.Above upper lower := by
  constructor
  · rintro ⟨source, isSource, target, isTarget, joined⟩
    obtain ⟨node, isNode, rfl⟩ := List.mem_map.mp isSource
    obtain ⟨child, isChild, rfl⟩ := List.mem_map.mp isTarget
    have node_lt := built.lt_of_mem_component toured isUpper isNode
    have child_lt := built.lt_of_mem_component toured isLower isChild
    have apart : graph.idAt node ≠ graph.idAt child := fun same => different <|
      built.component_eq toured isUpper isLower isNode
        (built.idAt_inj node_lt child_lt same ▸ isChild)
    exact ⟨different, node, isNode, child, isChild,
      (built.depends_idAt_iff node_lt child_lt).mp ⟨apart, joined⟩⟩
  · rintro ⟨_, node, isNode, child, isChild, step⟩
    have node_lt := built.lt_of_mem_component toured isUpper isNode
    have child_lt := built.lt_of_mem_component toured isLower isChild
    exact ⟨_, List.mem_map_of_mem isNode, _, List.mem_map_of_mem isChild,
      ((built.depends_idAt_iff node_lt child_lt).mpr step).2⟩

theorem Built.componentChain_of_descends {top : List Nat} {below : List (List Nat)}
    (descends : graph.Descends top below) :
    graph.ComponentChain ((top :: below).map graph.idSet) where
  components ids member := by
    obtain ⟨component, isComponent, rfl⟩ := List.mem_map.mp member
    exact (built.isComponent_iff toured).mpr
      ⟨component, descends.components component isComponent, rfl⟩
  nodup := (built.nodup_of_descends toured descends).map_on fun first isFirst second isSecond =>
    built.idSet_inj toured (descends.components first isFirst) (descends.components second isSecond)
  linked := by
    rw [List.isChain_map]
    refine descends.chain.imp_of_mem_imp fun upper lower isUpper isLower above => ?_
    exact (built.leadsInto_iff toured (descends.components upper isUpper)
      (descends.components lower isLower) above.1).mpr above

theorem Built.exists_descends {first : Set String} {others : List (Set String)}
    (isChain : graph.ComponentChain (first :: others)) :
    ∃ top below, graph.Descends top below ∧ graph.idSet top = first ∧
      below.length = others.length := by
  obtain ⟨top, isTop, same⟩ :=
    (built.isComponent_iff toured).mp (isChain.components first List.mem_cons_self)
  induction others generalizing first top with
  | nil => exact ⟨top, [], ⟨List.isChain_singleton top, by simpa using isTop⟩, same, rfl⟩
  | cons second others induction =>
    obtain ⟨step, linked⟩ := List.isChain_cons_cons.mp isChain.linked
    obtain ⟨isNew, nodup⟩ := List.nodup_cons.mp isChain.nodup
    have rest : graph.ComponentChain (second :: others) :=
      ⟨fun ids member => isChain.components ids (List.mem_cons_of_mem first member), nodup, linked⟩
    obtain ⟨lower, isLower, sameLower⟩ :=
      (built.isComponent_iff toured).mp (rest.components second List.mem_cons_self)
    obtain ⟨next, below, descends, sameNext, length⟩ := induction rest lower isLower sameLower
    have isNext := descends.components next List.mem_cons_self
    have different : top ≠ next := by
      rintro rfl
      exact isNew (by simp [← same, sameNext])
    have above := (built.leadsInto_iff toured isTop isNext different).mp (same ▸ sameNext ▸ step)
    exact ⟨top, next :: below, .cons isTop above descends, same, by simp [length]⟩

end Sets

/-- The depth of a graph is the greatest length of a chain of different strongly connected
components with a dependency edge from each into the next, counted in edges, and zero if there are
no elements. -/
theorem maxDepth_build [Scalar α] (options : GraphOptions α) {elements : List Element}
    (distinct : DistinctIds elements) (relationships : List (Relationship α))
    (earlier : Option (DependencyGraph α × List String)) :
    let graph := build options elements relationships earlier
    (elements = [] → graph.summary.maxDepth = 0) ∧
      (elements ≠ [] → IsGreatest
        {length | ∃ chain, graph.ComponentChain chain ∧ chain.length = length + 1}
        graph.summary.maxDepth) := by
  intro graph
  have built : Built graph := built_build options distinct relationships earlier
  have toured : graph.components = Tour.components graph.next graph.size :=
    components_build options elements relationships earlier
  have isNodes : graph.nodes = Text.sortBy Element.id elements :=
    nodes_build options elements relationships earlier
  have isSize : graph.size = elements.length := by
    rw [size, isNodes, (Text.sortBy_perm Element.id elements).length_eq]
  constructor
  · rintro rfl
    have none : graph.components = [] := by
      rw [toured, isSize]
      rfl
    change graph.maxDepth = 0
    rw [maxDepth_eq, none]
    rfl
  · intro some
    have positive : 0 < graph.size := isSize ▸ List.length_pos_of_ne_nil some
    obtain ⟨component, isComponent, -⟩ := built.exists_component toured positive
    obtain ⟨⟨top, below, descends, longest⟩, bound⟩ :=
      built.isGreatest_maxDepth toured (List.ne_nil_of_mem isComponent)
    constructor
    · refine ⟨_, built.componentChain_of_descends toured descends, ?_⟩
      rw [List.length_map, List.length_cons, longest]
      rfl
    · rintro length ⟨chain, isChain, long⟩
      obtain ⟨first, others, rfl⟩ := List.exists_cons_of_length_eq_add_one long
      obtain ⟨top, below, descends, -, same⟩ := built.exists_descends toured isChain
      exact bound ⟨top, below, descends, by simpa [same] using long⟩

/-- Two circles and what depends on them: a chain of three components is the longest, although there
are longer walks. -/
theorem maxDepth_build_two_circles :
    let options : GraphOptions Rat := ⟨RelationshipKind.references, ⟨1, 2, 3⟩⟩
    let elements := ["a", "b", "c", "d", "e"].map fun id => Element.sketch id "main.ts" []
    let relationships :=
      [("a", "b"), ("b", "a"), ("b", "c"), ("c", "d"), ("d", "c"), ("e", "a"), ("e", "c")].map
        fun (source, target) => Relationship.sketch source .calls target
    let graph := build options elements relationships none
    DistinctIds elements ∧ elements ≠ [] ∧ graph.summary.maxDepth = 2 ∧
      (∃ chain, graph.ComponentChain chain ∧ chain.length = 3) ∧
      ∀ chain, graph.ComponentChain chain → chain.length ≤ 3 := by
  intro options elements relationships graph
  have distinct : DistinctIds elements := by decide
  have isGraph : graph = ofSorted options elements relationships :=
    fresh_of_sorted options (by decide) relationships
  have depth : graph.maxDepth = 2 := by
    rw [isGraph]
    decide +kernel
  obtain ⟨-, greatest⟩ := maxDepth_build options distinct relationships none
  obtain ⟨attained, bound⟩ := greatest (by decide)
  refine ⟨distinct, by decide, depth, ?_, fun chain isChain => ?_⟩
  · obtain ⟨chain, isChain, long⟩ := attained
    exact ⟨chain, isChain, long.trans (congrArg (· + 1) depth)⟩
  · cases isLength : chain.length with
    | zero => exact Nat.zero_le 3
    | succ length => exact Nat.succ_le_succ ((bound ⟨chain, isChain, isLength⟩).trans depth.le)

end DependencyGraph
end CodeAtlas
