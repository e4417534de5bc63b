import CodeAtlas.Graph.Reuse
import CodeAtlas.Proofs.Graph.Integrity
import CodeAtlas.Proofs.Graph.Tour
import CodeAtlas.Proofs.List
import Mathlib.Data.List.Flatten

/-!
# Components of a graph

A tour of all nodes ends, since every step enters a node, looks at a child or leaves a node, and
none of this happens twice. Its groups then hold every node once. So the components of a graph
divide its ids, two ids are in one component if and only if each is reached from the other, and a
component comes after all others that it depends on.
-/

namespace CodeAtlas
namespace Tour

variable {next : Nat → List Nat} {size : Nat} {tour : Tour}

/-! ## Steps that are left -/

/-- The nodes below a bound that a tour has not met. -/
def unmet (size : Nat) (tour : Tour) : List Nat :=
  (List.range size).filter fun node => !tour.hasMet node

/-- How many steps a tour takes at most from here: it leaves what it is inside of, looks at what is
ahead, and enters and leaves the other nodes. -/
def stepsLeft (next : Nat → List Nat) (size : Nat) (tour : Tour) : Nat :=
  tour.frames.length + (tour.frames.flatMap Frame.ahead).length +
    (2 * (tour.unmet size).length + ((tour.unmet size).flatMap next).length)

theorem unmet_perm {node : Nat} (node_lt : node < size) (isNew : tour.hasMet node = false) :
    (tour.unmet size).Perm (node :: (tour.enter next node).unmet size) := by
  have nodup : (tour.unmet size).Nodup := List.nodup_range.filter _
  have member : node ∈ tour.unmet size :=
    List.mem_filter.mpr ⟨List.mem_range.mpr node_lt, by simp [isNew]⟩
  have rest : (tour.unmet size).erase node = (tour.enter next node).unmet size := by
    rw [nodup.erase_eq_filter, unmet, List.filter_filter]
    refine List.filter_congr fun other _ => ?_
    have entered := @hasMet_enter next tour node other
    rw [Bool.eq_iff_iff]
    simp [← Bool.not_eq_true, entered]
  exact rest ▸ List.perm_cons_erase member

theorem stepsLeft_enter {node : Nat} (node_lt : node < size) (isNew : tour.hasMet node = false) :
    (tour.enter next node).stepsLeft next size + 1 = tour.stepsLeft next size := by
  have perm := @unmet_perm next size tour node node_lt isNew
  have fewer := perm.length_eq
  have children := (perm.flatMap_right next).length_eq
  rw [List.length_cons] at fewer
  rw [List.flatMap_cons, List.length_append] at children
  have frames : (tour.enter next node).frames = ⟨node, next node⟩ :: tour.frames := rfl
  simp only [stepsLeft, frames, List.length_cons, List.flatMap_cons, List.length_append]
  omega

theorem stepsLeft_look (bounded : ∀ node, ∀ child ∈ next node, child < size) {node child : Nat}
    (isChild : child ∈ next node) :
    (look next node child tour).stepsLeft next size ≤ tour.stepsLeft next size := by
  unfold look
  split
  case isTrue isNew =>
    have unmet : tour.hasMet child = false := by simpa using isNew
    have fewer := @stepsLeft_enter next size tour child (bounded node child isChild) unmet
    omega
  case isFalse => split <;> exact Nat.le_refl _

theorem stepsLeft_leave (node : Nat) :
    (leave node tour).stepsLeft next size = tour.stepsLeft next size := by
  unfold leave
  dsimp only
  split <;> split <;> rfl

/-- A step of a tour that is inside some node brings it nearer to its end. -/
theorem Sound.stepsLeft_step (sound : Sound next size tour)
    (bounded : ∀ node, ∀ child ∈ next node, child < size) (isInside : tour.frames ≠ []) :
    (tour.step next).stepsLeft next size < tour.stepsLeft next size := by
  unfold Tour.step
  split
  case h_1 isNone => exact absurd isNone isInside
  case h_2 node child ahead frames isTop =>
    have isChild : child ∈ next node :=
      sound.placed.ahead _ (isTop ▸ List.mem_cons_self) List.mem_cons_self
    refine Nat.lt_of_le_of_lt (stepsLeft_look bounded isChild) (Nat.add_lt_add_right ?_ _)
    simp only [isTop, List.length_cons, List.flatMap_cons, List.length_append]
    omega
  case h_3 node frames isTop =>
    rw [stepsLeft_leave]
    refine Nat.add_lt_add_right ?_ _
    simp only [isTop, List.length_cons, List.flatMap_cons, List.nil_append]
    omega

theorem Sound.run (sound : Sound next size tour)
    (bounded : ∀ node, ∀ child ∈ next node, child < size) {steps : Nat}
    (enough : tour.stepsLeft next size ≤ steps) :
    Sound next size (run next steps tour) ∧ (run next steps tour).frames = [] := by
  induction steps generalizing tour with
  | zero =>
    refine ⟨sound, List.length_eq_zero_iff.mp ?_⟩
    unfold stepsLeft at enough
    change tour.frames.length = 0
    omega
  | succ steps induction =>
    unfold Tour.run
    split
    case isTrue left => exact ⟨sound, List.isEmpty_iff.mp left⟩
    case isFalse isInside =>
      have nearer := sound.stepsLeft_step bounded (by simpa using isInside)
      exact induction (sound.step bounded) (by omega)

/-! ## Tours of all nodes -/

theorem hasMet_look {node child other : Nat} (met : tour.hasMet other) :
    (look next node child tour).hasMet other := by
  unfold look
  split
  · exact (hasMet_enter child other).mpr (.inr met)
  · split <;> exact met

theorem hasMet_leave {node other : Nat} (met : tour.hasMet other) :
    (leave node tour).hasMet other := by
  unfold leave
  dsimp only
  split <;> split <;> exact met

theorem hasMet_step {other : Nat} (met : tour.hasMet other) : (tour.step next).hasMet other := by
  unfold step
  split
  · exact met
  · exact hasMet_look met
  · exact hasMet_leave met

theorem hasMet_run {other : Nat} (steps : Nat) (met : tour.hasMet other) :
    (run next steps tour).hasMet other := by
  induction steps generalizing tour with
  | zero => exact met
  | succ steps induction =>
    unfold run
    split
    · exact met
    · exact induction (hasMet_step met)

theorem stepsLeft_le_allSteps (left : tour.frames = []) :
    tour.stepsLeft next size ≤ allSteps next size := by
  have fewer : (tour.unmet size).Sublist (List.range size) := List.filter_sublist
  have nodes := fewer.length_le
  have children := (fewer.flatMap next).length_le
  rw [List.length_range] at nodes
  unfold stepsLeft allSteps
  rw [left]
  simp only [List.length_nil, List.flatMap_nil]
  omega

/-- Exploring a node leaves a tour between nodes, with the node among those it has met. -/
theorem Sound.explore (sound : Sound next size tour)
    (bounded : ∀ node, ∀ child ∈ next node, child < size) (left : tour.frames = []) {root : Nat}
    (root_lt : root < size) :
    Sound next size (explore next size tour root) ∧ (explore next size tour root).frames = [] ∧
      (explore next size tour root).hasMet root ∧
      ∀ node, tour.hasMet node → (explore next size tour root).hasMet node := by
  unfold Tour.explore
  split
  case isTrue met => exact ⟨sound, left, met, fun _ => id⟩
  case isFalse isNew =>
    have unmet : tour.hasMet root = false := by simpa using isNew
    have entered := sound.enter root_lt unmet (by simp [left])
    have fewer := @stepsLeft_enter next size tour root root_lt unmet
    have bound := @stepsLeft_le_allSteps next size tour left
    obtain ⟨soundAfter, leftAfter⟩ := entered.run bounded (show _ ≤ allSteps next size by omega)
    exact ⟨soundAfter, leftAfter, hasMet_run _ ((hasMet_enter root root).mpr (.inl rfl)),
      fun node met => hasMet_run _ ((hasMet_enter root node).mpr (.inr met))⟩

theorem sound_foldl_explore (bounded : ∀ node, ∀ child ∈ next node, child < size)
    (roots : List Nat) (below : ∀ root ∈ roots, root < size) (sound : Sound next size tour)
    (left : tour.frames = []) :
    Sound next size (roots.foldl (explore next size) tour) ∧
      (roots.foldl (explore next size) tour).frames = [] ∧
      ∀ node, node ∈ roots ∨ tour.hasMet node →
        (roots.foldl (explore next size) tour).hasMet node := by
  induction roots generalizing tour with
  | nil => exact ⟨sound, left, fun node => by simp⟩
  | cons root roots induction =>
    obtain ⟨soundAfter, leftAfter, metRoot, metBefore⟩ :=
      sound.explore bounded left (below root List.mem_cons_self)
    obtain ⟨soundAll, leftAll, metAll⟩ := induction
      (fun other member => below other (List.mem_cons_of_mem root member)) soundAfter leftAfter
    refine ⟨soundAll, leftAll, fun node visited => metAll node ?_⟩
    rcases visited with member | met
    · rcases List.mem_cons.mp member with rfl | member
      · exact .inr metRoot
      · exact .inl member
    · exact .inr (metBefore node met)

theorem sound_all (bounded : ∀ node, ∀ child ∈ next node, child < size) :
    Sound next size (all next size) ∧ (all next size).stack = [] ∧
      ∀ node < size, (all next size).hasMet node := by
  obtain ⟨sound, left, met⟩ := sound_foldl_explore bounded (List.range size)
    (fun root => List.mem_range.mp) sound_start rfl
  exact ⟨sound, sound.traced.stack_eq_nil left, fun node below =>
    met node (.inl (List.mem_range.mpr below))⟩

theorem flatten_groups_perm (bounded : ∀ node, ∀ child ∈ next node, child < size) :
    (all next size).groups.flatten.Perm (List.range size) := by
  obtain ⟨sound, empty, met⟩ := sound_all bounded
  have nodup := sound.placed.nodup
  have places := sound.placed.met
  rw [empty, List.nil_append] at nodup places
  refine (List.perm_ext_iff_of_nodup nodup List.nodup_range).mpr fun node => ?_
  rw [List.mem_range, ← places node]
  exact ⟨sound.placed.below node, met node⟩

/-! ## Components -/

theorem Settled.map {groups : List (List Nat)} (settled : Settled next groups)
    {arrange : List Nat → List Nat}
    (same : ∀ group ∈ groups, ∀ node, node ∈ arrange group ↔ node ∈ group) :
    Settled next (groups.map arrange) := by
  have placed {place : Nat} {group : List Nat} (isGroup : groups[place]? = some group) :
      group ∈ groups := List.mem_iff_getElem?.mpr ⟨place, isGroup⟩
  refine ⟨?_, ?_, ?_⟩
  · intro arranged member empty
    obtain ⟨group, isGroup, rfl⟩ := List.mem_map.mp member
    obtain ⟨node, isNode⟩ := List.exists_mem_of_ne_nil group (settled.nonempty group isGroup)
    have stays := (same group isGroup node).mpr isNode
    rw [empty] at stays
    cases stays
  · intro arranged member first isFirst second isSecond
    obtain ⟨group, isGroup, rfl⟩ := List.mem_map.mp member
    exact settled.together group isGroup first ((same group isGroup first).mp isFirst) second
      ((same group isGroup second).mp isSecond)
  · intro place arranged isArranged node isNode child isChild
    rw [List.getElem?_map] at isArranged
    obtain ⟨group, isGroup, rfl⟩ := Option.map_eq_some_iff.mp isArranged
    obtain ⟨earlier, ordered, other, isOther, inOther⟩ := settled.ordered place group isGroup node
      ((same group (placed isGroup) node).mp isNode) child isChild
    refine ⟨earlier, ordered, arrange other, ?_, (same other (placed isOther) child).mpr inOther⟩
    rw [List.getElem?_map, isOther]
    rfl

/-- Whatever a node leads to has its place in the same group or in an earlier one. -/
theorem Settled.place_le {groups : List (List Nat)} (settled : Settled next groups)
    (nodup : groups.flatten.Nodup) {first second : Nat} (path : Search.Reaches next first second)
    {place other : Nat} {group another : List Nat} (isGroup : groups[place]? = some group)
    (inGroup : first ∈ group) (isAnother : groups[other]? = some another)
    (inAnother : second ∈ another) : other ≤ place := by
  induction path using Relation.ReflTransGen.head_induction_on generalizing place group with
  | refl => exact Nat.le_of_eq (place_eq_of_mem nodup isAnother isGroup inAnother inGroup)
  | head isChild _ induction =>
    obtain ⟨earlier, ordered, middle, isMiddle, inMiddle⟩ :=
      settled.ordered place group isGroup _ inGroup _ isChild
    exact Nat.le_trans (induction isMiddle inMiddle) ordered

variable (bounded : ∀ node, ∀ child ∈ next node, child < size)

include bounded

theorem mem_ascending {group : List Nat} (isGroup : group ∈ (all next size).groups) {node : Nat} :
    node ∈ (List.range size).filter group.contains ↔ node ∈ group := by
  rw [List.mem_filter, List.contains_iff_mem, and_iff_right_iff_imp]
  intro member
  exact (flatten_groups_perm bounded).mem_iff.mp (List.mem_flatten.mpr ⟨group, isGroup, member⟩)

theorem nodup_flatten_groups : (all next size).groups.flatten.Nodup :=
  (flatten_groups_perm bounded).nodup_iff.mpr List.nodup_range

/-- Every node is in one component. -/
theorem flatten_components_perm : (components next size).flatten.Perm (List.range size) := by
  refine .trans ?_ (flatten_groups_perm bounded)
  rw [components, ← List.flatMap_def, ← List.flatMap_id]
  refine List.Perm.flatMap_left _ fun group isGroup => ?_
  exact (List.perm_ext_iff_of_nodup (List.nodup_range.filter _)
    ((List.nodup_flatten.mp (nodup_flatten_groups bounded)).1 group isGroup)).mpr fun node =>
      mem_ascending bounded isGroup

theorem settled_components : Settled next (components next size) :=
  (sound_all bounded).1.settled.map fun _ isGroup _ => mem_ascending bounded isGroup

omit bounded in
theorem ascending_of_mem_components {component : List Nat}
    (member : component ∈ components next size) : component.Pairwise (· < ·) := by
  obtain ⟨group, -, rfl⟩ := List.mem_map.mp member
  exact List.pairwise_lt_range.filter _

theorem nodup_flatten_components : (components next size).flatten.Nodup :=
  (flatten_components_perm bounded).nodup_iff.mpr List.nodup_range

/-- Two nodes are in one component if and only if each leads to the other. -/
theorem exists_component_iff {first second : Nat} (first_lt : first < size)
    (second_lt : second < size) :
    (∃ component ∈ components next size, first ∈ component ∧ second ∈ component) ↔
      Search.Reaches next first second ∧ Search.Reaches next second first := by
  have settled := settled_components bounded
  constructor
  · rintro ⟨component, isComponent, isFirst, isSecond⟩
    exact ⟨settled.together component isComponent first isFirst second isSecond,
      settled.together component isComponent second isSecond first isFirst⟩
  · rintro ⟨there, back⟩
    have placed {node : Nat} (below : node < size) :
        ∃ (place : Nat) (component : List Nat),
          (components next size)[place]? = some component ∧ node ∈ component := by
      obtain ⟨component, isComponent, member⟩ := List.mem_flatten.mp
        ((flatten_components_perm bounded).mem_iff.mpr (List.mem_range.mpr below))
      obtain ⟨place, isPlace⟩ := List.mem_iff_getElem?.mp isComponent
      exact ⟨place, component, isPlace, member⟩
    obtain ⟨place, component, isPlace, isFirst⟩ := placed first_lt
    obtain ⟨other, another, isOther, isSecond⟩ := placed second_lt
    have down := settled.place_le (nodup_flatten_components bounded) there isPlace isFirst isOther
      isSecond
    have up := settled.place_le (nodup_flatten_components bounded) back isOther isSecond isPlace
      isFirst
    obtain rfl : other = place := Nat.le_antisymm down up
    obtain rfl : another = component := Option.some.inj (isOther.symm.trans isPlace)
    exact ⟨another, List.mem_iff_getElem?.mpr ⟨other, isPlace⟩, isFirst, isSecond⟩

end Tour

namespace DependencyGraph

variable {α : Type}

theorem components_build (options : GraphOptions α) (elements : List Element)
    (relationships : List (Relationship α)) (earlier : Option (DependencyGraph α × List String)) :
    (build options elements relationships earlier).components =
      Tour.components (build options elements relationships earlier).next
        (build options elements relationships earlier).size := by
  cases earlier <;> rfl

theorem built_build (options : GraphOptions α) {elements : List Element}
    (distinct : DistinctIds elements) (relationships : List (Relationship α))
    (earlier : Option (DependencyGraph α × List String)) :
    Built (build options elements relationships earlier) := by
  have built := built_fresh options distinct relationships
  cases earlier with
  | none => exact built
  | some earlier => exact .of_bare built

theorem before_idAt {graph : DependencyGraph α}
    (sorted : (graph.nodes.map Element.id).Pairwise fun left right => Text.before left right)
    {left right : Nat} (ordered : left < right) (right_lt : right < graph.size) :
    Text.before (graph.idAt left) (graph.idAt right) := by
  have left_lt : left < graph.size := Nat.lt_trans ordered right_lt
  have isLeft : graph.nodes[left]? = some (graph.nodes.get ⟨left, left_lt⟩) :=
    List.getElem?_eq_getElem left_lt
  have isRight : graph.nodes[right]? = some (graph.nodes.get ⟨right, right_lt⟩) :=
    List.getElem?_eq_getElem right_lt
  rw [idAt, idAt, isLeft, isRight]
  exact List.pairwise_iff_getElem.mp (List.pairwise_map.mp sorted) left right left_lt right_lt
    ordered

theorem map_idAt_range (graph : DependencyGraph α) :
    (List.range graph.size).map graph.idAt = graph.nodes.map Element.id := by
  refine List.ext_getElem (by simp [size]) fun place place_lt _ => ?_
  have below : place < graph.size := by simpa using place_lt
  have isNode : graph.nodes[place]? = some (graph.nodes.get ⟨place, below⟩) :=
    List.getElem?_eq_getElem below
  rw [List.getElem_map, List.getElem_range, List.getElem_map, idAt, isNode]
  rfl

theorem Built.reaches_idAt_iff {graph : DependencyGraph α} (built : Built graph)
    {node other : Nat} (node_lt : node < graph.size) (other_lt : other < graph.size) :
    graph.Reaches (graph.idAt node) (graph.idAt other) ↔ Search.Reaches graph.next node other := by
  refine ⟨fun reaches => ?_, built.reaches_idAt node_lt⟩
  obtain ⟨twin, twin_lt, path, sameId⟩ := built.search_of_reaches node_lt reaches
  rwa [built.idAt_inj twin_lt other_lt sameId] at path

section Components

variable {graph : DependencyGraph α} (built : Built graph)
  (toured : graph.components = Tour.components graph.next graph.size)

include built toured

theorem Built.flatten_componentIds_perm :
    graph.componentIds.flatten.Perm (graph.nodes.map Element.id) := by
  rw [componentIds, ← List.map_flatten, ← map_idAt_range, toured]
  exact (Tour.flatten_components_perm built.lt_of_mem_next).map graph.idAt

theorem Built.lt_of_mem_component {component : List Nat}
    (isComponent : component ∈ graph.components) {node : Nat} (member : node ∈ component) :
    node < graph.size := by
  rw [toured] at isComponent
  have listed := List.mem_flatten.mpr ⟨component, isComponent, member⟩
  exact List.mem_range.mp
    ((Tour.flatten_components_perm built.lt_of_mem_next).mem_iff.mp listed)

theorem Built.mem_map_component {component : List Nat} (isComponent : component ∈ graph.components)
    {node : Nat} (node_lt : node < graph.size) :
    graph.idAt node ∈ component.map graph.idAt ↔ node ∈ component := by
  refine ⟨fun member => ?_, fun member => List.mem_map_of_mem member⟩
  obtain ⟨twin, isTwin, sameId⟩ := List.mem_map.mp member
  have twin_lt := built.lt_of_mem_component toured isComponent isTwin
  rwa [built.idAt_inj twin_lt node_lt sameId] at isTwin

theorem Built.componentIds_ne_nil {ids : List String} (member : ids ∈ graph.componentIds) :
    ids ≠ [] := by
  obtain ⟨component, isComponent, rfl⟩ := List.mem_map.mp member
  rw [toured] at isComponent
  rw [ne_eq, List.map_eq_nil_iff]
  exact (Tour.settled_components built.lt_of_mem_next).nonempty component isComponent

theorem Built.sorted_of_mem_componentIds
    (sorted : (graph.nodes.map Element.id).Pairwise fun left right => Text.before left right)
    {ids : List String} (member : ids ∈ graph.componentIds) :
    ids.Pairwise fun left right => Text.before left right := by
  obtain ⟨component, isComponent, rfl⟩ := List.mem_map.mp member
  have ascending := Tour.ascending_of_mem_components (toured ▸ isComponent)
  rw [List.pairwise_map]
  exact ascending.imp_of_mem fun _ isRight ordered =>
    before_idAt sorted ordered (built.lt_of_mem_component toured isComponent isRight)

/-- Two ids are in one component if and only if each is reached from the other. -/
theorem Built.exists_componentIds_iff {first second : String}
    (isFirst : first ∈ graph.nodes.map Element.id)
    (isSecond : second ∈ graph.nodes.map Element.id) :
    (∃ ids ∈ graph.componentIds, first ∈ ids ∧ second ∈ ids) ↔
      graph.Reaches first second ∧ graph.Reaches second first := by
  rw [← map_idAt_range] at isFirst isSecond
  obtain ⟨left, isLeft, rfl⟩ := List.mem_map.mp isFirst
  obtain ⟨right, isRight, rfl⟩ := List.mem_map.mp isSecond
  rw [List.mem_range] at isLeft isRight
  rw [built.reaches_idAt_iff isLeft isRight, built.reaches_idAt_iff isRight isLeft,
    ← Tour.exists_component_iff built.lt_of_mem_next isLeft isRight, ← toured]
  constructor
  · rintro ⟨ids, member, inFirst, inSecond⟩
    obtain ⟨component, isComponent, rfl⟩ := List.mem_map.mp member
    exact ⟨component, isComponent, (built.mem_map_component toured isComponent isLeft).mp inFirst,
      (built.mem_map_component toured isComponent isRight).mp inSecond⟩
  · rintro ⟨component, isComponent, inFirst, inSecond⟩
    exact ⟨component.map graph.idAt, List.mem_map_of_mem isComponent,
      List.mem_map_of_mem inFirst, List.mem_map_of_mem inSecond⟩

/-- A component that depends on another one comes after it. -/
theorem Built.place_lt_of_depends {place other : Nat} {ids others : List String}
    (isIds : graph.componentIds[place]? = some ids)
    (isOthers : graph.componentIds[other]? = some others) (apart : place ≠ other)
    {source target : String} (isSource : source ∈ ids) (isTarget : target ∈ others)
    (depends : graph.Depends source target) : other < place := by
  rw [componentIds, List.getElem?_map] at isIds isOthers
  obtain ⟨component, isComponent, rfl⟩ := Option.map_eq_some_iff.mp isIds
  obtain ⟨another, isAnother, rfl⟩ := Option.map_eq_some_iff.mp isOthers
  obtain ⟨node, isNode, rfl⟩ := List.mem_map.mp isSource
  obtain ⟨child, isChild, rfl⟩ := List.mem_map.mp isTarget
  have node_lt := built.lt_of_mem_component toured (List.mem_of_getElem? isComponent) isNode
  have child_lt := built.lt_of_mem_component toured (List.mem_of_getElem? isAnother) isChild
  have step := (built.depends_idAt_iff node_lt child_lt).mp depends
  rw [toured] at isComponent isAnother
  have ordered := (Tour.settled_components built.lt_of_mem_next).place_le
    (Tour.nodup_flatten_components built.lt_of_mem_next) (.single step) isComponent isNode isAnother
    isChild
  exact Nat.lt_of_le_of_ne ordered apart.symm

end Components

/-- The components of a graph divide its ids and hold them in order. Two ids are in one component if
and only if each is reached from the other, and a component that depends on another one comes
after it. -/
theorem componentIds_build (options : GraphOptions α) {elements : List Element}
    (distinct : DistinctIds elements) (relationships : List (Relationship α))
    (earlier : Option (DependencyGraph α × List String)) :
    let graph := build options elements relationships earlier
    graph.componentIds.flatten.Perm (elements.map Element.id) ∧
      (∀ ids ∈ graph.componentIds,
        ids ≠ [] ∧ ids.Pairwise fun left right => Text.before left right) ∧
      (∀ first ∈ elements.map Element.id, ∀ second ∈ elements.map Element.id,
        (∃ ids ∈ graph.componentIds, first ∈ ids ∧ second ∈ ids) ↔
          graph.Reaches first second ∧ graph.Reaches second first) ∧
      ∀ (place other : Nat) (ids others : List String),
        graph.componentIds[place]? = some ids → graph.componentIds[other]? = some others →
          place ≠ other → ∀ source ∈ ids, ∀ target ∈ others,
            graph.Depends source target → other < place := by
  intro graph
  have built : Built graph := built_build options distinct relationships earlier
  have toured := components_build options elements relationships earlier
  have isNodes : graph.nodes = Text.sortBy Element.id elements :=
    nodes_build options elements relationships earlier
  have sameIds : (graph.nodes.map Element.id).Perm (elements.map Element.id) := by
    rw [isNodes]
    exact (Text.sortBy_perm Element.id elements).map Element.id
  have sorted : (graph.nodes.map Element.id).Pairwise fun left right => Text.before left right := by
    refine Text.pairwise_before ?_ built.distinct
    rw [isNodes, List.pairwise_map]
    exact Text.pairwise_sortBy Element.id elements
  refine ⟨(built.flatten_componentIds_perm toured).trans sameIds, ?_, ?_, ?_⟩
  · intro ids member
    exact ⟨built.componentIds_ne_nil toured member,
      built.sorted_of_mem_componentIds toured sorted member⟩
  · intro first isFirst second isSecond
    exact built.exists_componentIds_iff toured (sameIds.mem_iff.mpr isFirst)
      (sameIds.mem_iff.mpr isSecond)
  · intro place other ids others isIds isOthers apart source isSource target isTarget depends
    exact built.place_lt_of_depends toured isIds isOthers apart isSource isTarget depends

/-- Two circles, the first of which depends on the second, and an element that depends on the
first. -/
theorem componentIds_build_two_circles :
    let options : GraphOptions Rat := ⟨RelationshipKind.references, ⟨1, 2, 3⟩⟩
    let elements := ["a", "b", "c", "d", "e"].map fun id => Element.sketch id "main.ts" []
    let relationships :=
      [("a", "b"), ("b", "a"), ("b", "c"), ("c", "d"), ("d", "c"), ("e", "a")].map
        fun (source, target) => Relationship.sketch source .calls target
    let graph := build options elements relationships none
    DistinctIds elements ∧ graph.componentIds = [["c", "d"], ["a", "b"], ["e"]] ∧
      graph.Reaches "a" "b" ∧ graph.Reaches "b" "a" ∧ ¬ graph.Depends "c" "b" := by
  intro options elements relationships graph
  have distinct : DistinctIds elements := by decide
  have isGraph : graph = ofSorted options elements relationships :=
    fresh_of_sorted options (by decide) relationships
  have components : graph.componentIds = [["c", "d"], ["a", "b"], ["e"]] := by
    rw [isGraph]
    decide +kernel
  obtain ⟨-, -, together, ordered⟩ := componentIds_build options distinct relationships none
  obtain ⟨there, back⟩ := (together "a" (by decide) "b" (by decide)).mp
    (components ▸ ⟨["a", "b"], by decide, by decide, by decide⟩)
  refine ⟨distinct, components, there, back, fun depends => ?_⟩
  have before : 1 < 0 := ordered 0 1 ["c", "d"] ["a", "b"] (components ▸ rfl) (components ▸ rfl)
    (by decide) "c" (by decide) "b" (by decide) depends
  exact absurd before (by decide)

end DependencyGraph
end CodeAtlas
