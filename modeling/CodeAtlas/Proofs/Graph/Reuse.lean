import CodeAtlas.Graph.Reuse
import CodeAtlas.Proofs.Graph.Basic
import CodeAtlas.Proofs.Table
import CodeAtlas.Proofs.Text.Split

/-!
# Counts that outlive their graph

A node that reaches no changed id, neither in a graph nor in its successor, reaches the same ids in
both: every node on the way has the same dependency edges, whatever its number. So the counts that a
successor takes over are true of it as well.
-/

namespace CodeAtlas
namespace DependencyGraph

variable {α : Type}

/-! ## Signatures -/

/-- The ids of the dependencies among edges. -/
def dependencyIds (edges : List (GraphEdge α)) : List String :=
  (edges.filter (·.dependency)).map GraphEdge.id

/-- The ids of dependency edges hold neither of the characters that signatures divide them by. -/
def Legible (graph : DependencyGraph α) : Prop :=
  ∀ edge ∈ graph.edges, edge.dependency → '\n' ∉ edge.id.toList ∧ '\x00' ∉ edge.id.toList

instance (graph : DependencyGraph α) : Decidable graph.Legible :=
  inferInstanceAs (Decidable (∀ edge ∈ graph.edges, edge.dependency = true →
    '\n' ∉ edge.id.toList ∧ '\x00' ∉ edge.id.toList))

/-- Dependency edges of two graphs with one id leave one node if and only if they enter one node. -/
def EdgesAgree (left right : DependencyGraph α) : Prop :=
  ∀ first ∈ left.edges, ∀ second ∈ right.edges, first.dependency → second.dependency →
    first.id = second.id →
      (left.idAt first.source = right.idAt second.source ↔
        left.idAt first.target = right.idAt second.target)

theorem EdgesAgree.symm {left right : DependencyGraph α} (agree : EdgesAgree left right) :
    EdgesAgree right left := by
  intro first isFirst second isSecond firstDependency secondDependency same
  have ends := agree second isSecond first isFirst secondDependency firstDependency same.symm
  exact ⟨fun source => (ends.mp source.symm).symm, fun target => (ends.mpr target.symm).symm⟩

theorem mem_dependencyIds {edges : List (GraphEdge α)} {id : String} :
    id ∈ dependencyIds edges ↔ ∃ edge ∈ edges, edge.dependency ∧ edge.id = id := by
  simp [dependencyIds, and_assoc]

/-- Signatures in a form that evaluates by structural recursion. -/
theorem signature_eq_insertionSort (graph : DependencyGraph α) (node : Nat) :
    graph.signature node =
      Text.join "\n" ((dependencyIds (graph.edgesFrom node)).insertionSort fun left right =>
        Text.notAfter left right = true) ++ "\x00" ++
      Text.join "\n" ((dependencyIds (graph.edgesInto node)).insertionSort fun left right =>
        Text.notAfter left right = true) := by
  rw [← Text.sort_eq_insertionSort, ← Text.sort_eq_insertionSort]
  rfl

theorem Built.clear_of_mem {graph : DependencyGraph α} (built : Built graph)
    (legible : graph.Legible) {edges : List (GraphEdge α)} (subset : edges ⊆ graph.edges)
    {id : String} (member : id ∈ Text.sort (dependencyIds edges)) :
    (id ≠ "" ∧ '\n' ∉ id.toList) ∧ '\x00' ∉ id.toList := by
  obtain ⟨edge, isEdge, isDependency, rfl⟩ := mem_dependencyIds.mp (Text.mem_sort.mp member)
  have clear := legible edge (subset isEdge) isDependency
  exact ⟨⟨built.named edge (subset isEdge), clear.1⟩, clear.2⟩

theorem Built.perm_of_signature_eq {left right : DependencyGraph α} (leftBuilt : Built left)
    (rightBuilt : Built right) (leftLegible : left.Legible) (rightLegible : right.Legible)
    {node other : Nat} (same : left.signature node = right.signature other) :
    (dependencyIds (left.edgesFrom node)).Perm (dependencyIds (right.edgesFrom other)) ∧
      (dependencyIds (left.edgesInto node)).Perm (dependencyIds (right.edgesInto other)) := by
  have perm {first second : List (GraphEdge α)} (firstSubset : first ⊆ left.edges)
      (secondSubset : second ⊆ right.edges)
      (joined : Text.join "\n" (Text.sort (dependencyIds first)) =
        Text.join "\n" (Text.sort (dependencyIds second))) :
      (dependencyIds first).Perm (dependencyIds second) := by
    have sorted := Text.join_injective (show "\n".toList = ['\n'] from rfl)
      (fun _ member => (leftBuilt.clear_of_mem leftLegible firstSubset member).1)
      (fun _ member => (rightBuilt.clear_of_mem rightLegible secondSubset member).1) joined
    exact (Text.sort_perm _).symm.trans (sorted ▸ Text.sort_perm _)
  have split := Text.append_separator_inj (show "\x00".toList = ['\x00'] from rfl)
    (Text.notMem_toList_join (by decide) fun _ member =>
      (leftBuilt.clear_of_mem leftLegible (List.filter_subset_self _) member).2)
    (Text.notMem_toList_join (by decide) fun _ member =>
      (rightBuilt.clear_of_mem rightLegible (List.filter_subset_self _) member).2) same
  exact ⟨perm (List.filter_subset_self _) (List.filter_subset_self _) split.1,
    perm (List.filter_subset_self _) (List.filter_subset_self _) split.2⟩

/-! ## What a change leaves as it was -/

theorem mem_edgesFrom {graph : DependencyGraph α} {node : Nat} {edge : GraphEdge α} :
    edge ∈ graph.edgesFrom node ↔ edge ∈ graph.edges ∧ edge.source = node := by
  simp [edgesFrom]

theorem mem_edgesInto {graph : DependencyGraph α} {node : Nat} {edge : GraphEdge α} :
    edge ∈ graph.edgesInto node ↔ edge ∈ graph.edges ∧ edge.target = node := by
  simp [edgesInto]

/-- What an id depends on can be read off the ids of the edges that leave it. -/
theorem Built.depends_of_subset {left right : DependencyGraph α} (leftBuilt : Built left)
    (rightBuilt : Built right) (agree : EdgesAgree left right) {id : String} {node other : Nat}
    (isNode : left.index? id = some node) (isOther : right.index? id = some other)
    (subset : dependencyIds (left.edgesFrom node) ⊆ dependencyIds (right.edgesFrom other))
    {target : String} (depends : left.Depends id target) : right.Depends id target := by
  obtain ⟨different, edge, isEdge, isDependency, source, rfl⟩ := depends
  obtain ⟨node_lt, node_eq⟩ := leftBuilt.index?_eq_some_iff.mp isNode
  obtain ⟨other_lt, other_eq⟩ := rightBuilt.index?_eq_some_iff.mp isOther
  have leaves : edge.source = node :=
    leftBuilt.idAt_inj (leftBuilt.source_lt edge isEdge) node_lt (source.trans node_eq.symm)
  have listed : edge.id ∈ dependencyIds (left.edgesFrom node) :=
    mem_dependencyIds.mpr ⟨edge, mem_edgesFrom.mpr ⟨isEdge, leaves⟩, isDependency, rfl⟩
  obtain ⟨twin, isTwin, twinDependency, sameId⟩ := mem_dependencyIds.mp (subset listed)
  obtain ⟨isTwinEdge, rfl⟩ := mem_edgesFrom.mp isTwin
  have sources : left.idAt edge.source = right.idAt twin.source := source.trans other_eq.symm
  have ends := agree edge isEdge twin isTwinEdge isDependency twinDependency sameId.symm
  exact ⟨different, twin, isTwinEdge, twinDependency, other_eq, (ends.mp sources).symm⟩

/-- An id that has not changed is in both graphs with one signature, or in neither. -/
theorem index?_of_notMem_changesFrom {previous graph : DependencyGraph α} {id : String}
    (built : Built graph) (unchanged : id ∉ changesFrom previous graph) :
    (previous.index? id = none ∧ graph.index? id = none) ∨
      ∃ old node, previous.index? id = some old ∧ graph.index? id = some node ∧
        previous.signature old = graph.signature node := by
  rw [changesFrom, List.mem_append, not_or] at unchanged
  cases found : graph.index? id with
  | none =>
    cases old : previous.index? id with
    | none => exact .inl ⟨rfl, rfl⟩
    | some node =>
      refine absurd ?_ unchanged.2
      obtain ⟨element, isElement, rfl⟩ := lastIndex?_eq_some old
      simp only [List.mem_filter, List.mem_map, has, found]
      exact ⟨⟨element, List.mem_of_getElem? isElement, rfl⟩, rfl⟩
  | some node =>
    obtain ⟨node_lt, rfl⟩ := built.index?_eq_some_iff.mp found
    have same : isChangedFrom previous graph node = false := by
      by_contra changed
      refine unchanged.1 (List.mem_map_of_mem (List.mem_filter.mpr ⟨?_, ?_⟩))
      · exact List.mem_range.mpr node_lt
      · simpa using changed
    unfold isChangedFrom at same
    split at same
    case h_1 => simp at same
    case h_2 old isOld => exact .inr ⟨old, node, isOld, rfl, by simpa using same⟩

/-- Two graphs whose signatures tell them apart. -/
structure Comparable (previous graph : DependencyGraph α) : Prop where
  /-- The first graph is built. -/
  previousBuilt : Built previous
  /-- The second graph is built. -/
  built : Built graph
  /-- The ids of the first can be read off its signatures. -/
  previousLegible : previous.Legible
  /-- The ids of the second can be read off its signatures. -/
  legible : graph.Legible
  /-- One id stands for the same ends in both. -/
  agree : EdgesAgree previous graph

/-- The number of other nodes that are reached depends on the ids that are reached only. -/
theorem Built.countReached_eq {left right : DependencyGraph α} (leftBuilt : Built left)
    (rightBuilt : Built right) {id : String} {node other : Nat}
    (isNode : left.index? id = some node) (isOther : right.index? id = some other)
    (reaches : ∀ target, left.Reaches id target ↔ right.Reaches id target) :
    left.countReached node = right.countReached other := by
  obtain ⟨node_lt, rfl⟩ := leftBuilt.index?_eq_some_iff.mp isNode
  obtain ⟨other_lt, other_eq⟩ := rightBuilt.index?_eq_some_iff.mp isOther
  have perm : ((Search.reached left.next left.size [node]).map left.idAt).Perm
      ((Search.reached right.next right.size [other]).map right.idAt) := by
    apply (List.perm_ext_iff_of_nodup (leftBuilt.nodup_map_reached node_lt)
      (rightBuilt.nodup_map_reached other_lt)).mpr
    intro target
    rw [leftBuilt.mem_map_reached_iff node_lt, rightBuilt.mem_map_reached_iff other_lt, other_eq,
      reaches]
  have lengths := perm.length_eq
  rw [List.length_map, List.length_map] at lengths
  rw [countReached, countReached, lengths]

/-- The ancestors of ids are found by a search against the direction of the edges. -/
theorem Built.mem_ancestorsOf {graph : DependencyGraph α} (built : Built graph)
    {ids : List String} {id target : String} (present : graph.has id) (isTarget : target ∈ ids)
    (reaches : graph.Reaches id target) : id ∈ graph.ancestorsOf ids := by
  obtain ⟨node, node_lt, rfl⟩ := built.has_iff.mp present
  obtain ⟨other, other_lt, path, rfl⟩ := built.search_of_reaches node_lt reaches
  have isOther := built.index?_eq_some_iff.mpr ⟨other_lt, rfl⟩
  have below : ∀ start ∈ ids.filterMap graph.index?, start < graph.size := by
    intro start member
    obtain ⟨_, _, found⟩ := List.mem_filterMap.mp member
    exact (built.index?_eq_some_iff.mp found).1
  refine List.mem_map_of_mem ((Search.mem_reached_iff built.lt_of_mem_before _ below node).mpr ?_)
  exact ⟨other, List.mem_filterMap.mpr ⟨_, isTarget, isOther⟩,
    built.search_before_iff.mpr path⟩

namespace Comparable

variable {previous graph : DependencyGraph α} (comparable : Comparable previous graph)

include comparable

theorem depends_iff {id : String} (unchanged : id ∉ changesFrom previous graph)
    (target : String) : previous.Depends id target ↔ graph.Depends id target := by
  rcases index?_of_notMem_changesFrom comparable.built unchanged with
    ⟨gone, absent⟩ | ⟨old, node, isOld, isNode, same⟩
  · constructor
    · intro depends
      have present := (comparable.previousBuilt.has_of_depends depends).1
      simp [has, gone] at present
    · intro depends
      have present := (comparable.built.has_of_depends depends).1
      simp [has, absent] at present
  · have perm := (comparable.previousBuilt.perm_of_signature_eq comparable.built
      comparable.previousLegible comparable.legible same).1
    exact ⟨comparable.previousBuilt.depends_of_subset comparable.built comparable.agree isOld
        isNode perm.subset,
      comparable.built.depends_of_subset comparable.previousBuilt comparable.agree.symm isNode
        isOld perm.symm.subset⟩

/-- An id that reaches no changed id reaches the same ids in both graphs. -/
theorem reaches_iff {changed : List String} (covers : changesFrom previous graph ⊆ changed)
    {id : String} (before : ∀ target ∈ changed, ¬ previous.Reaches id target)
    (now : ∀ target ∈ changed, ¬ graph.Reaches id target) (target : String) :
    previous.Reaches id target ↔ graph.Reaches id target := by
  constructor
  · intro reaches
    induction reaches with
    | refl => exact .refl
    | tail path step induction =>
      have unchanged := fun member => before _ (covers member) path
      exact induction.tail ((comparable.depends_iff unchanged _).mp step)
  · intro reaches
    induction reaches with
    | refl => exact .refl
    | tail path step induction =>
      have unchanged := fun member => now _ (covers member) path
      exact induction.tail ((comparable.depends_iff unchanged _).mpr step)

end Comparable

/-! ## Remembered counts -/

/-- The counts that a graph remembers are those that it would count. -/
def Faithful (graph : DependencyGraph α) : Prop :=
  ∀ id node count, graph.index? id = some node → graph.reach.get? id = some count →
    count = graph.countReached node

theorem faithful_fresh (options : GraphOptions α) (elements : List Element)
    (relationships : List (Relationship α)) : (fresh options elements relationships).Faithful := by
  intro id node count _ remembered
  simp [fresh, ofEdges] at remembered

theorem reachOf_bare {graph : DependencyGraph α} {id : String} {node : Nat}
    (found : graph.index? id = some node) : graph.bare.reachOf id = graph.countReached node := by
  have isNode : graph.bare.index? id = some node := found
  rw [reachOf, isNode]
  rfl

theorem Faithful.reachOf_eq {graph : DependencyGraph α} (faithful : graph.Faithful) (id : String) :
    graph.reachOf id = graph.bare.reachOf id := by
  cases found : graph.index? id with
  | none =>
    have absent : graph.bare.index? id = none := found
    rw [reachOf, reachOf, found, absent]
  | some node =>
    rw [reachOf_bare found, reachOf, found]
    cases remembered : graph.reach.get? id with
    | none => rfl
    | some count => simpa [remembered] using faithful id node count found remembered

theorem Faithful.remember {graph : DependencyGraph α} (faithful : graph.Faithful) (id : String) :
    (graph.remember id).Faithful := by
  unfold DependencyGraph.remember
  split
  case isFalse => exact faithful
  case isTrue =>
    intro other node count found remembered
    rw [Table.get?_put] at remembered
    split at remembered
    case isFalse => exact faithful other node count found remembered
    case isTrue same =>
      subst same
      have isNode : graph.index? other = some node := found
      rw [← Option.some.inj remembered, faithful.reachOf_eq, reachOf_bare isNode]
      rfl

/-- What a successor takes over is true of it. -/
theorem Comparable.faithful_after {previous graph : DependencyGraph α}
    (comparable : Comparable previous graph) (faithful : previous.Faithful)
    (touched : List String) : (after previous touched graph).Faithful := by
  intro id node count found remembered
  have isNode : graph.index? id = some node := found
  have present : graph.has id := by rw [has, isNode]; rfl
  obtain ⟨element, _, kept⟩ := List.mem_filterMap.mp (Table.mem_of_get?_ofList remembered)
  split at kept
  case isTrue => simp at kept
  case isFalse unaffected =>
    obtain ⟨_, taken, entry⟩ := Option.map_eq_some_iff.mp kept
    obtain ⟨rfl, rfl⟩ := Prod.mk.inj entry
    rw [List.contains_iff_mem, List.mem_append, not_or] at unaffected
    have now : ∀ target ∈ distinct (changesFrom previous graph ++ touched),
        ¬ graph.Reaches element.id target := fun target member reaches =>
      unaffected.1 (comparable.built.mem_ancestorsOf present member reaches)
    have covers : changesFrom previous graph ⊆ distinct (changesFrom previous graph ++ touched) :=
      fun _ member => mem_distinct.mpr (List.mem_append_left touched member)
    -- The id has not changed itself, since it reaches itself.
    rcases index?_of_notMem_changesFrom comparable.built fun member => now _ (covers member) .refl
      with ⟨_, absent⟩ | ⟨old, _, isOld, _, _⟩
    · rw [isNode] at absent
      simp at absent
    · have before : ∀ target ∈ distinct (changesFrom previous graph ++ touched),
          ¬ previous.Reaches element.id target := by
        intro target member reaches
        refine unaffected.2 (comparable.previousBuilt.mem_ancestorsOf ?_ member reaches)
        rw [has, isOld]
        rfl
      rw [faithful element.id old _ isOld taken]
      exact comparable.previousBuilt.countReached_eq comparable.built isOld isNode
        (comparable.reaches_iff covers before now)

end DependencyGraph
end CodeAtlas
