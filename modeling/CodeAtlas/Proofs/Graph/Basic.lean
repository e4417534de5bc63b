import CodeAtlas.Graph.Basic
import CodeAtlas.Proofs.Element
import CodeAtlas.Proofs.Graph.Search

/-!
# Nodes, edges and reach of a graph

In a graph of elements with distinct ids, node numbers and ids stand for each other. What its lists
of numbers say about dependencies is restated for ids, since the numbers of one node differ from
graph to graph.
-/

namespace CodeAtlas

/-- The rational numbers as exact scalars. -/
instance : Scalar Rat where
  ofNat count := count
  ofInt value := value
  add := (· + ·)
  mul := (· * ·)
  div := (· / ·)
  lt left right := decide (left < right)
  eq left right := decide (left = right)
  text := toString

/-- A sure reference from one element to another. -/
def Relationship.sketch (sourceId : String) (kind : ReferenceKind) (targetId : String) :
    Relationship Rat where
  sourceId := sourceId
  targetId := targetId
  kind := .reference kind
  strength := 1
  bidirectional := false
  evidence := ⟨.exact, false, 1, none, none, 1⟩

namespace DependencyGraph

/-! ## Numbers and ids -/

theorem lastIndex?_eq_some {nodes : List Element} {id : String} {index : Nat}
    (found : lastIndex? nodes id = some index) :
    ∃ node, nodes[index]? = some node ∧ node.id = id := by
  obtain ⟨⟨node, place⟩, isFound, rfl⟩ := Option.map_eq_some_iff.mp found
  have member := List.mem_of_find?_eq_some isFound
  rw [List.mem_reverse, List.mem_zipIdx_iff_getElem?] at member
  exact ⟨node, member, by simpa using List.find?_some isFound⟩

theorem lastIndex?_eq_none_iff {nodes : List Element} {id : String} :
    lastIndex? nodes id = none ↔ id ∉ nodes.map Element.id := by
  rw [lastIndex?, Option.map_eq_none_iff, List.find?_eq_none]
  constructor
  · intro absent present
    obtain ⟨node, member, rfl⟩ := List.mem_map.mp present
    obtain ⟨index, found⟩ := List.mem_iff_getElem?.mp member
    exact absent (node, index)
      (List.mem_reverse.mpr (List.mem_zipIdx_iff_getElem?.mpr found)) (by simp)
  · rintro absent ⟨node, index⟩ member
    rw [List.mem_reverse, List.mem_zipIdx_iff_getElem?] at member
    have isNode : node ∈ nodes := List.mem_iff_getElem?.mpr ⟨index, member⟩
    simpa using fun same => absent (List.mem_map.mpr ⟨node, isNode, same⟩)

theorem lastIndex?_of_getElem? {nodes : List Element} (distinct : DistinctIds nodes) {index : Nat}
    {node : Element} (found : nodes[index]? = some node) :
    lastIndex? nodes node.id = some index := by
  cases last : lastIndex? nodes node.id with
  | none =>
    have member : node ∈ nodes := List.mem_iff_getElem?.mpr ⟨index, found⟩
    exact absurd (List.mem_map_of_mem member) (lastIndex?_eq_none_iff.mp last)
  | some other =>
    obtain ⟨twin, isTwin, sameId⟩ := lastIndex?_eq_some last
    have ids : (nodes.map Element.id)[other]? = (nodes.map Element.id)[index]? := by
      rw [List.getElem?_map, List.getElem?_map, isTwin, found]
      exact congrArg some sameId
    have bound : other < (nodes.map Element.id).length := by
      rw [List.length_map]
      exact (List.getElem?_eq_some_iff.mp isTwin).1
    rw [(List.getElem?_inj bound distinct).mp ids]

/-! ## The other direction -/

/-- The nodes whose lists hold a node. -/
def sourcesOf (lists : Array (List Nat)) (size node : Nat) : List Nat :=
  (List.range size).filter fun other => ((lists[other]?).getD []).contains node

theorem getElem?_addTo (lists : Array (List Nat)) (node : Nat) {others : List Nat}
    (nodup : others.Nodup) (index : Nat) :
    (addTo lists node others)[index]? =
      lists[index]?.map fun found => if index ∈ others then found ++ [node] else found := by
  induction others generalizing lists with
  | nil => simp [addTo]
  | cons other others induction =>
    obtain ⟨absent, nodup⟩ := List.nodup_cons.mp nodup
    change (addTo (lists.modify other (· ++ [node])) node others)[index]? = _
    rw [induction _ nodup, Array.getElem?_modify]
    by_cases same : other = index
    · subst same
      simp [absent, Function.comp_def]
    · simp [same, Ne.symm same]

theorem transpose_eq {lists : Array (List Nat)}
    (nodup : ∀ node : Nat, ((lists[node]?).getD []).Nodup) (size : Nat) :
    transpose lists size = ((List.range size).map (sourcesOf lists size)).toArray := by
  -- The lists after some of the nodes have been gone through.
  have along (count index : Nat) : ((List.range count).foldl (fun reversed node =>
        addTo reversed node ((lists[node]?).getD [])) (Array.replicate size []))[index]? =
      if index < size then some (sourcesOf lists count index) else none := by
    induction count with
    | zero => simp [sourcesOf, Array.getElem?_replicate]
    | succ count induction =>
      rw [List.range_succ, List.foldl_append, List.foldl_cons, List.foldl_nil,
        getElem?_addTo _ _ (nodup count), induction, sourcesOf, sourcesOf, List.range_succ,
        List.filter_append]
      by_cases below : index < size
      · by_cases held : index ∈ (lists[count]?).getD [] <;> simp [below, held]
      · simp [below]
  refine Array.ext_getElem? fun index => ?_
  rw [transpose, along]
  by_cases below : index < size <;> simp [below]

/-! ## Graphs that have been built -/

variable {α : Type}

/-- A graph without what it remembers. -/
def bare (graph : DependencyGraph α) : DependencyGraph α :=
  { graph with reach := Table.empty, changed := [] }

/-- The nodes of a graph have distinct ids, its edges have an id and lead from node to node, and its
lists of numbers are those of its edges. -/
structure Built (graph : DependencyGraph α) : Prop where
  /-- The ids are distinct. -/
  distinct : DistinctIds graph.nodes
  /-- Edges leave nodes. -/
  source_lt : ∀ edge ∈ graph.edges, edge.source < graph.size
  /-- Edges enter nodes. -/
  target_lt : ∀ edge ∈ graph.edges, edge.target < graph.size
  /-- Edges have an id. -/
  named : ∀ edge ∈ graph.edges, edge.id ≠ ""
  /-- What nodes depend on is what edges lead to. -/
  dependsOn_eq : graph.dependsOn =
    ((List.range graph.size).map (targetsOf graph.edges graph.size)).toArray
  /-- The other direction is the reverse of that. -/
  dependedOnBy_eq : graph.dependedOnBy =
    ((List.range graph.size).map (sourcesOf graph.dependsOn graph.size)).toArray

theorem nodup_targetsOf (edges : List (GraphEdge α)) (size node : Nat) :
    (targetsOf edges size node).Nodup :=
  List.nodup_range.filter _

/-- The lists of a graph in the other direction are the reverse of those of its edges. -/
theorem dependedOnBy_ofEdges (nodes : List Element) (edges : List (GraphEdge α))
    (weights : ComplexityWeights α) :
    (ofEdges nodes edges weights).dependedOnBy =
      ((List.range nodes.length).map
        (sourcesOf (ofEdges nodes edges weights).dependsOn nodes.length)).toArray := by
  refine transpose_eq (fun node => ?_) nodes.length
  rw [List.getElem?_toArray, List.getElem?_map]
  cases (List.range nodes.length)[node]? with
  | none => exact List.nodup_nil
  | some index => exact nodup_targetsOf edges nodes.length index

theorem Built.of_bare {graph : DependencyGraph α} (built : Built graph.bare) : Built graph :=
  ⟨built.distinct, built.source_lt, built.target_lt, built.named, built.dependsOn_eq,
    built.dependedOnBy_eq⟩

theorem mem_edgesOf {kinds : List RelationshipKind} {nodes : List Element}
    {relationship : Relationship α} {edge : GraphEdge α}
    (member : edge ∈ (edgesOf kinds nodes relationship).toOption.getD []) :
    edge.source < nodes.length ∧ edge.target < nodes.length ∧
      (edge.id = relationship.id ∨ edge.id = relationship.id ++ ":reverse") := by
  unfold edgesOf at member
  split at member
  case h_1 => simp [Except.toOption] at member
  case h_2 => simp [Except.toOption] at member
  case h_3 source target isSource isTarget =>
    obtain ⟨_, sourceFound, _⟩ := lastIndex?_eq_some isSource
    obtain ⟨_, targetFound, _⟩ := lastIndex?_eq_some isTarget
    have source_lt := (List.getElem?_eq_some_iff.mp sourceFound).1
    have target_lt := (List.getElem?_eq_some_iff.mp targetFound).1
    simp only [Except.toOption, Option.getD_some, edgesBetween] at member
    split at member
    · simp only [List.mem_cons, List.not_mem_nil, or_false] at member
      rcases member with rfl | rfl
      · exact ⟨source_lt, target_lt, .inl rfl⟩
      · exact ⟨target_lt, source_lt, .inr rfl⟩
    · rw [List.mem_singleton] at member
      subst member
      exact ⟨source_lt, target_lt, .inl rfl⟩

theorem built_fresh (options : GraphOptions α) {elements : List Element}
    (distinct : DistinctIds elements) (relationships : List (Relationship α)) :
    Built (fresh options elements relationships) := by
  have ends (edge : GraphEdge α) (member : edge ∈ (fresh options elements relationships).edges) :
      ∃ relationship ∈ relationships, edge ∈
        (edgesOf options.dependencyKinds (Text.sortBy Element.id elements)
          relationship).toOption.getD [] := by
    obtain ⟨outcome, isOutcome, member⟩ := List.mem_flatMap.mp member
    obtain ⟨relationship, isRelationship, rfl⟩ := List.mem_map.mp isOutcome
    exact ⟨relationship, isRelationship, member⟩
  refine ⟨distinct.sortBy_id, ?_, ?_, ?_, rfl, dependedOnBy_ofEdges _ _ _⟩
  · intro edge member
    obtain ⟨relationship, _, member⟩ := ends edge member
    exact (mem_edgesOf member).1
  · intro edge member
    obtain ⟨relationship, _, member⟩ := ends edge member
    exact (mem_edgesOf member).2.1
  · intro edge member empty
    obtain ⟨relationship, _, member⟩ := ends edge member
    have chars := congrArg String.toList empty
    rcases (mem_edgesOf member).2.2 with id | id <;>
      simp [id, Relationship.id, Relationship.idOf] at chars

theorem fresh_eq_of_perm (options : GraphOptions α) {left right : List Element}
    (distinct : DistinctIds left) (perm : left.Perm right)
    (relationships : List (Relationship α)) :
    fresh options left relationships = fresh options right relationships := by
  rw [fresh, fresh, distinct.sortBy_id_eq perm]

/-- The graph of elements that are sorted already. -/
def ofSorted (options : GraphOptions α) (elements : List Element)
    (relationships : List (Relationship α)) : DependencyGraph α :=
  ofEdges elements
    ((outcomes options elements relationships).flatMap fun outcome => outcome.toOption.getD [])
    options.weights

theorem fresh_of_sorted (options : GraphOptions α) {elements : List Element}
    (sorted : elements.Pairwise fun left right => Text.notAfter left.id right.id)
    (relationships : List (Relationship α)) :
    fresh options elements relationships = ofSorted options elements relationships := by
  rw [fresh, Text.sortBy_of_sorted sorted]
  rfl

theorem exists_lastIndex? {nodes : List Element} {id : String}
    (present : id ∈ nodes.map Element.id) : ∃ index, lastIndex? nodes id = some index := by
  cases found : lastIndex? nodes id with
  | none => exact absurd present (lastIndex?_eq_none_iff.mp found)
  | some index => exact ⟨index, rfl⟩

theorem exists_edge (options : GraphOptions α) {elements : List Element}
    {relationships : List (Relationship α)} {relationship : Relationship α}
    (member : relationship ∈ relationships)
    (source : relationship.sourceId ∈ elements.map Element.id)
    (target : relationship.targetId ∈ elements.map Element.id) :
    ∃ edge ∈ (fresh options elements relationships).edges, edge.id = relationship.id ∧
      (fresh options elements relationships).idAt edge.source = relationship.sourceId ∧
      (fresh options elements relationships).idAt edge.target = relationship.targetId := by
  have sorted : ((Text.sortBy Element.id elements).map Element.id).Perm
      (elements.map Element.id) := (Text.sortBy_perm Element.id elements).map Element.id
  obtain ⟨first, isFirst⟩ := exists_lastIndex? (sorted.mem_iff.mpr source)
  obtain ⟨second, isSecond⟩ := exists_lastIndex? (sorted.mem_iff.mpr target)
  obtain ⟨firstNode, firstFound, firstId⟩ := lastIndex?_eq_some isFirst
  obtain ⟨secondNode, secondFound, secondId⟩ := lastIndex?_eq_some isSecond
  have forward : ∃ edge ∈ edgesBetween options.dependencyKinds relationship first second,
      edge.id = relationship.id ∧ edge.source = first ∧ edge.target = second := by
    unfold edgesBetween
    dsimp only
    split
    · exact ⟨_, List.mem_cons_self, rfl, rfl, rfl⟩
    · exact ⟨_, List.mem_cons_self, rfl, rfl, rfl⟩
  obtain ⟨edge, isEdge, edgeId, rfl, rfl⟩ := forward
  refine ⟨edge, ?_, edgeId, ?_, ?_⟩
  · refine List.mem_flatMap.mpr ⟨_, List.mem_map_of_mem member, ?_⟩
    rw [edgesOf, isFirst, isSecond]
    exact isEdge
  · change ((Text.sortBy Element.id elements)[edge.source]?.map Element.id).getD "" = _
    rw [firstFound]
    exact firstId
  · change ((Text.sortBy Element.id elements)[edge.target]?.map Element.id).getD "" = _
    rw [secondFound]
    exact secondId

namespace Built

variable {graph : DependencyGraph α} (built : Built graph)

include built

theorem index?_eq_some_iff {id : String} {node : Nat} :
    graph.index? id = some node ↔ node < graph.size ∧ graph.idAt node = id := by
  constructor
  · intro found
    obtain ⟨element, isElement, rfl⟩ := lastIndex?_eq_some found
    refine ⟨(List.getElem?_eq_some_iff.mp isElement).1, ?_⟩
    rw [idAt, isElement]
    rfl
  · rintro ⟨below, rfl⟩
    have isElement : graph.nodes[node]? = some (graph.nodes.get ⟨node, below⟩) :=
      List.getElem?_eq_getElem below
    rw [idAt, isElement]
    exact lastIndex?_of_getElem? built.distinct isElement

theorem idAt_inj {left right : Nat} (left_lt : left < graph.size) (right_lt : right < graph.size)
    (same : graph.idAt left = graph.idAt right) : left = right := by
  have leftFound := built.index?_eq_some_iff.mpr ⟨left_lt, rfl⟩
  have rightFound := built.index?_eq_some_iff.mpr ⟨right_lt, rfl⟩
  rw [same, rightFound] at leftFound
  exact (Option.some.inj leftFound).symm

theorem has_iff {id : String} : graph.has id ↔ ∃ node < graph.size, graph.idAt node = id := by
  rw [has, Option.isSome_iff_exists]
  exact exists_congr fun node => built.index?_eq_some_iff

theorem has_idAt {node : Nat} (below : node < graph.size) : graph.has (graph.idAt node) :=
  built.has_iff.mpr ⟨node, below, rfl⟩

theorem next_eq (node : Nat) :
    graph.next node =
      if node < graph.size then targetsOf graph.edges graph.size node else [] := by
  rw [next, built.dependsOn_eq, List.getElem?_toArray, List.getElem?_map]
  split
  case isTrue below => simp [below]
  case isFalse beyond => simp [beyond]

theorem before_eq (node : Nat) :
    graph.before node =
      if node < graph.size then sourcesOf graph.dependsOn graph.size node else [] := by
  rw [before, built.dependedOnBy_eq, List.getElem?_toArray, List.getElem?_map]
  split
  case isTrue below => simp [below]
  case isFalse beyond => simp [beyond]

theorem nodup_next (node : Nat) : (graph.next node).Nodup := by
  rw [built.next_eq]
  split
  · exact List.nodup_range.filter _
  · exact List.nodup_nil

theorem nodup_before (node : Nat) : (graph.before node).Nodup := by
  rw [built.before_eq]
  split
  · exact List.nodup_range.filter _
  · exact List.nodup_nil

theorem mem_next_iff {node other : Nat} :
    other ∈ graph.next node ↔
      other ≠ node ∧ ∃ edge ∈ graph.edges,
        edge.dependency ∧ edge.source = node ∧ edge.target = other := by
  rw [built.next_eq]
  constructor
  · intro member
    split at member
    case isFalse => simp at member
    case isTrue =>
      simp only [targetsOf, List.mem_filter, List.mem_range, Bool.and_eq_true, bne_iff_ne,
        List.any_eq_true, beq_iff_eq] at member
      obtain ⟨_, different, edge, ⟨isEdge, isDependency, source⟩, target⟩ := member
      exact ⟨different, edge, isEdge, isDependency, source, target⟩
  · rintro ⟨different, edge, isEdge, isDependency, rfl, rfl⟩
    rw [if_pos (built.source_lt edge isEdge)]
    simp only [targetsOf, List.mem_filter, List.mem_range, Bool.and_eq_true, bne_iff_ne,
      List.any_eq_true, beq_iff_eq]
    exact ⟨built.target_lt edge isEdge, different, edge, ⟨isEdge, isDependency, rfl⟩, rfl⟩

theorem lt_of_mem_next (node other : Nat) (member : other ∈ graph.next node) :
    other < graph.size := by
  obtain ⟨_, edge, isEdge, _, _, rfl⟩ := built.mem_next_iff.mp member
  exact built.target_lt edge isEdge

theorem mem_before_iff {node other : Nat} :
    other ∈ graph.before node ↔ node ∈ graph.next other := by
  rw [built.before_eq]
  constructor
  · intro member
    split at member
    case isFalse => simp at member
    case isTrue =>
      simp only [sourcesOf, List.mem_filter, List.contains_iff_mem] at member
      exact member.2
  · intro member
    obtain ⟨_, edge, isEdge, _, rfl, rfl⟩ := built.mem_next_iff.mp member
    rw [if_pos (built.target_lt edge isEdge)]
    simp only [sourcesOf, List.mem_filter, List.mem_range, List.contains_iff_mem]
    exact ⟨built.source_lt edge isEdge, member⟩

theorem lt_of_mem_before (node other : Nat) (member : other ∈ graph.before node) :
    other < graph.size := by
  obtain ⟨_, edge, isEdge, _, rfl, _⟩ := built.mem_next_iff.mp (built.mem_before_iff.mp member)
  exact built.source_lt edge isEdge

end Built

/-! ## Reach between ids -/

/-- One id depends on another: a dependency edge leads from the first to the second. -/
def Depends (graph : DependencyGraph α) (source target : String) : Prop :=
  source ≠ target ∧ ∃ edge ∈ graph.edges,
    edge.dependency ∧ graph.idAt edge.source = source ∧ graph.idAt edge.target = target

/-- One id is reached from another by dependencies. -/
def Reaches (graph : DependencyGraph α) : String → String → Prop :=
  Relation.ReflTransGen graph.Depends

namespace Built

variable {graph : DependencyGraph α} (built : Built graph)

include built

theorem depends_idAt_iff {node other : Nat} (node_lt : node < graph.size)
    (other_lt : other < graph.size) :
    graph.Depends (graph.idAt node) (graph.idAt other) ↔ other ∈ graph.next node := by
  rw [built.mem_next_iff]
  constructor
  · rintro ⟨different, edge, isEdge, isDependency, source, target⟩
    refine ⟨fun same => different (by rw [same]), edge, isEdge, isDependency, ?_, ?_⟩
    · exact built.idAt_inj (built.source_lt edge isEdge) node_lt source
    · exact built.idAt_inj (built.target_lt edge isEdge) other_lt target
  · rintro ⟨different, edge, isEdge, isDependency, rfl, rfl⟩
    exact ⟨fun same => different (built.idAt_inj other_lt node_lt same.symm), edge, isEdge,
      isDependency, rfl, rfl⟩

theorem has_of_depends {source target : String} (depends : graph.Depends source target) :
    graph.has source ∧ graph.has target := by
  obtain ⟨_, edge, isEdge, _, rfl, rfl⟩ := depends
  exact ⟨built.has_idAt (built.source_lt edge isEdge), built.has_idAt (built.target_lt edge isEdge)⟩

/-- A search by numbers follows dependencies between ids. -/
theorem reaches_idAt {node other : Nat} (node_lt : node < graph.size)
    (path : Search.Reaches graph.next node other) :
    graph.Reaches (graph.idAt node) (graph.idAt other) := by
  induction path using Relation.ReflTransGen.head_induction_on with
  | refl => exact .refl
  | head step _ induction =>
    have child_lt := built.lt_of_mem_next _ _ step
    exact .head ((built.depends_idAt_iff node_lt child_lt).mpr step) (induction child_lt)

/-- Dependencies between ids are found by a search by numbers. -/
theorem search_of_reaches {node : Nat} (node_lt : node < graph.size) {id : String}
    (reaches : graph.Reaches (graph.idAt node) id) :
    ∃ other < graph.size, Search.Reaches graph.next node other ∧ graph.idAt other = id := by
  induction reaches with
  | refl => exact ⟨node, node_lt, .refl, rfl⟩
  | tail _ step induction =>
    obtain ⟨middle, middle_lt, path, rfl⟩ := induction
    obtain ⟨last, last_lt, rfl⟩ := built.has_iff.mp (built.has_of_depends step).2
    exact ⟨last, last_lt, path.tail ((built.depends_idAt_iff middle_lt last_lt).mp step), rfl⟩

theorem mem_map_reached_iff {node : Nat} (node_lt : node < graph.size) {id : String} :
    id ∈ (Search.reached graph.next graph.size [node]).map graph.idAt ↔
      graph.Reaches (graph.idAt node) id := by
  have met := Search.mem_reached_iff built.lt_of_mem_next [node] (by simpa using node_lt)
  simp only [List.mem_singleton, exists_eq_left] at met
  simp only [List.mem_map, met]
  constructor
  · rintro ⟨other, path, rfl⟩
    exact built.reaches_idAt node_lt path
  · intro reaches
    obtain ⟨other, _, path, rfl⟩ := built.search_of_reaches node_lt reaches
    exact ⟨other, path, rfl⟩

theorem nodup_map_reached {node : Nat} (node_lt : node < graph.size) :
    ((Search.reached graph.next graph.size [node]).map graph.idAt).Nodup := by
  have below : ∀ other ∈ [node], other < graph.size := by simpa using node_lt
  refine List.Nodup.map_on ?_ (Search.nodup_reached built.lt_of_mem_next [node] below)
  intro left leftMet right rightMet same
  have left_lt := Search.lt_of_mem_reached built.lt_of_mem_next [node] below leftMet
  have right_lt := Search.lt_of_mem_reached built.lt_of_mem_next [node] below rightMet
  exact built.idAt_inj left_lt right_lt same

theorem search_before_iff {node other : Nat} :
    Search.Reaches graph.before node other ↔ Search.Reaches graph.next other node := by
  have swapped : (fun node child => child ∈ graph.before node) =
      Function.swap fun node child => child ∈ graph.next node := by
    funext node child
    exact propext built.mem_before_iff
  rw [Search.Reaches, swapped, Relation.reflTransGen_swap]
  rfl

end Built

end DependencyGraph
end CodeAtlas
