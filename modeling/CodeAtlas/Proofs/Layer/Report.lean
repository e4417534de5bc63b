import CodeAtlas.Proofs.Boundary.Score
import CodeAtlas.Proofs.Graph.Component
import CodeAtlas.Proofs.Layer.Chain
import CodeAtlas.Proofs.Text.Split

/-!
# What a report on layers says

The report lists, for each layer, the ids that are placed in it and the other layers into which
dependencies of these ids lead, and it lists the dependencies that lead upwards. All of this is read
from one list: the dependencies between different layers in the order of their ends. Violations are
told apart by a text that joins their ends, so that the list of violations is complete if no id
holds the separator.
-/

namespace CodeAtlas

namespace LayerName

theorem mem_all (name : LayerName) : name ∈ all := by
  cases name <;> decide

theorem pairwise_all : all.Pairwise fun upper lower => lower.level < upper.level := by
  decide

end LayerName

namespace DependencyGraph

variable {α : Type}

theorem sorted_nodes_build (options : GraphOptions α) {elements : List Element}
    (distinct : DistinctIds elements) (relationships : List (Relationship α))
    (earlier : Option (DependencyGraph α × List String)) :
    ((build options elements relationships earlier).nodes.map Element.id).Pairwise
      fun left right => Text.before left right := by
  rw [nodes_build]
  refine Text.pairwise_before ?_ distinct.sortBy_id
  rw [List.pairwise_map]
  exact Text.pairwise_sortBy Element.id elements

theorem Built.pairwise_dependenciesOf {graph : DependencyGraph α} (built : graph.Built)
    (sorted : (graph.nodes.map Element.id).Pairwise fun left right => Text.before left right)
    (id : String) :
    (graph.dependenciesOf id).Pairwise fun left right => Text.before left right := by
  unfold dependenciesOf
  split
  case h_2 => exact .nil
  case h_1 node found =>
    have ascending : (graph.next node).Pairwise (· < ·) := by
      rw [built.next_eq, if_pos (built.index?_eq_some_iff.mp found).1]
      exact List.pairwise_lt_range.filter _
    rw [List.pairwise_map]
    refine ascending.imp_of_mem fun _ isSecond ordered => ?_
    exact before_idAt sorted ordered (built.lt_of_mem_next node _ isSecond)

end DependencyGraph

namespace Layer

open DependencyGraph (Depends)

variable {α : Type} {tests : List LayerTest} {elements : List Element} {graph : DependencyGraph α}

/-! ## Dependencies between layers -/

/-- The ids that are placed in layers, in order. -/
def placements (tests : List LayerTest) (elements : List Element) : List (String × LayerName) :=
  Text.sortBy Prod.fst (assign tests elements).entries

/-- The dependencies between different layers. -/
def crossed (tests : List LayerTest) (elements : List Element) (graph : DependencyGraph α) :
    List LayerViolation :=
  (placements tests elements).flatMap (crossings (assign tests elements) graph)

/-- Dependencies come in the order of their sources and, from one source, of their targets. -/
def EndsBefore (left right : LayerViolation) : Prop :=
  Text.before left.sourceId right.sourceId ∨
    left.sourceId = right.sourceId ∧ Text.before left.targetId right.targetId

theorem mem_placements_iff (distinct : DistinctIds elements) {entry : String × LayerName} :
    entry ∈ placements tests elements ↔ Placed tests elements entry.1 entry.2 := by
  rw [placements, Text.mem_sortBy, ← get?_assign tests distinct,
    (distinct_assign tests distinct).get?_eq_some_iff]

theorem pairwise_placements (tests : List LayerTest) (distinct : DistinctIds elements) :
    (placements tests elements).Pairwise fun left right => Text.before left.1 right.1 := by
  rw [← List.pairwise_map (R := fun left right => Text.before left right)]
  apply Text.pairwise_before
  · rw [List.pairwise_map]
    exact Text.pairwise_sortBy Prod.fst _
  · have perm := (Text.sortBy_perm Prod.fst (assign tests elements).entries).map Prod.fst
    exact perm.nodup_iff.mpr (distinct_assign tests distinct)

/-- The dependency of a placed id on a target, if the target is placed in another layer. -/
def crossing? (assigned : Table String LayerName) (entry : String × LayerName)
    (targetId : String) : Option LayerViolation :=
  match assigned.get? targetId with
  | some target => if target = entry.2 then none else some ⟨entry.1, targetId, entry.2, target⟩
  | none => none

theorem crossings_eq (assigned : Table String LayerName) (graph : DependencyGraph α)
    (entry : String × LayerName) :
    crossings assigned graph entry =
      (graph.dependenciesOf entry.1).filterMap (crossing? assigned entry) :=
  rfl

theorem crossing?_eq_some_iff {assigned : Table String LayerName} {entry : String × LayerName}
    {targetId : String} {crossing : LayerViolation} :
    crossing? assigned entry targetId = some crossing ↔
      (crossing.sourceId, crossing.source) = entry ∧ crossing.targetId = targetId ∧
        assigned.get? targetId = some crossing.target ∧ crossing.source ≠ crossing.target := by
  unfold crossing?
  constructor
  · intro found
    split at found
    case h_1 target isAssigned =>
      split at found
      case isTrue => cases found
      case isFalse different =>
        obtain rfl := Option.some.inj found
        exact ⟨rfl, rfl, isAssigned, Ne.symm different⟩
    case h_2 => cases found
  · rintro ⟨rfl, rfl, isAssigned, different⟩
    rw [isAssigned]
    exact if_neg (Ne.symm different)

theorem mem_crossed_iff (distinct : DistinctIds elements) (built : graph.Built)
    {crossing : LayerViolation} : crossing ∈ crossed tests elements graph ↔
      Placed tests elements crossing.sourceId crossing.source ∧
        Placed tests elements crossing.targetId crossing.target ∧
        graph.Depends crossing.sourceId crossing.targetId ∧ crossing.source ≠ crossing.target := by
  simp only [crossed, crossings_eq, List.mem_flatMap, List.mem_filterMap, crossing?_eq_some_iff,
    mem_placements_iff distinct, get?_assign tests distinct, built.mem_dependenciesOf_iff]
  constructor
  · rintro ⟨_, source, _, depends, rfl, rfl, target, different⟩
    exact ⟨source, target, depends, different⟩
  · rintro ⟨source, target, depends, different⟩
    exact ⟨_, source, _, depends, rfl, rfl, target, different⟩

theorem pairwise_crossed (tests : List LayerTest) (distinct : DistinctIds elements)
    (sorted : ∀ id, (graph.dependenciesOf id).Pairwise fun left right => Text.before left right) :
    (crossed tests elements graph).Pairwise EndsBefore := by
  rw [crossed, List.pairwise_flatMap]
  constructor
  · intro entry _
    rw [crossings_eq, List.pairwise_filterMap]
    refine (sorted entry.1).imp fun ordered first isFirst second isSecond => .inr ?_
    obtain ⟨firstSource, rfl, -⟩ := crossing?_eq_some_iff.mp isFirst
    obtain ⟨secondSource, rfl, -⟩ := crossing?_eq_some_iff.mp isSecond
    exact ⟨congrArg Prod.fst (firstSource.trans secondSource.symm), ordered⟩
  · refine (pairwise_placements tests distinct).imp
      fun ordered first isFirst second isSecond => .inl ?_
    rw [crossings_eq, List.mem_filterMap] at isFirst isSecond
    obtain ⟨_, -, isFirst⟩ := isFirst
    obtain ⟨_, -, isSecond⟩ := isSecond
    obtain ⟨rfl, -⟩ := crossing?_eq_some_iff.mp isFirst
    obtain ⟨rfl, -⟩ := crossing?_eq_some_iff.mp isSecond
    exact ordered

/-! ## Violations -/

/-- The dependencies that lead into a higher layer. -/
def upward (tests : List LayerTest) (elements : List Element) (graph : DependencyGraph α) :
    List LayerViolation :=
  (crossed tests elements graph).filter fun crossing =>
    crossing.source.level < crossing.target.level

theorem mem_upward_iff (distinct : DistinctIds elements) (built : graph.Built)
    {violation : LayerViolation} : violation ∈ upward tests elements graph ↔
      graph.Depends violation.sourceId violation.targetId ∧
        Placed tests elements violation.sourceId violation.source ∧
        Placed tests elements violation.targetId violation.target ∧
        violation.source.level < violation.target.level := by
  rw [upward, List.mem_filter, mem_crossed_iff distinct built, decide_eq_true_eq]
  constructor
  · rintro ⟨⟨source, target, depends, -⟩, below⟩
    exact ⟨depends, source, target, below⟩
  · rintro ⟨depends, source, target, below⟩
    refine ⟨⟨source, target, depends, fun same => ?_⟩, below⟩
    rw [same] at below
    exact Nat.lt_irrefl _ below

theorem violations_detect (tests : List LayerTest) (elements : List Element)
    (graph : DependencyGraph α) :
    (detect tests elements graph).violations =
      (Table.ofList ((upward tests elements graph).map fun violation =>
        (violationKey violation, violation))).values :=
  rfl

theorem EndsBefore.ne_ends {left right : LayerViolation} (ordered : EndsBefore left right) :
    ¬ (left.sourceId = right.sourceId ∧ left.targetId = right.targetId) := by
  rintro ⟨sources, targets⟩
  rcases ordered with ordered | ⟨-, ordered⟩
  · rw [sources] at ordered
    exact Text.not_before_of_before ordered ordered
  · rw [targets] at ordered
    exact Text.not_before_of_before ordered ordered

/-- Where no id holds the separator, no two violations have one key and all are kept. -/
theorem violations_eq_upward (distinct : DistinctIds elements) (built : graph.Built)
    (sorted : (crossed tests elements graph).Pairwise EndsBefore)
    (clear : ∀ element ∈ elements, '\x00' ∉ element.id.toList) :
    (detect tests elements graph).violations = upward tests elements graph := by
  have clearSource (violation : LayerViolation) (member : violation ∈ upward tests elements graph) :
      '\x00' ∉ violation.sourceId.toList := by
    obtain ⟨-, ⟨element, isElement, same, -⟩, -⟩ := (mem_upward_iff distinct built).mp member
    rw [← same]
    exact clear element isElement
  have differ : ((upward tests elements graph).map violationKey).Nodup := by
    rw [List.Nodup, List.pairwise_map]
    refine (sorted.filter _).imp_of_mem fun isFirst isSecond ordered same => ?_
    exact ordered.ne_ends
      (Text.append_separator_inj rfl (clearSource _ isFirst) (clearSource _ isSecond) same)
  rw [violations_detect, Table.values, Table.ofList_entries_of_nodup, List.map_map]
  · exact List.map_id _
  · rw [List.map_map]
    exact differ

/-! ## Layers -/

/-- The ids in a layer. -/
def membersOf (tests : List LayerTest) (elements : List Element) (name : LayerName) :
    List String :=
  ((placements tests elements).filter (·.2 = name)).map (·.1)

/-- The layers that dependencies lead into from a layer. -/
def dependedLayers (tests : List LayerTest) (elements : List Element) (graph : DependencyGraph α)
    (name : LayerName) : List LayerName :=
  LayerName.all.filter fun other => (crossed tests elements graph).any fun crossing =>
    crossing.source == name && crossing.target == other

/-- A layer as it is reported. -/
def layerOf (tests : List LayerTest) (elements : List Element) (graph : DependencyGraph α)
    (name : LayerName) : Layer :=
  ⟨name, membersOf tests elements name, dependedLayers tests elements graph name⟩

theorem layers_detect (tests : List LayerTest) (elements : List Element)
    (graph : DependencyGraph α) :
    (detect tests elements graph).layers =
      (LayerName.all.filter fun name => membersOf tests elements name ≠ []).map
        (layerOf tests elements graph) := by
  rw [← List.filterMap_eq_map', List.filterMap_filter]
  apply List.filterMap_congr
  intro name _
  change (if (membersOf tests elements name).isEmpty then none else
    some (layerOf tests elements graph name)) = _
  by_cases empty : membersOf tests elements name = [] <;> simp [empty]

theorem mem_membersOf_iff (distinct : DistinctIds elements) {id : String} {name : LayerName} :
    id ∈ membersOf tests elements name ↔ Placed tests elements id name := by
  simp [membersOf, mem_placements_iff distinct]

theorem pairwise_membersOf (tests : List LayerTest) (distinct : DistinctIds elements)
    (name : LayerName) :
    (membersOf tests elements name).Pairwise fun left right => Text.before left right := by
  rw [membersOf, List.pairwise_map]
  exact (pairwise_placements tests distinct).filter _

theorem mem_dependedLayers_iff (distinct : DistinctIds elements) (built : graph.Built)
    {name other : LayerName} : other ∈ dependedLayers tests elements graph name ↔
      other ≠ name ∧ ∃ source target, graph.Depends source target ∧
        Placed tests elements source name ∧ Placed tests elements target other := by
  simp only [dependedLayers, List.mem_filter, LayerName.mem_all, true_and, List.any_eq_true,
    Bool.and_eq_true, beq_iff_eq, mem_crossed_iff distinct built]
  constructor
  · rintro ⟨crossing, ⟨source, target, depends, different⟩, rfl, rfl⟩
    exact ⟨Ne.symm different, _, _, depends, source, target⟩
  · rintro ⟨different, source, target, depends, isSource, isTarget⟩
    exact ⟨⟨source, target, name, other⟩, ⟨isSource, isTarget, depends, Ne.symm different⟩, rfl,
      rfl⟩

/-- A layer has as members the ids that are placed in it, in order, and depends on the other layers
into which dependencies of its members lead, the highest first. -/
structure Describes (tests : List LayerTest) (elements : List Element)
    (graph : DependencyGraph α) (layer : Layer) : Prop where
  /-- The members are sorted. -/
  members_sorted : layer.memberIds.Pairwise fun left right => Text.before left right
  /-- The members are what is placed in the layer. -/
  mem_memberIds_iff : ∀ id, id ∈ layer.memberIds ↔ Placed tests elements id layer.name
  /-- Higher layers come first. -/
  dependsOn_sorted : layer.dependsOn.Pairwise fun upper lower => lower.level < upper.level
  /-- The layer depends on what dependencies of its members lead into. -/
  mem_dependsOn_iff : ∀ other, other ∈ layer.dependsOn ↔ other ≠ layer.name ∧
    ∃ source target, graph.Depends source target ∧ Placed tests elements source layer.name ∧
      Placed tests elements target other

theorem describes_layerOf (distinct : DistinctIds elements) (built : graph.Built)
    (name : LayerName) : Describes tests elements graph (layerOf tests elements graph name) where
  members_sorted := pairwise_membersOf tests distinct name
  mem_memberIds_iff _ := mem_membersOf_iff distinct
  dependsOn_sorted := List.Pairwise.filter _ LayerName.pairwise_all
  mem_dependsOn_iff _ := mem_dependedLayers_iff distinct built

theorem describes_of_mem_layers (distinct : DistinctIds elements) (built : graph.Built)
    {layer : Layer} (member : layer ∈ (detect tests elements graph).layers) :
    Describes tests elements graph layer := by
  rw [layers_detect, List.mem_map] at member
  obtain ⟨name, -, rfl⟩ := member
  exact describes_layerOf distinct built name

theorem exists_layer_iff (distinct : DistinctIds elements) (graph : DependencyGraph α)
    (name : LayerName) : (∃ layer ∈ (detect tests elements graph).layers, layer.name = name) ↔
      ∃ id, Placed tests elements id name := by
  have inhabited : (∃ id, Placed tests elements id name) ↔ membersOf tests elements name ≠ [] := by
    simp only [← mem_membersOf_iff distinct, ne_eq, List.eq_nil_iff_forall_not_mem, not_forall,
      not_not]
  rw [layers_detect, inhabited]
  simp [LayerName.mem_all, layerOf]

theorem pairwise_layers (tests : List LayerTest) (elements : List Element)
    (graph : DependencyGraph α) :
    (detect tests elements graph).layers.Pairwise
      fun upper lower => lower.name.level < upper.name.level := by
  rw [layers_detect, List.pairwise_map]
  exact LayerName.pairwise_all.filter _

/-- Elements that are neither stubs nor imports are assigned the layer that they inherit, and
nothing else is. Where no id holds the separator, the violations are the dependencies that lead from
a lower layer into a higher one, each once and in the order of their ends. The layers are those that
something is placed in, the highest first, each with its members and with the other layers that it
depends on. -/
theorem detect_build (tests : List LayerTest) {elements : List Element}
    (distinct : DistinctIds elements) (options : GraphOptions α)
    (relationships : List (Relationship α)) (earlier : Option (DependencyGraph α × List String)) :
    let graph := DependencyGraph.build options elements relationships earlier
    let report := detect tests elements graph
    (∀ id layer, (assign tests elements).get? id = some layer ↔ Placed tests elements id layer) ∧
      ((∀ element ∈ elements, '\x00' ∉ element.id.toList) →
        report.violations.Pairwise EndsBefore ∧
          ∀ violation, violation ∈ report.violations ↔
            graph.Depends violation.sourceId violation.targetId ∧
              Placed tests elements violation.sourceId violation.source ∧
              Placed tests elements violation.targetId violation.target ∧
              violation.source.level < violation.target.level) ∧
      report.layers.Pairwise (fun upper lower => lower.name.level < upper.name.level) ∧
      (∀ name, (∃ layer ∈ report.layers, layer.name = name) ↔
        ∃ id, Placed tests elements id name) ∧
      ∀ layer ∈ report.layers, Describes tests elements graph layer := by
  intro graph report
  have built : graph.Built := DependencyGraph.built_build options distinct relationships earlier
  have sorted : (crossed tests elements graph).Pairwise EndsBefore :=
    pairwise_crossed tests distinct (built.pairwise_dependenciesOf
      (DependencyGraph.sorted_nodes_build options distinct relationships earlier))
  refine ⟨get?_assign tests distinct, fun clear => ?_, pairwise_layers tests elements graph,
    exists_layer_iff distinct graph, fun layer => describes_of_mem_layers distinct built⟩
  have listed : report.violations = upward tests elements graph :=
    violations_eq_upward distinct built sorted clear
  rw [listed]
  exact ⟨sorted.filter _, fun violation => mem_upward_iff distinct built⟩

/-- A method in the layer of its class, which an element of a lower layer depends on, an import, two
elements that name each other as parents, and one whose parent is missing. -/
theorem detect_build_inherited :
    let tests : List LayerTest :=
      [⟨fun text => text == "page", .presentation⟩, ⟨fun text => text == "repo", .infrastructure⟩]
    let elements :=
      [{ Element.sketch "a" "main.ts" [] with name := "page" },
       { Element.sketch "b" "main.ts" [] with parentId := some "a" },
       { Element.sketch "c" "main.ts" [] with name := "page", kind := .importItem },
       { Element.sketch "r" "main.ts" [] with name := "repo" },
       { Element.sketch "x" "main.ts" [] with parentId := some "y" },
       { Element.sketch "y" "main.ts" [] with parentId := some "x" },
       { Element.sketch "z" "main.ts" [] with parentId := some "ghost" }]
    let relationships := [("r", "b"), ("b", "r"), ("r", "c"), ("x", "a")].map
      fun (source, target) => Relationship.sketch source .calls target
    let options : GraphOptions Rat := ⟨RelationshipKind.references, ⟨1, 2, 3⟩⟩
    let graph := DependencyGraph.build options elements relationships none
    let report := detect tests elements graph
    let violation : LayerViolation := ⟨"r", "b", .infrastructure, .presentation⟩
    DistinctIds elements ∧ (∀ element ∈ elements, '\x00' ∉ element.id.toList) ∧
      report.violations = [violation] ∧ graph.Depends "r" "b" ∧
      Placed tests elements "b" .presentation ∧
      (∀ id ∈ ["c", "x", "y", "z"], ∀ layer, ¬ Placed tests elements id layer) ∧
      ∃ layer ∈ report.layers, layer.name = .presentation := by
  intro tests elements relationships options graph report violation
  have distinct : DistinctIds elements := by decide
  have clear : ∀ element ∈ elements, '\x00' ∉ element.id.toList := by decide
  have isGraph : graph = DependencyGraph.ofSorted options elements relationships :=
    DependencyGraph.fresh_of_sorted options (by decide) relationships
  have isPlacements : placements tests elements = (assign tests elements).entries :=
    Text.sortBy_of_sorted (by decide +kernel)
  have violations : report.violations = [violation] := by
    change (detect tests elements graph).violations = _
    rw [violations_detect, upward, crossed, isPlacements, isGraph]
    decide +kernel
  obtain ⟨assigned, listed, -, inhabited, -⟩ :=
    detect_build tests distinct options relationships none
  obtain ⟨depends, -, placed, -⟩ := ((listed clear).2 violation).mp (by
    rw [show (detect tests elements graph).violations = _ from violations]
    exact List.mem_singleton_self violation)
  refine ⟨distinct, clear, violations, depends, placed, fun id member layer isPlaced => ?_,
    (inhabited .presentation).mpr ⟨"b", placed⟩⟩
  have unassigned : ∀ id ∈ ["c", "x", "y", "z"], (assign tests elements).get? id = none := by
    decide +kernel
  have found := (assigned id layer).mpr isPlaced
  rw [unassigned id member] at found
  cases found

/-- Where ids hold the separator, one key can stand for two violations: of two dependencies that
lead upwards the second takes the place of the first. -/
theorem detect_build_joined_ids :
    let tests : List LayerTest :=
      [⟨fun text => text == "page", .presentation⟩, ⟨fun text => text == "repo", .infrastructure⟩]
    let elements :=
      [("a", "repo"), ("a\x00b", "repo"), ("b\x00c", "page"), ("c", "page")].map
        fun (id, name) => { Element.sketch id "main.ts" [] with name := name }
    let relationships := [("a", "b\x00c"), ("a\x00b", "c")].map
      fun (source, target) => Relationship.sketch source .calls target
    let options : GraphOptions Rat := ⟨RelationshipKind.references, ⟨1, 2, 3⟩⟩
    let graph := DependencyGraph.build options elements relationships none
    DistinctIds elements ∧ graph.Depends "a" "b\x00c" ∧
      Placed tests elements "a" .infrastructure ∧ Placed tests elements "b\x00c" .presentation ∧
      LayerName.infrastructure.level < LayerName.presentation.level ∧
      (detect tests elements graph).violations =
        [⟨"a\x00b", "c", .infrastructure, .presentation⟩] := by
  intro tests elements relationships options graph
  have distinct : DistinctIds elements := by decide
  have built : graph.Built := DependencyGraph.built_build options distinct relationships none
  have isGraph : graph = DependencyGraph.ofSorted options elements relationships :=
    DependencyGraph.fresh_of_sorted options (by decide) relationships
  have isPlacements : placements tests elements = (assign tests elements).entries :=
    Text.sortBy_of_sorted (by decide +kernel)
  have isUpward : upward tests elements graph =
      [⟨"a", "b\x00c", .infrastructure, .presentation⟩,
       ⟨"a\x00b", "c", .infrastructure, .presentation⟩] := by
    rw [upward, crossed, isPlacements, isGraph]
    decide +kernel
  obtain ⟨depends, source, target, below⟩ := (mem_upward_iff distinct built).mp
    (isUpward ▸ List.mem_cons_self)
  refine ⟨distinct, depends, source, target, below, ?_⟩
  rw [violations_detect, isUpward]
  decide +kernel

end Layer
end CodeAtlas
