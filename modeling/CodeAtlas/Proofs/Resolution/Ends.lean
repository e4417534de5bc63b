import CodeAtlas.Proofs.Graph.Integrity
import CodeAtlas.Proofs.Resolution.Lookup
import CodeAtlas.Resolution.Basic
import Mathlib.Algebra.Order.Field.Basic
import Mathlib.Data.Rat.Cast.Order
import Mathlib.Tactic.NormNum

/-!
# The ends of relationships

Relationships of one id are merged and mutual associations folded before stubs are made for the
targets outside the code base. All along a relationship keeps its id and its ends, so that each of
them leads from an element to an element or to a stub, and the graph of elements and stubs has an
edge for every relationship.
-/

namespace CodeAtlas
namespace Resolution

variable {α : Type} [Scalar α]

/-! ## What merging and folding keep -/

theorem distinct_foldl_mention (source : Element) (mentioned : List (Reference × Candidate α))
    {found : Table String (Relationship α)} (distinct : found.Distinct) :
    (mentioned.foldl (mention source) found).Distinct := by
  induction mentioned generalizing found with
  | nil => exact distinct
  | cons entry mentioned induction => exact induction (distinct.update _ _)

/-- What holds of a first mention and is kept by further ones holds of the relationships of an
element. -/
theorem forall_mem_resolveElement {property : Relationship α → Prop} {strengths : Strengths α}
    {symbols : Symbols} {source : Element}
    (atFirst : ∀ entry ∈ mentions strengths symbols source,
      property (first source entry.1 entry.2))
    (atAgain : ∀ entry ∈ mentions strengths symbols source, ∀ existing, property existing →
      property (again existing entry.2)) :
    ∀ relationship ∈ resolveElement strengths symbols source, property relationship := by
  have along (mentioned : List (Reference × Candidate α)) (found : Table String (Relationship α))
      (given : mentioned ⊆ mentions strengths symbols source)
      (held : ∀ key relationship, found.get? key = some relationship → property relationship) :
      ∀ key relationship, (mentioned.foldl (mention source) found).get? key = some relationship →
        property relationship := by
    induction mentioned generalizing found with
    | nil => exact held
    | cons entry mentioned induction =>
      have isMention := given List.mem_cons_self
      refine induction _ (List.subset_of_cons_subset given) fun key relationship isFound => ?_
      rw [mention, Table.get?_update] at isFound
      split at isFound
      case isFalse => exact held key relationship isFound
      case isTrue =>
        rw [← Option.some.inj isFound]
        split
        case h_1 existing isExisting =>
          exact atAgain entry isMention existing (held _ existing isExisting)
        case h_2 => exact atFirst entry isMention
  intro relationship member
  rw [resolveElement, Text.mem_sortBy,
    (distinct_foldl_mention source _ Table.distinct_empty).mem_values] at member
  obtain ⟨key, isFound⟩ := member
  exact along _ Table.empty (List.Subset.refl _) (by simp) key relationship isFound

omit [Scalar α] in
theorem get?_byId_eq_some {relationships : List (Relationship α)} {key : String}
    {relationship : Relationship α} (found : (byId relationships).get? key = some relationship) :
    key = relationship.id ∧ relationship ∈ relationships := by
  obtain ⟨other, isOther, same⟩ := List.mem_map.mp (Table.mem_of_get?_ofList found)
  cases same
  exact ⟨rfl, isOther⟩

/-- A relationship that stays when associations are folded is itself or is merged with another. -/
theorem fold?_eq_some {all : Table String (Relationship α)} {relationship folded : Relationship α}
    (stays : fold? all relationship = some folded) :
    folded = relationship ∨
      ∃ key opposite, all.get? key = some opposite ∧ folded = merge relationship opposite := by
  unfold fold? at stays
  split at stays
  · exact .inl (Option.some.inj stays).symm
  · split at stays
    · exact .inl (Option.some.inj stays).symm
    case h_2 opposite isOpposite =>
      split at stays
      · cases stays
      · exact .inr ⟨_, opposite, isOpposite, (Option.some.inj stays).symm⟩

theorem id_of_fold? {all : Table String (Relationship α)} {relationship folded : Relationship α}
    (stays : fold? all relationship = some folded) : folded.id = relationship.id := by
  rcases fold?_eq_some stays with rfl | ⟨key, opposite, _, rfl⟩ <;> rfl

theorem ids_folded_sublist (all : Table String (Relationship α))
    (relationships : List (Relationship α)) :
    ((relationships.filterMap (fold? all)).map Relationship.id).Sublist
      (relationships.map Relationship.id) := by
  induction relationships with
  | nil => exact .slnil
  | cons relationship relationships induction =>
    cases stays : fold? all relationship with
    | none =>
      rw [List.filterMap_cons_none stays]
      exact induction.cons _
    | some folded =>
      rw [List.filterMap_cons_some stays, List.map_cons, List.map_cons, id_of_fold? stays]
      exact induction.cons_cons _

theorem nodup_ids_assemble (elements : List Element)
    (bySource : Table String (List (Relationship α))) :
    ((assemble elements bySource).relationships.map Relationship.id).Nodup := by
  let all := byId (bySource.values.flatten ++ containments elements)
  have distinct : all.Distinct := Table.distinct_ofList _
  have keys : all.values.map Relationship.id = all.keys := by
    rw [Table.values, Table.keys, List.map_map]
    refine List.map_congr_left fun entry member => ?_
    exact (get?_byId_eq_some (distinct.get?_eq_some_iff.mpr member)).1.symm
  have nodup : (all.values.map Relationship.id).Nodup := keys ▸ distinct
  have folded := nodup.sublist (ids_folded_sublist all all.values)
  exact ((Text.sortBy_perm Relationship.id _).map Relationship.id).nodup_iff.mpr folded

theorem nodup_ids_resolve (strengths : Strengths α) (elements : List Element) :
    ((resolve strengths elements).relationships.map Relationship.id).Nodup :=
  nodup_ids_assemble elements _

/-- What holds of all that is put together and is kept by merging holds of what is assembled. -/
theorem forall_mem_assemble {property : Relationship α → Prop} {elements : List Element}
    {bySource : Table String (List (Relationship α))}
    (ofSources : ∀ found ∈ bySource.values, ∀ relationship ∈ found, property relationship)
    (ofParents : ∀ relationship ∈ containments elements, property relationship)
    (merged : ∀ forward backward, property forward → property backward →
      property (merge forward backward)) :
    ∀ relationship ∈ (assemble elements bySource).relationships, property relationship := by
  have given (key : String) (relationship : Relationship α)
      (found : (byId (bySource.values.flatten ++ containments elements)).get? key =
        some relationship) : property relationship := by
    rcases List.mem_append.mp (get?_byId_eq_some found).2 with ofSource | ofParent
    · obtain ⟨found, isFound, member⟩ := List.mem_flatten.mp ofSource
      exact ofSources found isFound relationship member
    · exact ofParents relationship ofParent
  intro folded member
  obtain ⟨relationship, isValue, stays⟩ :=
    List.mem_filterMap.mp (Text.mem_sortBy.mp member)
  obtain ⟨key, isFound⟩ := (Table.distinct_ofList _).mem_values.mp isValue
  rcases fold?_eq_some stays with rfl | ⟨other, opposite, isOpposite, rfl⟩
  · exact given key folded isFound
  · exact merged relationship opposite (given key relationship isFound)
      (given other opposite isOpposite)

/-! ## Stubs -/

omit [Scalar α] in
theorem ids_stubs_perm (relationships : List (Relationship α)) :
    ((stubs relationships).map Element.id).Perm
      (Table.group Relationship.targetId (relationships.filter fun relationship =>
        Text.startsWith relationship.targetId externalBeginning)).keys := by
  refine ((Text.sortBy_perm Element.id _).map Element.id).trans ?_
  rw [List.map_map, Table.keys]
  exact .refl _

omit [Scalar α] in
theorem distinctIds_stubs (relationships : List (Relationship α)) :
    DistinctIds (stubs relationships) :=
  (ids_stubs_perm relationships).nodup_iff.mpr (Table.distinct_group _ _)

omit [Scalar α] in
theorem mem_ids_stubs {relationships : List (Relationship α)} {id : String} :
    id ∈ (stubs relationships).map Element.id ↔
      Text.startsWith id externalBeginning ∧
        ∃ relationship ∈ relationships, relationship.targetId = id := by
  rw [(ids_stubs_perm relationships).mem_iff, ← not_iff_not, ← Table.get?_eq_none_iff,
    Table.get?_group]
  simp only [ite_eq_left_iff, reduceCtorEq, imp_false, not_not, List.filter_eq_nil_iff,
    List.mem_filter, decide_eq_true_eq, not_and, not_exists]
  constructor
  · rintro none starts relationship member rfl
    exact none relationship ⟨member, starts⟩ rfl
  · rintro none relationship ⟨member, starts⟩ rfl
    exact none starts relationship member rfl

/-! ## Relationships between elements and stubs -/

/-- Strengths above zero and at most one. -/
structure Strengths.Proper (strengths : Strengths Rat) : Prop where
  /-- For a match by qualified name. -/
  exact : 0 < strengths.exact ∧ strengths.exact ≤ 1
  /-- For a match in the same module. -/
  sameModule : 0 < strengths.sameModule ∧ strengths.sameModule ≤ 1
  /-- For a match by the last segment alone. -/
  heuristic : 0 < strengths.heuristic ∧ strengths.heuristic ≤ 1

/-- An element or something outside the code base. -/
def IsTarget (elements : List Element) (id : String) : Prop :=
  id ∈ elements.map Element.id ∨ Text.startsWith id externalBeginning

/-- A relationship from an element to an element or a stub, with a strength above zero and at most
one. -/
structure Anchored (elements : List Element) (relationship : Relationship Rat) : Prop where
  /-- It starts from an element. -/
  source : relationship.sourceId ∈ elements.map Element.id
  /-- It leads to an element or out of the code base. -/
  target : IsTarget elements relationship.targetId
  /-- Its strength is positive. -/
  positive : 0 < relationship.strength
  /-- Its strength is at most one. -/
  atMostOne : relationship.strength ≤ 1

omit [Scalar α] in
theorem mem_of_mem_sameModuleMatches {elements : List Element} {moduleName : String}
    {reference : Reference} {element : Element}
    (member : element ∈ sameModuleMatches (.ofElements elements) moduleName reference) :
    element ∈ elements := by
  rw [sameModuleMatches_eq_of_key] at member
  split at member
  · cases member
  · exact (mem_suitable.mp member).1

/-- A candidate is an element or stands for something outside the code base. -/
theorem isTarget_of_mem_candidates {strengths : Strengths α} {elements : List Element}
    {source : Element} {reference : Reference} {candidate : Candidate α}
    (member : candidate ∈ candidates strengths (.ofElements elements) source reference) :
    IsTarget elements candidate.targetId := by
  have ofShared {level : ResolutionLevel} {strength : α} {found : List Element}
      (isShared : candidate ∈ share level strength found)
      (inside : ∀ element ∈ found, element ∈ elements) : IsTarget elements candidate.targetId := by
    obtain ⟨element, isFound, rfl⟩ := List.mem_map.mp isShared
    exact .inl (List.mem_map_of_mem (inside element isFound))
  unfold candidates at member
  dsimp only at member
  split at member
  · rw [exactMatches_eq] at member
    exact ofShared member fun _ isFound => (mem_suitable.mp isFound).1
  · split at member
    · exact ofShared member fun _ isFound => mem_of_mem_sameModuleMatches isFound
    · split at member
      · rw [namedMatches_eq] at member
        exact ofShared member fun _ isFound => (mem_suitable.mp isFound).1
      · rw [List.mem_singleton] at member
        subst member
        exact .inr (Text.startsWith_append _ _)

/-- Elements found together have equal parts of a strength. -/
theorem strength_of_mem_share {level : ResolutionLevel} {strength : Rat} {found : List Element}
    {candidate : Candidate Rat} (member : candidate ∈ share level strength found)
    (proper : 0 < strength ∧ strength ≤ 1) : 0 < candidate.strength ∧ candidate.strength ≤ 1 := by
  obtain ⟨element, isFound, rfl⟩ := List.mem_map.mp member
  have count : (1 : Rat) ≤ found.length := by
    exact_mod_cast List.length_pos_of_mem isFound
  have divided : strength / (found.length : Rat) ≤ strength :=
    div_le_self proper.1.le count
  exact ⟨div_pos proper.1 (one_pos.trans_le count), divided.trans proper.2⟩

theorem strength_of_mem_candidates {strengths : Strengths Rat} (proper : strengths.Proper)
    {symbols : Symbols} {source : Element} {reference : Reference} {candidate : Candidate Rat}
    (member : candidate ∈ candidates strengths symbols source reference) :
    0 < candidate.strength ∧ candidate.strength ≤ 1 := by
  unfold candidates at member
  dsimp only at member
  split at member
  · exact strength_of_mem_share member proper.exact
  · split at member
    · exact strength_of_mem_share member proper.sameModule
    · split at member
      · exact strength_of_mem_share member proper.heuristic
      · rw [List.mem_singleton] at member
        subst member
        exact proper.heuristic

theorem anchored_first {elements : List Element} {source : Element}
    (isSource : source ∈ elements) (reference : Reference) {candidate : Candidate Rat}
    (target : IsTarget elements candidate.targetId)
    (strength : 0 < candidate.strength ∧ candidate.strength ≤ 1) :
    Anchored elements (first source reference candidate) :=
  ⟨List.mem_map_of_mem isSource, target, strength.1, strength.2⟩

theorem Anchored.again {elements : List Element} {existing : Relationship Rat}
    (anchored : Anchored elements existing) {candidate : Candidate Rat}
    (strength : 0 < candidate.strength ∧ candidate.strength ≤ 1) :
    Anchored elements (Resolution.again existing candidate) := by
  unfold Resolution.again
  dsimp only
  split
  · exact ⟨anchored.source, anchored.target, strength.1, strength.2⟩
  · exact ⟨anchored.source, anchored.target, anchored.positive, anchored.atMostOne⟩

theorem Anchored.merge {elements : List Element} {forward backward : Relationship Rat}
    (there : Anchored elements forward) (back : Anchored elements backward) :
    Anchored elements (Resolution.merge forward backward) := by
  refine ⟨there.source, there.target, ?_, ?_⟩
  all_goals
    simp only [Resolution.merge, Scalar.max]
    split
  · exact back.positive
  · exact there.positive
  · exact back.atMostOne
  · exact there.atMostOne

theorem anchored_resolveElement {strengths : Strengths Rat} (proper : strengths.Proper)
    {elements : List Element} {source : Element} (isSource : source ∈ elements) :
    ∀ relationship ∈ resolveElement strengths (.ofElements elements) source,
      Anchored elements relationship := by
  have placed (entry : Reference × Candidate Rat)
      (isMention : entry ∈ mentions strengths (.ofElements elements) source) :
      IsTarget elements entry.2.targetId ∧ 0 < entry.2.strength ∧ entry.2.strength ≤ 1 := by
    obtain ⟨reference, _, isEntry⟩ := List.mem_flatMap.mp isMention
    obtain ⟨candidate, isCandidate, rfl⟩ := List.mem_map.mp isEntry
    exact ⟨isTarget_of_mem_candidates isCandidate, strength_of_mem_candidates proper isCandidate⟩
  refine forall_mem_resolveElement (fun entry isMention => ?_) fun entry isMention _ anchored => ?_
  · exact anchored_first isSource entry.1 (placed entry isMention).1 (placed entry isMention).2
  · exact anchored.again (placed entry isMention).2

theorem anchored_containments {elements : List Element}
    (parents : ∀ element ∈ elements, ∀ parent, element.parentId = some parent →
      parent ∈ elements.map Element.id) :
    ∀ relationship ∈ containments elements, Anchored elements relationship := by
  intro relationship member
  obtain ⟨element, isElement, isParent⟩ := List.mem_filterMap.mp member
  obtain ⟨parent, hasParent, rfl⟩ := Option.map_eq_some_iff.mp isParent
  have sure : (containment parent element.id : Relationship Rat).strength = 1 := Nat.cast_one
  exact ⟨parents element isElement parent hasParent, .inl (List.mem_map_of_mem isElement),
    sure ▸ one_pos, sure.le⟩

theorem anchored_resolve {strengths : Strengths Rat} (proper : strengths.Proper)
    {elements : List Element}
    (parents : ∀ element ∈ elements, ∀ parent, element.parentId = some parent →
      parent ∈ elements.map Element.id) :
    ∀ relationship ∈ (resolve strengths elements).relationships,
      Anchored elements relationship := by
  refine forall_mem_assemble (fun found isFound => ?_) (anchored_containments parents)
    fun forward backward there back => there.merge back
  obtain ⟨id, isEntry⟩ := (Table.distinct_ofList _).mem_values.mp isFound
  obtain ⟨element, isElement, same⟩ := List.mem_map.mp (Table.mem_of_get?_ofList isEntry)
  cases same
  exact anchored_resolveElement proper isElement

/-- A resolution in which every relationship leads from an element to an element or to the one stub
that stands for its target. -/
structure Closed (elements : List Element) (resolution : Resolution Rat) : Prop where
  /-- Relationships are in the strict order of their ids. -/
  sorted : resolution.relationships.Pairwise fun left right => Text.before left.id right.id
  /-- Strengths are above zero and at most one. -/
  strength : ∀ relationship ∈ resolution.relationships,
    0 < relationship.strength ∧ relationship.strength ≤ 1
  /-- Relationships start from elements. -/
  source : ∀ relationship ∈ resolution.relationships,
    relationship.sourceId ∈ elements.map Element.id
  /-- Relationships lead to elements, or to exactly one stub. -/
  target : ∀ relationship ∈ resolution.relationships,
    relationship.targetId ∈ elements.map Element.id ∨
      ∃! stub, stub ∈ resolution.externals ∧ stub.id = relationship.targetId
  /-- To each stub leads a relationship. -/
  needed : ∀ stub ∈ resolution.externals, ∃ relationship ∈ resolution.relationships,
    relationship.targetId = stub.id
  /-- The ids of elements and stubs are distinct. -/
  distinct : DistinctIds (elements ++ resolution.externals)

theorem closed_resolve {strengths : Strengths Rat} (proper : strengths.Proper)
    {elements : List Element} (distinct : DistinctIds elements)
    (inside : ∀ element ∈ elements, Text.startsWith element.id externalBeginning = false)
    (parents : ∀ element ∈ elements, ∀ parent, element.parentId = some parent →
      parent ∈ elements.map Element.id) :
    Closed elements (resolve strengths elements) where
  sorted := by
    have sorted : ((resolve strengths elements).relationships.map Relationship.id).Pairwise
        fun left right => Text.notAfter left right :=
      List.pairwise_map.mpr (Text.pairwise_sortBy Relationship.id _)
    have strict := Text.pairwise_before sorted (nodup_ids_resolve strengths elements)
    rwa [List.pairwise_map] at strict
  strength relationship member :=
    let anchored := anchored_resolve proper parents relationship member
    ⟨anchored.positive, anchored.atMostOne⟩
  source relationship member := (anchored_resolve proper parents relationship member).source
  target relationship member := by
    refine (anchored_resolve proper parents relationship member).target.imp_right fun outside => ?_
    obtain ⟨stub, isStub, sameId⟩ :=
      List.mem_map.mp (mem_ids_stubs.mpr ⟨outside, relationship, member, rfl⟩)
    refine ⟨stub, ⟨isStub, sameId⟩, fun other isOther => ?_⟩
    exact (distinctIds_stubs _).eq_of_id_eq isOther.1 isStub (isOther.2.trans sameId.symm)
  needed stub isStub := (mem_ids_stubs.mp (List.mem_map_of_mem isStub)).2
  distinct := by
    unfold DistinctIds
    rw [List.map_append]
    refine distinct.append (distinctIds_stubs _) fun id isElement isStub => ?_
    obtain ⟨element, member, rfl⟩ := List.mem_map.mp isElement
    have outside := (mem_ids_stubs.mp isStub).1
    rw [inside element member] at outside
    cases outside

/-- The relationships of elements whose parents are there lead from elements to elements and stubs,
in the strict order of their ids and with strengths above zero and at most one. So the graph of
elements and stubs reports nothing and holds every relationship. -/
theorem resolved_graph_holds {strengths : Strengths Rat} (proper : strengths.Proper)
    {elements : List Element} (distinct : DistinctIds elements)
    (inside : ∀ element ∈ elements, Text.startsWith element.id externalBeginning = false)
    (parents : ∀ element ∈ elements, ∀ parent, element.parentId = some parent →
      parent ∈ elements.map Element.id) :
    let resolution := resolve strengths elements
    let nodes := elements ++ resolution.externals
    Closed elements resolution ∧
      DependencyGraph.diagnostics nodes resolution.relationships = [] ∧
      ∀ options earlier, ∀ relationship ∈ resolution.relationships,
        (DependencyGraph.build options nodes resolution.relationships earlier).Holds
          relationship := by
  intro resolution nodes
  have closed := closed_resolve proper distinct inside parents
  refine ⟨closed, DependencyGraph.holds_of_ends (nodup_ids_resolve strengths elements) ?_ ?_⟩
  · intro relationship member
    exact List.map_append ▸ List.mem_append_left _ (closed.source relationship member)
  · intro relationship member
    rw [List.map_append, List.mem_append]
    refine (closed.target relationship member).imp_right ?_
    rintro ⟨stub, ⟨isStub, sameId⟩, _⟩
    exact sameId ▸ List.mem_map_of_mem isStub

/-- Two classes in one module that refer to each other, one of which also calls something outside
the code base. -/
theorem resolved_graph_holds_mutual :
    let part (id : String) (parentId : Option String) (references : List Reference) : Element :=
      { Element.sketch id "a.ts" references with kind := .classType, parentId := parentId }
    let elements := [part "m" none [],
      part "m.a" (some "m") [⟨.associates, "m.b", 2⟩, ⟨.calls, "log|all", 3⟩],
      part "m.b" (some "m") [⟨.associates, "m.a", 6⟩, ⟨.associates, "m.a", 7⟩]]
    let strengths : Strengths Rat := ⟨1, 4 / 5, 1 / 2⟩
    let resolution := resolve strengths elements
    strengths.Proper ∧ DistinctIds elements ∧
      (∀ element ∈ elements, Text.startsWith element.id externalBeginning = false) ∧
      (∀ element ∈ elements, ∀ parent, element.parentId = some parent →
        parent ∈ elements.map Element.id) ∧
      Closed elements resolution ∧
      DependencyGraph.diagnostics (elements ++ resolution.externals)
        resolution.relationships = [] := by
  intro part elements strengths resolution
  have proper : strengths.Proper :=
    ⟨by norm_num [strengths], by norm_num [strengths], by norm_num [strengths]⟩
  have distinct : DistinctIds elements := by decide
  have inside : ∀ element ∈ elements, Text.startsWith element.id externalBeginning = false := by
    intro element member
    simp only [elements, List.mem_cons, List.not_mem_nil, or_false] at member
    rcases member with rfl | rfl | rfl <;> decide
  have parents : ∀ element ∈ elements, ∀ parent, element.parentId = some parent →
      parent ∈ elements.map Element.id := by
    intro element member parent isParent
    simp only [elements, List.mem_cons, List.not_mem_nil, or_false] at member
    rcases member with rfl | rfl | rfl <;> cases isParent <;> decide
  obtain ⟨closed, unreported, -⟩ := resolved_graph_holds proper distinct inside parents
  exact ⟨proper, distinct, inside, parents, closed, unreported⟩

end Resolution
end CodeAtlas
