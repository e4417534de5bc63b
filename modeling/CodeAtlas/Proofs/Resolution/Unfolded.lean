import CodeAtlas.Proofs.Resolution.Merging

/-!
# Relationships before folding

Before mutual associations are folded, the relationships of all elements and the containments are
put under their ids. If ids of elements hold no separator then references have different ids and so
have containments; if ids of parents hold none either, then all ids are different and nothing is put
in the place of anything else.
-/

namespace CodeAtlas
namespace Resolution

/-- Ids of elements are distinct, hold no separator of ids of relationships and do not look like ids
of stubs. -/
structure WellNamed (elements : List Element) : Prop where
  /-- No two elements have one id. -/
  distinct : DistinctIds elements
  /-- No id holds the separator. -/
  undivided : ∀ element ∈ elements, Undivided element.id
  /-- No id is one of a stub. -/
  inside : ∀ element ∈ elements, Text.startsWith element.id externalBeginning = false

variable {α : Type} [Scalar α]

/-- The relationships of each element and the containments. -/
def unfolded (strengths : Strengths α) (elements : List Element) : List (Relationship α) :=
  (resolve strengths elements).bySource.values.flatten ++ containments elements

theorem values_bySource_resolve (strengths : Strengths α) {elements : List Element}
    (distinct : DistinctIds elements) :
    (resolve strengths elements).bySource.values =
      elements.map (resolveElement strengths (.ofElements elements)) := by
  have ids : ((elements.map fun element =>
      (element.id, resolveElement strengths (.ofElements elements) element)).map
        Prod.fst).Nodup := by
    rw [List.map_map]
    exact distinct
  rw [Table.values, resolve, assemble, Table.ofList_entries_of_nodup ids, List.map_map]
  rfl

/-! ## Relationships under their ids -/

section ById

omit [Scalar α]

theorem get?_byId_append (left right : List (Relationship α)) (id : String) :
    (byId (left ++ right)).get? id = ((byId right).get? id).or ((byId left).get? id) := by
  simp only [byId, Table.ofList, Table.get?_putAll, Table.get?_empty, Option.or_none,
    List.map_append, List.reverse_append, List.find?_append, Option.map_or]

variable {listed : List (Relationship α)} (nodup : (listed.map Relationship.id).Nodup)

include nodup

theorem values_byId : (byId listed).values = listed := by
  have ids : ((listed.map fun relationship => (relationship.id, relationship)).map
      Prod.fst).Nodup := by
    rw [List.map_map]
    exact nodup
  rw [Table.values, byId, Table.ofList_entries_of_nodup ids, List.map_map]
  exact List.map_id _

theorem get?_byId_iff {id : String} {relationship : Relationship α} :
    (byId listed).get? id = some relationship ↔ relationship ∈ listed ∧ relationship.id = id := by
  constructor
  · intro found
    obtain ⟨same, member⟩ := get?_byId_eq_some found
    exact ⟨member, same.symm⟩
  · rintro ⟨member, rfl⟩
    apply Table.get?_ofList_of_mem
    · rw [List.map_map]
      exact nodup
    · exact List.mem_map_of_mem member

end ById

/-! ## Where relationships lead -/

/-- A relationship that stands for references of an element. -/
structure FromReferences (elements : List Element) (source : Element)
    (relationship : Relationship α) : Prop where
  /-- It starts from the element. -/
  source : relationship.sourceId = source.id
  /-- It is no containment. -/
  kind : ∃ kind, relationship.kind = .reference kind
  /-- It leads to an element or out of the code base. -/
  target : IsTarget elements relationship.targetId
  /-- It has one direction. -/
  directed : relationship.bidirectional = false

theorem fromReferences_of_mem {strengths : Strengths α} {elements : List Element}
    {source : Element} {relationship : Relationship α}
    (member : relationship ∈ resolveElement strengths (.ofElements elements) source) :
    FromReferences elements source relationship := by
  obtain ⟨kind, target, found⟩ := mem_resolveElement_iff.mp member
  have merged := merged_of_get? found
  obtain ⟨entry, isFirst, ofKind, targetId, -⟩ := merged.first
  have isMention := (List.mem_filter.mp (List.mem_of_mem_head? isFirst)).1
  obtain ⟨reference, _, isEntry⟩ := List.mem_flatMap.mp isMention
  obtain ⟨candidate, isCandidate, rfl⟩ := List.mem_map.mp isEntry
  refine ⟨merged.source, ⟨_, ofKind⟩, ?_, merged.directed⟩
  rw [targetId]
  exact isTarget_of_mem_candidates isCandidate

theorem mem_containments {elements : List Element} {relationship : Relationship α} :
    relationship ∈ containments elements ↔
      ∃ element ∈ elements, ∃ parent, element.parentId = some parent ∧
        containment parent element.id = relationship := by
  simp only [containments, List.mem_filterMap, Option.map_eq_some_iff]

theorem mem_unfolded {strengths : Strengths α} {elements : List Element}
    (distinct : DistinctIds elements) {relationship : Relationship α} :
    relationship ∈ unfolded strengths elements ↔
      (∃ source ∈ elements, relationship ∈ resolveElement strengths (.ofElements elements) source) ∨
        relationship ∈ containments elements := by
  rw [unfolded, values_bySource_resolve strengths distinct, ← List.flatMap_def, List.mem_append,
    List.mem_flatMap]

theorem exists_mem_unfolded (strengths : Strengths Rat) {elements : List Element}
    (distinct : DistinctIds elements) (undivided : UndividedModules elements) {source : Element}
    (isSource : source ∈ elements)
    {reference : Reference} (isReference : reference ∈ source.references) {target : String}
    (means : Means elements source reference target) :
    ∃ relationship ∈ unfolded strengths elements, relationship.sourceId = source.id ∧
      relationship.kind = .reference reference.kind ∧ relationship.targetId = target := by
  obtain ⟨relationship, found⟩ := (exists_get?_iff (undivided.cons isSource) strengths distinct).mpr
    ⟨reference, isReference, rfl, means⟩
  have stands := standsFor_of_get? (undivided.cons isSource) distinct found
  refine ⟨relationship, (mem_unfolded distinct).mpr (.inl ⟨source, isSource, ?_⟩), stands.sourceId,
    stands.ofKind, stands.targetId⟩
  exact mem_resolveElement_iff.mpr ⟨_, _, found⟩

/-! ## Different ids -/

theorem targetIds_containments_sublist (elements : List Element) :
    ((containments elements : List (Relationship α)).map Relationship.targetId).Sublist
      (elements.map Element.id) := by
  induction elements with
  | nil => exact .slnil
  | cons element elements induction =>
    rw [containments, List.filterMap_cons]
    cases element.parentId with
    | none => exact induction.cons _
    | some parent => exact induction.cons_cons _

section Ids

variable {elements : List Element} (wellNamed : WellNamed elements)

include wellNamed

theorem nodup_ids_flatMap_resolveElement (strengths : Strengths α) :
    ((elements.flatMap (resolveElement strengths (.ofElements elements))).map
      Relationship.id).Nodup := by
  rw [List.map_flatMap, List.nodup_flatMap]
  refine ⟨fun source _ => nodup_ids_resolveElement strengths (.ofElements elements) source, ?_⟩
  refine (List.pairwise_map.mp wellNamed.distinct).imp_of_mem
    fun {left right} isLeft isRight different => ?_
  rintro id fromLeft fromRight
  obtain ⟨first, isFirst, rfl⟩ := List.mem_map.mp fromLeft
  obtain ⟨second, isSecond, sameId⟩ := List.mem_map.mp fromRight
  rw [Relationship.id, Relationship.id, (fromReferences_of_mem isFirst).source,
    (fromReferences_of_mem isSecond).source] at sameId
  exact different (Relationship.idOf_inj (wellNamed.undivided right isRight)
    (wellNamed.undivided left isLeft) sameId).1.symm

theorem nodup_ids_containments :
    ((containments elements : List (Relationship α)).map Relationship.id).Nodup := by
  have targets :
      ((containments elements : List (Relationship α)).map Relationship.targetId).Nodup :=
    wellNamed.distinct.sublist (targetIds_containments_sublist elements)
  refine List.pairwise_map.mpr ((List.pairwise_map.mp targets).imp_of_mem
    fun {left right} isLeft isRight different sameId => different ?_)
  obtain ⟨child, isChild, parent, _, rfl⟩ := mem_containments.mp isLeft
  obtain ⟨other, isOther, otherParent, _, rfl⟩ := mem_containments.mp isRight
  exact (Relationship.idOf_inj_of_target (wellNamed.undivided child isChild)
    (wellNamed.undivided other isOther) sameId).2.2

theorem nodup_ids_unfolded (strengths : Strengths α)
    (parents : ∀ element ∈ elements, ∀ parent, element.parentId = some parent →
      Undivided parent) :
    ((unfolded strengths elements).map Relationship.id).Nodup := by
  rw [unfolded, values_bySource_resolve strengths wellNamed.distinct, ← List.flatMap_def,
    List.map_append]
  refine (nodup_ids_flatMap_resolveElement wellNamed strengths).append
    (nodup_ids_containments wellNamed) fun id fromReference fromParent => ?_
  obtain ⟨reference, isReference, rfl⟩ := List.mem_map.mp fromReference
  obtain ⟨other, isOther, sameId⟩ := List.mem_map.mp fromParent
  obtain ⟨source, isSource, isReference⟩ := List.mem_flatMap.mp isReference
  obtain ⟨child, isChild, parent, isParent, rfl⟩ := mem_containments.mp isOther
  have fromReferences := fromReferences_of_mem isReference
  obtain ⟨kind, isKind⟩ := fromReferences.kind
  rw [Relationship.id, Relationship.id, fromReferences.source, isKind] at sameId
  have kinds := (Relationship.idOf_inj (parents child isChild parent isParent)
    (wellNamed.undivided source isSource) sameId).2.1
  cases kinds

end Ids

end Resolution
end CodeAtlas
