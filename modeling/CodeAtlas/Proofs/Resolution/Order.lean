import CodeAtlas.Proofs.Resolution.Unfolded

/-!
# The order of elements

Candidates are sorted by their ids, and so are the relationships of an element. What is put under
ids shows the order of elements nowhere but in the order of its entries, since references have
different ids and containments have, and a containment always takes the place of a reference. That
order is forgotten when all relationships are sorted.
-/

namespace CodeAtlas
namespace Resolution

variable {α : Type} [Scalar α] {left right : List Element}

theorem resolveElement_eq_of_perm (strengths : Strengths α) (distinct : DistinctIds left)
    (perm : left.Perm right) (source : Element) :
    resolveElement strengths (.ofElements left) source =
      resolveElement strengths (.ofElements right) source := by
  -- Between the two lists no file has changed.
  have same : SameOutside [] left right := fun element _ => perm.mem_iff
  refine resolveElement_congr strengths fun reference _ => ?_
  refine candidates_eq_of_untouched distinct (distinct.of_perm perm) same strengths source reference
    fun element _ touched => ?_
  cases touched

theorem get?_bySource_eq_of_perm (strengths : Strengths α) (distinct : DistinctIds left)
    (perm : left.Perm right) (id : String) :
    (resolve strengths left).bySource.get? id = (resolve strengths right).bySource.get? id := by
  have entries : (left.map fun element =>
      (element.id, resolveElement strengths (.ofElements left) element)).Perm
        (right.map fun element =>
          (element.id, resolveElement strengths (.ofElements right) element)) := by
    simp only [resolveElement_eq_of_perm strengths distinct perm]
    exact perm.map _
  refine Table.get?_ofList_eq_of_perm entries ?_ id
  rw [List.map_map]
  exact distinct

omit [Scalar α] in
theorem get?_byId_eq_of_perm {listed other : List (Relationship α)} (perm : listed.Perm other)
    (nodup : (listed.map Relationship.id).Nodup) (id : String) :
    (byId listed).get? id = (byId other).get? id := by
  refine Table.get?_ofList_eq_of_perm (perm.map _) ?_ id
  rw [List.map_map]
  exact nodup

theorem get?_unfolded_eq_of_perm (strengths : Strengths α) (wellNamed : WellNamed left)
    (perm : left.Perm right) (id : String) :
    (byId (unfolded strengths left)).get? id = (byId (unfolded strengths right)).get? id := by
  have references : (left.flatMap (resolveElement strengths (.ofElements left))).Perm
      (right.flatMap (resolveElement strengths (.ofElements right))) := by
    rw [funext (resolveElement_eq_of_perm strengths wellNamed.distinct perm)]
    exact perm.flatMap_right _
  have parents : (containments left : List (Relationship α)).Perm (containments right) :=
    perm.filterMap _
  rw [unfolded, unfolded, values_bySource_resolve strengths wellNamed.distinct,
    values_bySource_resolve strengths (wellNamed.distinct.of_perm perm), ← List.flatMap_def,
    ← List.flatMap_def, get?_byId_append, get?_byId_append,
    get?_byId_eq_of_perm parents (nodup_ids_containments wellNamed),
    get?_byId_eq_of_perm references (nodup_ids_flatMap_resolveElement wellNamed strengths)]

theorem fold?_eq_of_get? {all other : Table String (Relationship α)}
    (same : ∀ id, all.get? id = other.get? id) : fold? all = fold? other := by
  funext relationship
  rw [fold?, fold?, same]

theorem relationships_eq_of_perm (strengths : Strengths α) (wellNamed : WellNamed left)
    (perm : left.Perm right) :
    (resolve strengths left).relationships = (resolve strengths right).relationships := by
  have same := get?_unfolded_eq_of_perm strengths wellNamed perm
  have values : (byId (unfolded strengths left)).values.Perm
      (byId (unfolded strengths right)).values :=
    ((Table.distinct_ofList _).perm_entries (Table.distinct_ofList _) same).map Prod.snd
  have folded : ((byId (unfolded strengths left)).values.filterMap
      (fold? (byId (unfolded strengths left)))).Perm
        ((byId (unfolded strengths right)).values.filterMap
          (fold? (byId (unfolded strengths right)))) := by
    rw [fold?_eq_of_get? same]
    exact values.filterMap _
  have sorted := Text.sortBy_perm Relationship.id ((byId (unfolded strengths left)).values.filterMap
    (fold? (byId (unfolded strengths left))))
  have nodup := (sorted.map Relationship.id).nodup_iff.mp (nodup_ids_resolve strengths left)
  exact Text.sortBy_eq_of_perm folded fun first isFirst second isSecond sameId =>
    List.inj_on_of_nodup_map nodup isFirst isSecond sameId

/-- The order of elements does not show in what they are resolved to. -/
theorem resolve_eq_of_perm (strengths : Strengths α) (wellNamed : WellNamed left)
    (perm : left.Perm right) :
    (resolve strengths left).relationships = (resolve strengths right).relationships ∧
      (resolve strengths left).externals = (resolve strengths right).externals ∧
      ∀ id, (resolve strengths left).bySource.get? id =
        (resolve strengths right).bySource.get? id := by
  have relationships := relationships_eq_of_perm strengths wellNamed perm
  exact ⟨relationships, congrArg stubs relationships,
    get?_bySource_eq_of_perm strengths wellNamed.distinct perm⟩

/-- Two classes that refer to each other and one that calls a method by a name both have, in two
orders. -/
theorem resolve_eq_of_perm_turned :
    let part (id : String) (references : List Reference) : Element :=
      { Element.sketch id "a.ts" references with kind := .classType, name := "part" }
    let left := part "a" [⟨.associates, "b", 2⟩]
    let right := part "b" [⟨.associates, "a", 6⟩]
    let user := Element.sketch "c" "c.ts" [⟨.uses, "part", 1⟩, ⟨.calls, "log|all", 2⟩]
    let elements := [left, right, user]
    let strengths : Strengths Rat := ⟨1, 4 / 5, 1 / 2⟩
    WellNamed elements ∧ elements.Perm elements.reverse ∧ elements.reverse ≠ elements ∧
      (resolve strengths elements).relationships =
        (resolve strengths elements.reverse).relationships ∧
      (resolve strengths elements).externals = (resolve strengths elements.reverse).externals := by
  intro part left right user elements strengths
  have wellNamed : WellNamed elements := by
    refine ⟨by decide, ?_, ?_⟩ <;>
    · intro element member
      simp only [elements, List.mem_cons, List.not_mem_nil, or_false] at member
      rcases member with rfl | rfl | rfl <;> decide
  have perm : elements.Perm elements.reverse := (List.reverse_perm elements).symm
  have turned : elements.reverse ≠ elements := by
    intro same
    have ids := congrArg (List.map Element.id) same
    exact absurd ids (by decide)
  obtain ⟨relationships, externals, -⟩ := resolve_eq_of_perm strengths wellNamed perm
  exact ⟨wellNamed, perm, turned, relationships, externals⟩

end Resolution
end CodeAtlas
