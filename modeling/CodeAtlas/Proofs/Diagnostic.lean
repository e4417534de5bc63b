import CodeAtlas.Diagnostic
import CodeAtlas.Proofs.Text.Order

/-!
# The order of diagnostics

Each key is compared by a total preorder, a missing key standing first, and so are diagnostics,
which compare their keys one after another. Sorting therefore orders every list, keeps the given
order of diagnostics that compare as equal, and forgets it where none do.
-/

namespace CodeAtlas
namespace Diagnostic

instance {α : Type} (compare : α → α → Ordering) [Std.TransCmp compare] :
    Std.TransCmp (compareOptional compare) where
  eq_swap {left right} := by
    cases left with
    | none => cases right <;> rfl
    | some left =>
      cases right with
      | none => rfl
      | some right =>
        have swapped : compare left right = (compare right left).swap := Std.OrientedCmp.eq_swap
        exact swapped
  isLE_trans {first second third} lower upper := by
    cases first with
    | none => cases third <;> rfl
    | some first =>
      cases second with
      | none => cases lower
      | some second =>
        cases third with
        | none => cases upper
        | some third =>
          have ordered : (compare first third).isLE := Std.TransCmp.isLE_trans lower upper
          exact ordered

instance {α : Type} (compare : α → α → Ordering) [Std.TransCmp compare]
    (key : Diagnostic → Option α) :
    Std.TransCmp fun left right => compareOptional compare (key left) (key right) where
  eq_swap := Std.OrientedCmp.eq_swap
  isLE_trans := Std.TransCmp.isLE_trans

theorem order_eq_compareLex : order =
    compareLex (fun left right => compareOptional Text.order left.filePath right.filePath)
      (compareLex (fun left right => compareOptional compare left.line right.line)
        (compareLex (fun left right => Text.order left.code right.code)
          (compareLex (fun left right => compareOptional Text.order left.subject right.subject)
            fun left right => Text.order left.message right.message))) := rfl

instance : Std.TransCmp order := by
  rw [order_eq_compareLex]
  infer_instance

/-- Comparing diagnostics the other way round turns the outcome round, and both being smaller and
being equal pass from one pair to the next. A sorted list has the diagnostics of the given one in
order, with those that compare as equal to one another in the order they were given in. Where no two
different diagnostics compare as equal, the sorted list does not depend on the given order. -/
theorem sort_stable_of_order :
    (∀ left right, order right left = (order left right).swap) ∧
    (∀ first second third, order first second = .lt → order second third = .lt →
      order first third = .lt) ∧
    (∀ first second third, order first second = .eq → order second third = .eq →
      order first third = .eq) ∧
    (∀ first second third, (order first second).isLE → (order second third).isLE →
      (order first third).isLE) ∧
    (∀ diagnostics, (sort diagnostics).Perm diagnostics ∧
      ((sort diagnostics).Pairwise fun left right => (order left right).isLE) ∧
      ∀ probe, ((sort diagnostics).filter fun diagnostic => order probe diagnostic = .eq) =
        diagnostics.filter fun diagnostic => order probe diagnostic = .eq) ∧
    (∀ left right, left.Perm right →
      (∀ first ∈ left, ∀ second ∈ left, order first second = .eq → first = second) →
      sort left = sort right) := by
  refine ⟨fun _ _ => Std.OrientedCmp.eq_swap, fun _ _ _ => Std.TransCmp.lt_trans,
    fun _ _ _ => Std.TransCmp.eq_trans, fun _ _ _ => Std.TransCmp.isLE_trans, ?_, ?_⟩
  · intro diagnostics
    exact ⟨List.mergeSort_perm diagnostics _, pairwise_mergeSort_compare order diagnostics,
      fun probe => filter_mergeSort_compare order probe diagnostics⟩
  · intro left right perm separated
    exact mergeSort_eq_of_perm order perm separated

/-- Four problems of which the first two compare as equal, since an element and a relationship of
one id are one subject and the severity is no key. The others have a file, and one of them a
line. -/
theorem sort_stable_of_order_shared_subject :
    let byElement : Diagnostic :=
      { severity := .error, code := "graph", message := "m", elementId := some "a" }
    let byRelationship : Diagnostic :=
      { severity := .info, code := "graph", message := "m", relationshipId := some "a" }
    let inFile : Diagnostic :=
      { severity := .info, code := "b", message := "m", filePath := some "a.ts" }
    let onLine : Diagnostic :=
      { severity := .info, code := "a", message := "m", filePath := some "a.ts", line := some 2 }
    order byElement byRelationship = .eq ∧ order byRelationship byElement = .eq ∧
      order byElement inFile = .lt ∧ order inFile onLine = .lt ∧ order byElement onLine = .lt ∧
      order byElement byElement = .eq ∧ (order byElement onLine).isLE ∧
      [inFile, onLine, byElement].Perm [byElement, inFile, onLine] ∧
      sort [inFile, onLine, byElement] = sort [byElement, inFile, onLine] := by
  intro byElement byRelationship inFile onLine
  have shared : order byElement byRelationship = .eq := by decide
  have sharedBack : order byRelationship byElement = .eq := by decide
  have low : order byElement inFile = .lt := by decide
  have high : order inFile onLine = .lt := by decide
  have turned : [inFile, onLine, byElement].Perm [byElement, inFile, onLine] := by decide
  obtain ⟨-, less, equal, atMost, -, forget⟩ := sort_stable_of_order
  exact ⟨shared, sharedBack, low, high, less _ _ _ low high, equal _ _ _ shared sharedBack,
    atMost _ inFile _ (by rw [low]; rfl) (by rw [high]; rfl), turned,
    forget _ _ turned (by decide)⟩

end Diagnostic
end CodeAtlas
