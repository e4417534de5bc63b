import CodeAtlas.Text.Units
import Mathlib.Data.List.Perm.Basic
import Mathlib.Data.List.Sort

/-!
# The order of texts

The units of a text determine the text, so that the order by units is a linear order of texts.
Sorting by a comparison forgets the given order: lists of the same members sort to the same list as
soon as different members compare as different.
-/

namespace CodeAtlas

/-! ## Sorting by a comparison -/

section Sorting

variable {α : Type} (compare : α → α → Ordering) [Std.TransCmp compare]

theorem bne_gt_trans (first second third : α) (lower : compare first second != .gt)
    (upper : compare second third != .gt) : compare first third != .gt := by
  have isLE_iff (left right : α) :
      (compare left right != .gt) = (compare left right).isLE := by
    cases compare left right <;> rfl
  rw [isLE_iff] at lower upper ⊢
  exact Std.TransCmp.isLE_trans lower upper

theorem bne_gt_total (left right : α) :
    (compare left right != .gt || compare right left != .gt) = true := by
  have swapped : compare right left = (compare left right).swap := Std.OrientedCmp.eq_swap
  rw [swapped]
  cases compare left right <;> rfl

theorem pairwise_mergeSort_compare (values : List α) :
    (values.mergeSort fun left right => compare left right != .gt).Pairwise
      fun left right => (compare left right).isLE := by
  refine (List.pairwise_mergeSort (bne_gt_trans compare) (bne_gt_total compare) values).imp ?_
  intro left right
  cases compare left right <;> simp

/-- Sorting keeps the given order of the values that compare as equal to some value. -/
theorem filter_mergeSort_compare (probe : α) (values : List α) :
    ((values.mergeSort fun left right => compare left right != .gt).filter
        fun value => compare probe value = .eq) =
      values.filter fun value => compare probe value = .eq := by
  have equal : (values.filter fun value => compare probe value = .eq).Pairwise
      fun left right => compare left right != .gt := by
    refine List.pairwise_of_forall_mem_list fun left isLeft right isRight => ?_
    have leftSame : compare probe left = .eq := by simpa using (List.mem_filter.mp isLeft).2
    have rightSame : compare probe right = .eq := by simpa using (List.mem_filter.mp isRight).2
    have same : compare left right = .eq :=
      Std.TransCmp.eq_trans (Std.OrientedCmp.eq_symm leftSame) rightSame
    rw [same]
    rfl
  -- They are sorted as they are, so they come through as a sublist, and none of them gets lost.
  have kept := (List.sublist_mergeSort (bne_gt_trans compare) (bne_gt_total compare) equal
    List.filter_sublist).filter fun value => compare probe value = .eq
  simp only [List.filter_filter, Bool.and_self] at kept
  have perm := (List.mergeSort_perm values fun left right => compare left right != .gt).filter
    fun value => compare probe value = .eq
  exact (kept.eq_of_length perm.length_eq.symm).symm

theorem mergeSort_eq_of_perm {left right : List α} (perm : left.Perm right)
    (separated : ∀ first ∈ left, ∀ second ∈ left, compare first second = .eq → first = second) :
    (left.mergeSort fun first second => compare first second != .gt) =
      right.mergeSort fun first second => compare first second != .gt := by
  refine List.Perm.eq_of_pairwise ?_ (pairwise_mergeSort_compare compare left)
    (pairwise_mergeSort_compare compare right) ?_
  · intro first second firstMember secondMember forward backward
    apply separated first (List.mem_mergeSort.mp firstMember) second
    · exact perm.mem_iff.mpr (List.mem_mergeSort.mp secondMember)
    · exact Std.OrientedCmp.isLE_antisymm forward backward
  · exact (List.mergeSort_perm left _).trans (perm.trans (List.mergeSort_perm right _).symm)

end Sorting

namespace Text

/-! ## Texts and their units -/

/-- The units of a character can be told from whatever follows them. -/
theorem charUnits_append_inj {left right : Char} {lefts rights : List Nat}
    (same : charUnits left ++ lefts = charUnits right ++ rights) :
    left = right ∧ lefts = rights := by
  have leftValid : left.toNat < 0xD800 ∨ 0xDFFF < left.toNat ∧ left.toNat < 0x110000 := left.valid
  have rightValid : right.toNat < 0xD800 ∨ 0xDFFF < right.toNat ∧ right.toNat < 0x110000 :=
    right.valid
  have codes : left.toNat = right.toNat ∧ lefts = rights := by
    simp only [charUnits] at same
    split at same <;> split at same <;> simp at same
    · exact same
    · omega
    · omega
    · refine ⟨?_, same.2.2⟩
      omega
  exact ⟨Char.toNat_inj.mp codes.1, codes.2⟩

theorem flatMap_charUnits_injective (left right : List Char)
    (same : left.flatMap charUnits = right.flatMap charUnits) : left = right := by
  induction left generalizing right with
  | nil =>
    cases right with
    | nil => rfl
    | cons char chars =>
      rw [List.flatMap_nil, List.flatMap_cons] at same
      simp only [charUnits] at same
      split at same <;> simp at same
  | cons first rest induction =>
    cases right with
    | nil =>
      rw [List.flatMap_nil, List.flatMap_cons] at same
      simp only [charUnits] at same
      split at same <;> simp at same
    | cons char chars =>
      rw [List.flatMap_cons, List.flatMap_cons] at same
      obtain ⟨rfl, tails⟩ := charUnits_append_inj same
      rw [induction chars tails]

theorem units_injective {left right : String} (same : units left = units right) : left = right :=
  String.toList_injective (flatMap_charUnits_injective _ _ same)

theorem compareUnits_eq_compareLex (left right : List Nat) :
    compareUnits left right = List.compareLex compare left right := by
  induction left generalizing right with
  | nil => cases right <;> rfl
  | cons first rest induction =>
    cases right with
    | nil => rfl
    | cons second others =>
      rw [compareUnits, List.compareLex_cons_cons, induction]
      cases compare first second <;> rfl

instance : Std.TransCmp order where
  eq_swap {left right} := by
    rw [order, order, compareUnits_eq_compareLex, compareUnits_eq_compareLex]
    exact Std.OrientedCmp.eq_swap
  isLE_trans {first second third} := by
    rw [order, order, order, compareUnits_eq_compareLex, compareUnits_eq_compareLex,
      compareUnits_eq_compareLex]
    exact Std.TransCmp.isLE_trans

instance : Std.LawfulEqCmp order where
  compare_self {text} := by
    rw [order, compareUnits_eq_compareLex]
    exact Std.ReflCmp.compare_self
  eq_of_compare {left right} same := by
    rw [order, compareUnits_eq_compareLex] at same
    exact units_injective (Std.LawfulEqCmp.eq_of_compare same)

/-! ## Sorted texts -/

theorem sort_perm (texts : List String) : (sort texts).Perm texts :=
  List.mergeSort_perm texts notAfter

@[simp]
theorem mem_sort {text : String} {texts : List String} : text ∈ sort texts ↔ text ∈ texts :=
  (sort_perm texts).mem_iff

theorem sort_eq_of_perm {left right : List String} (perm : left.Perm right) :
    sort left = sort right :=
  mergeSort_eq_of_perm order perm fun _ _ _ _ => Std.LawfulEqCmp.eq_of_compare

theorem notAfter_eq_isLE (left right : String) : notAfter left right = (order left right).isLE := by
  unfold notAfter
  cases order left right <;> rfl

instance : Std.Total fun left right => notAfter left right = true where
  total left right := by
    have swapped : order right left = (order left right).swap := Std.OrientedCmp.eq_swap
    rw [notAfter_eq_isLE, notAfter_eq_isLE, swapped]
    cases order left right <;> simp

instance : IsTrans String fun left right => notAfter left right = true where
  trans first second third := by
    simp only [notAfter_eq_isLE]
    exact Std.TransCmp.isLE_trans

instance : Std.Antisymm fun left right => notAfter left right = true where
  antisymm left right := by
    simp only [notAfter_eq_isLE]
    intro forward backward
    exact Std.LawfulEqCmp.eq_of_compare (Std.OrientedCmp.isLE_antisymm forward backward)

theorem pairwise_sort (texts : List String) :
    (sort texts).Pairwise fun left right => notAfter left right := by
  have sorted := pairwise_mergeSort_compare order texts
  simp only [← notAfter_eq_isLE] at sorted
  exact sorted

theorem not_before_of_before {left right : String} (ordered : before left right) :
    ¬ before right left := by
  have swapped : order right left = (order left right).swap := Std.OrientedCmp.eq_swap
  rw [before, beq_iff_eq] at ordered
  rw [before, swapped, ordered]
  exact Bool.false_ne_true

theorem before_of_not_before {left right : String} (different : left ≠ right)
    (notAfter : ¬ before right left) : before left right := by
  have unequal : order left right ≠ .eq := fun same =>
    different (Std.LawfulEqCmp.eq_of_compare same)
  have swapped : order right left = (order left right).swap := Std.OrientedCmp.eq_swap
  rw [before, swapped] at notAfter
  rw [before]
  revert unequal notAfter
  cases order left right <;> simp

theorem pairwise_before {texts : List String}
    (sorted : texts.Pairwise fun left right => notAfter left right) (nodup : texts.Nodup) :
    texts.Pairwise fun left right => before left right := by
  refine sorted.imp₂ (fun left right ordered different => ?_) nodup
  unfold before
  unfold notAfter at ordered
  have unequal : order left right ≠ .eq := fun same =>
    different (Std.LawfulEqCmp.eq_of_compare same)
  revert ordered unequal
  cases order left right <;> simp

/-- Sorting in a form that evaluates by structural recursion. -/
theorem sort_eq_insertionSort (texts : List String) :
    sort texts = texts.insertionSort fun left right => notAfter left right = true := by
  rw [← List.mergeSort_eq_insertionSort]
  simp only [Bool.decide_eq_true]
  rfl

variable {α : Type}

theorem sortBy_perm (key : α → String) (values : List α) : (sortBy key values).Perm values :=
  List.mergeSort_perm values _

@[simp]
theorem mem_sortBy {key : α → String} {value : α} {values : List α} :
    value ∈ sortBy key values ↔ value ∈ values :=
  (sortBy_perm key values).mem_iff

theorem pairwise_sortBy (key : α → String) (values : List α) :
    (sortBy key values).Pairwise fun left right => notAfter (key left) (key right) := by
  unfold sortBy
  apply List.pairwise_mergeSort
  · intro first second third
    exact IsTrans.trans (r := fun left right => notAfter left right = true) _ _ _
  · intro left right
    have total := Std.Total.total (r := fun left right => notAfter left right = true)
      (key left) (key right)
    simpa using total

theorem sortBy_of_sorted {key : α → String} {values : List α}
    (sorted : values.Pairwise fun left right => notAfter (key left) (key right)) :
    sortBy key values = values :=
  List.mergeSort_of_pairwise sorted

instance (key : α → String) : Std.TransCmp fun left right => order (key left) (key right) where
  eq_swap := Std.OrientedCmp.eq_swap
  isLE_trans := Std.TransCmp.isLE_trans

theorem sortBy_eq_of_perm {key : α → String} {left right : List α} (perm : left.Perm right)
    (separated : ∀ first ∈ left, ∀ second ∈ left, key first = key second → first = second) :
    sortBy key left = sortBy key right :=
  mergeSort_eq_of_perm (fun first second => order (key first) (key second)) perm
    fun first firstMember second secondMember same =>
      separated first firstMember second secondMember (Std.LawfulEqCmp.eq_of_compare same)

end Text
end CodeAtlas
