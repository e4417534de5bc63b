import CodeAtlas.Proofs.Json.Parser

/-!
# Canonical texts

Values have the same canonical text if and only if they are alike, and a canonical text reads back
as a value alike to the one it is the text of.
-/

namespace CodeAtlas
namespace Json

theorem renderNumber_plain (value : Float) :
    renderNumber (Number.plain value) = renderNumber value := by
  unfold Number.plain
  split
  case isFalse => rfl
  case isTrue isZero =>
    have finite := Number.isFinite_of_beq_zero isZero
    have number : value.isNaN = false := (Bool.or_eq_false_iff.mp finite).1
    have zero : renderNumber 0 = "0" := by decide
    rw [zero, renderNumber, finite, Number.text, number, isZero]
    rfl

theorem renderItems_eq_intercalate (items : List Json) :
    renderItems items = ",".intercalate (items.map render) := by
  induction items with
  | nil => simp [renderItems]
  | cons item items induction => cases items <;> simp_all [renderItems]

theorem renderMembers_eq_intercalate (members : List (String × Json)) :
    renderMembers members =
      ",".intercalate (members.map fun member => quote member.1 ++ ":" ++ render member.2) := by
  induction members with
  | nil => simp [renderMembers]
  | cons member members induction => cases members <;> simp_all [renderMembers]

/-- Zeros have one text. -/
theorem render_plain (value : Json) : render value.plain = render value := by
  induction value using Json.induction with
  | null | bool | str => simp only [plain]
  | num value => rw [plain, render, render, renderNumber_plain]
  | arr items induction =>
    have same : (items.map plain).map render = items.map render := by
      rw [List.map_map]
      exact List.map_congr_left induction
    rw [plain, render, render, plainItems_eq_map, renderItems_eq_intercalate,
      renderItems_eq_intercalate, same]
  | obj members induction =>
    have same : (members.map (Prod.map id plain)).map
          (fun member => quote member.1 ++ ":" ++ render member.2) =
        members.map fun member => quote member.1 ++ ":" ++ render member.2 := by
      rw [List.map_map]
      refine List.map_congr_left fun member isMember => ?_
      exact congrArg (quote member.1 ++ ":" ++ ·) (induction member isMember)
    rw [plain, render, render, plainMembers_eq_map, renderMembers_eq_intercalate,
      renderMembers_eq_intercalate, same]

theorem canonical_eq_render_normal (value : Json) : canonical value = render (normal value) := by
  rw [canonical, normal, render_plain]

theorem Proper.sorted {isNumber : Float → Prop} {value : Json} (proper : value.Proper isNumber) :
    (sorted value).Proper isNumber := by
  induction proper with
  | null => simpa only [Json.sorted] using .null
  | bool value => simpa only [Json.sorted] using .bool value
  | num number => simpa only [Json.sorted] using .num number
  | str value => simpa only [Json.sorted] using .str value
  | arr _ induction =>
    rw [Json.sorted, sortedItems_eq_map]
    exact .arr (List.forall_mem_map.mpr induction)
  | @obj members distinct _ induction =>
    rw [Json.sorted, sortedMembers_eq_map]
    have order := Text.sortBy_perm (·.1) (members.map (Prod.map id Json.sorted))
    refine .obj ((order.map _).nodup_iff.mpr ?_) fun member isMember => ?_
    · rw [List.map_map]
      exact distinct
    · obtain ⟨entry, isEntry, rfl⟩ := List.mem_map.mp (order.mem_iff.mp isMember)
      exact induction entry isEntry

/-- A canonical text reads back as the normal value. -/
theorem parse?_canonical {value : Json} (proper : value.Proper ReadsBack) :
    parse? (canonical value) = some (normal value) :=
  parse?_render proper.sorted

/-- Values have the same canonical text if and only if they are alike, and a canonical text reads
back as a value alike to the one it is the text of. The names in each object are distinct, and the
numbers are finite and read back from their own texts. -/
theorem canonical_eq_iff_alike {left right : Json}
    (leftProper : left.Proper ReadsBack) (rightProper : right.Proper ReadsBack) :
    (canonical left = canonical right ↔ left.Alike right) ∧
      ∃ value, parse? (canonical left) = some value ∧ left.Alike value := by
  refine ⟨⟨?_, ?_⟩, normal left, parse?_canonical leftProper, alike_normal left⟩
  · intro same
    have read := parse?_canonical leftProper
    rw [same, parse?_canonical rightProper, Option.some.injEq] at read
    exact alike_of_normal_eq read.symm
  · intro alike
    rw [canonical_eq_render_normal, canonical_eq_render_normal, alike.normal_eq leftProper]

/-- Members in another order, a zero without its sign, and characters that are escaped or have two
units. -/
theorem canonical_eq_of_reordered :
    let left := obj [("b", num 1.5), ("\t", arr [num (-0.0), str "\"😀"]), ("a", obj [])]
    let right := obj [("a", obj []), ("\t", arr [num 0, str "\"😀"]), ("b", num 1.5)]
    canonical left = canonical right ∧
      ∃ value, parse? (canonical left) = some value ∧ left.Alike value := by
  intro left right
  have list {number : Float} (back : ReadsBack number) :
      (arr [num number, str "\"😀"]).Proper ReadsBack :=
    .arr (by simpa using ⟨.num back, .str _⟩)
  have half : (num 1.5).Proper ReadsBack := .num (by decide +kernel)
  have empty : (obj []).Proper ReadsBack := .obj (by simp) (by simp)
  have leftProper : left.Proper ReadsBack :=
    .obj (by decide) (by simpa using ⟨half, list (by decide +kernel), empty⟩)
  have rightProper : right.Proper ReadsBack :=
    .obj (by decide) (by simpa using ⟨empty, list (by decide +kernel), half⟩)
  have zeros : (arr [num (-0.0), str "\"😀"]).Alike (arr [num 0, str "\"😀"]) :=
    .arr (.cons (.num (.inr (by decide))) (.cons (.str _) .nil))
  have alike : left.Alike right :=
    .obj (List.reverse_perm _).symm (.refl _) (.cons rfl (.cons rfl (.cons rfl .nil)))
      (.cons (.obj .nil .nil .nil .nil) (.cons zeros (.cons (.num (.inl rfl)) .nil)))
  obtain ⟨same, back⟩ := canonical_eq_iff_alike leftProper rightProper
  exact ⟨same.mpr alike, back⟩

end Json
end CodeAtlas
