import CodeAtlas.Proofs.ModulePath

/-!
# Paths inside nested modules

A path that starts with `self` or `super` is read from a module. Read from one that is nested in
another, it names the same thing as read from the outer one only if it climbs out of both.
-/

namespace CodeAtlas
namespace ModulePath

open Text (join split)

/-- The segments of a dotted name. -/
def dotted (name : String) : List String := (split '.' name).filter (· ≠ "")

/-- How often a path goes up before anything else. -/
def ascent (path : String) : Nat := ((colonSegments path).takeWhile (· = "super")).length

/-- A path starts from the module that it is read in. -/
def IsRelative (path : String) : Prop :=
  (colonSegments path).head? = some "self" ∨ (colonSegments path).head? = some "super"

instance (path : String) : Decidable (IsRelative path) :=
  inferInstanceAs (Decidable (_ ∨ _))

theorem dotted_join {modules : List String} (segments : ∀ segment ∈ modules, IsSegment segment)
    (name : String) : dotted (join "." (name :: modules)) = dotted name ++ modules := by
  by_cases none : modules = []
  · rw [none, List.append_nil, join]
  · have kept : modules.filter (· ≠ "") = modules :=
      List.filter_eq_self.mpr fun segment member => by
        simpa using (segments segment member).notEmpty
    rw [Text.join_cons "." name none, dotted, Text.split_append rfl, List.filter_append,
      Text.split_join rfl none fun segment member => (segments segment member).noDot, kept, dotted]

theorem climb_eq (parent segments : List String) :
    climb parent segments =
      parent.take (parent.length - (segments.takeWhile (· = "super")).length) ++
        segments.dropWhile (· = "super") := by
  induction segments generalizing parent with
  | nil => simp [climb]
  | cons segment rest induction =>
    rw [climb]
    by_cases isUp : segment = "super"
    · rw [if_pos isUp, induction, List.takeWhile_cons_of_pos (by simpa using isUp),
        List.dropWhile_cons_of_pos (by simpa using isUp), List.length_cons, List.dropLast_eq_take,
        List.take_take, List.length_take]
      congr 2
      omega
    · rw [if_neg isUp, List.takeWhile_cons_of_neg (by simpa using isUp),
        List.dropWhile_cons_of_neg (by simpa using isUp)]
      simp

/-- A relative path goes up from the module that it is read in, and down from there. -/
theorem exists_normalizeColons_eq {path : String} (relative : IsRelative path) :
    ∃ rest, ∀ moduleName, normalizeColons path moduleName =
      join "." ((dotted moduleName).take ((dotted moduleName).length - ascent path) ++ rest) := by
  unfold normalizeColons ascent
  rcases relative with isSelf | isSuper
  · obtain ⟨rest, isPath⟩ := List.head?_eq_some_iff.mp isSelf
    refine ⟨rest, fun moduleName => ?_⟩
    simp [isPath, dotted]
  · obtain ⟨rest, isPath⟩ := List.head?_eq_some_iff.mp isSuper
    refine ⟨(colonSegments path).dropWhile (· = "super"), fun moduleName => ?_⟩
    rw [← climb_eq, isPath]
    simp [dotted]

/-- Read from a nested module a path names the same as read from the outer one if there is no nested
module, or if the path climbs out of both. -/
theorem normalizeColons_nested {modules : List String}
    (segments : ∀ segment ∈ modules, IsSegment segment) {path : String} (relative : IsRelative path)
    (moduleName : String) :
    normalizeColons path moduleName = normalizeColons path (join "." (moduleName :: modules)) ↔
      modules = [] ∨ (dotted moduleName).length + modules.length ≤ ascent path := by
  obtain ⟨rest, isNormal⟩ := exists_normalizeColons_eq relative
  have full : "" ∉ dotted moduleName ++ modules := by
    intro empty
    rcases List.mem_append.mp empty with outer | nested
    · simpa using (List.mem_filter.mp outer).2
    · exact (segments "" nested).notEmpty rfl
  rw [isNormal, isNormal, dotted_join segments, List.length_append]
  generalize dotted moduleName = outer at full
  generalize ascent path = steps
  constructor
  · -- Otherwise some segments are left behind those of the outer module and make the name longer.
    intro same
    by_contra! inside
    obtain ⟨nested, low⟩ := inside
    have present := List.length_pos_iff.mpr nested
    let left := (outer ++ modules).take (outer.length + modules.length - steps)
    let between := left.drop (outer.length - steps)
    have isLeft : outer.take (outer.length - steps) ++ between = left := by
      rw [← List.take_append_drop (outer.length - steps) left, List.take_take,
        Nat.min_eq_left (by omega), List.take_append_of_le_length (by omega)]
    have isMore : between ≠ [] := by
      rw [← List.length_pos_iff, List.length_drop, List.length_take, List.length_append]
      omega
    have isFull : "" ∉ between := fun empty =>
      full (List.mem_of_mem_take (List.mem_of_mem_drop empty))
    have longer := Text.length_join_lt (show ".".toList = ['.'] from rfl)
      (outer.take (outer.length - steps)) rest isMore isFull
    rw [isLeft, ← same] at longer
    exact lt_irrefl _ longer
  · rintro (rfl | high)
    · rw [List.append_nil, List.length_nil, Nat.add_zero]
    · rw [Nat.sub_eq_zero_of_le high, Nat.sub_eq_zero_of_le (by omega), List.take_zero,
        List.take_zero]

end ModulePath
end CodeAtlas
