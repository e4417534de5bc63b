import Mathlib.Data.List.Flatten
import Mathlib.Data.List.Forall2
import Mathlib.Data.List.Induction
import Mathlib.Data.List.Nodup
import Mathlib.Data.List.Perm.Subperm
import Mathlib.Order.Bounds.Basic
import Mathlib.Order.Nat

/-!
# Lists

Facts about lists that say nothing about what the lists hold: where items stand, which of them are
picked, how lists correspond item by item, and what folds come to.
-/

namespace CodeAtlas

variable {α β γ δ κ : Type}

/-! ## Places -/

theorem getElem?_append_singleton (values : List α) (value : α) (index : Nat) :
    (values ++ [value])[index]? = if index = values.length then some value else values[index]? := by
  split
  case isTrue last =>
    subst last
    exact List.getElem?_concat_length
  case isFalse other =>
    by_cases below : index < values.length
    · exact List.getElem?_append_left below
    · have beyond : values.length < index := by omega
      rw [List.getElem?_eq_none beyond.le, List.getElem?_eq_none]
      rw [List.length_append]
      exact beyond

theorem modify_append_of_lt {left : List α} {place : Nat} (inside : place < left.length)
    (right : List α) (change : α → α) :
    (left ++ right).modify place change = left.modify place change ++ right := by
  rw [List.modify_eq_set_getElem?, List.modify_eq_set_getElem?, List.getElem?_append_left inside,
    List.getElem?_eq_getElem inside]
  exact List.set_append_left place _ inside

/-- An item has one place among groups that share none. -/
theorem place_eq_of_mem {groups : List (List α)} (nodup : groups.flatten.Nodup) {place other : Nat}
    {group another : List α} (isGroup : groups[place]? = some group)
    (isAnother : groups[other]? = some another) {item : α} (inGroup : item ∈ group)
    (inAnother : item ∈ another) : place = other := by
  have apart := List.pairwise_iff_getElem.mp (List.nodup_flatten.mp nodup).2
  obtain ⟨place_lt, rfl⟩ := List.getElem?_eq_some_iff.mp isGroup
  obtain ⟨other_lt, rfl⟩ := List.getElem?_eq_some_iff.mp isAnother
  rcases Nat.lt_trichotomy place other with before | same | after
  · exact absurd inAnother (apart place other place_lt other_lt before inGroup)
  · exact same
  · exact absurd inGroup (apart other place other_lt place_lt after inAnother)

/-! ## Members -/

theorem nodup_eraseDups [DecidableEq α] : ∀ values : List α, values.eraseDups.Nodup
  | [] => List.nodup_nil
  | value :: values => by
    rw [List.eraseDups_cons, List.nodup_cons]
    refine ⟨?_, nodup_eraseDups _⟩
    intro member
    simp [List.mem_eraseDups] at member
termination_by values => values.length
decreasing_by exact Nat.lt_succ_of_le (List.length_filter_le _ _)

theorem one_lt_length_iff_of_mem {values : List α} (nodup : values.Nodup) {value : α}
    (member : value ∈ values) : 1 < values.length ↔ ∃ other ∈ values, other ≠ value := by
  match values, nodup with
  | [single], _ =>
    rw [List.mem_singleton] at member
    simp [member]
  | first :: second :: rest, nodup =>
    refine iff_of_true (by simp) ?_
    by_cases isFirst : value = first
    · have apart : second ≠ first := fun same => (List.nodup_cons.mp nodup).1 (by simp [same])
      exact ⟨second, by simp, isFirst ▸ apart⟩
    · exact ⟨first, by simp, Ne.symm isFirst⟩

/-- Two tests that never both hold pick what either of them picks. -/
theorem filter_append_filter_perm (items : List α) {first second either : α → Prop}
    [DecidablePred first] [DecidablePred second] [DecidablePred either]
    (parts : ∀ item, either item ↔ first item ∨ second item)
    (apart : ∀ item, first item → ¬ second item) :
    (items.filter (first ·) ++ items.filter (second ·)).Perm (items.filter (either ·)) := by
  have isFirst : (items.filter (either ·)).filter (first ·) = items.filter (first ·) := by
    rw [List.filter_filter]
    refine List.filter_congr fun item _ => ?_
    rw [← Bool.decide_and, decide_eq_decide, parts]
    exact and_iff_left_of_imp .inl
  have isSecond : (items.filter (either ·)).filter (fun item => !decide (first item)) =
      items.filter (second ·) := by
    rw [List.filter_filter]
    refine List.filter_congr fun item _ => ?_
    rw [← decide_not, ← Bool.decide_and, decide_eq_decide, parts]
    exact ⟨fun ⟨notFirst, holds⟩ => holds.resolve_left notFirst,
      fun holds => ⟨fun isFirst => apart item isFirst holds, .inr holds⟩⟩
  rw [← isFirst, ← isSecond]
  exact List.filter_append_perm (first ·) (items.filter (either ·))

/-- Picking items for one key after another picks those that have any of the keys. -/
theorem flatMap_filter_perm [DecidableEq κ] (key : α → κ) (items : List α)
    {keys : List κ} (nodup : keys.Nodup) :
    (keys.flatMap fun wanted => items.filter fun item => key item = wanted).Perm
      (items.filter fun item => key item ∈ keys) := by
  induction keys with
  | nil => simp
  | cons wanted keys induction =>
    obtain ⟨isNew, rest⟩ := List.nodup_cons.mp nodup
    rw [List.flatMap_cons]
    refine ((induction rest).append_left _).trans (filter_append_filter_perm items ?_ ?_)
    · exact fun item => List.mem_cons
    · exact fun item same member => isNew (same ▸ member)

/-- Items that carry the keys of the values they come from are told apart by distinct keys. -/
theorem filter_flatMap_of_nodup [DecidableEq κ] (key : α → κ) {tag : β → κ}
    {items : α → List β} (tagged : ∀ value, ∀ item ∈ items value, tag item = key value)
    {values : List α} (nodup : (values.map key).Nodup) {value : α} (member : value ∈ values) :
    (values.flatMap items).filter (fun item => decide (tag item = key value)) = items value := by
  induction values with
  | nil => cases member
  | cons first values induction =>
    rw [List.map_cons, List.nodup_cons] at nodup
    rw [List.flatMap_cons, List.filter_append]
    rcases List.mem_cons.mp member with rfl | later
    · have own : (items value).filter (fun item => decide (tag item = key value)) =
          items value :=
        List.filter_eq_self.mpr fun item isItem => by simp [tagged value item isItem]
      have none : (values.flatMap items).filter (fun item => decide (tag item = key value)) =
          [] := by
        refine List.filter_eq_nil_iff.mpr fun item isItem => ?_
        obtain ⟨other, isOther, isItem⟩ := List.mem_flatMap.mp isItem
        rw [tagged other item isItem, decide_eq_true_eq]
        exact fun same => nodup.1 (same ▸ List.mem_map_of_mem isOther)
      rw [own, none, List.append_nil]
    · have none : (items first).filter (fun item => decide (tag item = key value)) = [] := by
        refine List.filter_eq_nil_iff.mpr fun item isItem => ?_
        rw [tagged first item isItem, decide_eq_true_eq]
        exact fun same => nodup.1 (same ▸ List.mem_map_of_mem later)
      rw [none, List.nil_append, induction nodup.2 later]

/-! ## Lists that are related item by item -/

theorem forall_mem_of_forall₂ {condition : β → Prop} {items : List α} {values : List β}
    (each : List.Forall₂ (fun _ value => condition value) items values) :
    ∀ value ∈ values, condition value := by
  induction each with
  | nil => simp
  | cons first _ induction => exact List.forall_mem_cons.mpr ⟨first, induction⟩

theorem eq_map_of_forall₂ {write : β → α} {items : List α} {values : List β}
    (each : List.Forall₂ (fun item value => item = write value) items values) :
    items = values.map write := by
  rw [← List.forall₂_eq_eq_eq, List.forall₂_map_right_iff]
  exact each

theorem map_eq_map_iff_forall₂ {f : α → β} {left right : List α} :
    left.map f = right.map f ↔
      List.Forall₂ (fun first second => f first = f second) left right := by
  rw [← List.forall₂_eq_eq_eq, List.forall₂_map_left_iff, List.forall₂_map_right_iff]

/-- Related lists are related by what follows for the members of the first one. -/
theorem forall₂_imp_of_mem {R S : α → α → Prop} {left right : List α}
    (related : List.Forall₂ R left right)
    (imp : ∀ first ∈ left, ∀ second, R first second → S first second) :
    List.Forall₂ S left right := by
  have both := (List.forall₂_and_left left right).mpr ⟨imp, related⟩
  exact both.imp fun _ second each => each.1 second each.2

theorem exists_related_of_mem {R : α → β → Prop} {left : List α} {right : List β}
    (related : List.Forall₂ R left right) {first : α} (member : first ∈ left) :
    ∃ second ∈ right, R first second := by
  induction related with
  | nil => cases member
  | cons head _ induction =>
    obtain same | later := List.mem_cons.mp member
    · exact ⟨_, List.mem_cons_self, same ▸ head⟩
    · obtain ⟨second, isSecond, holds⟩ := induction later
      exact ⟨second, List.mem_cons_of_mem _ isSecond, holds⟩

theorem map_eq_of_map_eq {key : α → β} {value : α → γ} {left right : List α}
    (same : left.map key = right.map key)
    (agree : ∀ first ∈ left, ∀ second ∈ right, key first = key second →
      value first = value second) : left.map value = right.map value := by
  induction left generalizing right with
  | nil => rw [List.map_eq_nil_iff.mp same.symm]
  | cons first left induction =>
    obtain ⟨second, right, rfl, sameKey, rest⟩ := List.map_eq_cons_iff.mp same.symm
    rw [List.map_cons, List.map_cons,
      agree first List.mem_cons_self second List.mem_cons_self sameKey.symm,
      induction rest.symm fun other isOther twin isTwin =>
        agree other (List.mem_cons_of_mem _ isOther) twin (List.mem_cons_of_mem _ isTwin)]

theorem perm_map_of_perm_keys {left : List α} {right : List β} {leftKey : α → γ} {rightKey : β → γ}
    {leftValue : α → δ} {rightValue : β → δ}
    (perm : (left.map leftKey).Perm (right.map rightKey))
    (agree : ∀ first ∈ left, ∀ second ∈ right, leftKey first = rightKey second →
      leftValue first = rightValue second) :
    (left.map leftValue).Perm (right.map rightValue) := by
  induction left generalizing right with
  | nil => rw [List.map_eq_nil_iff.mp perm.symm.eq_nil]; exact .nil
  | cons first left induction =>
    obtain ⟨twin, isTwin, sameKey⟩ := List.mem_map.mp (perm.subset List.mem_cons_self)
    obtain ⟨before, after, rfl⟩ := List.append_of_mem isTwin
    have middle : (before ++ twin :: after).Perm (twin :: (before ++ after)) :=
      List.perm_middle
    have rest : (left.map leftKey).Perm ((before ++ after).map rightKey) := by
      have moved := perm.trans (middle.map rightKey)
      rw [List.map_cons, List.map_cons, sameKey] at moved
      exact moved.cons_inv
    have values := induction rest fun other isOther second isSecond =>
      agree other (List.mem_cons_of_mem first isOther) second
        (middle.symm.subset (List.mem_cons_of_mem twin isSecond))
    rw [List.map_cons, agree first List.mem_cons_self twin isTwin sameKey.symm]
    exact (values.cons _).trans (middle.map rightValue).symm

/-! ## Folds -/

theorem getD_foldl_some (step : β → α → β) (start : β) (entries : List α)
    (found : Option β) :
    (entries.foldl (fun found entry => some (step (found.getD start) entry)) found).getD start =
      entries.foldl step (found.getD start) := by
  induction entries generalizing found with
  | nil => rfl
  | cons entry entries induction => exact induction _

/-- Folding with the greater of two counts finds the greatest, or zero if there is none. -/
theorem isGreatest_foldl_max (counts : List Nat) :
    IsGreatest {count | count = 0 ∨ count ∈ counts} (counts.foldl max 0) := by
  induction counts using List.reverseRecOn with
  | nil => exact ⟨.inl rfl, fun count member => by simp_all⟩
  | append_singleton counts last induction =>
    obtain ⟨attained, bound⟩ := induction
    rw [List.foldl_append, List.foldl_cons, List.foldl_nil]
    constructor
    · rcases Nat.le_total last (counts.foldl max 0) with below | above
      · rw [Nat.max_eq_left below]
        exact attained.imp_right (List.mem_append_left [last])
      · rw [Nat.max_eq_right above]
        exact .inr (List.mem_append_right counts List.mem_cons_self)
    · rintro count (none | member)
      · exact (bound (.inl none)).trans (le_max_left _ last)
      · rcases List.mem_append.mp member with former | isLast
        · exact (bound (.inr former)).trans (le_max_left _ last)
        · rw [List.mem_singleton.mp isLast]
          exact le_max_right _ last

end CodeAtlas
