import CodeAtlas.Json.Printer
import CodeAtlas.Proofs.List
import CodeAtlas.Proofs.Number.Order
import CodeAtlas.Proofs.Text.Order
import Mathlib.Data.List.Forall2

/-!
# Values up to the order of members

Two values are alike if they differ only in the order of the members of their objects and in the
sign of zero. Among the alike values there is one with sorted members and without signed zeros, and
it is the same for all of them if no object has two members of one name.
-/

namespace CodeAtlas

namespace Number

/-- A number without the sign of zero. -/
def plain (value : Float) : Float :=
  if value == 0 then 0 else value

theorem plain_eq_plain_iff {left right : Float} :
    plain left = plain right ↔ left = right ∨ left == 0 ∧ right == 0 := by
  have zero : (0 : Float) == 0 := by decide
  unfold plain
  split <;> split <;> grind

theorem plain_plain (value : Float) : plain (plain value) = plain value := by
  unfold plain
  split <;> simp_all

theorem isFinite_of_beq_zero {value : Float} (isZero : value == 0) : IsFinite value := by
  change value.toModel.unpack.beq (0 : Float).toModel.unpack = true at isZero
  change (value.toModel.unpack.isNaN || value.toModel.unpack.isInf) = false
  revert isZero
  cases value.toModel.unpack with
  | notANumber => exact nofun
  | infinity sign => cases sign <;> exact nofun
  | _ => exact fun _ => rfl

end Number

namespace Json

/-- What holds of lists and objects if it holds of what is in them holds of all values. -/
@[elab_as_elim]
theorem induction {motive : Json → Prop} (null : motive null)
    (bool : ∀ value, motive (bool value)) (num : ∀ value, motive (num value))
    (str : ∀ value, motive (str value))
    (arr : ∀ items, (∀ item ∈ items, motive item) → motive (arr items))
    (obj : ∀ members, (∀ member ∈ members, motive member.2) → motive (obj members))
    (value : Json) : motive value :=
  @Json.rec motive (fun items => ∀ item ∈ items, motive item)
    (fun members => ∀ member ∈ members, motive member.2) (fun member => motive member.2)
    null bool num str arr obj (by simp)
    (fun _ _ first rest => List.forall_mem_cons.mpr ⟨first, rest⟩) (by simp)
    (fun _ _ first rest => List.forall_mem_cons.mpr ⟨first, rest⟩) (fun _ _ value => value) value

/-! ## Proper and alike values -/

/-- Values in which no object has two members of one name, with numbers of a given kind. -/
inductive Proper (isNumber : Float → Prop) : Json → Prop
  | null : Proper isNumber null
  | bool (value : Bool) : Proper isNumber (bool value)
  | num {value : Float} (number : isNumber value) : Proper isNumber (num value)
  | str (value : String) : Proper isNumber (str value)
  | arr {items : List Json} (proper : ∀ item ∈ items, Proper isNumber item) :
      Proper isNumber (arr items)
  | obj {members : List (String × Json)} (distinct : (members.map (·.1)).Nodup)
      (proper : ∀ member ∈ members, Proper isNumber member.2) : Proper isNumber (obj members)

/-- Values that differ only in the order of members and in the sign of zero: the members of two
objects are alike one by one in some order of the ones and in some order of the others. -/
inductive Alike : Json → Json → Prop
  | null : Alike null null
  | bool (value : Bool) : Alike (bool value) (bool value)
  | num {left right : Float} (same : left = right ∨ left == 0 ∧ right == 0) :
      Alike (num left) (num right)
  | str (value : String) : Alike (str value) (str value)
  | arr {left right : List Json} (items : List.Forall₂ Alike left right) :
      Alike (arr left) (arr right)
  | obj {left right lefts rights : List (String × Json)} (leftOrder : left.Perm lefts)
      (rightOrder : right.Perm rights)
      (names : List.Forall₂ (fun first second => first.1 = second.1) lefts rights)
      (values : List.Forall₂ (fun first second => Alike first.2 second.2) lefts rights) :
      Alike (obj left) (obj right)

/-- To each member of an object there is an alike one of the same name in each alike object. -/
theorem Alike.exists_member {left right : List (String × Json)}
    (alike : (Json.obj left).Alike (.obj right)) {member : String × Json}
    (isMember : member ∈ left) :
    ∃ other ∈ right, member.1 = other.1 ∧ member.2.Alike other.2 := by
  cases alike with
  | obj leftOrder rightOrder names values =>
    have both := names.mp (fun _ _ name value => And.intro name value) values
    obtain ⟨other, isOther, same⟩ := exists_related_of_mem both (leftOrder.mem_iff.mp isMember)
    exact ⟨other, rightOrder.mem_iff.mpr isOther, same⟩

/-! ## The value that stands for its alike ones -/

mutual

/-- A value without signs of zeros. -/
def plain : Json → Json
  | num value => num (Number.plain value)
  | arr items => arr (plainItems items)
  | obj members => obj (plainMembers members)
  | value => value

/-- Items without signs of zeros. -/
def plainItems : List Json → List Json
  | [] => []
  | item :: rest => plain item :: plainItems rest

/-- Members without signs of zeros. -/
def plainMembers : List (String × Json) → List (String × Json)
  | [] => []
  | (name, value) :: rest => (name, plain value) :: plainMembers rest

end

theorem plainItems_eq_map (items : List Json) : plainItems items = items.map plain := by
  induction items with
  | nil => simp only [plainItems, List.map_nil]
  | cons item rest induction => simp only [plainItems, List.map_cons, induction]

theorem plainMembers_eq_map (members : List (String × Json)) :
    plainMembers members = members.map (Prod.map id plain) := by
  induction members with
  | nil => simp only [plainMembers, List.map_nil]
  | cons member rest induction => simp only [plainMembers, List.map_cons, induction, Prod.map, id]

theorem sortedItems_eq_map (items : List Json) : sortedItems items = items.map sorted := by
  induction items with
  | nil => simp only [sortedItems, List.map_nil]
  | cons item rest induction => simp only [sortedItems, List.map_cons, induction]

theorem sortedMembers_eq_map (members : List (String × Json)) :
    sortedMembers members = members.map (Prod.map id sorted) := by
  induction members with
  | nil => simp only [sortedMembers, List.map_nil]
  | cons member rest induction => simp only [sortedMembers, List.map_cons, induction, Prod.map, id]

/-- The value with sorted members and without signs of zeros. -/
def normal (value : Json) : Json :=
  (sorted value).plain

@[simp]
theorem normal_null : normal null = null := by simp only [normal, sorted, plain]

@[simp]
theorem normal_bool (value : Bool) : normal (bool value) = bool value := by
  simp only [normal, sorted, plain]

@[simp]
theorem normal_num (value : Float) : normal (num value) = num (Number.plain value) := by
  simp only [normal, sorted, plain]

@[simp]
theorem normal_str (value : String) : normal (str value) = str value := by
  simp only [normal, sorted, plain]

@[simp]
theorem normal_arr (items : List Json) : normal (arr items) = arr (items.map normal) := by
  rw [normal, sorted, plain, sortedItems_eq_map, plainItems_eq_map, List.map_map]
  rfl

/-- Sorting by names goes along with whatever is done to the values. -/
theorem map_sortBy_names (change : Json → Json) (members : List (String × Json)) :
    (Text.sortBy (·.1) members).map (Prod.map id change) =
      Text.sortBy (·.1) (members.map (Prod.map id change)) := by
  apply List.map_mergeSort
  exact fun _ _ _ _ => rfl

@[simp]
theorem normal_obj (members : List (String × Json)) :
    normal (obj members) = obj ((Text.sortBy (·.1) members).map (Prod.map id normal)) := by
  rw [normal, sorted, plain, sortedMembers_eq_map, plainMembers_eq_map, ← map_sortBy_names,
    List.map_map]
  rfl

/-! ## Normal values -/

theorem alike_normal (value : Json) : value.Alike (normal value) := by
  induction value using Json.induction with
  | null => simpa using .null
  | bool value => simpa using .bool value
  | num value =>
    rw [normal_num]
    exact .num (Number.plain_eq_plain_iff.mp (Number.plain_plain value).symm)
  | str value => simpa using .str value
  | arr items induction =>
    rw [normal_arr]
    apply Alike.arr
    rw [List.forall₂_map_right_iff, List.forall₂_same]
    exact induction
  | obj members induction =>
    rw [normal_obj]
    have sorting := (Text.sortBy_perm (·.1) members).symm
    refine .obj sorting (.refl _) ?_ ?_
    · rw [List.forall₂_map_right_iff, List.forall₂_same]
      exact fun _ _ => rfl
    · rw [List.forall₂_map_right_iff, List.forall₂_same]
      exact fun member isMember => induction member (sorting.mem_iff.mpr isMember)

theorem alike_of_normal_eq {left right : Json} (same : normal left = normal right) :
    left.Alike right := by
  induction left using Json.induction generalizing right with
  | null =>
    cases right <;> simp at same
    exact .null
  | bool value =>
    cases right <;> simp at same
    subst same
    exact .bool value
  | num value =>
    cases right <;> simp at same
    exact .num (Number.plain_eq_plain_iff.mp same)
  | str value =>
    cases right <;> simp at same
    subst same
    exact .str value
  | arr items induction =>
    cases right <;> simp at same
    case arr others =>
      refine .arr (forall₂_imp_of_mem (map_eq_map_iff_forall₂.mp same) ?_)
      exact fun item isItem _ => induction item isItem
  | obj members induction =>
    cases right <;> simp at same
    case obj others =>
      have related := map_eq_map_iff_forall₂.mp same
      refine .obj (Text.sortBy_perm (·.1) members).symm (Text.sortBy_perm (·.1) others).symm ?_ ?_
      · exact related.imp fun _ _ same => (Prod.ext_iff.mp same).1
      · apply forall₂_imp_of_mem related
        intro member isMember other same
        exact induction member (Text.mem_sortBy.mp isMember) (Prod.ext_iff.mp same).2

theorem Alike.normal_eq {isNumber : Float → Prop} {left right : Json}
    (proper : left.Proper isNumber) (alike : left.Alike right) : normal left = normal right := by
  induction proper generalizing right with
  | null | bool | str => cases alike; rfl
  | num =>
    cases alike with
    | num same => rw [normal_num, normal_num, Number.plain_eq_plain_iff.mpr same]
  | arr _ induction =>
    cases alike with
    | arr items =>
      have same := forall₂_imp_of_mem items fun item isItem _ => induction item isItem
      rw [normal_arr, normal_arr, map_eq_map_iff_forall₂.mpr same]
  | @obj members distinct _ induction =>
    cases alike with
    | @obj _ others lefts rights leftOrder rightOrder names values =>
      have sameValues : List.Forall₂ (fun first second => normal first.2 = normal second.2)
          lefts rights := by
        apply forall₂_imp_of_mem values
        intro member isMember other
        exact induction member (leftOrder.mem_iff.mpr isMember)
      have same : lefts.map (Prod.map id normal) = rights.map (Prod.map id normal) := by
        apply map_eq_map_iff_forall₂.mpr
        refine names.mp ?_ sameValues
        exact fun _ _ name value => Prod.ext name value
      have order : (members.map (Prod.map id normal)).Perm (others.map (Prod.map id normal)) :=
        (leftOrder.map _).trans (same ▸ (rightOrder.map _).symm)
      have distinct : ((members.map (Prod.map id normal)).map (·.1)).Nodup := by
        rw [List.map_map]
        exact distinct
      rw [normal_obj, normal_obj, map_sortBy_names, map_sortBy_names]
      congr 1
      apply Text.sortBy_eq_of_perm order
      exact fun first isFirst second isSecond => List.inj_on_of_nodup_map distinct isFirst isSecond

end Json
end CodeAtlas
