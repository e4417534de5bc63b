import CodeAtlas.Table
import Mathlib.Data.List.Induction
import Mathlib.Data.List.Nodup
import Mathlib.Data.List.Perm.Basic
import Mathlib.Logic.Equiv.Defs

/-!
# What tables hold

A table is seen through its look-up. Every table that is made by putting and erasing holds each key
once; two such tables with one look-up have the same entries, up to their order.
-/

namespace CodeAtlas
namespace Table

variable {κ α : Type} [DecidableEq κ]

theorem has_iff_mem_keys {table : Table κ α} {key : κ} : table.has key ↔ key ∈ table.keys := by
  simp [has, keys]

theorem get?_eq_none_iff {table : Table κ α} {key : κ} :
    table.get? key = none ↔ key ∉ table.keys := by
  simp only [get?, Option.map_eq_none_iff, List.find?_eq_none, keys, List.mem_map, not_exists,
    not_and, decide_eq_true_eq]

theorem mem_entries_of_get? {table : Table κ α} {key : κ} {value : α}
    (found : table.get? key = some value) : (key, value) ∈ table.entries := by
  obtain ⟨⟨other, held⟩, isFound, rfl⟩ := Option.map_eq_some_iff.mp found
  have same : other = key := by simpa using List.find?_some isFound
  subst same
  exact List.mem_of_find?_eq_some isFound

/-! ## Puts and erasures -/

theorem get?_put (table : Table κ α) (key other : κ) (value : α) :
    (table.put key value).get? other = if other = key then some value else table.get? other := by
  split
  case isTrue same =>
    subst same
    exact get?_put_self table other value
  case isFalse different => exact get?_put_of_ne table different value

theorem get?_update (table : Table κ α) (key other : κ) (change : Option α → α) :
    (table.update key change).get? other =
      if other = key then some (change (table.get? key)) else table.get? other :=
  get?_put table key other _

theorem get?_erase (table : Table κ α) (key other : κ) :
    (table.erase key).get? other = if other = key then none else table.get? other := by
  simp only [get?, erase, List.find?_filter]
  split
  case isTrue same =>
    subst same
    simp
  case isFalse different =>
    congr 2
    funext entry
    by_cases matched : entry.1 = other <;> simp [matched, different]

theorem keys_put (table : Table κ α) (key : κ) (value : α) :
    (table.put key value).keys = if table.has key then table.keys else table.keys ++ [key] := by
  unfold put
  split
  · simp only [keys, List.map_map]
    apply List.map_congr_left
    intro entry _
    by_cases matched : entry.1 = key <;> simp [matched]
  · simp [keys]

theorem has_put_self (table : Table κ α) (key : κ) (value : α) : (table.put key value).has key := by
  rw [has_iff_mem_keys, keys_put]
  split
  case isTrue present => exact has_iff_mem_keys.mp present
  case isFalse => simp

theorem put_put (table : Table κ α) (key : κ) (first second : α) :
    (table.put key first).put key second = table.put key second := by
  rw [put, if_pos (has_put_self table key first)]
  by_cases present : table.has key
  · rw [put, put, if_pos present, if_pos present, List.map_map, mk.injEq]
    refine List.map_congr_left fun entry _ => ?_
    by_cases same : entry.1 = key <;> simp [same]
  · have others : ∀ entry ∈ table.entries, entry.1 ≠ key := fun entry member same =>
      present (has_iff_mem_keys.mpr (List.mem_map.mpr ⟨entry, member, same⟩))
    rw [put, put, if_neg present, if_neg present, mk.injEq, List.map_append, List.map_singleton,
      if_pos rfl]
    congr 1
    exact (List.map_congr_left fun entry member => if_neg (others entry member)).trans
      (List.map_id _)

theorem erase_put (table : Table κ α) (key : κ) (value : α) :
    (table.put key value).erase key = table.erase key := by
  unfold put
  split
  · have kept : ((fun entry : κ × α => !decide (entry.1 = key)) ∘ fun entry =>
        if entry.1 = key then (key, value) else entry) =
          fun entry => !decide (entry.1 = key) := by
      funext entry
      by_cases same : entry.1 = key <;> simp [same]
    rw [erase, erase, List.filter_map, kept, mk.injEq]
    refine (List.map_congr_left fun entry member => if_neg ?_).trans (List.map_id _)
    simpa using (List.mem_filter.mp member).2
  · simp [erase]

theorem putAll_cons (table : Table κ α) (entry : κ × α) (entries : List (κ × α)) :
    table.putAll (entry :: entries) = (table.put entry.1 entry.2).putAll entries := rfl

theorem get?_putAll (table : Table κ α) (entries : List (κ × α)) (key : κ) :
    (table.putAll entries).get? key =
      ((entries.reverse.find? (·.1 = key)).map (·.2)).or (table.get? key) := by
  induction entries generalizing table with
  | nil => rfl
  | cons entry entries induction =>
    rw [putAll_cons, induction, get?_put, List.reverse_cons, List.find?_append]
    cases entries.reverse.find? (·.1 = key) with
    | some found => rfl
    | none =>
      by_cases same : key = entry.1
      · subst same
        simp
      · simp [same, Ne.symm same]

/-- When entries change a table one after another, a key has what the entries of that key make of
its value. -/
theorem get?_foldl_update {ι : Type} (key : ι → κ) (change : ι → Option α → α) (entries : List ι)
    (table : Table κ α) (wanted : κ) :
    (entries.foldl (fun table entry => table.update (key entry) (change entry)) table).get? wanted =
      (entries.filter (key · = wanted)).foldl (fun found entry => some (change entry found))
        (table.get? wanted) := by
  induction entries generalizing table with
  | nil => rfl
  | cons entry entries induction =>
    rw [List.foldl_cons, induction, get?_update]
    by_cases same : key entry = wanted
    · subst same
      simp
    · simp [same, Ne.symm same]

/-! ## Tables that hold each key once -/

/-- A table holds each key once. -/
def Distinct (table : Table κ α) : Prop := table.keys.Nodup

omit [DecidableEq κ] in
theorem distinct_empty : (empty : Table κ α).Distinct := List.nodup_nil

theorem Distinct.put {table : Table κ α} (distinct : table.Distinct) (key : κ) (value : α) :
    (table.put key value).Distinct := by
  unfold Distinct
  rw [keys_put]
  split
  · exact distinct
  case isFalse absent =>
    rw [has_iff_mem_keys] at absent
    exact distinct.append (List.nodup_singleton key) (by simpa using absent)

theorem Distinct.update {table : Table κ α} (distinct : table.Distinct) (key : κ)
    (change : Option α → α) : (table.update key change).Distinct :=
  distinct.put key _

theorem Distinct.erase {table : Table κ α} (distinct : table.Distinct) (key : κ) :
    (table.erase key).Distinct :=
  distinct.sublist (List.filter_sublist.map Prod.fst)

theorem Distinct.putAll {table : Table κ α} (distinct : table.Distinct)
    (entries : List (κ × α)) : (table.putAll entries).Distinct := by
  induction entries generalizing table with
  | nil => exact distinct
  | cons entry entries induction => exact induction (distinct.put entry.1 entry.2)

theorem distinct_ofList (entries : List (κ × α)) : (ofList entries).Distinct :=
  distinct_empty.putAll entries

theorem Distinct.get?_eq_some_iff {table : Table κ α} (distinct : table.Distinct) {key : κ}
    {value : α} : table.get? key = some value ↔ (key, value) ∈ table.entries := by
  refine ⟨mem_entries_of_get?, fun member => ?_⟩
  have present : key ∈ table.keys := List.mem_map.mpr ⟨_, member, rfl⟩
  cases found : table.get? key with
  | none => exact absurd present (get?_eq_none_iff.mp found)
  | some held =>
    have heldMember := mem_entries_of_get? found
    have same := List.inj_on_of_nodup_map distinct heldMember member rfl
    exact congrArg (fun entry => some entry.2) same

omit [DecidableEq κ] in
theorem eq_of_entries_eq {left right : Table κ α} (same : left.entries = right.entries) :
    left = right :=
  congrArg mk same

theorem Distinct.put_eq_self {table : Table κ α} (distinct : table.Distinct) {key : κ} {value : α}
    (held : table.get? key = some value) : table.put key value = table := by
  have present : table.has key := by
    rw [has_iff_mem_keys]
    exact List.mem_map_of_mem (mem_entries_of_get? held)
  rw [Table.put, if_pos present]
  congr 1
  refine (List.map_congr_left fun entry member => ?_).trans (List.map_id _)
  split
  case isTrue same =>
    have isEntry : (entry.1, entry.2) ∈ table.entries := member
    have found := distinct.get?_eq_some_iff.mpr isEntry
    rw [same, held] at found
    rw [Option.some.inj found, ← same]
    rfl
  case isFalse => rfl

theorem Distinct.mem_values {table : Table κ α} (distinct : table.Distinct) {value : α} :
    value ∈ table.values ↔ ∃ key, table.get? key = some value := by
  simp only [values, List.mem_map, Prod.exists, exists_eq_right, distinct.get?_eq_some_iff]

theorem Distinct.perm_entries {left right : Table κ α} (leftDistinct : left.Distinct)
    (rightDistinct : right.Distinct) (same : ∀ key, left.get? key = right.get? key) :
    left.entries.Perm right.entries := by
  apply (List.perm_ext_iff_of_nodup leftDistinct.of_map rightDistinct.of_map).mpr
  rintro ⟨key, value⟩
  rw [← leftDistinct.get?_eq_some_iff, ← rightDistinct.get?_eq_some_iff, same]

/-- A table that gives one key a value has that entry beside those of the other keys. -/
theorem Distinct.perm_cons_erase {left table : Table κ α} (leftDistinct : left.Distinct)
    (distinct : table.Distinct) {key : κ} {value : α}
    (same : ∀ other, left.get? other = if other = key then some value else table.get? other) :
    left.entries.Perm ((key, value) :: (table.erase key).entries) := by
  have absent : key ∉ (table.erase key).keys := by
    rw [← get?_eq_none_iff, get?_erase, if_pos rfl]
  have frontDistinct : (⟨(key, value) :: (table.erase key).entries⟩ : Table κ α).Distinct :=
    List.nodup_cons.mpr ⟨absent, distinct.erase key⟩
  refine leftDistinct.perm_entries frontDistinct fun other => ?_
  have front : (⟨(key, value) :: (table.erase key).entries⟩ : Table κ α).get? other =
      if other = key then some value else (table.erase key).get? other := by
    unfold get?
    rw [List.find?_cons]
    by_cases isKey : other = key
    · simp [isKey]
    · simp [isKey, Ne.symm isKey]
  rw [same, front, get?_erase]
  split <;> rfl

theorem Distinct.entries_put_perm {table : Table κ α} (distinct : table.Distinct) (key : κ)
    (value : α) : (table.put key value).entries.Perm ((key, value) :: (table.erase key).entries) :=
  (distinct.put key value).perm_cons_erase distinct fun other => get?_put table key other value

theorem Distinct.entries_perm_of_get? {table : Table κ α} (distinct : table.Distinct) {key : κ}
    {value : α} (found : table.get? key = some value) :
    table.entries.Perm ((key, value) :: (table.erase key).entries) := by
  refine distinct.perm_cons_erase distinct fun other => ?_
  split
  case isTrue same => rw [same, found]
  case isFalse => rfl

theorem Distinct.values_put_perm {table : Table κ α} (distinct : table.Distinct) (key : κ)
    (value : α) : (table.put key value).values.Perm (value :: (table.erase key).values) :=
  (distinct.entries_put_perm key value).map Prod.snd

theorem Distinct.values_perm_of_get? {table : Table κ α} (distinct : table.Distinct) {key : κ}
    {value : α} (found : table.get? key = some value) :
    table.values.Perm (value :: (table.erase key).values) :=
  (distinct.entries_perm_of_get? found).map Prod.snd

theorem erase_of_get?_eq_none {table : Table κ α} {key : κ} (absent : table.get? key = none) :
    table.erase key = table := by
  rw [get?_eq_none_iff] at absent
  have kept : ∀ entry ∈ table.entries, (!decide (entry.1 = key)) = true := by
    intro entry member
    have different : entry.1 ≠ key := fun same => absent (List.mem_map.mpr ⟨entry, member, same⟩)
    simp [different]
  rw [erase, List.filter_eq_self.mpr kept]

/-! ## Tables of lists -/

theorem putAll_entries_of_nodup (table : Table κ α) (entries : List (κ × α))
    (distinct : (table.keys ++ entries.map Prod.fst).Nodup) :
    (table.putAll entries).entries = table.entries ++ entries := by
  induction entries generalizing table with
  | nil => simp [putAll]
  | cons entry entries induction =>
    rw [List.map_cons] at distinct
    have absent : ¬ table.has entry.1 := by
      rw [has_iff_mem_keys]
      exact fun present => (List.nodup_append.mp distinct).2.2 _ present _ List.mem_cons_self rfl
    have appended : (table.put entry.1 entry.2).entries = table.entries ++ [entry] := by
      rw [put, if_neg absent]
    rw [putAll_cons, induction, appended, List.append_assoc, List.singleton_append]
    rw [keys_put, if_neg absent, List.append_assoc, List.singleton_append]
    exact distinct

theorem ofList_entries_of_nodup {entries : List (κ × α)}
    (distinct : (entries.map Prod.fst).Nodup) : (ofList entries).entries = entries := by
  rw [ofList, putAll_entries_of_nodup _ _ (by simpa [keys, empty] using distinct)]
  rfl

theorem get?_ofList_of_mem {entries : List (κ × α)} (distinct : (entries.map Prod.fst).Nodup)
    {key : κ} {value : α} (member : (key, value) ∈ entries) :
    (ofList entries).get? key = some value := by
  rw [(distinct_ofList entries).get?_eq_some_iff, ofList_entries_of_nodup distinct]
  exact member

theorem mem_of_get?_ofList {entries : List (κ × α)} {key : κ} {value : α}
    (found : (ofList entries).get? key = some value) : (key, value) ∈ entries := by
  rw [ofList, get?_putAll, get?_empty, Option.or_none] at found
  obtain ⟨⟨other, held⟩, isFound, rfl⟩ := Option.map_eq_some_iff.mp found
  have same : other = key := by simpa using List.find?_some isFound
  subst same
  exact List.mem_reverse.mp (List.mem_of_find?_eq_some isFound)

/-- The order in which entries with different keys are put does not show in the look-up. -/
theorem get?_ofList_eq_of_perm {left right : List (κ × α)} (perm : left.Perm right)
    (distinct : (left.map Prod.fst).Nodup) (key : κ) :
    (ofList left).get? key = (ofList right).get? key := by
  have rightDistinct : (right.map Prod.fst).Nodup := (perm.map Prod.fst).nodup_iff.mp distinct
  refine Option.ext fun value => ?_
  rw [(distinct_ofList left).get?_eq_some_iff, (distinct_ofList right).get?_eq_some_iff,
    ofList_entries_of_nodup distinct, ofList_entries_of_nodup rightDistinct, perm.mem_iff]

/-! ## Tables under other names -/

section Renamed

variable {ι β γ : Type} [DecidableEq ι]

/-- Tables that agree in the images of their values, up to the names of their keys, have the same
images. -/
theorem Distinct.perm_map_values {left : Table κ α} {right : Table ι β}
    (leftDistinct : left.Distinct) (rightDistinct : right.Distinct) (rename : κ ≃ ι)
    {leftImage : α → γ} {rightImage : β → γ}
    (same : ∀ key, (right.get? (rename key)).map rightImage = (left.get? key).map leftImage) :
    (left.values.map leftImage).Perm (right.values.map rightImage) := by
  have perm : (left.entries.map fun entry => (rename entry.1, leftImage entry.2)).Perm
      (right.entries.map fun entry => (entry.1, rightImage entry.2)) := by
    apply (List.perm_ext_iff_of_nodup (.of_map Prod.fst ?_) (.of_map Prod.fst ?_)).mpr
    · rintro ⟨key, image⟩
      obtain ⟨key, rfl⟩ := rename.surjective key
      have images := same key
      simp only [List.mem_map, Prod.mk.injEq, Prod.exists, ← leftDistinct.get?_eq_some_iff,
        ← rightDistinct.get?_eq_some_iff, EmbeddingLike.apply_eq_iff_eq]
      constructor
      · rintro ⟨_, value, found, rfl, rfl⟩
        rw [found, Option.map_some, Option.map_eq_some_iff] at images
        obtain ⟨twin, isTwin, sameImage⟩ := images
        exact ⟨_, twin, isTwin, rfl, sameImage⟩
      · rintro ⟨_, value, found, rfl, rfl⟩
        rw [found, Option.map_some] at images
        obtain ⟨twin, isTwin, sameImage⟩ := Option.map_eq_some_iff.mp images.symm
        exact ⟨_, twin, isTwin, rfl, sameImage⟩
    · rw [List.map_map]
      have renamed : ((left.keys).map rename).Nodup := leftDistinct.map rename.injective
      rwa [keys, List.map_map] at renamed
    · rw [List.map_map]
      exact rightDistinct
  simpa [values, Function.comp_def] using perm.map Prod.snd

/-- A table with other names for its keys. -/
def rename (name : κ → ι) (table : Table κ α) : Table ι α :=
  ⟨table.entries.map fun entry => (name entry.1, entry.2)⟩

theorem get?_rename {name : κ → ι} (injective : name.Injective) (table : Table κ α) (key : κ) :
    (table.rename name).get? (name key) = table.get? key := by
  simp only [get?, rename, List.find?_map, Function.comp_def, injective.eq_iff, Option.map_map]

theorem rename_update {name : κ → ι} (injective : name.Injective) (table : Table κ α) (key : κ)
    (change : Option α → α) :
    (table.update key change).rename name = (table.rename name).update (name key) change := by
  have present : (table.rename name).has (name key) = table.has key := by
    simp [has, rename, Function.comp_def, injective.eq_iff]
  rw [update, update, get?_rename injective, put, put, present]
  split
  · simp only [rename, List.map_map, mk.injEq]
    apply List.map_congr_left
    intro entry _
    by_cases same : entry.1 = key <;> simp [same, injective.eq_iff]
  · simp [rename]

end Renamed

/-! ## Groups -/

theorem group_append_singleton (key : α → κ) (values : List α) (last : α) :
    group key (values ++ [last]) =
      (group key values).update (key last) fun found => found.getD [] ++ [last] := by
  rw [group, List.foldl_append]
  rfl

theorem distinct_group (key : α → κ) (values : List α) : (group key values).Distinct := by
  induction values using List.reverseRecOn with
  | nil => exact distinct_empty
  | append_singleton values last induction =>
    rw [group_append_singleton]
    exact induction.update (key last) _

theorem get?_group (key : α → κ) (values : List α) (wanted : κ) :
    (group key values).get? wanted =
      if values.filter (key · = wanted) = [] then none
      else some (values.filter (key · = wanted)) := by
  induction values using List.reverseRecOn with
  | nil => rfl
  | append_singleton values last induction =>
    rw [group_append_singleton, get?_update, List.filter_append]
    split
    case isTrue same =>
      subst same
      rw [induction]
      split
      case isTrue empty => simp [empty]
      case isFalse => simp
    case isFalse different =>
      rw [induction]
      simp [Ne.symm different]

theorem getD_get?_group (key : α → κ) (values : List α) (wanted : κ) :
    ((group key values).get? wanted).getD [] = values.filter (key · = wanted) := by
  rw [get?_group]
  split
  case isTrue empty => exact empty.symm
  case isFalse => rfl

/-- Groups divide the values. -/
theorem flatten_values_group_perm (key : α → κ) (values : List α) :
    (group key values).values.flatten.Perm values := by
  induction values using List.reverseRecOn with
  | nil => exact .nil
  | append_singleton values last induction =>
    have distinct := distinct_group key values
    have put := (distinct.values_put_perm (key last)
      (((group key values).get? (key last)).getD [] ++ [last])).flatten
    rw [group_append_singleton, update]
    refine put.trans ?_
    rw [List.flatten_cons, List.append_assoc]
    refine .trans ?_ (induction.append_right [last])
    -- The members that the key had so far are those that its erasure takes away.
    have before : (((group key values).get? (key last)).getD [] ++
        ((group key values).erase (key last)).values.flatten).Perm
          (group key values).values.flatten := by
      cases found : (group key values).get? (key last) with
      | none =>
        rw [erase_of_get?_eq_none found]
        exact .refl _
      | some members => exact (distinct.values_perm_of_get? found).flatten.symm
    refine .trans ?_ (before.append_right [last])
    rw [List.append_assoc]
    exact .append_left _ List.perm_append_comm

end Table

/-! ## Values without repetition -/

section DistinctValues

variable {α : Type} [DecidableEq α]

theorem distinct_nil : distinct ([] : List α) = [] := rfl

theorem distinct_append_singleton (values : List α) (value : α) :
    distinct (values ++ [value]) =
      if value ∈ distinct values then distinct values else distinct values ++ [value] := by
  rw [distinct, List.foldl_append]
  rfl

@[simp]
theorem mem_distinct {values : List α} {value : α} : value ∈ distinct values ↔ value ∈ values := by
  induction values using List.reverseRecOn with
  | nil => simp [distinct_nil]
  | append_singleton values last induction =>
    rw [distinct_append_singleton]
    split
    case isTrue present =>
      rw [induction, List.mem_append, List.mem_singleton]
      refine ⟨.inl, ?_⟩
      rintro (member | rfl)
      · exact member
      · exact induction.mp present
    case isFalse => rw [List.mem_append, List.mem_append, induction]

theorem nodup_distinct (values : List α) : (distinct values).Nodup := by
  induction values using List.reverseRecOn with
  | nil => exact List.nodup_nil
  | append_singleton values last induction =>
    rw [distinct_append_singleton]
    split
    case isTrue => exact induction
    case isFalse absent =>
      exact induction.append (List.nodup_singleton last) (by simpa using absent)

theorem perm_distinct {left right : List α} (perm : left.Perm right) :
    (distinct left).Perm (distinct right) := by
  apply (List.perm_ext_iff_of_nodup (nodup_distinct left) (nodup_distinct right)).mpr
  intro value
  rw [mem_distinct, mem_distinct, perm.mem_iff]

/-- Different names for different values keep their number. -/
theorem distinct_map_of_injOn {β : Type} [DecidableEq β] {image : α → β} {values : List α}
    (injective : ∀ first ∈ values, ∀ second ∈ values,
      image first = image second → first = second) :
    distinct (values.map image) = (distinct values).map image := by
  induction values using List.reverseRecOn with
  | nil => rfl
  | append_singleton values last induction =>
    have earlier := induction fun first isFirst second isSecond =>
      injective first (List.mem_append_left _ isFirst) second (List.mem_append_left _ isSecond)
    have present : image last ∈ (distinct values).map image ↔ last ∈ distinct values := by
      rw [List.mem_map]
      refine ⟨?_, fun member => ⟨last, member, rfl⟩⟩
      rintro ⟨value, member, same⟩
      rw [mem_distinct] at member ⊢
      rw [← injective value (List.mem_append_left _ member) last (by simp) same]
      exact member
    rw [List.map_append, List.map_singleton, distinct_append_singleton, distinct_append_singleton,
      earlier]
    by_cases member : last ∈ distinct values
    · rw [if_pos member, if_pos (present.mpr member)]
    · rw [if_neg member, if_neg fun other => member (present.mp other), List.map_append,
        List.map_singleton]

end DistinctValues

end CodeAtlas
