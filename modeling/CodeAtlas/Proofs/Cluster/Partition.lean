import CodeAtlas.Cluster.Partition
import Mathlib.Algebra.Order.BigOperators.Group.List
import Mathlib.Algebra.Order.Floor.Div
import Mathlib.Tactic.Ring

/-!
# The chunks of a partition

The chunks of a partition and the items left over are the list that was cut, in its order. Every
chunk is within the bounds, and what is left over could not be a chunk. Nothing is left over if as
few chunks as the upper bound allows can be balanced above the lower one.
-/

namespace CodeAtlas
namespace Cluster

variable {α : Type}

/-! ## Slices of one size -/

theorem slices_replicate_append (count size : Nat) (sizes : List Nat) (items : List α) :
    slices (List.replicate count size ++ sizes) items =
      slices (List.replicate count size) items ++ slices sizes (items.drop (count * size)) := by
  induction count generalizing items with
  | zero => simp [slices]
  | succ count induction =>
    have dropped : (items.drop size).drop (count * size) = items.drop ((count + 1) * size) := by
      rw [List.drop_drop, Nat.succ_mul, Nat.add_comm]
    rw [List.replicate_succ, List.cons_append, slices, slices, induction, dropped]
    rfl

theorem flatten_slices_replicate (count size : Nat) (items : List α) :
    (slices (List.replicate count size) items).flatten ++ items.drop (count * size) = items := by
  induction count generalizing items with
  | zero => simp [slices]
  | succ count induction =>
    have rest := induction (items.drop size)
    rw [List.drop_drop, Nat.add_comm, ← Nat.succ_mul] at rest
    rw [List.replicate_succ, slices, List.flatten_cons, List.append_assoc, rest,
      List.take_append_drop]

theorem length_of_mem_slices_replicate {count size : Nat} {items slice : List α}
    (enough : count * size ≤ items.length)
    (member : slice ∈ slices (List.replicate count size) items) : slice.length = size := by
  induction count generalizing items with
  | zero => simp [slices] at member
  | succ count induction =>
    rw [Nat.succ_mul] at enough
    rw [List.replicate_succ, slices, List.mem_cons] at member
    rcases member with rfl | later
    · rw [List.length_take]
      omega
    · refine induction ?_ later
      rw [List.length_drop]
      omega

/-! ## Balanced slices -/

section Balanced

variable {count : Nat} {items : List α}

theorem balanced_total (total : Nat) (positive : 0 < count) :
    total % count * (total / count + 1) + (count - total % count) * (total / count) = total := by
  obtain ⟨others, isCount⟩ := Nat.exists_eq_add_of_lt (Nat.mod_lt total positive)
  have split : count - total % count = others + 1 := by omega
  calc total % count * (total / count + 1) + (count - total % count) * (total / count)
      = (total % count + others + 1) * (total / count) + total % count := by rw [split]; ring
    _ = count * (total / count) + total % count := by rw [← isCount]
    _ = total := Nat.div_add_mod total count

theorem slices_balancedSizes (count : Nat) (items : List α) :
    slices (balancedSizes items.length count) items =
      slices (List.replicate (items.length % count) (items.length / count + 1)) items ++
        slices (List.replicate (count - items.length % count) (items.length / count))
          (items.drop (items.length % count * (items.length / count + 1))) :=
  slices_replicate_append _ _ _ items

theorem flatten_slices_balancedSizes (positive : 0 < count) :
    (slices (balancedSizes items.length count) items).flatten = items := by
  have larger := flatten_slices_replicate (items.length % count) (items.length / count + 1) items
  have smaller := flatten_slices_replicate (count - items.length % count) (items.length / count)
    (items.drop (items.length % count * (items.length / count + 1)))
  rw [List.drop_drop, balanced_total items.length positive, List.drop_length,
    List.append_nil] at smaller
  rw [slices_balancedSizes, List.flatten_append, smaller, larger]

/-- The sizes of balanced slices differ by one at most. -/
theorem length_of_mem_slices_balancedSizes (positive : 0 < count) {slice : List α}
    (member : slice ∈ slices (balancedSizes items.length count) items) :
    slice.length = items.length / count ∨
      slice.length = items.length / count + 1 ∧ 0 < items.length % count := by
  have total := balanced_total items.length positive
  rw [slices_balancedSizes, List.mem_append] at member
  rcases member with larger | smaller
  · refine .inr ⟨length_of_mem_slices_replicate (by omega) larger, ?_⟩
    by_contra none
    rw [Nat.eq_zero_of_not_pos none] at larger
    simp [slices] at larger
  · refine .inl (length_of_mem_slices_replicate ?_ smaller)
    rw [List.length_drop]
    omega

end Balanced

/-! ## Bounds -/

theorem le_ceil_mul (total : Nat) {most : Nat} (positive : 0 < most) :
    total ≤ (total + most - 1) / most * most := by
  have division := Nat.div_add_mod (total + most - 1) most
  have remainder := Nat.mod_lt (total + most - 1) positive
  rw [Nat.mul_comm] at division
  omega

theorem balanced_lt_most {total most count : Nat} (enough : total ≤ count * most)
    (uneven : 0 < total % count) : total / count < most := by
  have division := Nat.div_add_mod total count
  have below : count * (total / count) < count * most := by omega
  exact Nat.lt_of_mul_lt_mul_left below

/-- What full chunks leave over is not more than a balanced chunk. -/
theorem mod_le_balanced {total most : Nat} (positive : 0 < most) (uneven : 0 < total % most) :
    total % most ≤ total / ((total + most - 1) / most) := by
  have division := Nat.div_add_mod total most
  have remainder := Nat.mod_lt total positive
  have count : (total + most - 1) / most = total / most + 1 := by
    rw [Nat.div_eq_iff positive]
    rw [Nat.mul_comm most] at division
    have next : (total / most + 1) * most = total / most * most + most := Nat.succ_mul _ _
    omega
  rw [count, Nat.le_div_iff_mul_le (Nat.succ_pos _)]
  calc total % most * (total / most + 1)
      = total % most * (total / most) + total % most := Nat.mul_succ _ _
    _ ≤ most * (total / most) + total % most :=
        Nat.add_le_add_right (Nat.mul_le_mul_right _ remainder.le) _
    _ = total := division

/-! ## Partitions -/

/-- A list is cut into chunks within bounds, and what is left over is less than a chunk. -/
structure Partition.Within (cut : Partition α) (least most : Nat) (items : List α) : Prop where
  /-- Nothing is lost and nothing is added. -/
  flatten_eq : cut.chunks.flatten ++ cut.rest = items
  /-- No chunk is too small. -/
  least_le : ∀ chunk ∈ cut.chunks, least ≤ chunk.length
  /-- No chunk is too large. -/
  le_most : ∀ chunk ∈ cut.chunks, chunk.length ≤ most
  /-- What is left over is too small for a chunk. -/
  rest_lt : cut.rest.length < least

section Within

variable {least most : Nat} {items : List α}

theorem within_balanced {count : Nat} (positive : 1 ≤ least) (some : 0 < count)
    (enough : items.length ≤ count * most) (large : least ≤ items.length / count) :
    Partition.Within ⟨slices (balancedSizes items.length count) items, []⟩ least most items where
  flatten_eq := by rw [List.append_nil, flatten_slices_balancedSizes some]
  least_le chunk member := by
    rcases length_of_mem_slices_balancedSizes some member with same | ⟨same, -⟩ <;> omega
  le_most chunk member := by
    rcases length_of_mem_slices_balancedSizes some member with same | ⟨same, uneven⟩
    · rw [same]
      exact Nat.div_le_of_le_mul enough
    · rw [same]
      exact balanced_lt_most enough uneven
  rest_lt := positive

theorem within_full (positive : 1 ≤ least) (ordered : least ≤ most)
    (small : items.length / ((items.length + most - 1) / most) < least) :
    Partition.Within ⟨slices (List.replicate (items.length / most) most) items,
      items.drop (items.length / most * most)⟩ least most items := by
  have lengths : ∀ chunk ∈ slices (List.replicate (items.length / most) most) items,
      chunk.length = most := fun chunk member =>
    length_of_mem_slices_replicate (Nat.div_mul_le_self _ _) member
  refine ⟨flatten_slices_replicate _ _ items, fun chunk member => ?_, fun chunk member => ?_, ?_⟩
  · rw [lengths chunk member]
    exact ordered
  · exact (lengths chunk member).le
  · have rest : (items.drop (items.length / most * most)).length = items.length % most := by
      have division := Nat.div_add_mod items.length most
      rw [Nat.mul_comm] at division
      rw [List.length_drop]
      omega
    rw [rest]
    rcases Nat.eq_zero_or_pos (items.length % most) with even | uneven
    · omega
    · have bound := mod_le_balanced (by omega) uneven
      omega

/-- The ways in which a list is cut: not at all, as one chunk, in balance, or into full chunks. -/
theorem partition_cases (least most : Nat) (items : List α) :
    items.length < least ∧ partition least most items = ⟨[], items⟩ ∨
      least ≤ items.length ∧ items.length ≤ most ∧ partition least most items = ⟨[items], []⟩ ∨
      most < items.length ∧ least ≤ items.length / (items.length ⌈/⌉ most) ∧
        partition least most items =
          ⟨slices (balancedSizes items.length (items.length ⌈/⌉ most)) items, []⟩ ∨
      most < items.length ∧ items.length / (items.length ⌈/⌉ most) < least ∧
        partition least most items =
          ⟨slices (List.replicate (items.length / most) most) items,
            items.drop (items.length / most * most)⟩ := by
  rw [Nat.ceilDiv_eq_add_pred_div]
  unfold partition
  dsimp only
  split
  case isTrue few => exact .inl ⟨few, rfl⟩
  split
  case isFalse.isTrue many fits => exact .inr (.inl ⟨Nat.le_of_not_lt many, fits, rfl⟩)
  split
  case isFalse.isFalse.isTrue exceeds balanced =>
    exact .inr (.inr (.inl ⟨Nat.lt_of_not_le exceeds, balanced, rfl⟩))
  case isFalse.isFalse.isFalse exceeds unbalanced =>
    exact .inr (.inr (.inr ⟨Nat.lt_of_not_le exceeds, Nat.lt_of_not_le unbalanced, rfl⟩))

theorem ceilDiv_pos (most_pos : 0 < most) (exceeds : most < items.length) :
    0 < items.length ⌈/⌉ most := by
  refine Nat.pos_of_ne_zero fun none => ?_
  have enough := le_ceil_mul items.length most_pos
  rw [← Nat.ceilDiv_eq_add_pred_div, none] at enough
  omega

theorem partition_within (positive : 1 ≤ least) (ordered : least ≤ most) (items : List α) :
    (partition least most items).Within least most items := by
  have most_pos : 0 < most := by omega
  rcases partition_cases least most items with ⟨few, isCut⟩ | ⟨many, fits, isCut⟩ |
    ⟨exceeds, balanced, isCut⟩ | ⟨-, unbalanced, isCut⟩
  · rw [isCut]
    exact ⟨rfl, by simp, by simp, few⟩
  · rw [isCut]
    exact ⟨by simp, by simpa using many, by simpa using fits, positive⟩
  · rw [isCut]
    exact within_balanced positive (ceilDiv_pos most_pos exceeds)
      (le_ceil_mul items.length most_pos) balanced
  · rw [isCut]
    exact within_full positive ordered unbalanced

end Within

/-! ## Balance -/

/-- A list is cut into a number of chunks whose sizes differ by one at most, none of them too
small. -/
structure Balanced (least count : Nat) (items : List α) (chunks : List (List α)) : Prop where
  /-- Nothing is lost, added or left over. -/
  flatten_eq : chunks.flatten = items
  /-- The chunks are as many as wanted. -/
  length_eq : chunks.length = count
  /-- No chunk is too small. -/
  least_le : ∀ chunk ∈ chunks, least ≤ chunk.length
  /-- No chunk is larger than another by more than one. -/
  even : ∀ chunk ∈ chunks, ∀ other ∈ chunks, chunk.length ≤ other.length + 1

section Balance

variable {least most count : Nat} {items : List α}

/-- Chunks that are large enough take their share of the items. -/
theorem length_mul_le {chunks : List (List α)}
    (least_le : ∀ chunk ∈ chunks, least ≤ chunk.length) :
    chunks.length * least ≤ chunks.flatten.length := by
  have sizes : ∀ size ∈ chunks.map List.length, least ≤ size := by
    intro size member
    obtain ⟨chunk, isChunk, rfl⟩ := List.mem_map.mp member
    exact least_le chunk isChunk
  have shares := List.card_nsmul_le_sum (chunks.map List.length) least sizes
  rwa [List.length_map, smul_eq_mul, ← List.length_flatten] at shares

theorem Balanced.mul_le {chunks : List (List α)} (balanced : Balanced least count items chunks) :
    count * least ≤ items.length := by
  rw [← balanced.length_eq, ← balanced.flatten_eq]
  exact length_mul_le balanced.least_le

theorem length_slices (sizes : List Nat) (items : List α) :
    (slices sizes items).length = sizes.length := by
  induction sizes generalizing items with
  | nil => rfl
  | cons size sizes induction => rw [slices, List.length_cons, induction, List.length_cons]

theorem length_balancedSizes (total : Nat) (positive : 0 < count) :
    (balancedSizes total count).length = count := by
  have fewer := Nat.mod_lt total positive
  rw [balancedSizes, List.length_append, List.length_replicate, List.length_replicate]
  omega

theorem balanced_slices (positive : 0 < count) (large : least ≤ items.length / count) :
    Balanced least count items (slices (balancedSizes items.length count) items) where
  flatten_eq := flatten_slices_balancedSizes positive
  length_eq := by rw [length_slices, length_balancedSizes items.length positive]
  least_le chunk member := by
    rcases length_of_mem_slices_balancedSizes positive member with same | ⟨same, -⟩ <;> omega
  even chunk member other otherMember := by
    rcases length_of_mem_slices_balancedSizes positive member with same | ⟨same, -⟩ <;>
      rcases length_of_mem_slices_balancedSizes positive otherMember with twin | ⟨twin, -⟩ <;>
      omega

theorem balanced_singleton (many : least ≤ items.length) : Balanced least 1 items [items] where
  flatten_eq := by simp
  length_eq := rfl
  least_le := by simpa using many
  even := by simp

theorem ceilDiv_eq_one (some : 0 < items.length) (fits : items.length ≤ most) :
    items.length ⌈/⌉ most = 1 := by
  rw [Nat.ceilDiv_eq_add_pred_div, Nat.div_eq_iff (by omega)]
  omega

/-- A list that can be cut in balance is cut in balance. -/
theorem balanced_partition (positive : 1 ≤ least) (ordered : least ≤ most)
    {chunks : List (List α)} (balanced : Balanced least (items.length ⌈/⌉ most) items chunks) :
    (partition least most items).rest = [] ∧
      Balanced least (items.length ⌈/⌉ most) items (partition least most items).chunks := by
  have most_pos : 0 < most := by omega
  have shares := balanced.mul_le
  rcases partition_cases least most items with ⟨few, isCut⟩ | ⟨many, fits, isCut⟩ |
    ⟨exceeds, large, isCut⟩ | ⟨exceeds, small, isCut⟩
  · -- Not even one chunk would be large enough, so that there is nothing to cut.
    have none : items.length ⌈/⌉ most = 0 := by
      by_contra some
      have one := Nat.mul_le_mul_right least (Nat.one_le_iff_ne_zero.mpr some)
      omega
    have enough := le_ceil_mul items.length most_pos
    rw [← Nat.ceilDiv_eq_add_pred_div, none, Nat.zero_mul] at enough
    obtain rfl : items = [] := List.length_eq_zero_iff.mp (Nat.le_zero.mp enough)
    rw [isCut, none]
    exact ⟨rfl, ⟨rfl, rfl, by simp, by simp⟩⟩
  · rw [isCut, ceilDiv_eq_one (by omega) fits]
    exact ⟨rfl, balanced_singleton many⟩
  · rw [isCut]
    exact ⟨rfl, balanced_slices (ceilDiv_pos most_pos exceeds) large⟩
  · rw [Nat.div_lt_iff_lt_mul (ceilDiv_pos most_pos exceeds), Nat.mul_comm] at small
    omega

/-- A list that is too long for one chunk and cannot be cut in balance is cut into full chunks. -/
theorem full_partition (positive : 1 ≤ least) (ordered : least ≤ most)
    (unbalanced : ¬ ∃ chunks, Balanced least (items.length ⌈/⌉ most) items chunks)
    (exceeds : most < items.length) {chunk : List α}
    (member : chunk ∈ (partition least most items).chunks) : chunk.length = most := by
  rcases partition_cases least most items with ⟨few, -⟩ | ⟨-, fits, -⟩ |
    ⟨-, large, -⟩ | ⟨-, -, isCut⟩
  · omega
  · omega
  · exact absurd ⟨_, balanced_slices (ceilDiv_pos (by omega) exceeds) large⟩ unbalanced
  · rw [isCut] at member
    exact length_of_mem_slices_replicate (Nat.div_mul_le_self _ _) member

/-- The chunks of a partition and the items left over are the given list in its order, every chunk
is within the bounds, and what is left over is less than a chunk. If as few chunks as the upper
bound allows can be balanced then nothing is left over and they are; otherwise the chunks of a list
that is too long for one are full. -/
theorem partition_balances (positive : 1 ≤ least) (ordered : least ≤ most) (items : List α) :
    let cut := partition least most items
    let count := items.length ⌈/⌉ most
    cut.chunks.flatten ++ cut.rest = items ∧
      (∀ chunk ∈ cut.chunks, least ≤ chunk.length ∧ chunk.length ≤ most) ∧
      cut.rest.length < least ∧
      ((∃ chunks, Balanced least count items chunks) →
        cut.rest = [] ∧ Balanced least count items cut.chunks) ∧
      ((¬ ∃ chunks, Balanced least count items chunks) → most < items.length →
        ∀ chunk ∈ cut.chunks, chunk.length = most) := by
  intro cut count
  have within : cut.Within least most items := partition_within positive ordered items
  refine ⟨within.flatten_eq, fun chunk member => ⟨within.least_le chunk member,
    within.le_most chunk member⟩, within.rest_lt, ?_, ?_⟩
  · rintro ⟨chunks, balanced⟩
    exact balanced_partition positive ordered balanced
  · intro unbalanced exceeds chunk member
    exact full_partition positive ordered unbalanced exceeds member

end Balance

/-- Ten items are balanced as four, three and three; of seven, two are left over, since two chunks
of at least four would need eight. -/
theorem partition_balances_ten_seven :
    let ten := partition 2 4 (List.range 10)
    let seven := partition 4 5 (List.range 7)
    ten.rest = [] ∧ Balanced 2 3 (List.range 10) ten.chunks ∧
      (∀ chunk ∈ seven.chunks, chunk.length = 5) ∧ seven.rest = [5, 6] := by
  intro ten seven
  have isTen : ten.chunks = [[0, 1, 2, 3], [4, 5, 6], [7, 8, 9]] := by decide
  obtain ⟨-, -, -, even, -⟩ :=
    @partition_balances Nat 2 4 (by decide) (by decide) (List.range 10)
  obtain ⟨none, balanced⟩ := even ⟨ten.chunks, by
    rw [isTen]
    exact ⟨by decide, by decide, by decide, by decide⟩⟩
  obtain ⟨-, -, -, -, full⟩ :=
    @partition_balances Nat 4 5 (by decide) (by decide) (List.range 7)
  have unbalanced : ¬ ∃ chunks, Balanced 4 2 (List.range 7) chunks := by
    rintro ⟨chunks, balanced⟩
    exact absurd balanced.mul_le (by decide)
  exact ⟨none, balanced, full unbalanced (by decide), by decide⟩

end Cluster
end CodeAtlas
