import CodeAtlas.Cluster.Propagation
import CodeAtlas.Proofs.Graph.Basic
import CodeAtlas.Proofs.List
import CodeAtlas.Proofs.Table
import Mathlib.Algebra.Order.Ring.Unbundled.Rat

/-!
# Labels and the order of neighbours

Weights are added up by key, and the key of the largest total is taken. With exact weights neither
depends on the order in which they come: a sum has no order, and keys of equal totals are told apart
by an order of their own. So labels spread in the same way whenever the neighbours are the same, in
whatever order.
-/

namespace CodeAtlas

/-! ## The best of a list -/

section Best

variable {ι : Type}

/-- The better of two entries, the one held if neither is. -/
def keepBetter (better : ι → ι → Bool) (held : Option ι) (entry : ι) : Option ι :=
  match held with
  | none => some entry
  | some best => if better entry best then some entry else held

/-- A comparison orders the members of a list and tells all of them apart. -/
structure Ranks (better : ι → ι → Bool) (entries : List ι) : Prop where
  /-- No member is better than itself. -/
  irrefl : ∀ entry ∈ entries, ¬ better entry entry
  /-- What is better than a better member is better. -/
  trans : ∀ first ∈ entries, ∀ second ∈ entries, ∀ third ∈ entries,
    better first second → better second third → better first third
  /-- Of two members one is better. -/
  total : ∀ first ∈ entries, ∀ second ∈ entries, first ≠ second →
    better first second ∨ better second first

theorem Ranks.of_subset {better : ι → ι → Bool} {entries others : List ι}
    (ranks : Ranks better entries) (subset : others ⊆ entries) : Ranks better others where
  irrefl entry member := ranks.irrefl entry (subset member)
  trans first isFirst second isSecond third isThird :=
    ranks.trans first (subset isFirst) second (subset isSecond) third (subset isThird)
  total first isFirst second isSecond :=
    ranks.total first (subset isFirst) second (subset isSecond)

/-- Members are ranked by keys that are in order and tell them apart. -/
theorem Ranks.of_order {κ : Type} (order : κ → κ → Ordering) [Std.TransCmp order]
    [Std.LawfulEqCmp order] {better : ι → ι → Bool} {entries : List ι} (key : ι → κ)
    (better_iff : ∀ first ∈ entries, ∀ second ∈ entries,
      better first second ↔ order (key first) (key second) = .lt)
    (apart : ∀ first ∈ entries, ∀ second ∈ entries, key first = key second → first = second) :
    Ranks better entries where
  irrefl entry member := by
    have same : order (key entry) (key entry) = .eq := Std.ReflCmp.compare_self
    rw [better_iff entry member entry member, same]
    exact Ordering.noConfusion
  trans first isFirst second isSecond third isThird := by
    rw [better_iff first isFirst second isSecond, better_iff second isSecond third isThird,
      better_iff first isFirst third isThird]
    exact Std.TransCmp.lt_trans
  total first isFirst second isSecond different := by
    have swapped : order (key second) (key first) = (order (key first) (key second)).swap :=
      Std.OrientedCmp.eq_swap
    rw [better_iff first isFirst second isSecond, better_iff second isSecond first isFirst, swapped]
    cases compared : order (key first) (key second) with
    | lt => exact .inl rfl
    | gt => exact .inr rfl
    | eq =>
      have same := Std.LawfulEqCmp.eq_of_compare compared
      exact absurd (apart first isFirst second isSecond same) different

/-- Keeping the better one finds a member that none is better than. -/
theorem Ranks.exists_best {better : ι → ι → Bool} {entries : List ι}
    (ranks : Ranks better entries) (nonempty : entries ≠ []) :
    ∃ best ∈ entries, entries.foldl (keepBetter better) none = some best ∧
      ∀ entry ∈ entries, ¬ better entry best := by
  induction entries using List.reverseRecOn with
  | nil => exact absurd rfl nonempty
  | append_singleton entries last induction =>
    have isLast : last ∈ entries ++ [last] := List.mem_append_right _ List.mem_cons_self
    rw [List.foldl_append, List.foldl_cons, List.foldl_nil]
    by_cases none : entries = []
    · subst none
      exact ⟨last, isLast, rfl, fun entry member => by
        rw [List.mem_singleton.mp member]
        exact ranks.irrefl last isLast⟩
    · have subset : entries ⊆ entries ++ [last] := List.subset_append_left entries [last]
      obtain ⟨best, isBest, found, unbeaten⟩ := induction (ranks.of_subset subset) none
      rw [found, keepBetter]
      split
      case isTrue improves =>
        refine ⟨last, isLast, rfl, fun entry member beats => ?_⟩
        rcases List.mem_append.mp member with former | isSelf
        · exact unbeaten entry former (ranks.trans entry member last isLast best (subset isBest)
            beats improves)
        · exact ranks.irrefl last isLast (List.mem_singleton.mp isSelf ▸ beats)
      case isFalse keeps =>
        refine ⟨best, subset isBest, rfl, fun entry member => ?_⟩
        rcases List.mem_append.mp member with former | isSelf
        · exact unbeaten entry former
        · rw [List.mem_singleton.mp isSelf]
          exact keeps

theorem Ranks.foldl_eq_of_perm {better : ι → ι → Bool} {left right : List ι}
    (ranks : Ranks better left) (perm : left.Perm right) :
    left.foldl (keepBetter better) none = right.foldl (keepBetter better) none := by
  by_cases none : left = []
  · subst none
    rw [perm.nil_eq]
  · have some : right ≠ [] := fun empty => none (empty ▸ perm).eq_nil
    obtain ⟨best, isBest, found, unbeaten⟩ := ranks.exists_best none
    obtain ⟨other, isOther, otherFound, otherUnbeaten⟩ :=
      (ranks.of_subset perm.symm.subset).exists_best some
    rw [found, otherFound]
    by_contra different
    rcases ranks.total best isBest other (perm.mem_iff.mpr isOther)
      fun same => different (congrArg Option.some same) with beats | beaten
    · exact otherUnbeaten best (perm.mem_iff.mp isBest) beats
    · exact unbeaten other (perm.mem_iff.mpr isOther) beaten

end Best

namespace Cluster

variable {κ α : Type} [DecidableEq κ]

/-! ## Weights by key -/

section Tally

variable [Scalar α]

/-- A table of weights with one more weight. -/
def addWeight (table : Table κ α) (entry : κ × α) : Table κ α :=
  table.update entry.1 fun sum => Scalar.add (sum.getD Scalar.zero) entry.2

/-- The total weight of each key. -/
def tally (entries : List (κ × α)) : Table κ α := entries.foldl addWeight Table.empty

/-- One key with a weight outweighs another; if the weights are equal, the first one does. -/
def outweighs (first : κ → κ → Bool) (entry other : κ × α) : Bool :=
  Scalar.lt other.2 entry.2 || (Scalar.eq other.2 entry.2 && first entry.1 other.1)

theorem distinct_tally (entries : List (κ × α)) : (tally entries).Distinct := by
  induction entries using List.reverseRecOn with
  | nil => exact Table.distinct_empty
  | append_singleton entries last induction =>
    rw [tally, List.foldl_append, List.foldl_cons, List.foldl_nil]
    exact induction.update last.1 _

theorem get?_tally (entries : List (κ × α)) (key : κ) :
    (tally entries).get? key =
      (entries.filter (·.1 = key)).foldl
        (fun sum entry => some (Scalar.add (sum.getD Scalar.zero) entry.2)) none :=
  Table.get?_foldl_update Prod.fst
    (fun entry sum => Scalar.add (sum.getD Scalar.zero) entry.2) entries Table.empty key

theorem mem_of_mem_keys_tally {entries : List (κ × α)} {key : κ}
    (member : key ∈ (tally entries).keys) : key ∈ entries.map Prod.fst := by
  by_contra absent
  have none : entries.filter (·.1 = key) = [] := by
    refine List.filter_eq_nil_iff.mpr fun entry isEntry => ?_
    simpa using fun same => absent (List.mem_map.mpr ⟨entry, isEntry, same⟩)
  refine Table.get?_eq_none_iff.mp ?_ member
  rw [get?_tally, none]
  rfl

end Tally

theorem entries_tally_perm {left right : List (κ × Rat)} (perm : left.Perm right) :
    (tally left).entries.Perm (tally right).entries := by
  refine (distinct_tally left).perm_entries (distinct_tally right) fun key => ?_
  rw [get?_tally, get?_tally]
  refine (perm.filter _).foldl_eq' (fun first _ second _ sum => ?_) none
  exact congrArg some (add_right_comm (sum.getD 0) first.2 second.2)

omit [DecidableEq κ] in
theorem outweighs_iff {first : κ → κ → Bool} {entry other : κ × Rat} :
    outweighs first entry other ↔
      other.2 < entry.2 ∨ other.2 = entry.2 ∧ first entry.1 other.1 := by
  simp [outweighs, Scalar.lt, Scalar.eq]

omit [DecidableEq κ] in
/-- Weights and an order of the keys rank keys with weights. -/
theorem ranks_outweighs {first : κ → κ → Bool} {entries : List (κ × Rat)}
    (keys : Ranks first (entries.map Prod.fst)) : Ranks (outweighs first) entries where
  irrefl entry member := by
    rw [outweighs_iff]
    rintro (less | ⟨_, before⟩)
    · exact lt_irrefl _ less
    · exact keys.irrefl entry.1 (List.mem_map_of_mem member) before
  trans upper isUpper middle isMiddle lower isLower := by
    simp only [outweighs_iff]
    rintro (less | ⟨same, before⟩) (lesser | ⟨again, earlier⟩)
    · exact .inl (lesser.trans less)
    · exact .inl (again ▸ less)
    · exact .inl (same ▸ lesser)
    · exact .inr ⟨again.trans same, keys.trans _ (List.mem_map_of_mem isUpper) _
        (List.mem_map_of_mem isMiddle) _ (List.mem_map_of_mem isLower) before earlier⟩
  total entry isEntry other isOther different := by
    simp only [outweighs_iff]
    rcases lt_trichotomy entry.2 other.2 with less | same | greater
    · exact .inr (.inl less)
    · have apart : entry.1 ≠ other.1 := fun sameKey => different (Prod.ext sameKey same)
      rcases keys.total _ (List.mem_map_of_mem isEntry) _ (List.mem_map_of_mem isOther) apart with
        before | after
      · exact .inl (.inr ⟨same.symm, before⟩)
      · exact .inr (.inr ⟨same, after⟩)
    · exact .inl (.inl greater)

/-! ## Neighbours -/

section Neighbours

variable [Scalar α]

/-- The neighbours of an id with the weights of the edges to them. -/
def neighboursOf (adjacency : Adjacency α) (id : String) : List (String × α) :=
  ((adjacency.get? id).map Table.entries).getD []

/-- The two directions of an edge, unless it leads to where it starts. -/
def directions (left right : String) (weight : α) : List (String × String × α) :=
  if left = right then [] else [(left, right, weight), (right, left, weight)]

theorem addUndirected_eq (adjacency : Adjacency α) (left right : String) (weight : α) :
    addUndirected adjacency left right weight = (directions left right weight).foldl
      (fun adjacency step => addDirected adjacency step.1 step.2.1 step.2.2) adjacency := by
  unfold addUndirected directions
  split <;> rfl

/-- The neighbours of an id have the total weights of the directed edges that leave it. -/
theorem neighboursOf_foldl_addDirected (steps : List (String × String × α)) (id : String) :
    neighboursOf (steps.foldl
        (fun adjacency step => addDirected adjacency step.1 step.2.1 step.2.2) Table.empty) id =
      (tally ((steps.filter (·.1 = id)).map Prod.snd)).entries := by
  have row : (steps.foldl
      (fun adjacency step => addDirected adjacency step.1 step.2.1 step.2.2)
        (Table.empty : Adjacency α)).get? id =
      (steps.filter (·.1 = id)).foldl
        (fun row step => some (addWeight (row.getD Table.empty) step.2)) none :=
    Table.get?_foldl_update Prod.fst
      (fun step row => addWeight (row.getD Table.empty) step.2) steps Table.empty id
  have entries (found : Option (Table String α)) :
      (found.map Table.entries).getD [] = (found.getD Table.empty).entries := by
    cases found <;> rfl
  have total := getD_foldl_some (fun row step => addWeight row step.2) Table.empty
    (steps.filter (·.1 = id)) none
  rw [neighboursOf, row, entries, total, tally, List.foldl_map]
  rfl

/-! ## Labels -/

/-- The labels of neighbours that have one, with the weights of the edges to them. -/
def labelled (labels : Labels) (neighbours : List (String × α)) : List (String × α) :=
  neighbours.filterMap fun entry => (labels.get? entry.1).map (·, entry.2)

theorem labelWeights_eq (labels : Labels) (neighbours : Table String α) :
    labelWeights labels neighbours = tally (labelled labels neighbours.entries) := by
  rw [tally, labelled, List.foldl_filterMap, labelWeights]
  congr 1
  funext weights ⟨neighbour, weight⟩
  dsimp only
  cases labels.get? neighbour <;> rfl

theorem heaviest?_eq (weights : Table String α) :
    heaviest? weights =
      (weights.entries.foldl (keepBetter (outweighs Text.before)) none).map Prod.fst := by
  have step : (heavier : Option (String × α) → String × α → Option (String × α)) =
      keepBetter (outweighs Text.before) := by
    funext held entry
    cases held <;> rfl
  rw [heaviest?, step]

theorem relabel_eq (adjacency : Adjacency α) (labels : Labels) (id : String) :
    relabel adjacency labels id =
      match heaviest? (tally (labelled labels (neighboursOf adjacency id))) with
      | some label => labels.put id label
      | none => labels := by
  rw [relabel, neighboursOf]
  cases adjacency.get? id with
  | none => rfl
  | some neighbours => rw [Option.bind_some, labelWeights_eq]; rfl

end Neighbours

theorem ranks_before (texts : List String) : Ranks Text.before texts :=
  .of_order Text.order id (fun _ _ _ _ => beq_iff_eq) fun _ _ _ _ => id

theorem heaviest?_tally_eq_of_perm {left right : List (String × Rat)} (perm : left.Perm right) :
    heaviest? (tally left) = heaviest? (tally right) := by
  rw [heaviest?_eq, heaviest?_eq,
    (ranks_outweighs (ranks_before _)).foldl_eq_of_perm (entries_tally_perm perm)]

/-- The neighbours of all ids are the same, in whatever order. -/
def SameNeighbours (left right : Adjacency α) : Prop :=
  ∀ id, (neighboursOf left id).Perm (neighboursOf right id)

namespace SameNeighbours

variable {left right : Adjacency Rat} (same : SameNeighbours left right)

include same

theorem relabel_eq : relabel left = relabel right := by
  funext labels id
  have perm : (labelled labels (neighboursOf left id)).Perm
      (labelled labels (neighboursOf right id)) := (same id).filterMap _
  rw [Cluster.relabel_eq, Cluster.relabel_eq, heaviest?_tally_eq_of_perm perm]

theorem sweeps_eq (order : List String) (count : Nat) (labels : Labels) :
    sweeps left order count labels = sweeps right order count labels := by
  have step : sweep left order = sweep right order := by
    funext labels
    rw [sweep, sweep, same.relabel_eq]
  induction count generalizing labels with
  | zero => rfl
  | succ count induction =>
    rw [sweeps, sweeps, step, induction]

/-- Labels spread in the same way among the same ids with the same neighbours. -/
theorem propagate_eq {ids others : List String} (perm : ids.Perm others) (maxSweeps : Nat) :
    propagate ids left maxSweeps = propagate others right maxSweeps := by
  rw [propagate, propagate, Text.sort_eq_of_perm perm]
  exact same.sweeps_eq _ maxSweeps _

end SameNeighbours

end Cluster
end CodeAtlas
