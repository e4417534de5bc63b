import CodeAtlas.Proofs.Cluster.Propagation
import CodeAtlas.Proofs.Number.Ratio
import Mathlib.Algebra.Order.BigOperators.Group.List
import Mathlib.Logic.Relation

/-!
# Labels that have settled

Labels are changed in place, so that each change sees those made before it in the same sweep. A
label nevertheless never leaves the part of the ids that edges connect it with, since an id takes
over what a neighbour holds. A sweep that changes nothing at its end has changed nothing on its way:
then every id with a neighbour has the label that pulls it most.
-/

namespace CodeAtlas

namespace Cluster

/-! ## Edges -/

/-- The adjacency of edges, each given by its two ends and its weight. -/
def Adjacency.ofEdges {α : Type} [Scalar α] (edges : List (String × String × α)) : Adjacency α :=
  edges.foldl (fun adjacency edge => addUndirected adjacency edge.1 edge.2.1 edge.2.2) Table.empty

/-- The edges in both directions. -/
def stepsOf {α : Type} (edges : List (String × String × α)) : List (String × String × α) :=
  edges.flatMap fun edge => directions edge.1 edge.2.1 edge.2.2

/-- An edge joins two different ids. -/
def Joins (edges : List (String × String × Rat)) (left right : String) : Prop :=
  left ≠ right ∧ ∃ edge ∈ edges,
    edge.1 = left ∧ edge.2.1 = right ∨ edge.1 = right ∧ edge.2.1 = left

/-- An edge joins two different ids of a list. -/
def JoinsAmong (edges : List (String × String × Rat)) (ids : List String)
    (left right : String) : Prop :=
  left ∈ ids ∧ right ∈ ids ∧ Joins edges left right

/-- The total weight of the edges between an id and the others that have a label. -/
def pull (edges : List (String × String × Rat)) (labels : Labels) (id label : String) : Rat :=
  (((stepsOf edges).filter fun step =>
    step.1 = id ∧ labels.get? step.2.1 = some label).map fun step => step.2.2).sum

section Edges

variable {edges : List (String × String × Rat)}

theorem exists_mem_stepsOf_iff {left right : String} :
    (∃ weight, (left, right, weight) ∈ stepsOf edges) ↔ Joins edges left right := by
  simp only [stepsOf, List.mem_flatMap, Joins]
  constructor
  · rintro ⟨weight, edge, isEdge, member⟩
    rw [directions] at member
    split at member
    case isTrue => exact absurd member List.not_mem_nil
    case isFalse different =>
      simp only [List.mem_cons, Prod.mk.injEq, List.not_mem_nil, or_false] at member
      rcases member with ⟨rfl, rfl, -⟩ | ⟨rfl, rfl, -⟩
      · exact ⟨different, edge, isEdge, .inl ⟨rfl, rfl⟩⟩
      · exact ⟨Ne.symm different, edge, isEdge, .inr ⟨rfl, rfl⟩⟩
  · rintro ⟨different, edge, isEdge, ⟨rfl, rfl⟩ | ⟨rfl, rfl⟩⟩
    · exact ⟨edge.2.2, edge, isEdge, by simp [directions, different]⟩
    · exact ⟨edge.2.2, edge, isEdge, by simp [directions, Ne.symm different]⟩

theorem pos_of_mem_stepsOf (positive : ∀ edge ∈ edges, 0 < edge.2.2)
    {step : String × String × Rat} (member : step ∈ stepsOf edges) : 0 < step.2.2 := by
  obtain ⟨edge, isEdge, isStep⟩ := List.mem_flatMap.mp member
  rw [directions] at isStep
  split at isStep
  case isTrue => exact absurd isStep List.not_mem_nil
  case isFalse =>
    simp only [List.mem_cons, List.not_mem_nil, or_false] at isStep
    rcases isStep with rfl | rfl <;> exact positive edge isEdge

/-- The steps that leave an id, each by where it leads and its weight. -/
def stepsFrom (edges : List (String × String × Rat)) (id : String) : List (String × Rat) :=
  ((stepsOf edges).filter (·.1 = id)).map Prod.snd

theorem mem_stepsFrom_iff {id : String} {entry : String × Rat} :
    entry ∈ stepsFrom edges id ↔ (id, entry) ∈ stepsOf edges := by
  simp only [stepsFrom, List.mem_map, List.mem_filter, decide_eq_true_eq]
  constructor
  · rintro ⟨step, ⟨isStep, rfl⟩, rfl⟩
    exact isStep
  · intro isStep
    exact ⟨(id, entry), ⟨isStep, rfl⟩, rfl⟩

theorem neighboursOf_ofEdges (id : String) :
    neighboursOf (Adjacency.ofEdges edges) id = (tally (stepsFrom edges id)).entries := by
  rw [stepsFrom, ← neighboursOf_foldl_addDirected, stepsOf, List.foldl_flatMap]
  simp only [Adjacency.ofEdges, addUndirected_eq]

end Edges

/-! ## Weights of keys -/

section Weights

variable {κ : Type}

/-- The total weight of the keys that have a property. -/
def weigh (wanted : κ → Prop) [DecidablePred wanted] (entries : List (κ × Rat)) : Rat :=
  ((entries.filter fun entry => wanted entry.1).map Prod.snd).sum

variable {wanted : κ → Prop} [DecidablePred wanted]

theorem weigh_cons (entry : κ × Rat) (entries : List (κ × Rat)) :
    weigh wanted (entry :: entries) =
      (if wanted entry.1 then entry.2 else 0) + weigh wanted entries := by
  rw [weigh, weigh, List.filter_cons]
  by_cases isWanted : wanted entry.1 <;> simp [isWanted]

variable (wanted) in
theorem weigh_eq_of_perm {left right : List (κ × Rat)} (perm : left.Perm right) :
    weigh wanted left = weigh wanted right :=
  ((perm.filter _).map Prod.snd).sum_eq

theorem weigh_pos {entries : List (κ × Rat)} (positive : ∀ entry ∈ entries, 0 < entry.2)
    {entry : κ × Rat} (member : entry ∈ entries) (isWanted : wanted entry.1) :
    0 < weigh wanted entries := by
  apply List.sum_pos
  · intro weight isWeight
    obtain ⟨other, isOther, rfl⟩ := List.mem_map.mp isWeight
    exact positive other (List.mem_filter.mp isOther).1
  · refine List.ne_nil_of_mem (a := entry.2) ?_
    exact List.mem_map_of_mem (List.mem_filter.mpr ⟨member, decide_eq_true isWanted⟩)

theorem weigh_eq_zero {entries : List (κ × Rat)}
    (unwanted : ∀ entry ∈ entries, ¬ wanted entry.1) : weigh wanted entries = 0 := by
  have none : entries.filter (fun entry => wanted entry.1) = [] := by
    refine List.filter_eq_nil_iff.mpr fun entry member => ?_
    simpa using unwanted entry member
  rw [weigh, none]
  rfl

variable [DecidableEq κ]

variable (wanted) in
theorem weigh_addWeight {table : Table κ Rat} (distinct : table.Distinct) (entry : κ × Rat) :
    weigh wanted (addWeight table entry).entries =
      (if wanted entry.1 then entry.2 else 0) + weigh wanted table.entries := by
  have put := weigh_eq_of_perm wanted (distinct.entries_put_perm entry.1
    (Scalar.add ((table.get? entry.1).getD Scalar.zero) entry.2))
  rw [weigh_cons] at put
  rw [addWeight, Table.update, put]
  cases found : table.get? entry.1 with
  | none =>
    have added : Scalar.add Scalar.zero entry.2 = entry.2 := by
      rw [Scalar.zero_rat]
      exact zero_add entry.2
    rw [Table.erase_of_get?_eq_none found, Option.getD_none, added]
  | some held =>
    have former := weigh_eq_of_perm wanted (distinct.entries_perm_of_get? found)
    rw [weigh_cons] at former
    have added : Scalar.add held entry.2 = entry.2 + held := add_comm held entry.2
    rw [former, Option.getD_some, added, ← add_assoc]
    split <;> simp

theorem weigh_tally (entries : List (κ × Rat)) :
    weigh wanted (tally entries).entries = weigh wanted entries := by
  induction entries using List.reverseRecOn with
  | nil => rfl
  | append_singleton entries last induction =>
    have step := weigh_addWeight wanted (distinct_tally entries) last
    rw [induction, ← weigh_cons] at step
    rw [tally, List.foldl_append]
    exact step.trans (weigh_eq_of_perm _ (List.perm_append_singleton last entries).symm)

theorem mem_keys_tally {entries : List (κ × Rat)} {entry : κ × Rat} (member : entry ∈ entries) :
    entry.1 ∈ (tally entries).keys := by
  induction entries using List.reverseRecOn with
  | nil => exact absurd member List.not_mem_nil
  | append_singleton entries last induction =>
    have keys : (tally (entries ++ [last])).keys = if (tally entries).has last.1
        then (tally entries).keys else (tally entries).keys ++ [last.1] := by
      rw [tally, List.foldl_append]
      exact Table.keys_put (tally entries) last.1 _
    rw [keys]
    rcases List.mem_append.mp member with earlier | isLast
    · split
      · exact induction earlier
      · exact List.mem_append_left _ (induction earlier)
    · rw [List.mem_singleton.mp isLast]
      split
      case isTrue present => exact Table.has_iff_mem_keys.mp present
      case isFalse => exact List.mem_append_right _ (List.mem_singleton_self _)

theorem weigh_eq_of_mem_tally {entries : List (κ × Rat)} {entry : κ × Rat}
    (member : entry ∈ (tally entries).entries) : weigh (· = entry.1) entries = entry.2 := by
  have found := (distinct_tally entries).get?_eq_some_iff.mpr
    (show (entry.1, entry.2) ∈ (tally entries).entries from member)
  rw [← weigh_tally, weigh_eq_of_perm _ ((distinct_tally entries).entries_perm_of_get? found),
    weigh_cons, if_pos rfl, weigh_eq_zero, add_zero]
  intro other isOther same
  simpa [same] using (List.mem_filter.mp isOther).2

end Weights

/-! ## The label that pulls most -/

section Choice

variable {edges : List (String × String × Rat)} {labels : Labels} {id label : String}

theorem mem_of_heaviest?_tally {entries : List (String × Rat)}
    (chosen : heaviest? (tally entries) = some label) : label ∈ entries.map Prod.fst := by
  rw [heaviest?_eq] at chosen
  obtain ⟨best, isBest, rfl⟩ := Option.map_eq_some_iff.mp chosen
  have some : (tally entries).entries ≠ [] := by
    intro empty
    simp [empty] at isBest
  obtain ⟨other, isOther, found, -⟩ := (ranks_outweighs (ranks_before _)).exists_best some
  rw [found] at isBest
  cases isBest
  exact mem_of_mem_keys_tally (List.mem_map_of_mem isOther)

/-- Of positive weights the label of the largest total is chosen, the smallest one on ties. -/
theorem exists_heaviest?_tally {entries : List (String × Rat)} (nonempty : entries ≠ [])
    (positive : ∀ entry ∈ entries, 0 < entry.2) :
    ∃ label, heaviest? (tally entries) = some label ∧
      ∀ other, weigh (· = other) entries ≤ weigh (· = label) entries ∧
        (weigh (· = other) entries = weigh (· = label) entries →
          other = label ∨ Text.before label other) := by
  obtain ⟨first, isFirst⟩ := List.exists_mem_of_ne_nil entries nonempty
  have some : (tally entries).entries ≠ [] := by
    intro empty
    simpa [Table.keys, empty] using mem_keys_tally isFirst
  obtain ⟨best, isBest, found, unbeaten⟩ := (ranks_outweighs (ranks_before _)).exists_best some
  have total := weigh_eq_of_mem_tally isBest
  obtain ⟨given, isGiven, sameKey⟩ :=
    List.mem_map.mp (mem_of_mem_keys_tally (List.mem_map_of_mem isBest))
  have totalPos : 0 < weigh (· = best.1) entries := weigh_pos positive isGiven sameKey
  refine ⟨best.1, by rw [heaviest?_eq, found]; rfl, fun other => ?_⟩
  by_cases held : other ∈ entries.map Prod.fst
  · -- Labels that are held are among those that were compared.
    obtain ⟨holder, isHolder, rfl⟩ := List.mem_map.mp held
    obtain ⟨entry, isEntry, sameEntry⟩ := List.mem_map.mp (mem_keys_tally isHolder)
    rw [← sameEntry]
    have notBetter := unbeaten entry isEntry
    rw [outweighs_iff, ← weigh_eq_of_mem_tally isEntry, ← total, not_or, not_lt, not_and]
      at notBetter
    refine ⟨notBetter.1, fun tie => ?_⟩
    by_cases same : entry.1 = best.1
    · exact .inl same
    · exact .inr (Text.before_of_not_before (Ne.symm same) (notBetter.2 tie.symm))
  · have nothing : weigh (· = other) entries = 0 :=
      weigh_eq_zero fun entry member same => held (List.mem_map.mpr ⟨entry, member, same⟩)
    rw [nothing]
    exact ⟨totalPos.le, fun tie => absurd tie totalPos.ne⟩

theorem weigh_labelled (entries : List (String × Rat)) :
    weigh (· = label) (labelled labels entries) =
      weigh (fun other => labels.get? other = some label) entries := by
  induction entries with
  | nil => rfl
  | cons entry entries induction =>
    rw [weigh_cons, ← induction, labelled, List.filterMap_cons]
    cases found : labels.get? entry.1 with
    | none => simp [labelled]
    | some held => simp [labelled, weigh_cons]

theorem pull_eq (edges : List (String × String × Rat)) (labels : Labels) (id label : String) :
    pull edges labels id label = weigh (· = label)
      (labelled labels (neighboursOf (Adjacency.ofEdges edges) id)) := by
  rw [weigh_labelled, neighboursOf_ofEdges, weigh_tally, weigh, stepsFrom, List.filter_map,
    List.filter_filter, List.map_map, pull]
  simp only [Function.comp_def, Bool.decide_and, Bool.and_comm]

theorem joins_of_mem_neighboursOf {entry : String × Rat}
    (member : entry ∈ neighboursOf (Adjacency.ofEdges edges) id) : Joins edges id entry.1 := by
  rw [neighboursOf_ofEdges] at member
  obtain ⟨⟨other, weight⟩, isStep, same⟩ :=
    List.mem_map.mp (mem_of_mem_keys_tally (List.mem_map_of_mem member))
  rw [← same]
  exact exists_mem_stepsOf_iff.mp ⟨weight, mem_stepsFrom_iff.mp isStep⟩

theorem exists_mem_neighboursOf (joins : Joins edges id label) :
    ∃ weight, (label, weight) ∈ neighboursOf (Adjacency.ofEdges edges) id := by
  obtain ⟨weight, isStep⟩ := exists_mem_stepsOf_iff.mpr joins
  have held := mem_keys_tally (mem_stepsFrom_iff.mpr isStep)
  obtain ⟨entry, isEntry, same⟩ := List.mem_map.mp held
  refine ⟨entry.2, ?_⟩
  rw [neighboursOf_ofEdges, ← show entry.1 = label from same]
  exact isEntry

theorem pos_of_mem_neighboursOf (positive : ∀ edge ∈ edges, 0 < edge.2.2) {entry : String × Rat}
    (member : entry ∈ neighboursOf (Adjacency.ofEdges edges) id) : 0 < entry.2 := by
  rw [neighboursOf_ofEdges] at member
  have given := mem_of_mem_keys_tally (List.mem_map_of_mem member)
  obtain ⟨step, isStep, same⟩ := List.mem_map.mp given
  rw [← weigh_eq_of_mem_tally member]
  refine weigh_pos (fun other isOther => ?_) isStep same
  exact pos_of_mem_stepsOf positive (mem_stepsFrom_iff.mp isOther)

/-- An id with a neighbour that has a label chooses the label that pulls it most, the smallest one
on ties. -/
theorem exists_choice (positive : ∀ edge ∈ edges, 0 < edge.2.2) {other held : String}
    (joins : Joins edges id other) (isHeld : labels.get? other = some held) :
    ∃ label, heaviest? (tally (labelled labels (neighboursOf (Adjacency.ofEdges edges) id))) =
        some label ∧
      ∀ other, pull edges labels id other ≤ pull edges labels id label ∧
        (pull edges labels id other = pull edges labels id label →
          other = label ∨ Text.before label other) := by
  obtain ⟨weight, isNeighbour⟩ := exists_mem_neighboursOf joins
  have member : (held, weight) ∈
      labelled labels (neighboursOf (Adjacency.ofEdges edges) id) :=
    List.mem_filterMap.mpr ⟨(other, weight), isNeighbour, by rw [isHeld]; rfl⟩
  simp only [pull_eq]
  apply exists_heaviest?_tally (List.ne_nil_of_mem member)
  intro entry isEntry
  obtain ⟨neighbour, isNeighbour, isLabelled⟩ := List.mem_filterMap.mp isEntry
  obtain ⟨_, _, rfl⟩ := Option.map_eq_some_iff.mp isLabelled
  have weightPos : 0 < neighbour.2 := pos_of_mem_neighboursOf positive isNeighbour
  exact weightPos

end Choice

/-! ## Labels stay connected -/

/-- Every id of a list, and nothing else, has a label, which is one of the ids and connected with
it by edges among them. -/
structure Connected (edges : List (String × String × Rat)) (ids : List String)
    (labels : Labels) : Prop where
  /-- No id has two labels. -/
  distinct : labels.Distinct
  /-- Every id has a label. -/
  exists_label : ∀ id ∈ ids, ∃ label, labels.get? id = some label
  /-- Labels are ids that edges lead to. -/
  reaches : ∀ id label, labels.get? id = some label → id ∈ ids ∧ label ∈ ids ∧
    Relation.ReflTransGen (JoinsAmong edges ids) id label

/-- The labels before the first sweep: every id is its own label. -/
def startLabels (ids : List String) : Labels :=
  Table.ofList ((Text.sort ids).map fun id => (id, id))

theorem get?_startLabels_of_mem {ids : List String} {id : String} (member : id ∈ ids) :
    (startLabels ids).get? id = some id := by
  have isEntry : (id, id) ∈ (Text.sort ids).map fun id => (id, id) :=
    List.mem_map.mpr ⟨id, Text.mem_sort.mpr member, rfl⟩
  have found : ((Text.sort ids).map fun id => (id, id)).reverse.find? (·.1 = id) ≠ none := by
    intro none
    simpa using List.find?_eq_none.mp none (id, id) (List.mem_reverse.mpr isEntry)
  obtain ⟨entry, isFound⟩ := Option.ne_none_iff_exists'.mp found
  have matched : entry.1 = id := by simpa using List.find?_some isFound
  obtain ⟨other, -, rfl⟩ :=
    List.mem_map.mp (List.mem_reverse.mp (List.mem_of_find?_eq_some isFound))
  rw [startLabels, Table.ofList, Table.get?_putAll, isFound]
  exact congrArg some matched

theorem connected_startLabels (edges : List (String × String × Rat)) (ids : List String) :
    Connected edges ids (startLabels ids) where
  distinct := Table.distinct_ofList _
  exists_label id member := ⟨id, get?_startLabels_of_mem member⟩
  reaches id label found := by
    obtain ⟨other, isOther, same⟩ := List.mem_map.mp (Table.mem_of_get?_ofList found)
    cases same
    have member := Text.mem_sort.mp isOther
    exact ⟨member, member, .refl⟩

section Sweeps

variable {edges : List (String × String × Rat)} {ids : List String} {labels : Labels}

/-- An id takes over the label of a neighbour, which is connected with the neighbour and so with
the id. -/
theorem Connected.relabel (connected : Connected edges ids labels) {id : String}
    (member : id ∈ ids) :
    Connected edges ids (relabel (Adjacency.ofEdges edges) labels id) := by
  rw [relabel_eq]
  split
  case h_2 => exact connected
  case h_1 label chosen =>
    obtain ⟨entry, isEntry, rfl⟩ := List.mem_map.mp (mem_of_heaviest?_tally chosen)
    obtain ⟨neighbour, isNeighbour, isLabelled⟩ := List.mem_filterMap.mp isEntry
    obtain ⟨held, isHeld, rfl⟩ := Option.map_eq_some_iff.mp isLabelled
    obtain ⟨neighbourMember, heldMember, path⟩ := connected.reaches neighbour.1 held isHeld
    have step : JoinsAmong edges ids id neighbour.1 :=
      ⟨member, neighbourMember, joins_of_mem_neighboursOf isNeighbour⟩
    refine ⟨connected.distinct.put id held, fun other isOther => ?_, fun other label found => ?_⟩
    · rw [Table.get?_put]
      split
      · exact ⟨held, rfl⟩
      · exact connected.exists_label other isOther
    · rw [Table.get?_put] at found
      split at found
      case isTrue same =>
        cases found
        rw [same]
        exact ⟨member, heldMember, .head step path⟩
      case isFalse => exact connected.reaches other label found

theorem Connected.sweep (connected : Connected edges ids labels) {order : List String}
    (subset : order ⊆ ids) :
    Connected edges ids (sweep (Adjacency.ofEdges edges) order labels) := by
  induction order generalizing labels with
  | nil => exact connected
  | cons id order induction =>
    obtain ⟨isId, areIds⟩ := List.cons_subset.mp subset
    exact induction (connected.relabel isId) areIds

/-- Sweeps that stop when nothing changes do what all of them would do. -/
theorem sweeps_eq_iterate {α : Type} [Scalar α] (adjacency : Adjacency α) (order : List String)
    (count : Nat) (labels : Labels) :
    sweeps adjacency order count labels = (sweep adjacency order)^[count] labels := by
  induction count generalizing labels with
  | zero => rfl
  | succ count induction =>
    rw [sweeps]
    split
    case isTrue unchanged =>
      have fixed : Cluster.sweep adjacency order labels = labels :=
        Table.eq_of_entries_eq unchanged
      exact (Function.iterate_fixed fixed (count + 1)).symm
    case isFalse => rw [induction, Function.iterate_succ_apply]

theorem Connected.iterate (connected : Connected edges ids labels) {order : List String}
    (subset : order ⊆ ids) (count : Nat) :
    Connected edges ids ((Cluster.sweep (Adjacency.ofEdges edges) order)^[count] labels) := by
  induction count with
  | zero => exact connected
  | succ count induction =>
    rw [Function.iterate_succ_apply']
    exact induction.sweep subset

/-! ## Sweeps that change nothing -/

theorem get?_sweep_of_notMem {α : Type} [Scalar α] (adjacency : Adjacency α) {order : List String}
    {id : String} (absent : id ∉ order) (labels : Labels) :
    (Cluster.sweep adjacency order labels).get? id = labels.get? id := by
  induction order generalizing labels with
  | nil => rfl
  | cons first order induction =>
    rw [List.mem_cons, not_or] at absent
    refine (induction absent.2 _).trans ?_
    rw [relabel_eq]
    split
    · exact Table.get?_put_of_ne labels absent.1 _
    · rfl

variable (edges) in
/-- An id is no neighbour of itself, so its choice does not depend on its own label. -/
theorem relabel_relabel (labels : Labels) (id : String) :
    relabel (Adjacency.ofEdges edges) (relabel (Adjacency.ofEdges edges) labels id) id =
      relabel (Adjacency.ofEdges edges) labels id := by
  rw [relabel_eq _ labels]
  split
  case h_2 none => rw [relabel_eq, none]
  case h_1 label chosen =>
    have same : labelled (labels.put id label) (neighboursOf (Adjacency.ofEdges edges) id) =
        labelled labels (neighboursOf (Adjacency.ofEdges edges) id) := by
      refine List.filterMap_congr fun entry member => ?_
      have different := (joins_of_mem_neighboursOf member).1
      rw [Table.get?_put_of_ne labels (Ne.symm different)]
    rw [relabel_eq, same, chosen]
    exact Table.put_put labels id label label

theorem relabel_eq_self {α : Type} [Scalar α] {adjacency : Adjacency α} {labels : Labels}
    (distinct : labels.Distinct) {id : String}
    (kept : (Cluster.relabel adjacency labels id).get? id = labels.get? id) :
    Cluster.relabel adjacency labels id = labels := by
  rw [relabel_eq] at kept ⊢
  split
  case h_2 => rfl
  case h_1 label chosen =>
    rw [chosen] at kept
    exact distinct.put_eq_self (kept.symm.trans (Table.get?_put_self labels id label))

/-- Nothing that a sweep over sorted ids changes is changed back in the same sweep. -/
theorem Connected.relabel_eq_of_sweep_eq (connected : Connected edges ids labels)
    {order : List String} (sorted : order.Pairwise fun left right => Text.notAfter left right)
    (fixed : Cluster.sweep (Adjacency.ofEdges edges) order labels = labels) :
    ∀ id ∈ order, Cluster.relabel (Adjacency.ofEdges edges) labels id = labels := by
  induction order with
  | nil => exact fun id member => absurd member List.not_mem_nil
  | cons first order induction =>
    obtain ⟨least, sortedRest⟩ := List.pairwise_cons.mp sorted
    by_cases again : first ∈ order
    · -- The id comes again at once, and the second time it chooses as the first time.
      obtain ⟨next, rest, rfl⟩ := List.exists_cons_of_ne_nil (List.ne_nil_of_mem again)
      have same : next = first := by
        rcases List.mem_cons.mp again with same | later
        · exact same.symm
        · exact antisymm (r := fun left right => Text.notAfter left right = true)
            ((List.pairwise_cons.mp sortedRest).1 first later) (least next List.mem_cons_self)
      subst same
      have once := congrArg (Cluster.sweep (Adjacency.ofEdges edges) rest)
        (relabel_relabel edges labels next)
      intro id member
      apply induction sortedRest (once.symm.trans fixed)
      rcases List.mem_cons.mp member with rfl | later
      · exact again
      · exact later
    · have unchanged : Cluster.relabel (Adjacency.ofEdges edges) labels first = labels := by
        apply relabel_eq_self connected.distinct
        rw [← get?_sweep_of_notMem (Adjacency.ofEdges edges) again]
        exact congrArg (Table.get? · first) fixed
      have fixedRest : Cluster.sweep (Adjacency.ofEdges edges) order
          (Cluster.relabel (Adjacency.ofEdges edges) labels first) = labels := fixed
      rw [unchanged] at fixedRest
      intro id member
      rcases List.mem_cons.mp member with rfl | later
      · exact unchanged
      · exact induction sortedRest fixedRest id later

/-- Labels that a sweep does not change are those that pull most, the smallest ones on ties. -/
theorem Connected.exists_label_of_sweep_eq (connected : Connected edges ids labels)
    (positive : ∀ edge ∈ edges, 0 < edge.2.2)
    (fixed : Cluster.sweep (Adjacency.ofEdges edges) (Text.sort ids) labels = labels)
    {id other : String} (joins : JoinsAmong edges ids id other) :
    ∃ label, labels.get? id = some label ∧
      ∀ other, pull edges labels id other ≤ pull edges labels id label ∧
        (pull edges labels id other = pull edges labels id label →
          other = label ∨ Text.before label other) := by
  obtain ⟨member, isOther, joined⟩ := joins
  obtain ⟨held, isHeld⟩ := connected.exists_label other isOther
  obtain ⟨label, chosen, largest⟩ := exists_choice positive joined isHeld
  refine ⟨label, ?_, largest⟩
  have unchanged := connected.relabel_eq_of_sweep_eq (Text.pairwise_sort ids) fixed id
    (Text.mem_sort.mpr member)
  rw [relabel_eq, chosen] at unchanged
  rw [← unchanged]
  exact Table.get?_put_self labels id label

end Sweeps

/-- One of the sweeps over the ids that are run changes nothing. It is the last one, since a run
ends with it. -/
def Settles (ids : List String) (adjacency : Adjacency Rat) (maxSweeps : Nat) : Prop :=
  ∃ count < maxSweeps, (sweep adjacency (Text.sort ids))^[count + 1] (startLabels ids) =
    (sweep adjacency (Text.sort ids))^[count] (startLabels ids)

theorem Settles.sweep_propagate {ids : List String} {adjacency : Adjacency Rat} {maxSweeps : Nat}
    (settles : Settles ids adjacency maxSweeps) :
    sweep adjacency (Text.sort ids) (propagate ids adjacency maxSweeps) =
      propagate ids adjacency maxSweeps := by
  obtain ⟨count, below, fixed⟩ := settles
  obtain ⟨more, rfl⟩ := Nat.exists_eq_add_of_lt below
  rw [Function.iterate_succ_apply'] at fixed
  have last : propagate ids adjacency (count + more + 1) =
      (sweep adjacency (Text.sort ids))^[count] (startLabels ids) := by
    rw [propagate, sweeps_eq_iterate, show count + more + 1 = more + 1 + count by omega,
      Function.iterate_add_apply]
    exact Function.iterate_fixed fixed (more + 1)
  rw [last]
  exact fixed

/-- Propagation over edges of positive weights gives every id a label that is one of the ids and
connected with it by edges among the ids. It does not depend on the order of the ids. If the last
sweep has changed nothing, every id with a neighbour among the ids has the label with the largest
total weight of edges to ids that have it, the smallest such label on ties. -/
theorem propagate_settles (ids : List String) {edges : List (String × String × Rat)}
    (positive : ∀ edge ∈ edges, 0 < edge.2.2) (maxSweeps : Nat) :
    let adjacency := Adjacency.ofEdges edges
    let labels := propagate ids adjacency maxSweeps
    (∀ id ∈ ids, ∃ label ∈ ids, labels.get? id = some label ∧
        Relation.ReflTransGen (JoinsAmong edges ids) id label) ∧
      (∀ others, ids.Perm others → propagate others adjacency maxSweeps = labels) ∧
      (Settles ids adjacency maxSweeps → ∀ id other, JoinsAmong edges ids id other →
        ∃ label, labels.get? id = some label ∧
          ∀ other, pull edges labels id other ≤ pull edges labels id label ∧
            (pull edges labels id other = pull edges labels id label →
              other = label ∨ Text.before label other)) := by
  intro adjacency labels
  have connected : Connected edges ids labels := by
    have isIterate : labels = (sweep adjacency (Text.sort ids))^[maxSweeps] (startLabels ids) :=
      sweeps_eq_iterate adjacency (Text.sort ids) maxSweeps (startLabels ids)
    rw [isIterate]
    exact (connected_startLabels edges ids).iterate (Text.sort_perm ids).subset maxSweeps
  refine ⟨fun id member => ?_, fun others perm => ?_, fun settles id other joins => ?_⟩
  · obtain ⟨label, found⟩ := connected.exists_label id member
    obtain ⟨-, isId, path⟩ := connected.reaches id label found
    exact ⟨label, isId, found, path⟩
  · have same : SameNeighbours adjacency adjacency := fun id => .refl _
    exact (same.propagate_eq perm maxSweeps).symm
  · exact connected.exists_label_of_sweep_eq positive settles.sweep_propagate joins

/-- A row of four ids in which two edges join the middle ones, with a neighbour that is no id and an
edge that leads nowhere: the third of the sweeps changes nothing. -/
theorem propagate_settles_row :
    let edges : List (String × String × Rat) :=
      [("a", "b", 1), ("b", "c", 1), ("c", "b", 1 / 2), ("c", "d", 1), ("a", "z", 5), ("d", "d", 1)]
    let ids := ["d", "b", "a", "c"]
    let labels := propagate ids (Adjacency.ofEdges edges) 4
    (∀ edge ∈ edges, 0 < edge.2.2) ∧ Settles ids (Adjacency.ofEdges edges) 4 ∧
      JoinsAmong edges ids "b" "a" ∧
      (∃ label ∈ ids, labels.get? "b" = some label ∧
        Relation.ReflTransGen (JoinsAmong edges ids) "b" label) ∧
      ∃ label, labels.get? "b" = some label ∧
        ∀ other, pull edges labels "b" other ≤ pull edges labels "b" label ∧
          (pull edges labels "b" other = pull edges labels "b" label →
            other = label ∨ Text.before label other) := by
  intro edges ids labels
  have positive : ∀ edge ∈ edges, 0 < edge.2.2 := by decide +kernel
  have sorted : Text.sort ids = ["a", "b", "c", "d"] := by
    rw [Text.sort_eq_insertionSort]
    decide +kernel
  have settles : Settles ids (Adjacency.ofEdges edges) 4 := by
    refine ⟨2, by decide, ?_⟩
    rw [startLabels, sorted]
    apply Table.eq_of_entries_eq
    decide +kernel
  have joins : JoinsAmong edges ids "b" "a" :=
    ⟨by decide, by decide, by decide, ("a", "b", 1), List.mem_cons_self, .inr ⟨rfl, rfl⟩⟩
  obtain ⟨connected, -, settled⟩ := propagate_settles ids positive 4
  exact ⟨positive, settles, joins, connected "b" joins.1, settled settles "b" "a" joins⟩

end Cluster
end CodeAtlas
