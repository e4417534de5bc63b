import CodeAtlas.Graph.Component
import CodeAtlas.Proofs.Graph.Search
import CodeAtlas.Proofs.Table

/-!
# What a tour finds

A tour keeps its nodes in three ways: the nodes it is inside of lie on the stack in the same order,
those on the stack are numbered downwards, and all others that it has met are in groups. From the
node that it entered last it comes to everything above that node on the stack, and from everything
on the stack it comes back to a node that it is inside of. So the part of the stack that is closed
into a group is exactly a component, and what its nodes lead to is in the group or in an earlier
one.
-/

namespace CodeAtlas
namespace Tour

variable {next : Nat → List Nat} {size : Nat} {tour : Tour}

/-- The nodes that a tour is inside of, last first. -/
def inside (tour : Tour) : List Nat := tour.frames.map Frame.node

/-- A tour has looked at a child of a node. -/
def Looked (next : Nat → List Nat) (tour : Tour) (node child : Nat) : Prop :=
  child ∈ next node ∧ ∀ frame ∈ tour.frames, frame.node = node → child ∉ frame.ahead

/-- Where the nodes of a tour are. -/
structure Placed (next : Nat → List Nat) (size : Nat) (tour : Tour) : Prop where
  /-- No node has two places. -/
  nodup : (tour.stack ++ tour.groups.flatten).Nodup
  /-- The nodes that have been met are on the stack or in a group. -/
  met : ∀ node, tour.hasMet node ↔ node ∈ tour.stack ++ tour.groups.flatten
  /-- Nodes are below the bound. -/
  below : ∀ node, tour.hasMet node → node < size
  /-- Numbers are below the one that is given next. -/
  numbered : ∀ node, tour.hasMet node → tour.number node < tour.numbers.size
  /-- Numbers go down along the stack. -/
  descending : tour.stack.Pairwise fun upper lower => tour.number lower < tour.number upper
  /-- The nodes that the tour is inside of are on the stack in this order. -/
  nested : tour.inside.Sublist tour.stack
  /-- What is ahead are children. -/
  ahead : ∀ frame ∈ tour.frames, frame.ahead ⊆ next frame.node

/-- What a tour knows of the nodes on its stack. -/
structure Traced (next : Nat → List Nat) (tour : Tour) : Prop where
  /-- What has been looked at has been met. -/
  looked : ∀ node ∈ tour.stack, ∀ child, tour.Looked next node child → tour.hasMet child
  /-- A node that the tour is inside of leads to all above it. -/
  leads : ∀ node ∈ tour.inside, ∀ upper ∈ tour.stack, tour.number node ≤ tour.number upper →
    Search.Reaches next node upper
  /-- Every node leads back to one that the tour is inside of. -/
  returns : ∀ node ∈ tour.stack, ∃ lower ∈ tour.inside, tour.number lower ≤ tour.number node ∧
    Search.Reaches next node lower
  /-- The mark of a node is the number of one that it leads to. -/
  marked : ∀ node ∈ tour.inside, tour.mark node ≤ tour.number node ∧
    ∃ lower ∈ tour.stack, tour.number lower = tour.mark node ∧ Search.Reaches next node lower
  /-- What has been looked at from above a node is known to it or to a node entered since. -/
  seen : ∀ node ∈ tour.inside, ∀ upper ∈ tour.stack, tour.number node ≤ tour.number upper →
    ∀ child ∈ tour.stack, tour.Looked next upper child →
      ∃ later ∈ tour.inside, tour.number node ≤ tour.number later ∧
        tour.mark later ≤ tour.number child

/-- The groups of a tour are components, each after those it leads to. -/
structure Settled (next : Nat → List Nat) (groups : List (List Nat)) : Prop where
  /-- Groups are not empty. -/
  nonempty : ∀ group ∈ groups, group ≠ []
  /-- The nodes of a group lead to each other. -/
  together : ∀ group ∈ groups, ∀ first ∈ group, ∀ second ∈ group,
    Search.Reaches next first second
  /-- What the nodes of a group lead to is in that group or in an earlier one. -/
  ordered : ∀ (place : Nat) (group : List Nat), groups[place]? = some group →
    ∀ node ∈ group, ∀ child ∈ next node,
      ∃ earlier ≤ place, ∃ other, groups[earlier]? = some other ∧ child ∈ other

/-- All that stays true along a tour. -/
structure Sound (next : Nat → List Nat) (size : Nat) (tour : Tour) : Prop where
  /-- The nodes are where they should be. -/
  placed : Placed next size tour
  /-- What is known of the stack is true. -/
  traced : Traced next tour
  /-- The groups are components. -/
  settled : Settled next tour.groups

/-! ## Numbers and marks -/

theorem hasMet_enter (node other : Nat) :
    (tour.enter next node).hasMet other ↔ other = node ∨ tour.hasMet other := by
  have keys := @Table.has_iff_mem_keys _ _ _ tour.numbers other
  rw [hasMet, hasMet, keys, Table.has_iff_mem_keys, enter, Table.keys_put]
  split
  case isTrue present =>
    rw [Table.has_iff_mem_keys] at present
    refine ⟨.inr, ?_⟩
    rintro (rfl | member)
    · exact present
    · exact member
  case isFalse => simp [or_comm]

theorem number_enter (node other : Nat) :
    (tour.enter next node).number other =
      if other = node then tour.numbers.size else tour.number other := by
  rw [number, enter, Table.get?_put]
  split <;> rfl

theorem mark_enter (node other : Nat) :
    (tour.enter next node).mark other =
      if other = node then tour.numbers.size else tour.mark other := by
  rw [mark, enter, Table.get?_put]
  split <;> rfl

theorem mark_lower (node least other : Nat) :
    (tour.lower node least).mark other =
      if other = node then min (tour.mark node) least else tour.mark other := by
  rw [mark, lower, Table.get?_put]
  split <;> rfl

theorem mark_lower_le (node least other : Nat) :
    (tour.lower node least).mark other ≤ tour.mark other := by
  rw [mark_lower]
  split
  case isTrue same => exact same ▸ Nat.min_le_left _ _
  case isFalse => exact Nat.le_refl _

theorem size_numbers_enter {node : Nat} (unmet : tour.hasMet node = false) :
    (tour.enter next node).numbers.size = tour.numbers.size + 1 := by
  have absent : tour.numbers.has node = false := unmet
  rw [enter, Table.put, absent]
  simp [Table.size]

/-- What a tour makes a group of when it closes a node. -/
theorem close_eq (tour : Tour) {node : Nat} {above below : List Nat}
    (isStack : tour.stack = above ++ node :: below) (notAbove : node ∉ above) :
    tour.close node =
      { tour with stack := below, groups := tour.groups ++ [above ++ [node]] } := by
  have differs : ∀ other ∈ above, (other != node) = true := by
    intro other member
    exact bne_iff_ne.mpr fun same => notAbove (same ▸ member)
  have taken : tour.stack.takeWhile (· != node) = above := by
    rw [isStack, List.takeWhile_append_of_pos differs]
    simp
  have dropped : tour.stack.dropWhile (· != node) = node :: below := by
    rw [isStack, List.dropWhile_append_of_pos differs]
    simp
  rw [close, taken, dropped]
  rfl

/-! ## Places -/

theorem inside_eq {top : Frame} {frames : List Frame} (isTop : tour.frames = top :: frames) :
    tour.inside = top.node :: frames.map Frame.node := by
  rw [inside, isTop, List.map_cons]

theorem top_mem_inside {top : Frame} {frames : List Frame} (isTop : tour.frames = top :: frames) :
    top.node ∈ tour.inside :=
  inside_eq isTop ▸ List.mem_cons_self

theorem Placed.hasMet_of_mem_stack (placed : Placed next size tour) {node : Nat}
    (member : node ∈ tour.stack) : tour.hasMet node :=
  (placed.met node).mpr (List.mem_append_left _ member)

theorem Placed.mem_stack_of_mem_inside (placed : Placed next size tour) {node : Nat}
    (member : node ∈ tour.inside) : node ∈ tour.stack :=
  placed.nested.subset member

/-- The node that a tour has entered last has a larger number than the others it is inside of. -/
theorem Placed.number_lt_top (placed : Placed next size tour) {top : Frame} {frames : List Frame}
    (isTop : tour.frames = top :: frames) {node : Nat} (member : node ∈ frames.map Frame.node) :
    tour.number node < tour.number top.node := by
  have sorted := placed.descending.sublist placed.nested
  rw [inside_eq isTop, List.pairwise_cons] at sorted
  exact sorted.1 node member

theorem Placed.number_le_top (placed : Placed next size tour) {top : Frame} {frames : List Frame}
    (isTop : tour.frames = top :: frames) {node : Nat} (member : node ∈ tour.inside) :
    tour.number node ≤ tour.number top.node := by
  rw [inside_eq isTop, List.mem_cons] at member
  rcases member with rfl | member
  · exact Nat.le_refl _
  · exact Nat.le_of_lt (placed.number_lt_top isTop member)

theorem Placed.enter (placed : Placed next size tour) {node : Nat} (node_lt : node < size)
    (unmet : tour.hasMet node = false) : Placed next size (tour.enter next node) := by
  have ne_of_met {other : Nat} (met : tour.hasMet other) : other ≠ node := by
    rintro rfl
    simp [unmet] at met
  refine ⟨?_, ?_, ?_, ?_, ?_, ?_, ?_⟩
  · refine List.nodup_cons.mpr ⟨fun member => ?_, placed.nodup⟩
    exact ne_of_met ((placed.met node).mpr member) rfl
  · intro other
    rw [hasMet_enter, placed.met]
    exact List.mem_cons.symm
  · intro other met
    rcases (hasMet_enter node other).mp met with rfl | met
    · exact node_lt
    · exact placed.below other met
  · intro other met
    rw [number_enter, size_numbers_enter unmet]
    split
    case isTrue => exact Nat.lt_succ_self _
    case isFalse different =>
      have earlier := ((hasMet_enter node other).mp met).resolve_left different
      exact Nat.lt_succ_of_lt (placed.numbered other earlier)
  · refine List.pairwise_cons.mpr ⟨fun other member => ?_, placed.descending.imp_of_mem ?_⟩
    · have met := placed.hasMet_of_mem_stack member
      rw [number_enter, if_neg (ne_of_met met), number_enter, if_pos rfl]
      exact placed.numbered other met
    · intro upper lower isUpper isLower ordered
      rw [number_enter, if_neg (ne_of_met (placed.hasMet_of_mem_stack isLower)), number_enter,
        if_neg (ne_of_met (placed.hasMet_of_mem_stack isUpper))]
      exact ordered
  · exact placed.nested.cons_cons node
  · intro frame member
    rcases List.mem_cons.mp member with rfl | member
    · exact List.Subset.refl _
    · exact placed.ahead frame member

theorem Placed.lower (placed : Placed next size tour) (node least : Nat) :
    Placed next size (tour.lower node least) :=
  ⟨placed.nodup, placed.met, placed.below, placed.numbered, placed.descending, placed.nested,
    placed.ahead⟩

theorem Placed.leave (placed : Placed next size tour) {top : Frame} {frames : List Frame}
    (isTop : tour.frames = top :: frames) : Placed next size { tour with frames := frames } := by
  refine ⟨placed.nodup, placed.met, placed.below, placed.numbered, placed.descending, ?_, ?_⟩
  · have nested := placed.nested
    rw [inside_eq isTop] at nested
    exact (List.sublist_cons_self top.node _).trans nested
  · exact fun frame member => placed.ahead frame (isTop ▸ List.mem_cons_of_mem top member)

/-- Going on to the next child of a node changes no place. -/
theorem Placed.advance (placed : Placed next size tour) {above frames : List Frame}
    {node child : Nat} {ahead : List Nat}
    (isFrames : tour.frames = above ++ ⟨node, child :: ahead⟩ :: frames) :
    Placed next size { tour with frames := above ++ ⟨node, ahead⟩ :: frames } := by
  refine ⟨placed.nodup, placed.met, placed.below, placed.numbered, placed.descending, ?_, ?_⟩
  · have nested := placed.nested
    rw [inside, isFrames, List.map_append, List.map_cons] at nested
    rw [inside, List.map_append, List.map_cons]
    exact nested
  · intro frame member
    have old := placed.ahead
    rw [isFrames] at old
    rcases List.mem_append.mp member with isAbove | member
    · exact old frame (List.mem_append_left _ isAbove)
    rcases List.mem_cons.mp member with rfl | isBelow
    · have children := old ⟨node, child :: ahead⟩ (List.mem_append_right _ List.mem_cons_self)
      exact List.Subset.trans (List.subset_cons_self child ahead) children
    · exact old frame (List.mem_append_right _ (List.mem_cons_of_mem _ isBelow))

theorem Placed.exists_stack (placed : Placed next size tour) {top : Frame} {frames : List Frame}
    (isTop : tour.frames = top :: frames) :
    ∃ above below, tour.stack = above ++ top.node :: below ∧ top.node ∉ above ∧
      (frames.map Frame.node).Sublist below ∧
      (∀ node ∈ above ++ [top.node], tour.number top.node ≤ tour.number node) ∧
      ∀ node ∈ below, tour.number node < tour.number top.node := by
  have nested := placed.nested
  rw [inside_eq isTop] at nested
  obtain ⟨above, below, isStack⟩ := List.append_of_mem (nested.subset List.mem_cons_self)
  have sorted := placed.descending
  have nodup := placed.nodup.of_append_left
  rw [isStack] at nested sorted nodup
  have notAbove : top.node ∉ above := fun member =>
    (List.nodup_append.mp nodup).2.2 _ member _ List.mem_cons_self rfl
  obtain ⟨-, fromTop, across⟩ := List.pairwise_append.mp sorted
  refine ⟨above, below, isStack, notAbove, ?_, ?_, ?_⟩
  · clear isStack sorted nodup fromTop across
    induction above with
    | nil => exact List.cons_sublist_cons.mp nested
    | cons first above induction =>
      have different : top.node ≠ first := fun same => notAbove (same ▸ List.mem_cons_self)
      exact induction (nested.of_cons_of_ne different) fun member =>
        notAbove (List.mem_cons_of_mem first member)
  · intro node member
    rcases List.mem_append.mp member with isAbove | isTop
    · exact Nat.le_of_lt (across node isAbove top.node List.mem_cons_self)
    · exact Nat.le_of_eq (by rw [List.mem_singleton.mp isTop])
  · exact fun node member => (List.pairwise_cons.mp fromTop).1 node member

theorem Placed.close (placed : Placed next size tour) {node : Nat} {above below : List Nat}
    (isStack : tour.stack = above ++ node :: below) (notAbove : node ∉ above)
    (nested : tour.inside.Sublist below) : Placed next size (tour.close node) := by
  rw [close_eq tour isStack notAbove]
  have moved : (tour.stack ++ tour.groups.flatten).Perm
      (below ++ (tour.groups ++ [above ++ [node]]).flatten) := by
    rw [isStack, List.flatten_append, List.flatten_singleton, List.append_cons,
      List.append_assoc (above ++ [node]), ← List.append_assoc below]
    exact List.perm_append_comm
  refine ⟨moved.nodup_iff.mp placed.nodup, fun other => ?_, placed.below, placed.numbered, ?_,
    nested, placed.ahead⟩
  · rw [← moved.mem_iff]
    exact placed.met other
  · have sorted := placed.descending
    rw [isStack] at sorted
    exact (List.pairwise_cons.mp (List.pairwise_append.mp sorted).2.1).2

/-! ## What is known of the stack -/

theorem Traced.stack_eq_nil (traced : Traced next tour) (left : tour.frames = []) :
    tour.stack = [] := by
  refine List.eq_nil_iff_forall_not_mem.mpr fun node member => ?_
  obtain ⟨lower, isInside, -⟩ := traced.returns node member
  rw [inside, left] at isInside
  cases isInside

theorem Traced.reaches_top (traced : Traced next tour) (placed : Placed next size tour)
    {top : Frame} {frames : List Frame} (isTop : tour.frames = top :: frames) {node : Nat}
    (member : node ∈ tour.stack) : Search.Reaches next node top.node := by
  have topInside : top.node ∈ tour.inside := top_mem_inside isTop
  obtain ⟨lower, isInside, -, back⟩ := traced.returns node member
  exact back.trans (traced.leads lower isInside top.node
    (placed.mem_stack_of_mem_inside topInside) (placed.number_le_top isTop isInside))

/-- What a node leads to from which the tour goes down is reached from all that it is inside of. -/
theorem Traced.reaches_child (traced : Traced next tour) (placed : Placed next size tour)
    {child : Nat} (isChild : ∀ top ∈ tour.frames.head?, child ∈ next top.node) {node : Nat}
    (isInside : node ∈ tour.inside) : Search.Reaches next node child := by
  cases isTop : tour.frames with
  | nil =>
    rw [inside, isTop] at isInside
    cases isInside
  | cons top frames =>
    have topInside : top.node ∈ tour.inside := top_mem_inside isTop
    have down := traced.leads node isInside top.node (placed.mem_stack_of_mem_inside topInside)
      (placed.number_le_top isTop isInside)
    exact down.tail (isChild top (by rw [isTop]; rfl))

theorem Looked.of_enter {node upper child : Nat}
    (looked : (tour.enter next node).Looked next upper child) :
    upper ≠ node ∧ tour.Looked next upper child := by
  obtain ⟨isChild, unlooked⟩ := looked
  refine ⟨?_, isChild, fun frame member => unlooked frame (List.mem_cons_of_mem _ member)⟩
  rintro rfl
  exact unlooked ⟨upper, next upper⟩ List.mem_cons_self rfl isChild

theorem Traced.enter (traced : Traced next tour) (placed : Placed next size tour) {node : Nat}
    (unmet : tour.hasMet node = false)
    (isChild : ∀ top ∈ tour.frames.head?, node ∈ next top.node) :
    Traced next (tour.enter next node) := by
  have ne_of_mem {other : Nat} (member : other ∈ tour.stack) : other ≠ node := by
    rintro rfl
    simpa [unmet] using placed.hasMet_of_mem_stack member
  have number_of_mem {other : Nat} (member : other ∈ tour.stack) :
      (tour.enter next node).number other = tour.number other := by
    rw [number_enter, if_neg (ne_of_mem member)]
  have number_self : (tour.enter next node).number node = tour.numbers.size := by
    rw [number_enter, if_pos rfl]
  have onStack {other : Nat} (member : other ∈ tour.inside) : other ∈ tour.stack :=
    placed.mem_stack_of_mem_inside member
  have number_lt {other : Nat} (member : other ∈ tour.stack) :
      (tour.enter next node).number other < (tour.enter next node).number node := by
    rw [number_of_mem member, number_self]
    exact placed.numbered other (placed.hasMet_of_mem_stack member)
  -- The new node has the largest number, and none of its children has been looked at.
  refine ⟨?_, ?_, ?_, ?_, ?_⟩
  · intro upper member child looked
    obtain ⟨different, lookedBefore⟩ := looked.of_enter
    have old := (List.mem_cons.mp member).resolve_left different
    exact (hasMet_enter node child).mpr (.inr (traced.looked upper old child lookedBefore))
  · intro lower isInside upper member ordered
    rcases List.mem_cons.mp isInside with rfl | wasInside
    · rcases List.mem_cons.mp member with rfl | old
      · exact .refl
      · exact absurd ordered (Nat.not_le_of_lt (number_lt old))
    · rcases List.mem_cons.mp member with rfl | old
      · exact traced.reaches_child placed isChild wasInside
      · rw [number_of_mem (onStack wasInside), number_of_mem old] at ordered
        exact traced.leads lower wasInside upper old ordered
  · intro upper member
    rcases List.mem_cons.mp member with rfl | old
    · exact ⟨upper, List.mem_cons_self, Nat.le_refl _, .refl⟩
    · obtain ⟨lower, wasInside, ordered, back⟩ := traced.returns upper old
      refine ⟨lower, List.mem_cons_of_mem _ wasInside, ?_, back⟩
      rw [number_of_mem (onStack wasInside), number_of_mem old]
      exact ordered
  · intro upper isInside
    rcases List.mem_cons.mp isInside with rfl | wasInside
    · have marked : (tour.enter next upper).mark upper = (tour.enter next upper).number upper := by
        rw [mark_enter, number_enter, if_pos rfl, if_pos rfl]
      exact ⟨Nat.le_of_eq marked, upper, List.mem_cons_self, marked.symm, .refl⟩
    · obtain ⟨ordered, lower, old, sameNumber, down⟩ := traced.marked upper wasInside
      have marked : (tour.enter next node).mark upper = tour.mark upper := by
        rw [mark_enter, if_neg (ne_of_mem (onStack wasInside))]
      rw [marked, number_of_mem (onStack wasInside)]
      refine ⟨ordered, lower, List.mem_cons_of_mem _ old, ?_, down⟩
      rw [number_of_mem old, sameNumber]
  · intro lower isInside upper member ordered child isMember looked
    obtain ⟨different, lookedBefore⟩ := looked.of_enter
    have old := (List.mem_cons.mp member).resolve_left different
    have isOther : child ≠ node := by
      rintro rfl
      simpa [unmet] using traced.looked upper old child lookedBefore
    have childOld := (List.mem_cons.mp isMember).resolve_left isOther
    rcases List.mem_cons.mp isInside with rfl | wasInside
    · exact absurd ordered (Nat.not_le_of_lt (number_lt old))
    · rw [number_of_mem (onStack wasInside), number_of_mem old] at ordered
      obtain ⟨later, laterInside, after, known⟩ :=
        traced.seen lower wasInside upper old ordered child childOld lookedBefore
      refine ⟨later, List.mem_cons_of_mem _ laterInside, ?_, ?_⟩
      · rw [number_of_mem (onStack wasInside), number_of_mem (onStack laterInside)]
        exact after
      · rw [mark_enter, if_neg (ne_of_mem (onStack laterInside)), number_of_mem childOld]
        exact known

/-- A node may be marked with the number of any node on the stack that it leads to. -/
theorem Traced.lower (traced : Traced next tour) {node target : Nat}
    (isTarget : target ∈ tour.stack) (reaches : Search.Reaches next node target) :
    Traced next (tour.lower node (tour.number target)) := by
  refine ⟨traced.looked, traced.leads, traced.returns, fun other isInside => ?_, ?_⟩
  · obtain ⟨ordered, lower, member, sameNumber, down⟩ := traced.marked other isInside
    refine ⟨Nat.le_trans (mark_lower_le node _ other) ordered, ?_⟩
    rw [mark_lower]
    split
    case isFalse => exact ⟨lower, member, sameNumber, down⟩
    case isTrue same =>
      subst same
      rcases Nat.le_total (tour.mark other) (tour.number target) with kept | lowered
      · rw [Nat.min_eq_left kept]
        exact ⟨lower, member, sameNumber, down⟩
      · rw [Nat.min_eq_right lowered]
        exact ⟨target, isTarget, rfl, reaches⟩
  · intro lower isInside upper member ordered child isChild looked
    obtain ⟨later, laterInside, after, known⟩ :=
      traced.seen lower isInside upper member ordered child isChild looked
    exact ⟨later, laterInside, after, Nat.le_trans (mark_lower_le node _ later) known⟩

theorem inside_advance {above frames : List Frame} {node child : Nat} {ahead : List Nat}
    (isFrames : tour.frames = above ++ ⟨node, child :: ahead⟩ :: frames) :
    inside { tour with frames := above ++ ⟨node, ahead⟩ :: frames } = tour.inside := by
  rw [inside, inside, isFrames, List.map_append, List.map_append, List.map_cons, List.map_cons]

theorem Looked.of_advance {above frames : List Frame} {node child : Nat} {ahead : List Nat}
    (isFrames : tour.frames = above ++ ⟨node, child :: ahead⟩ :: frames) {upper other : Nat}
    (looked : Looked next { tour with frames := above ++ ⟨node, ahead⟩ :: frames } upper other) :
    (upper = node ∧ other = child) ∨ tour.Looked next upper other := by
  obtain ⟨isChild, unlooked⟩ := looked
  by_cases isNew : upper = node ∧ other = child
  · exact .inl isNew
  refine .inr ⟨isChild, fun frame member same => ?_⟩
  rw [isFrames] at member
  rcases List.mem_append.mp member with isAbove | member
  · exact unlooked frame (List.mem_append_left _ isAbove) same
  rcases List.mem_cons.mp member with rfl | isBelow
  · have later := unlooked ⟨node, ahead⟩ (List.mem_append_right _ List.mem_cons_self) same
    rw [List.mem_cons, not_or]
    exact ⟨fun isChild => isNew ⟨same.symm, isChild⟩, later⟩
  · exact unlooked frame (List.mem_append_right _ (List.mem_cons_of_mem _ isBelow)) same

/-- A tour may go on to the next child of a node as soon as the node knows of this one. -/
theorem Traced.advance (traced : Traced next tour) {above frames : List Frame} {node child : Nat}
    {ahead : List Nat} (isFrames : tour.frames = above ++ ⟨node, child :: ahead⟩ :: frames)
    (met : tour.hasMet child)
    (known : child ∈ tour.stack → tour.mark node ≤ tour.number child) :
    Traced next { tour with frames := above ++ ⟨node, ahead⟩ :: frames } := by
  have sameInside := inside_advance isFrames
  refine ⟨?_, ?_, ?_, ?_, ?_⟩
  · intro upper member other looked
    rcases looked.of_advance isFrames with ⟨rfl, rfl⟩ | looked
    · exact met
    · exact traced.looked upper member other looked
  · rw [sameInside]
    exact traced.leads
  · rw [sameInside]
    exact traced.returns
  · rw [sameInside]
    exact traced.marked
  · rw [sameInside]
    intro lower isInside upper member ordered other isChild looked
    rcases looked.of_advance isFrames with ⟨rfl, rfl⟩ | looked
    · have nodeInside : upper ∈ tour.inside := by
        rw [inside, isFrames, List.map_append, List.map_cons]
        exact List.mem_append_right _ List.mem_cons_self
      exact ⟨upper, nodeInside, ordered, known isChild⟩
    · exact traced.seen lower isInside upper member ordered other isChild looked

theorem Looked.of_leave {node : Nat} {frames : List Frame}
    (isTop : tour.frames = ⟨node, []⟩ :: frames) {upper child : Nat}
    (looked : Looked next { tour with frames := frames } upper child) :
    tour.Looked next upper child := by
  refine ⟨looked.1, fun frame member same => ?_⟩
  rw [isTop] at member
  rcases List.mem_cons.mp member with rfl | member
  · exact List.not_mem_nil
  · exact looked.2 frame member same

/-- A node that leads further down the stack is left once the node around it knows as much. -/
theorem Traced.leave (traced : Traced next tour) (placed : Placed next size tour) {node : Nat}
    {frames : List Frame} (isTop : tour.frames = ⟨node, []⟩ :: frames)
    (leadsDown : tour.mark node < tour.number node)
    (passed : ∀ parent ∈ frames.head?, tour.mark parent.node ≤ tour.mark node) :
    Traced next { tour with frames := frames } := by
  have split : tour.inside = node :: frames.map Frame.node := inside_eq isTop
  have stays {other : Nat} (member : other ∈ frames.map Frame.node) : other ∈ tour.inside :=
    split ▸ List.mem_cons_of_mem node member
  obtain ⟨-, target, isTarget, sameNumber, down⟩ :=
    traced.marked node (split ▸ List.mem_cons_self)
  refine ⟨fun upper member child looked =>
      traced.looked upper member child (looked.of_leave isTop),
    fun lower member => traced.leads lower (stays member), ?_,
    fun lower member => traced.marked lower (stays member), ?_⟩
  · intro upper member
    obtain ⟨lower, isInside, ordered, back⟩ := traced.returns upper member
    rw [split] at isInside
    rcases List.mem_cons.mp isInside with rfl | isInside
    · -- What came back to this node comes back further down through the node that it leads to.
      obtain ⟨further, furtherInside, below, again⟩ := traced.returns target isTarget
      have smaller : tour.number further < tour.number lower := by omega
      rw [split] at furtherInside
      rcases List.mem_cons.mp furtherInside with rfl | furtherInside
      · exact absurd smaller (Nat.lt_irrefl _)
      · exact ⟨further, furtherInside, Nat.le_trans (Nat.le_of_lt smaller) ordered,
          (back.trans down).trans again⟩
    · exact ⟨lower, isInside, ordered, back⟩
  · intro lower member upper isUpper ordered child isChild looked
    obtain ⟨later, isInside, after, known⟩ := traced.seen lower (stays member) upper isUpper
      ordered child isChild (looked.of_leave isTop)
    rw [split] at isInside
    rcases List.mem_cons.mp isInside with rfl | isInside
    · have present : frames ≠ [] := fun empty => by
        rw [inside, empty] at member
        cases member
      obtain ⟨parent, rest, isFrames⟩ := List.exists_cons_of_ne_nil present
      have parentInside : parent.node ∈ frames.map Frame.node := by
        rw [isFrames]
        exact List.mem_cons_self
      exact ⟨parent.node, parentInside, (placed.leave isTop).number_le_top isFrames member,
        Nat.le_trans (passed parent (by rw [isFrames]; rfl)) known⟩
    · exact ⟨later, isInside, after, known⟩

/-- A node that leads no further down the stack is left and closed. -/
theorem Traced.close (traced : Traced next tour) (placed : Placed next size tour) {node : Nat}
    {frames : List Frame} (isTop : tour.frames = ⟨node, []⟩ :: frames)
    (own : tour.mark node = tour.number node) :
    Traced next (close node { tour with frames := frames }) := by
  obtain ⟨above, below, isStack, notAbove, nested, larger, smaller⟩ := placed.exists_stack isTop
  have split : tour.inside = node :: frames.map Frame.node := inside_eq isTop
  have stays {other : Nat} (member : other ∈ frames.map Frame.node) : other ∈ tour.inside :=
    split ▸ List.mem_cons_of_mem node member
  have onStack {other : Nat} (member : other ∈ below) : other ∈ tour.stack :=
    isStack ▸ List.mem_append_right above (List.mem_cons_of_mem node member)
  have mem_below {other : Nat} (member : other ∈ tour.stack)
      (before : tour.number other < tour.number node) : other ∈ below := by
    rw [isStack, List.append_cons, List.mem_append] at member
    exact member.resolve_left fun isAbove => Nat.not_le_of_lt before (larger other isAbove)
  rw [close_eq { tour with frames := frames } isStack notAbove]
  refine ⟨fun upper member child looked =>
      traced.looked upper (onStack member) child (looked.of_leave isTop),
    fun lower isInside upper member => traced.leads lower (stays isInside) upper (onStack member),
    ?_, ?_, ?_⟩
  · intro upper member
    obtain ⟨lower, isInside, ordered, back⟩ := traced.returns upper (onStack member)
    have before : tour.number lower < tour.number node :=
      Nat.lt_of_le_of_lt ordered (smaller upper member)
    rw [split] at isInside
    rcases List.mem_cons.mp isInside with rfl | isInside
    · exact absurd before (Nat.lt_irrefl _)
    · exact ⟨lower, isInside, ordered, back⟩
  · intro upper isInside
    obtain ⟨ordered, lower, member, sameNumber, down⟩ := traced.marked upper (stays isInside)
    have before : tour.number lower < tour.number node := by
      rw [sameNumber]
      exact Nat.lt_of_le_of_lt ordered (placed.number_lt_top isTop isInside)
    exact ⟨ordered, lower, mem_below member before, sameNumber, down⟩
  · intro lower isInside upper member ordered child isChild looked
    obtain ⟨later, laterInside, after, known⟩ := traced.seen lower (stays isInside) upper
      (onStack member) ordered child (onStack isChild) (looked.of_leave isTop)
    rw [split] at laterInside
    rcases List.mem_cons.mp laterInside with rfl | laterInside
    · rw [own] at known
      exact absurd (smaller child isChild) (Nat.not_lt_of_le known)
    · exact ⟨later, laterInside, after, known⟩

/-! ## Groups -/

theorem Settled.append_singleton {groups : List (List Nat)} (settled : Settled next groups)
    {group : List Nat} (nonempty : group ≠ [])
    (together : ∀ first ∈ group, ∀ second ∈ group, Search.Reaches next first second)
    (closed : ∀ node ∈ group, ∀ child ∈ next node, child ∈ group ∨ child ∈ groups.flatten) :
    Settled next (groups ++ [group]) := by
  have places (place : Nat) (found : List Nat)
      (isFound : (groups ++ [group])[place]? = some found) :
      groups[place]? = some found ∨ place = groups.length ∧ found = group := by
    rw [List.getElem?_append] at isFound
    split at isFound
    case isTrue => exact .inl isFound
    case isFalse beyond =>
      obtain ⟨below, rfl⟩ := List.getElem?_eq_some_iff.mp isFound
      rw [List.length_singleton] at below
      exact .inr ⟨by omega, by simp⟩
  have stays {place : Nat} {found : List Nat} (isFound : groups[place]? = some found) :
      (groups ++ [group])[place]? = some found := by
    rw [List.getElem?_append_left (List.getElem?_eq_some_iff.mp isFound).1, isFound]
  refine ⟨?_, ?_, ?_⟩
  · intro found member
    rcases List.mem_append.mp member with old | new
    · exact settled.nonempty found old
    · exact List.mem_singleton.mp new ▸ nonempty
  · intro found member
    rcases List.mem_append.mp member with old | new
    · exact settled.together found old
    · exact List.mem_singleton.mp new ▸ together
  · intro place found isFound node member child isChild
    rcases places place found isFound with old | ⟨rfl, rfl⟩
    · obtain ⟨earlier, ordered, other, isOther, inOther⟩ :=
        settled.ordered place found old node member child isChild
      exact ⟨earlier, ordered, other, stays isOther, inOther⟩
    · rcases closed node member child isChild with own | earlier
      · exact ⟨groups.length, Nat.le_refl _, found, isFound, own⟩
      · obtain ⟨other, isOther, inOther⟩ := List.mem_flatten.mp earlier
        obtain ⟨place, isPlace⟩ := List.mem_iff_getElem?.mp isOther
        have before := (List.getElem?_eq_some_iff.mp isPlace).1
        exact ⟨place, Nat.le_of_lt before, other, stays isPlace, inOther⟩

/-- What is closed is a component. -/
theorem Sound.settled_close (sound : Sound next size tour) {node : Nat} {frames : List Frame}
    (isTop : tour.frames = ⟨node, []⟩ :: frames) (own : tour.mark node = tour.number node) :
    Settled next (close node { tour with frames := frames }).groups := by
  obtain ⟨placed, traced, settled⟩ := sound
  obtain ⟨above, below, isStack, notAbove, -, larger, smaller⟩ := placed.exists_stack isTop
  have isInside : node ∈ tour.inside := top_mem_inside isTop
  have onStack {other : Nat} (member : other ∈ above ++ [node]) : other ∈ tour.stack := by
    rw [isStack, List.append_cons]
    exact List.mem_append_left below member
  rw [close_eq { tour with frames := frames } isStack notAbove]
  refine settled.append_singleton (by simp) ?_ ?_
  · intro first isFirst second isSecond
    have back := traced.reaches_top placed isTop (onStack isFirst)
    exact back.trans (traced.leads node isInside second (onStack isSecond) (larger second isSecond))
  · intro upper member child isChild
    -- All children of the group have been looked at: only the node itself is still entered.
    have looked : tour.Looked next upper child := by
      refine ⟨isChild, fun frame isFrame same => ?_⟩
      rw [isTop] at isFrame
      rcases List.mem_cons.mp isFrame with rfl | isFrame
      · exact List.not_mem_nil
      · have before := placed.number_lt_top isTop (List.mem_map_of_mem isFrame)
        rw [same] at before
        exact absurd (larger upper member) (Nat.not_le_of_lt before)
    have met := traced.looked upper (onStack member) child looked
    rcases List.mem_append.mp ((placed.met child).mp met) with childOnStack | inGroup
    · left
      obtain ⟨later, laterInside, after, known⟩ := traced.seen node isInside upper (onStack member)
        (larger upper member) child childOnStack looked
      have isLater : later = node := by
        rw [inside_eq isTop] at laterInside
        refine (List.mem_cons.mp laterInside).resolve_right fun isBelow => ?_
        exact Nat.not_le_of_lt (placed.number_lt_top isTop isBelow) after
      rw [isLater, own] at known
      rw [isStack, List.append_cons, List.mem_append] at childOnStack
      exact childOnStack.resolve_right fun isBelow =>
        Nat.not_le_of_lt (smaller child isBelow) known
    · exact .inr inGroup

/-! ## Steps -/

theorem sound_start : Sound next size start where
  placed := ⟨List.nodup_nil, by simp [start, hasMet, Table.has, Table.empty],
    by simp [start, hasMet, Table.has, Table.empty],
    by simp [start, hasMet, Table.has, Table.empty], .nil, .slnil, by simp [start]⟩
  traced := ⟨by simp [start], by simp [start], by simp [start], by simp [start, inside],
    by simp [start, inside]⟩
  settled := ⟨by simp [start], by simp [start], by simp [start]⟩

theorem Sound.enter (sound : Sound next size tour) {node : Nat} (node_lt : node < size)
    (unmet : tour.hasMet node = false)
    (isChild : ∀ top ∈ tour.frames.head?, node ∈ next top.node) :
    Sound next size (tour.enter next node) :=
  ⟨sound.placed.enter node_lt unmet, sound.traced.enter sound.placed unmet isChild, sound.settled⟩

theorem Sound.lower (sound : Sound next size tour) {node target : Nat}
    (isTarget : target ∈ tour.stack) (reaches : Search.Reaches next node target) :
    Sound next size (tour.lower node (tour.number target)) :=
  ⟨sound.placed.lower node _, sound.traced.lower isTarget reaches, sound.settled⟩

theorem Sound.advance (sound : Sound next size tour) (above : List Frame) {frames : List Frame}
    {node child : Nat} {ahead : List Nat}
    (isFrames : tour.frames = above ++ ⟨node, child :: ahead⟩ :: frames)
    (met : tour.hasMet child)
    (known : child ∈ tour.stack → tour.mark node ≤ tour.number child) :
    Sound next size { tour with frames := above ++ ⟨node, ahead⟩ :: frames } :=
  ⟨sound.placed.advance isFrames, sound.traced.advance isFrames met known, sound.settled⟩

/-- Looking at a child keeps all true: it is new and entered, or on the stack and marked, or in a
group. -/
theorem Sound.look (sound : Sound next size tour)
    (bounded : ∀ node, ∀ child ∈ next node, child < size) {node child : Nat} {ahead : List Nat}
    {frames : List Frame} (isTop : tour.frames = ⟨node, child :: ahead⟩ :: frames) :
    Sound next size (look next node child { tour with frames := ⟨node, ahead⟩ :: frames }) := by
  have isInside : node ∈ tour.inside := top_mem_inside isTop
  have isChild : child ∈ next node :=
    sound.placed.ahead _ (isTop ▸ List.mem_cons_self) List.mem_cons_self
  unfold Tour.look
  split
  case isTrue isNew =>
    have unmet : tour.hasMet child = false := by simpa [hasMet] using isNew
    have entered := sound.enter (bounded node child isChild) unmet (by
      intro top isTopFrame
      rw [isTop] at isTopFrame
      cases isTopFrame
      exact isChild)
    have isOld : node ∈ tour.stack := sound.placed.mem_stack_of_mem_inside isInside
    have met := sound.placed.hasMet_of_mem_stack isOld
    have different : node ≠ child := by
      rintro rfl
      simp [unmet] at met
    have isFrames : (tour.enter next child).frames =
        [⟨child, next child⟩] ++ ⟨node, child :: ahead⟩ :: frames := by
      rw [Tour.enter, isTop]
      rfl
    refine entered.advance [⟨child, next child⟩] isFrames ?_ fun _ => ?_
    · exact (hasMet_enter child child).mpr (.inl rfl)
    · rw [mark_enter, if_neg different, number_enter, if_pos rfl]
      have marked := (sound.traced.marked node isInside).1
      have numbered := sound.placed.numbered node met
      omega
  case isFalse isOld =>
    have met : tour.hasMet child := by simpa [hasMet] using isOld
    split
    case isTrue onStack =>
      have isTarget : child ∈ tour.stack := by simpa using onStack
      refine (sound.lower isTarget (.single isChild)).advance [] isTop met fun _ => ?_
      rw [mark_lower, if_pos rfl]
      exact Nat.min_le_right _ _
    case isFalse offStack =>
      have inGroup : child ∉ tour.stack := by simpa using offStack
      exact sound.advance [] isTop met fun onStack => absurd onStack inGroup

/-- Leaving a node whose mark the node around it has taken over keeps all true. -/
theorem Sound.leave_passed (sound : Sound next size tour) {node : Nat} {frames : List Frame}
    (isTop : tour.frames = ⟨node, []⟩ :: frames)
    (passed : ∀ parent ∈ frames.head?, tour.mark parent.node ≤ tour.mark node) :
    Sound next size (
      if tour.mark node = tour.number node then close node { tour with frames := frames }
      else { tour with frames := frames }) := by
  have isInside : node ∈ tour.inside := top_mem_inside isTop
  split
  case isTrue own =>
    obtain ⟨above, below, isStack, notAbove, nested, -, -⟩ := sound.placed.exists_stack isTop
    exact ⟨(sound.placed.leave isTop).close isStack notAbove nested,
      sound.traced.close sound.placed isTop own, sound.settled_close isTop own⟩
  case isFalse other =>
    have leadsDown : tour.mark node < tour.number node :=
      Nat.lt_of_le_of_ne (sound.traced.marked node isInside).1 other
    exact ⟨sound.placed.leave isTop, sound.traced.leave sound.placed isTop leadsDown passed,
      sound.settled⟩

theorem Sound.leave (sound : Sound next size tour) {node : Nat} {frames : List Frame}
    (isTop : tour.frames = ⟨node, []⟩ :: frames) :
    Sound next size (leave node { tour with frames := frames }) := by
  cases frames with
  | nil => exact sound.leave_passed isTop (by simp)
  | cons parent rest =>
    have nodeInside : node ∈ tour.inside := top_mem_inside isTop
    have parentInside : parent.node ∈ tour.inside :=
      inside_eq isTop ▸ List.mem_cons_of_mem _ List.mem_cons_self
    have parentBelow := sound.placed.number_lt_top isTop List.mem_cons_self
    have different : node ≠ parent.node := fun same => Nat.lt_irrefl _ (same ▸ parentBelow)
    obtain ⟨-, target, isTarget, sameNumber, down⟩ := sound.traced.marked node nodeInside
    have through : Search.Reaches next parent.node target :=
      (sound.traced.leads parent.node parentInside node
        (sound.placed.mem_stack_of_mem_inside nodeInside) (Nat.le_of_lt parentBelow)).trans down
    have lowered := sound.lower isTarget through
    rw [sameNumber] at lowered
    refine lowered.leave_passed isTop fun other isOther => ?_
    cases isOther
    rw [mark_lower, if_pos rfl, mark_lower, if_neg different]
    exact Nat.min_le_right _ _

theorem Sound.step (sound : Sound next size tour)
    (bounded : ∀ node, ∀ child ∈ next node, child < size) :
    Sound next size (tour.step next) := by
  unfold Tour.step
  split
  case h_1 => exact sound
  case h_2 isTop => exact sound.look bounded isTop
  case h_3 isTop => exact sound.leave isTop

end Tour
end CodeAtlas
