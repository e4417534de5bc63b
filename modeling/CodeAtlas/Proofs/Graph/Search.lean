import CodeAtlas.Graph.Search
import Mathlib.Data.List.Nodup
import Mathlib.Data.List.Perm.Subperm
import Mathlib.Logic.Relation

/-!
# What a search meets

A search from some nodes meets exactly the nodes that can be reached from them, each once. All along
the search, what it has met can be reached, and the children of a node that it has met are met too
unless the node is pending. The bound on its steps never cuts it short: a step takes up one node, so
the steps that are left are always at least as many as the nodes that have not been taken up.
-/

namespace CodeAtlas
namespace Search

/-- A node can be reached from another. -/
def Reaches (next : Nat → List Nat) : Nat → Nat → Prop :=
  Relation.ReflTransGen fun node child => child ∈ next node

namespace Frontier

/-- Meeting nodes one after another makes those pending that are new, each once. -/
theorem exists_foldl_meet (nodes : List Nat) (frontier : Frontier) :
    ∃ fresh : List Nat,
      nodes.foldl meet frontier = ⟨fresh ++ frontier.met, fresh ++ frontier.pending⟩ ∧ fresh.Nodup ∧
      fresh ⊆ nodes ∧ (∀ node ∈ fresh, node ∉ frontier.met) ∧ nodes ⊆ fresh ++ frontier.met := by
  induction nodes generalizing frontier with
  | nil => exact ⟨[], rfl, List.nodup_nil, by simp, by simp, by simp⟩
  | cons node nodes induction =>
    obtain ⟨fresh, isMet, nodup, inside, unmet, covers⟩ := induction (frontier.meet node)
    rw [List.foldl_cons, isMet]
    unfold meet at unmet covers ⊢
    split at unmet
    case isTrue known =>
      rw [if_pos known] at covers ⊢
      refine ⟨fresh, rfl, nodup, List.subset_cons_of_subset node inside, unmet, ?_⟩
      exact List.cons_subset.mpr ⟨List.mem_append_right fresh known, covers⟩
    case isFalse new =>
      rw [if_neg new] at covers ⊢
      refine ⟨fresh ++ [node], by simp, ?_, ?_, ?_, ?_⟩
      · refine nodup.append (List.nodup_singleton node) fun other isFresh isNode => ?_
        rw [List.mem_singleton.mp isNode] at isFresh
        exact unmet node isFresh List.mem_cons_self
      · exact List.append_subset.mpr
          ⟨List.subset_cons_of_subset node inside, by simp⟩
      · intro other member
        rcases List.mem_append.mp member with isFresh | isNode
        · exact fun known => unmet other isFresh (List.mem_cons_of_mem node known)
        · rw [List.mem_singleton.mp isNode]
          exact new
      · rw [List.append_assoc]
        exact List.cons_subset.mpr ⟨by simp, covers⟩

/-- What holds of a search from some nodes after each of its steps. -/
structure Sound (next : Nat → List Nat) (size : Nat) (sources : List Nat) (frontier : Frontier) :
    Prop where
  /-- Every node is below the bound. -/
  bounded : ∀ node ∈ frontier.met, node < size
  /-- Every node is met once. -/
  nodup : frontier.met.Nodup
  /-- What is pending has been met. -/
  pending : ∀ node ∈ frontier.pending, node ∈ frontier.met
  /-- The sources are met. -/
  begun : ∀ source ∈ sources, source ∈ frontier.met
  /-- What is met can be reached. -/
  reaches : ∀ node ∈ frontier.met, ∃ source ∈ sources, Reaches next source node
  /-- The children of what is met and not pending are met. -/
  closed : ∀ node ∈ frontier.met, node ∉ frontier.pending →
    ∀ child ∈ next node, child ∈ frontier.met

variable {next : Nat → List Nat} {size : Nat} {sources : List Nat} {frontier : Frontier}

theorem sound_sources (below : ∀ source ∈ sources, source < size) :
    Sound next size sources (sources.foldl meet start) := by
  obtain ⟨fresh, isMet, nodup, inside, -, covers⟩ := exists_foldl_meet sources start
  simp only [start, List.append_nil] at isMet covers ⊢
  rw [isMet]
  exact
    { bounded := fun node member => below node (inside member)
      nodup := nodup
      pending := fun node member => member
      begun := fun source member => covers member
      reaches := fun node member => ⟨node, inside member, .refl⟩
      closed := fun node member unpending => absurd member unpending }

theorem Sound.step (sound : Sound next size sources frontier)
    (below : ∀ node, ∀ child ∈ next node, child < size) :
    Sound next size sources (frontier.step next) := by
  unfold Frontier.step
  split
  case h_1 => exact sound
  case h_2 node rest isPending =>
    obtain ⟨fresh, isMet, nodup, inside, unmet, covers⟩ :=
      exists_foldl_meet (next node) { frontier with pending := rest }
    have nodeMet : node ∈ frontier.met := sound.pending node (isPending ▸ List.mem_cons_self)
    rw [isMet]
    refine ⟨?_, ?_, ?_, ?_, ?_, ?_⟩
    · intro other member
      rcases List.mem_append.mp member with isFresh | known
      · exact below node other (inside isFresh)
      · exact sound.bounded other known
    · exact nodup.append sound.nodup fun other isFresh known => unmet other isFresh known
    · intro other member
      rcases List.mem_append.mp member with isFresh | isRest
      · exact List.mem_append_left _ isFresh
      · refine List.mem_append_right _ (sound.pending other ?_)
        exact isPending ▸ List.mem_cons_of_mem node isRest
    · exact fun source member => List.mem_append_right _ (sound.begun source member)
    · intro other member
      rcases List.mem_append.mp member with isFresh | known
      · obtain ⟨source, isSource, path⟩ := sound.reaches node nodeMet
        exact ⟨source, isSource, path.tail (inside isFresh)⟩
      · exact sound.reaches other known
    · intro other member unpending child isChild
      rw [List.mem_append, not_or] at unpending
      have known : other ∈ frontier.met := (List.mem_append.mp member).resolve_left unpending.1
      -- The node that has been taken up is no longer pending, and its children have been met.
      by_cases taken : other = node
      · subst taken
        exact covers isChild
      · refine List.mem_append_right _ (sound.closed other known ?_ child isChild)
        rw [isPending]
        exact List.not_mem_cons_of_ne_of_not_mem taken unpending.2

theorem Sound.run (sound : Sound next size sources frontier)
    (below : ∀ node, ∀ child ∈ next node, child < size) (steps : Nat) :
    Sound next size sources (frontier.run next steps) := by
  induction steps generalizing frontier with
  | zero => exact sound
  | succ steps induction =>
    rw [Frontier.run]
    split
    · exact sound
    · exact induction (sound.step below)

theorem Sound.length_met_le (sound : Sound next size sources frontier) :
    frontier.met.length ≤ size := by
  have inside : frontier.met ⊆ List.range size := fun node member =>
    List.mem_range.mpr (sound.bounded node member)
  simpa using (sound.nodup.subperm inside).length_le

theorem length_step {node : Nat} {rest : List Nat} (isPending : frontier.pending = node :: rest) :
    (frontier.step next).met.length + frontier.pending.length =
      (frontier.step next).pending.length + frontier.met.length + 1 := by
  obtain ⟨fresh, isMet, -⟩ := exists_foldl_meet (next node) { frontier with pending := rest }
  rw [Frontier.step, isPending]
  dsimp only
  rw [isMet]
  simp only [List.length_append, List.length_cons]
  omega

/-- With a step for each node that has not been taken up nothing is left pending. -/
theorem Sound.pending_run (sound : Sound next size sources frontier)
    (below : ∀ node, ∀ child ∈ next node, child < size) {steps : Nat}
    (enough : size + frontier.pending.length ≤ steps + frontier.met.length) :
    (frontier.run next steps).pending = [] := by
  induction steps generalizing frontier with
  | zero =>
    have few := sound.length_met_le
    exact List.length_eq_zero_iff.mp (by omega : frontier.pending.length = 0)
  | succ steps induction =>
    rw [Frontier.run]
    split
    case isTrue none => exact List.isEmpty_iff.mp none
    case isFalse some =>
      obtain ⟨node, rest, isPending⟩ := List.exists_cons_of_ne_nil
        fun none => some (List.isEmpty_iff.mpr none)
      have taken : (frontier.step next).met.length + frontier.pending.length =
          (frontier.step next).pending.length + frontier.met.length + 1 := length_step isPending
      exact induction (sound.step below) (by omega)

end Frontier

variable {next : Nat → List Nat} {size : Nat}

section Bounded

variable (bounded : ∀ node, ∀ child ∈ next node, child < size) (nodes : List Nat)
  (below : ∀ node ∈ nodes, node < size)

include bounded below

theorem sound_search :
    Frontier.Sound next size nodes ((nodes.foldl Frontier.meet .start).run next size) :=
  (Frontier.sound_sources below).run bounded size

theorem nodup_reached : (reached next size nodes).Nodup :=
  (sound_search bounded nodes below).nodup

theorem lt_of_mem_reached {node : Nat} (member : node ∈ reached next size nodes) : node < size :=
  (sound_search bounded nodes below).bounded node member

/-- A search meets exactly what can be reached. -/
theorem mem_reached_iff (node : Nat) :
    node ∈ reached next size nodes ↔ ∃ source ∈ nodes, Reaches next source node := by
  have sound := sound_search bounded nodes below
  have done : ((nodes.foldl Frontier.meet .start).run next size).pending = [] := by
    refine (Frontier.sound_sources below).pending_run bounded ?_
    obtain ⟨fresh, isMet, -⟩ := Frontier.exists_foldl_meet nodes .start
    rw [isMet]
    simp [Frontier.start]
  constructor
  · exact sound.reaches node
  · rintro ⟨source, isSource, path⟩
    induction path with
    | refl => exact sound.begun source isSource
    | tail _ step induction => exact sound.closed _ induction (by simp [done]) _ step

end Bounded

end Search
end CodeAtlas
