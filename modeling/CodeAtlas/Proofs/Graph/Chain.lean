import CodeAtlas.Proofs.Graph.Reuse
import Mathlib.Data.List.Chain

/-!
# Chains of graphs

A chain grows by one graph after another, each as the successor of the last, while the graphs that
are there may be asked at any time and remember what they have counted. Whatever the order of all
this, every graph of the chain gives the answers of a graph that has been built on its own.
-/

namespace CodeAtlas
namespace DependencyGraph

/-- What one graph of a chain is built from. -/
structure Version (α : Type) where
  /-- How the graph is built. -/
  options : GraphOptions α
  /-- The elements. -/
  elements : List Element
  /-- The relationships. -/
  relationships : List (Relationship α)
  /-- The ids that count as changed in any case. -/
  touched : List String

/-- What happens to a chain. -/
inductive Move (α : Type) where
  /-- A graph is built as the successor of the last one. -/
  | extend (version : Version α)
  /-- The graph at a position, counted from the last one, is asked how far an id reaches. -/
  | ask (position : Nat) (id : String)

/-- All that a graph can be asked. -/
structure Answers (α : Type) where
  /-- The metrics of an id. -/
  metrics : String → Option (NodeMetrics α)
  /-- The share of all nodes that an id reaches. -/
  impact : String → α
  /-- How many nodes depend on an id. -/
  afferent : String → Nat
  /-- How many nodes an id depends on. -/
  efferent : String → Nat
  /-- The cycle groups. -/
  cycles : List CycleGroup
  /-- Whether an id lies in a cycle. -/
  isInCycle : String → Bool
  /-- The ids of each component. -/
  components : List (List String)
  /-- The complexity of some ids. -/
  complexity : List String → α
  /-- The metrics of the whole graph. -/
  summary : GraphSummary α

variable {α : Type}

/-- The graph of a version, compared with no earlier one. -/
def Version.graph (version : Version α) : DependencyGraph α :=
  fresh version.options version.elements version.relationships

/-- The version that a move brings. -/
def Move.version? : Move α → Option (Version α)
  | extend version => some version
  | ask _ _ => none

/-- The graphs after a move, the last one first. -/
def move (graphs : List (DependencyGraph α)) : Move α → List (DependencyGraph α)
  | .extend version =>
    build version.options version.elements version.relationships
      (graphs.head?.map (·, version.touched)) :: graphs
  | .ask position id => graphs.modify position (·.remember id)

/-- The graphs after some moves, the last one first. -/
def run (moves : List (Move α)) : List (DependencyGraph α) := moves.foldl move []

/-- The versions that moves bring, the last one first. -/
def versions (moves : List (Move α)) : List (Version α) := (moves.filterMap Move.version?).reverse

/-- What a graph answers. -/
def answers [Scalar α] (graph : DependencyGraph α) : Answers α where
  metrics := graph.metrics?
  impact := graph.impact
  afferent := graph.afferent
  efferent := graph.efferent
  cycles := graph.cycles
  isInCycle := graph.isInCycle
  components := graph.componentIds
  complexity := graph.complexity
  summary := graph.summary

theorem bare_remember (graph : DependencyGraph α) (id : String) :
    (graph.remember id).bare = graph.bare := by
  unfold remember
  split <;> rfl

theorem Faithful.impact_eq [Scalar α] {graph : DependencyGraph α} (faithful : graph.Faithful) :
    graph.impact = graph.bare.impact := by
  funext id
  rw [impact, faithful.reachOf_eq]
  rfl

/-- Answers come from the bare graph if what is remembered is true. -/
theorem Faithful.answers_eq [Scalar α] {graph : DependencyGraph α} (faithful : graph.Faithful) :
    graph.answers = graph.bare.answers := by
  have metrics : graph.metrics? = graph.bare.metrics? := by
    funext id
    rw [metrics?, faithful.impact_eq]
    rfl
  rw [answers, faithful.impact_eq, metrics]
  rfl

/-- Edges of two graphs with one id have the same ends. -/
def SameEnds (left right : DependencyGraph α) : Prop :=
  ∀ first ∈ left.edges, ∀ second ∈ right.edges, first.id = second.id →
    left.idAt first.source = right.idAt second.source ∧
      left.idAt first.target = right.idAt second.target

instance (left right : DependencyGraph α) : Decidable (SameEnds left right) :=
  inferInstanceAs (Decidable (∀ first ∈ left.edges, ∀ second ∈ right.edges,
    first.id = second.id → left.idAt first.source = right.idAt second.source ∧
      left.idAt first.target = right.idAt second.target))

theorem SameEnds.edgesAgree {left right : DependencyGraph α} (same : SameEnds left right) :
    EdgesAgree left right := by
  intro first isFirst second isSecond _ _ ids
  obtain ⟨sources, targets⟩ := same first isFirst second isSecond ids
  exact iff_of_true sources targets

/-- The versions of a chain, the last one first, can be told apart by the ids of their edges. -/
structure Consistent (versions : List (Version α)) : Prop where
  /-- The ids of elements are distinct. -/
  distinct : ∀ version ∈ versions, DistinctIds version.elements
  /-- No id of an edge holds a character that divides ids. -/
  legible : ∀ version ∈ versions, version.graph.Legible
  /-- In two versions that follow each other one id stands for the same ends. -/
  sameEnds : versions.IsChain fun newer older => SameEnds older.graph newer.graph

theorem Consistent.tail {version : Version α} {versions : List (Version α)}
    (consistent : Consistent (version :: versions)) : Consistent versions where
  distinct other member := consistent.distinct other (List.mem_cons_of_mem version member)
  legible other member := consistent.legible other (List.mem_cons_of_mem version member)
  sameEnds := consistent.sameEnds.tail

/-- A graph of a chain is the one of its version, and what it remembers is true. -/
structure Follows (graph : DependencyGraph α) (version : Version α) : Prop where
  /-- Apart from what it remembers, it is the graph of the version. -/
  bare_eq : graph.bare = version.graph
  /-- What it remembers is true. -/
  faithful : graph.Faithful

theorem Follows.remember {graph : DependencyGraph α} {version : Version α}
    (follows : Follows graph version) (id : String) : Follows (graph.remember id) version :=
  ⟨(bare_remember graph id).trans follows.bare_eq, follows.faithful.remember id⟩

theorem Follows.rememberAll {graph : DependencyGraph α} {version : Version α}
    (follows : Follows graph version) (ids : List String) :
    Follows (ids.foldl DependencyGraph.remember graph) version := by
  induction ids generalizing graph with
  | nil => exact follows
  | cons id ids induction => exact induction (follows.remember id)

theorem follows_fresh (version : Version α) : Follows version.graph version :=
  ⟨rfl, faithful_fresh version.options version.elements version.relationships⟩

/-- The successor of a graph follows its version as soon as the graph before it does. -/
theorem Follows.after {graph : DependencyGraph α} {older newer : Version α}
    (follows : Follows graph older) (olderDistinct : DistinctIds older.elements)
    (newerDistinct : DistinctIds newer.elements) (olderLegible : older.graph.Legible)
    (newerLegible : newer.graph.Legible) (agree : EdgesAgree older.graph newer.graph)
    (touched : List String) : Follows (after graph touched newer.graph) newer := by
  have comparable : Comparable graph.bare newer.graph := by
    rw [follows.bare_eq]
    exact ⟨built_fresh _ olderDistinct _, built_fresh _ newerDistinct _, olderLegible,
      newerLegible, agree⟩
  have whole : Comparable graph newer.graph :=
    ⟨.of_bare comparable.previousBuilt, comparable.built, comparable.previousLegible,
      comparable.legible, comparable.agree⟩
  exact ⟨rfl, whole.faithful_after follows.faithful touched⟩

theorem follows_modify {graphs : List (DependencyGraph α)} {versions : List (Version α)}
    (follow : List.Forall₂ Follows graphs versions) (position : Nat) (id : String) :
    List.Forall₂ Follows (graphs.modify position (·.remember id)) versions := by
  induction follow generalizing position with
  | nil => simp
  | cons first rest induction =>
    cases position with
    | zero => exact .cons (first.remember id) rest
    | succ position => exact .cons first (induction position)

theorem follows_move {graphs : List (DependencyGraph α)} {versions : List (Version α)}
    (follow : List.Forall₂ Follows graphs versions) (next : Move α)
    (consistent : Consistent (next.version?.toList ++ versions)) :
    List.Forall₂ Follows (move graphs next) (next.version?.toList ++ versions) := by
  cases next with
  | ask position id => exact follows_modify follow position id
  | extend version =>
    refine .cons ?_ follow
    cases follow with
    | nil => exact follows_fresh version
    | cons first rest =>
      have agree := (List.isChain_cons_cons.mp consistent.sameEnds).1
      exact first.after (consistent.distinct _ (by simp [Move.version?]))
        (consistent.distinct _ (by simp [Move.version?]))
        (consistent.legible _ (by simp [Move.version?]))
        (consistent.legible _ (by simp [Move.version?])) agree.edgesAgree version.touched

theorem versions_append_singleton (moves : List (Move α)) (next : Move α) :
    versions (moves ++ [next]) = next.version?.toList ++ versions moves := by
  rw [versions, versions, List.filterMap_append, List.reverse_append]
  cases next <;> rfl

/-- Any number of moves keeps all graphs at their versions. -/
theorem follows_run (moves : List (Move α)) (consistent : Consistent (versions moves)) :
    List.Forall₂ Follows (run moves) (versions moves) := by
  induction moves using List.reverseRecOn with
  | nil => exact .nil
  | append_singleton moves next induction =>
    rw [versions_append_singleton] at consistent ⊢
    rw [run, List.foldl_append]
    refine follows_move (induction ?_) next consistent
    cases next with
    | ask => exact consistent
    | extend version => exact consistent.tail

/-- Every graph of a chain answers what the graph of its version answers on its own. -/
theorem answers_run [Scalar α] (moves : List (Move α)) (consistent : Consistent (versions moves)) :
    (run moves).map answers = (versions moves).map fun version => version.graph.answers := by
  have answer {graph : DependencyGraph α} {version : Version α} (follows : Follows graph version) :
      graph.answers = version.graph.answers := by
    rw [follows.faithful.answers_eq, follows.bare_eq]
  have follow := follows_run moves consistent
  generalize run moves = graphs, versions moves = versions at follow
  induction follow with
  | nil => rfl
  | cons first _ induction => rw [List.map_cons, List.map_cons, answer first, induction]

/-! ## Two chains -/

/-- A version of functions with some ids and sure references between them. -/
def Version.sketch (ids : List String) (references : List (String × ReferenceKind × String)) :
    Version Rat where
  options := ⟨RelationshipKind.references, ⟨1, 2, 3⟩⟩
  elements := ids.map fun id => Element.sketch id "main.ts" []
  relationships := references.map fun (sourceId, kind, targetId) =>
    Relationship.sketch sourceId kind targetId
  touched := []

/-- The count of `b` outlives the change that makes `d` depend on `a`. -/
theorem answers_run_kept_count :
    let older := Version.sketch ["a", "b", "c", "d"] [("a", .calls, "b"), ("b", .calls, "c")]
    let newer := Version.sketch ["a", "b", "c", "d"]
      [("a", .calls, "b"), ("b", .calls, "c"), ("d", .uses, "a")]
    let moves := [.extend older, .ask 0 "b", .extend newer, .ask 1 "d", .ask 0 "a"]
    Consistent (versions moves) ∧
      (run moves).map answers = (versions moves).map (fun version => version.graph.answers) ∧
      (run moves).map (fun graph => graph.reach.get? "b") = [some 1, some 1] := by
  intro older newer moves
  let first := ofSorted older.options older.elements older.relationships
  let second := ofSorted newer.options newer.elements newer.relationships
  have olderGraph : older.graph = first := fresh_of_sorted _ (by decide) _
  have newerGraph : newer.graph = second := fresh_of_sorted _ (by decide) _
  have consistent : Consistent (versions moves) := by
    refine ⟨by decide, ?_, .cons_cons ?_ (.singleton older)⟩
    · intro version member
      simp only [moves, versions, Move.version?, List.filterMap_cons, List.filterMap_nil,
        List.reverse_cons, List.reverse_nil, List.nil_append, List.cons_append, List.mem_cons,
        List.not_mem_nil, or_false] at member
      rcases member with rfl | rfl
      · rw [newerGraph]
        decide +kernel
      · rw [olderGraph]
        decide +kernel
    · rw [newerGraph, olderGraph]
      decide +kernel
  have changes : changesFrom (first.remember "b") second = ["a", "d"] := by
    unfold changesFrom isChangedFrom
    simp only [signature_eq_insertionSort]
    decide +kernel
  refine ⟨consistent, answers_run moves consistent, ?_⟩
  change [(after (older.graph.remember "b") [] newer.graph).remember "a",
    (older.graph.remember "b").remember "d"].map (fun graph => graph.reach.get? "b") = _
  rw [olderGraph, newerGraph, after, changes]
  decide +kernel

/-- Where ids hold line breaks, one signature can stand for different edges: `v` reaches `a` and `d`
in the first version and one node in the second, yet the second takes over the count of the
first. -/
theorem answers_run_line_breaks :
    let broken := "a\nrel:v|uses|a"
    let joined := "p|calls|a\nrel:v|uses|a\nrel:v"
    let doubled := "v|calls|a\nrel:v"
    let ids := ["a", broken, "d", "p", joined, "v", doubled]
    let older := Version.sketch ids
      [("v", .calls, "a"), ("v", .uses, "a"), ("a", .calls, "d"), (joined, .calls, broken)]
    let newer := Version.sketch ids
      [("p", .calls, broken), ("v", .calls, broken), (doubled, .uses, "a"), ("a", .calls, "d")]
    let moves := [.extend older, .ask 0 "v", .extend newer]
    (∀ version ∈ versions moves, DistinctIds version.elements) ∧
      ((versions moves).IsChain fun newer older => SameEnds older.graph newer.graph) ∧
      (run moves).map answers ≠ (versions moves).map fun version => version.graph.answers := by
  intro broken joined doubled ids older newer moves
  let first := ofSorted older.options older.elements older.relationships
  let second := ofSorted newer.options newer.elements newer.relationships
  have olderGraph : older.graph = first := fresh_of_sorted _ (by decide) _
  have newerGraph : newer.graph = second := fresh_of_sorted _ (by decide) _
  have changes : changesFrom (first.remember "v") second = ["p", joined, doubled] := by
    unfold changesFrom isChangedFrom
    simp only [signature_eq_insertionSort]
    decide +kernel
  refine ⟨by decide, .cons_cons ?_ (.singleton older), ?_⟩
  · rw [newerGraph, olderGraph]
    decide +kernel
  · intro same
    have reused : (after (older.graph.remember "v") [] newer.graph).answers =
        newer.graph.answers := (List.cons.inj same).1
    have impacts : (after (older.graph.remember "v") [] newer.graph).impact "v" =
        newer.graph.impact "v" := congrArg (fun answers => answers.impact "v") reused
    have kept : (after (older.graph.remember "v") [] newer.graph).impact "v" = (2 / 7 : Rat) := by
      rw [olderGraph, newerGraph, after, changes]
      decide +kernel
    have counted : newer.graph.impact "v" = (1 / 7 : Rat) := by
      rw [newerGraph]
      decide +kernel
    rw [kept, counted] at impacts
    exact absurd impacts (by decide +kernel)

end DependencyGraph
end CodeAtlas
