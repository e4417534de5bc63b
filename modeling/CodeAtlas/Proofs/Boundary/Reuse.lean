import CodeAtlas.Boundary.Detection
import CodeAtlas.Proofs.Boundary.Cluster
import CodeAtlas.Proofs.Boundary.Score
import CodeAtlas.Proofs.Graph.Chain
import CodeAtlas.Proofs.List
import Mathlib.Data.List.Permutation

/-!
# Boundaries after a change

Boundaries that take over the clusters and scores of an earlier detection are those that would be
detected anew. Clusters are taken over only if what they are built from is the same, and scores only
for members whose dependency edges and place in cycles are as before.
-/

namespace CodeAtlas
namespace Boundary

open DependencyGraph

variable {α : Type}

/-! ## Known boundaries -/

/-- One step of making names distinct. -/
def nameStep (state : Table String Nat × List (Boundary α)) (boundary : Boundary α) :
    Table String Nat × List (Boundary α) :=
  let count := (state.1.get? boundary.name).getD 0 + 1
  let name := if count = 1 then boundary.name else boundary.name ++ "#" ++ toString count
  (state.1.put boundary.name count, state.2 ++ [{ boundary with name := name }])

theorem nameApart_eq (boundaries : List (Boundary α)) :
    nameApart boundaries = (boundaries.foldl nameStep (Table.empty, [])).2 := rfl

theorem mem_foldl_nameStep {boundaries : List (Boundary α)}
    {state : Table String Nat × List (Boundary α)} {boundary : Boundary α}
    (member : boundary ∈ (boundaries.foldl nameStep state).2) :
    boundary ∈ state.2 ∨ ∃ draft ∈ boundaries, boundary = { draft with name := boundary.name } := by
  induction boundaries generalizing state with
  | nil => exact .inl member
  | cons first rest induction =>
    rcases induction member with earlier | ⟨draft, isDraft, same⟩
    · rcases List.mem_append.mp earlier with earlier | new
      · exact .inl earlier
      · refine .inr ⟨first, List.mem_cons_self, ?_⟩
        rw [List.mem_singleton.mp new]
    · exact .inr ⟨draft, List.mem_cons_of_mem first isDraft, same⟩

theorem mem_nameApart {boundaries : List (Boundary α)} {boundary : Boundary α}
    (member : boundary ∈ nameApart boundaries) :
    ∃ draft ∈ boundaries, boundary = { draft with name := boundary.name } := by
  rw [nameApart_eq] at member
  rcases mem_foldl_nameStep member with earlier | found
  · simp at earlier
  · exact found

/-! ## What clusters are built from -/

/-- What the clusters of a code base are built from: the sorted places of its elements and the ids
and strengths of its ties. -/
def structureOf (elements : List Element) (relationships : List (Relationship α)) :
    List Place × List (String × α) :=
  (Place.sort (places (candidates elements)),
    (structural (candidates elements) relationships).map fun relationship =>
      (relationship.id, relationship.strength))

theorem mem_structural {members : List Element} {relationships : List (Relationship α)}
    {relationship : Relationship α} (member : relationship ∈ structural members relationships) :
    relationship ∈ relationships ∧ relationship.sourceId ∈ members.map Element.id ∧
      relationship.targetId ∈ members.map Element.id := by
  simp only [structural, List.mem_filter, Bool.and_eq_true, List.contains_iff_mem] at member
  exact ⟨member.1, member.2.1.2, member.2.2⟩

/-- Structures that are the same have the same ties, as ids determine ends. -/
theorem ties_eq_of_structureOf_eq {old new : List Element}
    {oldRelationships newRelationships : List (Relationship α)}
    (same : structureOf old oldRelationships = structureOf new newRelationships)
    (ends : ∀ first ∈ structural (candidates old) oldRelationships,
      ∀ second ∈ structural (candidates new) newRelationships, first.id = second.id →
        first.sourceId = second.sourceId ∧ first.targetId = second.targetId) :
    (structural (candidates old) oldRelationships).map tie =
      (structural (candidates new) newRelationships).map tie := by
  refine map_eq_of_map_eq (congrArg Prod.snd same) fun first isFirst second isSecond key => ?_
  obtain ⟨ids, strengths⟩ := Prod.mk.inj key
  obtain ⟨sources, targets⟩ := ends first isFirst second isSecond ids
  rw [tie, tie, sources, targets, strengths]

theorem places_perm_of_structureOf_eq {old new : List Element}
    {oldRelationships newRelationships : List (Relationship α)}
    (same : structureOf old oldRelationships = structureOf new newRelationships) :
    (places (candidates old)).Perm (places (candidates new)) := by
  have sorted : Place.sort (places (candidates old)) = Place.sort (places (candidates new)) :=
    congrArg Prod.fst same
  exact (Place.sort_perm _).symm.trans (sorted ▸ Place.sort_perm _)

theorem ends_eq_of_sameEnds (options : GraphOptions α) {old new : List Element}
    {oldRelationships newRelationships : List (Relationship α)}
    (sameEnds : SameEnds (fresh options old oldRelationships)
      (fresh options new newRelationships))
    {first second : Relationship α}
    (isFirst : first ∈ structural (candidates old) oldRelationships)
    (isSecond : second ∈ structural (candidates new) newRelationships)
    (sameId : first.id = second.id) :
    first.sourceId = second.sourceId ∧ first.targetId = second.targetId := by
  have subset (elements : List Element) :
      (candidates elements).map Element.id ⊆ elements.map Element.id :=
    (List.filter_sublist.map Element.id).subset
  obtain ⟨isOld, oldSource, oldTarget⟩ := mem_structural isFirst
  obtain ⟨isNew, newSource, newTarget⟩ := mem_structural isSecond
  obtain ⟨edge, isEdge, edgeId, source, target⟩ := exists_edge options isOld
    (subset old oldSource) (subset old oldTarget)
  obtain ⟨twin, isTwin, twinId, twinSource, twinTarget⟩ := exists_edge options isNew
    (subset new newSource) (subset new newTarget)
  have ends := sameEnds edge isEdge twin isTwin (edgeId.trans (sameId.trans twinId.symm))
  rw [source, target, twinSource, twinTarget] at ends
  exact ends

theorem comparable_build (options : GraphOptions α) {old new : List Element}
    {oldRelationships newRelationships : List (Relationship α)} (touched : List String)
    (oldDistinct : DistinctIds old) (newDistinct : DistinctIds new)
    (oldLegible : (fresh options old oldRelationships).Legible)
    (newLegible : (fresh options new newRelationships).Legible)
    (agree : EdgesAgree (fresh options old oldRelationships) (fresh options new newRelationships)) :
    Comparable (fresh options old oldRelationships)
      (build options new newRelationships (some (fresh options old oldRelationships, touched))) :=
  ⟨built_fresh options oldDistinct oldRelationships,
    .of_bare (built_fresh options newDistinct newRelationships), oldLegible, newLegible, agree⟩

variable [Scalar α]

/-! ## Reuse -/

/-- A boundary that was detected without an earlier detection has the scores of its cluster. -/
theorem mem_boundaries_detect {detector : Detector} {elements : List Element}
    {relationships : List (Relationship α)} {graph : DependencyGraph α} {boundary : Boundary α}
    (member : boundary ∈ (detector.detect elements relationships graph none).boundaries) :
    ∃ memberIds ∈ (detector.detect elements relationships graph none).clusters,
      boundary.id = idOf memberIds ∧
      score graph memberIds = ⟨boundary.cohesion, boundary.coupling, boundary.complexity,
        boundary.externalDependencyIds⟩ := by
  obtain ⟨draft, isDraft, same⟩ := mem_nameApart member
  rw [Text.mem_sortBy] at isDraft
  obtain ⟨memberIds, isCluster, rfl⟩ := List.mem_map.mp isDraft
  refine ⟨memberIds, isCluster, ?_⟩
  rw [same]
  exact ⟨rfl, rfl⟩

theorem clusters_detect (detector : Detector) (elements : List Element)
    (relationships : List (Relationship α)) (graph : DependencyGraph α) :
    cluster detector.limits (candidates elements)
        (structural (candidates elements) relationships) =
      ((detector.detect elements relationships graph none).clusters,
        (detector.detect elements relationships graph none).unassigned) := rfl

/-- Detection depends on what is known from before through the clusters and their scores only. -/
theorem detect_eq_of_clusterAgain {detector : Detector} {elements : List Element}
    {relationships : List (Relationship α)} {graph : DependencyGraph α} {earlier : Earlier α}
    (clusters : clusterAgain detector.limits (candidates elements)
        (structural (candidates elements) relationships)
        (structuralKey (candidates elements) (structural (candidates elements) relationships))
        (some earlier) =
      cluster detector.limits (candidates elements)
        (structural (candidates elements) relationships))
    (scores : ∀ memberIds ∈ (detector.detect elements relationships graph none).clusters,
      scoreAgain graph (some earlier) memberIds = scoreAgain graph none memberIds) :
    detector.detect elements relationships graph (some earlier) =
      detector.detect elements relationships graph none := by
  have drafts : (detector.detect elements relationships graph none).clusters.map
        (ofCluster detector.classifier graph (Table.ofList ((candidates elements).map
          fun element => (element.id, element))) (some earlier)) =
      (detector.detect elements relationships graph none).clusters.map
        (ofCluster detector.classifier graph (Table.ofList ((candidates elements).map
          fun element => (element.id, element))) none) := by
    refine List.map_congr_left fun memberIds member => ?_
    simp only [ofCluster, scores memberIds member]
  unfold Detector.detect
  simp only [clusters]
  exact congrArg (fun drafts => (⟨nameApart (Text.sortBy Boundary.id drafts), _, _, _⟩ :
    Detection α)) drafts

/-- Known scores are used for members that have the same scores now. -/
theorem scoreAgain_eq {graph : DependencyGraph α} {earlier : Earlier α} {memberIds : List String}
    (known : ∀ boundary ∈ earlier.detection.boundaries, boundary.id = idOf memberIds →
      isUntouched graph earlier memberIds →
      (⟨boundary.cohesion, boundary.coupling, boundary.complexity,
        boundary.externalDependencyIds⟩ : Scores α) = score graph memberIds) :
    scoreAgain graph (some earlier) memberIds = scoreAgain graph none memberIds := by
  unfold scoreAgain
  simp only [Option.bind_some, Option.bind_none]
  split
  case h_2 => rfl
  case h_1 boundary isKnown =>
    obtain ⟨found, isFound, kept⟩ := Option.bind_eq_some_iff.mp isKnown
    split at kept
    case isFalse => simp at kept
    case isTrue untouched =>
      obtain rfl := Option.some.inj kept
      obtain ⟨entry, isEntry, same⟩ := List.mem_map.mp (Table.mem_of_get?_ofList isFound)
      obtain ⟨sameId, rfl⟩ := Prod.mk.inj same
      exact known entry isEntry sameId untouched

/-- Detection with reuse gives what detection without it gives. -/
theorem detect_reuse (detector : Detector) {old new : List Element}
    {oldRelationships newRelationships : List (Relationship α)}
    {previous graph : DependencyGraph α} (comparable : Comparable previous graph)
    (weights : previous.weights = graph.weights)
    (marked : changesFrom previous graph ⊆ graph.changed)
    (distinctIds : DistinctIds old)
    (sameKey : structuralKey (candidates old) (structural (candidates old) oldRelationships) =
        structuralKey (candidates new) (structural (candidates new) newRelationships) →
      (places (candidates old)).Perm (places (candidates new)) ∧
      (structural (candidates old) oldRelationships).map tie =
        (structural (candidates new) newRelationships).map tie)
    (separated : ∀ first ∈ (detector.detect old oldRelationships previous none).clusters,
      ∀ second ∈ (detector.detect old oldRelationships previous none).clusters ++
        (detector.detect new newRelationships graph none).clusters,
      idOf first = idOf second → first = second)
    (changedIds : List String) :
    detector.detect new newRelationships graph
        (some ⟨detector.detect old oldRelationships previous none, previous, changedIds⟩) =
      detector.detect new newRelationships graph none := by
  apply detect_eq_of_clusterAgain
  · unfold clusterAgain
    dsimp only
    split
    case isFalse => rfl
    case isTrue same =>
      obtain ⟨samePlaces, sameTies⟩ := sameKey same
      rw [← clusters_detect]
      refine cluster_eq_of_places detector.limits (distinctIds.filter _) samePlaces sameTies ?_
      intro first isFirst second isSecond
      exact separated first isFirst second (List.mem_append_left _ isSecond)
  · intro memberIds isCluster
    apply scoreAgain_eq
    intro boundary isBoundary sameId untouched
    obtain ⟨oldIds, isOld, oldId, scores⟩ := mem_boundaries_detect isBoundary
    have same : oldIds = memberIds := separated oldIds isOld memberIds
      (List.mem_append_right _ isCluster) (oldId.symm.trans sameId)
    subst same
    have unchanged (id : String) (member : id ∈ oldIds) :
        id ∉ changesFrom previous graph ∧ previous.isInCycle id = graph.isInCycle id := by
      have near := List.all_eq_true.mp untouched id member
      rw [Bool.and_eq_true, Bool.and_eq_true, beq_iff_eq] at near
      obtain ⟨⟨unmarked, _⟩, cycle⟩ := near
      refine ⟨fun changed => ?_, cycle.symm⟩
      simp [marked changed] at unmarked
    rw [← scores]
    exact score_eq_of_unchanged comparable weights (fun id member => (unchanged id member).1)
      fun id member => (unchanged id member).2

/-! ## Digests that tell inputs apart -/

/-- The digest of what the clusters of a code base are built from. -/
def keyOf (elements : List Element) (relationships : List (Relationship α)) : String :=
  structuralKey (candidates elements) (structural (candidates elements) relationships)

/-- The digests of two code bases are different if what they are made from is different. -/
def KeysTellApart (old new : List Element)
    (oldRelationships newRelationships : List (Relationship α)) : Prop :=
  keyOf old oldRelationships = keyOf new newRelationships →
    structureOf old oldRelationships = structureOf new newRelationships

/-- With one digest, code bases that edges and digests tell apart have the same places and ties. -/
theorem KeysTellApart.places_ties {old new : List Element}
    {oldRelationships newRelationships : List (Relationship α)}
    (keys : KeysTellApart old new oldRelationships newRelationships) {options : GraphOptions α}
    (sameEnds : SameEnds (fresh options old oldRelationships)
      (fresh options new newRelationships))
    (sameKey : keyOf old oldRelationships = keyOf new newRelationships) :
    (places (candidates old)).Perm (places (candidates new)) ∧
      (structural (candidates old) oldRelationships).map tie =
        (structural (candidates new) newRelationships).map tie := by
  have same := keys sameKey
  refine ⟨places_perm_of_structureOf_eq same, ties_eq_of_structureOf_eq same ?_⟩
  intro first isFirst second isSecond sameId
  exact ends_eq_of_sameEnds options sameEnds isFirst isSecond sameId

/-- Different clusters have different ids. -/
def IdsTellApart (clusters : List (List String)) : Prop :=
  ∀ first ∈ clusters, ∀ second ∈ clusters, idOf first = idOf second → first = second

/-! ## Detection after a change -/

/-- The clusters that are detected in a code base. -/
def clustersOf (detector : Detector) (elements : List Element)
    (relationships : List (Relationship α)) : List (List String) :=
  (cluster detector.limits (candidates elements)
    (structural (candidates elements) relationships)).1

/-- After a change, detection with what was detected before gives what detection without it gives,
as long as ids and digests tell apart what is compared. -/
theorem detect_after_change (detector : Detector) (options : GraphOptions α)
    {old new : List Element} {oldRelationships newRelationships : List (Relationship α)}
    (touched changedIds : List String) (oldDistinct : DistinctIds old)
    (newDistinct : DistinctIds new) (oldLegible : (fresh options old oldRelationships).Legible)
    (newLegible : (fresh options new newRelationships).Legible)
    (sameEnds : SameEnds (fresh options old oldRelationships)
      (fresh options new newRelationships))
    (keys : KeysTellApart old new oldRelationships newRelationships)
    (ids : IdsTellApart (clustersOf detector old oldRelationships ++
      clustersOf detector new newRelationships)) :
    let previous := build options old oldRelationships none
    let graph := build options new newRelationships (some (previous, touched))
    let detection := detector.detect old oldRelationships previous none
    detector.detect new newRelationships graph (some ⟨detection, previous, changedIds⟩) =
      detector.detect new newRelationships graph none := by
  refine detect_reuse detector (comparable_build options touched oldDistinct newDistinct oldLegible
    newLegible sameEnds.edgesAgree) rfl ?_ oldDistinct (keys.places_ties sameEnds) ?_ changedIds
  · intro id changed
    exact mem_distinct.mpr (List.mem_append_left touched changed)
  · intro first isFirst second isSecond
    exact ids first (List.mem_append_left _ isFirst) second isSecond

/-! ## Two changes -/

theorem boundaries_of_single {detector : Detector} {elements : List Element}
    {relationships : List (Relationship α)} {graph : DependencyGraph α}
    {earlier : Option (Earlier α)} {memberIds rest : List String}
    (single : clusterAgain detector.limits (candidates elements)
        (structural (candidates elements) relationships) (keyOf elements relationships)
        earlier = ([memberIds], rest)) :
    (detector.detect elements relationships graph earlier).boundaries =
      [ofCluster detector.classifier graph (Table.ofList ((candidates elements).map
        fun element => (element.id, element))) earlier memberIds] := by
  unfold keyOf at single
  unfold Detector.detect
  simp only [single, List.map_singleton, Text.sortBy, List.mergeSort_singleton]
  rfl

theorem scoreAgain_of_known {graph : DependencyGraph α} {earlier : Earlier α}
    {memberIds : List String} {boundary : Boundary α}
    (single : earlier.detection.boundaries = [boundary]) (sameId : boundary.id = idOf memberIds)
    (untouched : isUntouched graph earlier memberIds) :
    scoreAgain graph (some earlier) memberIds = ⟨boundary.cohesion, boundary.coupling,
      boundary.complexity, boundary.externalDependencyIds⟩ := by
  have found : (Table.ofList (earlier.detection.boundaries.map fun boundary =>
      (boundary.id, boundary))).get? (idOf memberIds) = some boundary := by
    rw [single, ← sameId]
    exact Table.get?_put_self Table.empty boundary.id boundary
  simp only [scoreAgain, Option.bind_some, found, untouched, if_true]

section Single

variable {detector : Detector} {new : List Element} {newRelationships : List (Relationship α)}
  {graph : DependencyGraph α} {memberIds : List String}
  (newSingle : cluster detector.limits (candidates new)
    (structural (candidates new) newRelationships) = ([memberIds], []))

include newSingle

theorem boundaries_of_single_cluster :
    (detector.detect new newRelationships graph none).boundaries =
      [ofCluster detector.classifier graph (Table.ofList ((candidates new).map
        fun element => (element.id, element))) none memberIds] := by
  have anew : clusterAgain detector.limits (candidates new)
      (structural (candidates new) newRelationships) (keyOf new newRelationships) none =
        ([memberIds], []) := newSingle
  exact boundaries_of_single anew

theorem externalDependencyIds_of_single :
    (detector.detect new newRelationships graph none).boundaries.map
      Boundary.externalDependencyIds = [(score graph memberIds).externalDependencyIds] := by
  rw [boundaries_of_single_cluster newSingle]
  rfl

/-- If the one boundary seems untouched by a change, then it keeps the dependencies that it had. -/
theorem externalDependencyIds_of_isUntouched {old : List Element}
    {oldRelationships : List (Relationship α)} {previous : DependencyGraph α}
    {changedIds : List String}
    (oldSingle : cluster detector.limits (candidates old)
      (structural (candidates old) oldRelationships) = ([memberIds], []))
    (untouched : isUntouched graph
      ⟨detector.detect old oldRelationships previous none, previous, changedIds⟩ memberIds) :
    (detector.detect new newRelationships graph (some
        ⟨detector.detect old oldRelationships previous none, previous, changedIds⟩)).boundaries.map
      Boundary.externalDependencyIds = [(score previous memberIds).externalDependencyIds] := by
  have again : clusterAgain detector.limits (candidates new)
      (structural (candidates new) newRelationships) (keyOf new newRelationships)
      (some ⟨detector.detect old oldRelationships previous none, previous, changedIds⟩) =
        ([memberIds], []) := by
    unfold clusterAgain
    dsimp only
    split
    · exact oldSingle
    · exact newSingle
  rw [boundaries_of_single again, List.map_singleton, ofCluster,
    scoreAgain_of_known (boundaries_of_single_cluster oldSingle) rfl untouched]
  rfl

end Single

/-- A stub for something outside the code base. -/
def stub (id : String) : Element :=
  { Element.sketch id "external" [] with metadata := [("external", .bool true)] }

/-- A detector without rules that takes clusters of any size up to a bound. -/
def plainDetector : Detector := ⟨⟨[], false⟩, ⟨1, 40, 20⟩⟩

/-- A stub is new and the elements come in another order; clusters and scores are taken over. -/
theorem detect_after_change_new_stub :
    let caller := Element.sketch "a" "main.ts" []
    let options : GraphOptions Rat := ⟨RelationshipKind.references, ⟨1, 2, 3⟩⟩
    let oldRelationships := [Relationship.sketch "a" .calls "x"]
    let newRelationships := [Relationship.sketch "a" .calls "x"]
    let old := [caller, stub "x"]
    let new := [stub "y", stub "x", caller]
    let previous := build options old oldRelationships none
    let graph := build options new newRelationships (some (previous, ["y"]))
    let detection := plainDetector.detect old oldRelationships previous none
    DistinctIds old ∧ DistinctIds new ∧
      (fresh options old oldRelationships).Legible ∧ (fresh options new newRelationships).Legible ∧
      SameEnds (fresh options old oldRelationships) (fresh options new newRelationships) ∧
      KeysTellApart old new oldRelationships newRelationships ∧
      IdsTellApart (clustersOf plainDetector old oldRelationships ++
        clustersOf plainDetector new newRelationships) ∧
      plainDetector.detect new newRelationships graph (some ⟨detection, previous, ["y"]⟩) =
        plainDetector.detect new newRelationships graph none := by
  intro caller options oldRelationships newRelationships old new previous graph detection
  have oldDistinct : DistinctIds old := by decide
  have newDistinct : DistinctIds new := by decide
  let sorted := [caller, stub "x", stub "y"]
  have olderGraph : fresh options old oldRelationships = ofSorted options old oldRelationships :=
    fresh_of_sorted options (by decide) oldRelationships
  have newerGraph : fresh options new newRelationships =
      ofSorted options sorted newRelationships := by
    rw [fresh_eq_of_perm options newDistinct (List.reverse_perm sorted)]
    exact fresh_of_sorted options (by decide) newRelationships
  have oldLegible : (fresh options old oldRelationships).Legible := by
    rw [olderGraph]
    decide
  have newLegible : (fresh options new newRelationships).Legible := by
    rw [newerGraph]
    decide
  have sameEnds : SameEnds (fresh options old oldRelationships)
      (fresh options new newRelationships) := by
    rw [olderGraph, newerGraph]
    decide
  have keys : KeysTellApart old new oldRelationships newRelationships := fun _ => rfl
  have clusters : clustersOf plainDetector old oldRelationships ++
      clustersOf plainDetector new newRelationships = [["a"], ["a"]] := by cbv
  have ids : IdsTellApart (clustersOf plainDetector old oldRelationships ++
      clustersOf plainDetector new newRelationships) := by
    rw [clusters]
    simp [IdsTellApart]
  exact ⟨oldDistinct, newDistinct, oldLegible, newLegible, sameEnds, keys, ids,
    detect_after_change plainDetector options ["y"] ["y"] oldDistinct newDistinct oldLegible
      newLegible sameEnds keys ids⟩

/-- Where ids hold line breaks, scores can be taken over although the edges of a member have
changed: `v` calls two stubs before and another one after the change, with one signature. -/
theorem detect_after_change_line_breaks :
    let broken := "a\nrel:v|calls|b"
    let options : GraphOptions Rat := ⟨RelationshipKind.references, ⟨1, 2, 3⟩⟩
    let elements := [stub "a", stub broken, stub "b", Element.sketch "v" "main.ts" []]
    let oldRelationships :=
      [Relationship.sketch "v" .calls "a", Relationship.sketch "v" .calls "b"]
    let newRelationships := [Relationship.sketch "v" .calls broken]
    let previous := build options elements oldRelationships none
    let graph := build options elements newRelationships (some (previous, []))
    let detection := plainDetector.detect elements oldRelationships previous none
    DistinctIds elements ∧
      SameEnds (fresh options elements oldRelationships)
        (fresh options elements newRelationships) ∧
      KeysTellApart elements elements oldRelationships newRelationships ∧
      IdsTellApart (clustersOf plainDetector elements oldRelationships ++
        clustersOf plainDetector elements newRelationships) ∧
      plainDetector.detect elements newRelationships graph (some ⟨detection, previous, []⟩) ≠
        plainDetector.detect elements newRelationships graph none := by
  intro broken options elements oldRelationships newRelationships previous graph detection
  let first := ofSorted options elements oldRelationships
  let second := ofSorted options elements newRelationships
  have olderGraph : fresh options elements oldRelationships = first :=
    fresh_of_sorted options (by decide) oldRelationships
  have newerGraph : fresh options elements newRelationships = second :=
    fresh_of_sorted options (by decide) newRelationships
  have alone : cluster plainDetector.limits [Element.sketch "v" "main.ts" []]
      ([] : List (Relationship Rat)) = ([["v"]], []) := by cbv
  have oldCluster : cluster plainDetector.limits (candidates elements)
      (structural (candidates elements) oldRelationships) = ([["v"]], []) := alone
  have newCluster : cluster plainDetector.limits (candidates elements)
      (structural (candidates elements) newRelationships) = ([["v"]], []) := alone
  refine ⟨by decide, ?_, fun _ => rfl, ?_, ?_⟩
  · rw [olderGraph, newerGraph]
    decide
  · rw [clustersOf, clustersOf, oldCluster, newCluster]
    simp [IdsTellApart]
  · intro same
    have changes : changesFrom first second = ["a", broken, "b"] := by
      unfold changesFrom isChangedFrom
      simp only [signature_eq_insertionSort]
      decide
    have untouched : isUntouched graph ⟨detection, previous, []⟩ ["v"] := by
      change (["v"].all fun id => !(after (fresh options elements oldRelationships) []
          (fresh options elements newRelationships)).changed.contains id && true &&
        (fresh options elements newRelationships).isInCycle id ==
          (fresh options elements oldRelationships).isInCycle id) = true
      rw [olderGraph, newerGraph, after, changes]
      decide
    have stale := congrArg (List.map Boundary.externalDependencyIds ∘ Detection.boundaries) same
    rw [Function.comp_apply, Function.comp_apply,
      externalDependencyIds_of_isUntouched newCluster oldCluster untouched,
      externalDependencyIds_of_single newCluster] at stale
    have before : (score (fresh options elements oldRelationships) ["v"]).externalDependencyIds =
        ["a", "b"] := by
      rw [olderGraph, score, Text.sort_eq_insertionSort]
      decide
    have after : (score (fresh options elements newRelationships) ["v"]).externalDependencyIds =
        [broken] := by
      rw [newerGraph, score, Text.sort_eq_insertionSort]
      decide
    have different : ["a", "b"] ≠ [broken] := by decide
    exact different (before.symm.trans ((List.head_eq_of_cons_eq stale).trans after))

end Boundary
end CodeAtlas
