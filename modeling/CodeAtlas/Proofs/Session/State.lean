import CodeAtlas.Proofs.Boundary.Reuse
import CodeAtlas.Proofs.Resolution.Update
import CodeAtlas.Proofs.Session.Snapshot

/-!
# What runs leave behind

What a run leaves is sound if a run over the same snapshot that knows nothing from before would
leave the same, apart from the counts that the graph remembers, which are true. A run that takes
over the outcome of a sound run leaves a sound outcome, and sound outcomes for snapshots that show
the same give analyses that agree.
-/

namespace CodeAtlas

open DependencyGraph Boundary Resolution

/-- Two analyses agree in all but their version, their mode, their time and what their graphs
remember. -/
structure Analysis.Agree (left right : Analysis) : Prop where
  /-- They have one root. -/
  rootPath : left.rootPath = right.rootPath
  /-- They have the same elements. -/
  elements : left.elements = right.elements
  /-- They have the same relationships. -/
  relationships : left.relationships = right.relationships
  /-- They have the same boundaries. -/
  boundaries : left.boundaries = right.boundaries
  /-- They leave the same elements out of boundaries. -/
  unassigned : left.unassigned = right.unassigned
  /-- They have the same layers. -/
  layers : left.layers = right.layers
  /-- They have the same findings. -/
  antiPatterns : left.antiPatterns = right.antiPatterns
  /-- They have the same shares of languages. -/
  languageCounts : left.languageCounts = right.languageCounts
  /-- They have the same metrics. -/
  metrics : left.metrics = right.metrics
  /-- They report the same problems. -/
  diagnostics : left.diagnostics = right.diagnostics

/-- Metrics come from the bare graph if what is remembered is true. -/
theorem DependencyGraph.Faithful.report_eq {α : Type} [Scalar α] {graph : DependencyGraph α}
    (faithful : graph.Faithful) (limits : MetricThresholds α) (count : Nat)
    (boundaries : List (Boundary α)) :
    Metrics.report limits count graph boundaries =
      Metrics.report limits count graph.bare boundaries := by
  rw [Metrics.report, faithful.impact_eq]
  rfl

theorem Layer.detect_bare {α : Type} (tests : List LayerTest) (elements : List Element)
    (graph : DependencyGraph α) : detect tests elements graph.bare = detect tests elements graph :=
  rfl

theorem AntiPattern.circles_bare (graph : DependencyGraph Float) :
    circles graph.bare = circles graph := rfl

namespace Analyzer

variable (analyzer : Analyzer)

/-- What the graph of elements is built from: the elements with stubs and their relationships. -/
def version (elements : List Element) : Version Float :=
  let resolution := analyzer.resolve elements none
  ⟨analyzer.configuration.graph, elements ++ resolution.externals, resolution.relationships, []⟩

/-- The boundaries of elements, compared with none from before. -/
def boundariesOf (elements : List Element) : Detection Float :=
  let version := analyzer.version elements
  analyzer.detector.detect version.elements version.relationships version.graph none

/-- What a run leaves is what follows from its snapshot alone, and what its graph remembers is
true. -/
structure Sound (state : RunState) : Prop where
  /-- The relationships are those of the elements. -/
  resolution : state.resolution = analyzer.resolve state.snapshot.elements none
  /-- The graph is that of the elements. -/
  graph : Follows state.graph (analyzer.version state.snapshot.elements)
  /-- The boundaries are those of the elements. -/
  detection : state.detection = analyzer.boundariesOf state.snapshot.elements

/-- Ids are distinct and can be read off the signatures of nodes, modules and names off their
keys. -/
structure Clear (elements : List Element) : Prop where
  /-- The ids of elements and stubs are distinct. -/
  distinct : DistinctIds (analyzer.version elements).elements
  /-- No name of a module holds the character that joins it with another name. -/
  undivided : UndividedModules elements
  /-- No id of a dependency edge holds a character that divides ids. -/
  legible : (analyzer.version elements).graph.Legible

/-- The ids of edges and the digests of two code bases stand for the same in both. -/
structure ToldApart (old new : List Element) : Prop where
  /-- One id of an edge stands for the same ends. -/
  sameEnds : SameEnds (analyzer.version old).graph (analyzer.version new).graph
  /-- One digest stands for the same places and ties. -/
  keys : KeysTellApart (analyzer.version old).elements (analyzer.version new).elements
    (analyzer.version old).relationships (analyzer.version new).relationships
  /-- One id of a boundary stands for the same members. -/
  ids : IdsTellApart ((analyzer.boundariesOf old).clusters ++ (analyzer.boundariesOf new).clusters)

variable {analyzer}

theorem ToldApart.symm {old new : List Element} (apart : analyzer.ToldApart old new) :
    analyzer.ToldApart new old where
  sameEnds first isFirst second isSecond sameId := by
    obtain ⟨sources, targets⟩ := apart.sameEnds second isSecond first isFirst sameId.symm
    exact ⟨sources.symm, targets.symm⟩
  keys sameKey := (apart.keys sameKey.symm).symm
  ids first isFirst second isSecond :=
    apart.ids first (List.mem_append.mpr (List.mem_append.mp isFirst).symm) second
      (List.mem_append.mpr (List.mem_append.mp isSecond).symm)

theorem distinctIds_of_version {elements : List Element}
    (distinct : DistinctIds (analyzer.version elements).elements) : DistinctIds elements := by
  unfold DistinctIds at distinct ⊢
  rw [version, List.map_append] at distinct
  exact distinct.of_append_left

theorem sound_stateOf (snapshot : Snapshot) : analyzer.Sound (analyzer.stateOf snapshot none) where
  resolution := rfl
  graph := follows_fresh (analyzer.version snapshot.elements)
  detection := rfl

theorem Sound.remember {state : RunState} (sound : analyzer.Sound state) :
    analyzer.Sound (remember state) where
  resolution := sound.resolution
  graph := sound.graph.rememberAll _
  detection := sound.detection

/-- What the graph remembers does not matter to boundaries. -/
theorem Sound.detection_eq {state : RunState} (sound : analyzer.Sound state) :
    state.detection = analyzer.detector.detect
      (analyzer.version state.snapshot.elements).elements
      (analyzer.version state.snapshot.elements).relationships state.graph none := by
  rw [sound.detection, boundariesOf, ← sound.graph.bare_eq]
  rfl

/-- Boundaries that take over those of a sound run are those of the elements. -/
theorem Sound.detect_again {state : RunState} (sound : analyzer.Sound state)
    {elements : List Element} (oldClear : analyzer.Clear state.snapshot.elements)
    (newClear : analyzer.Clear elements)
    (apart : analyzer.ToldApart state.snapshot.elements elements) (changedIds : List String) :
    analyzer.detector.detect (analyzer.version elements).elements
        (analyzer.version elements).relationships
        (after state.graph changedIds (analyzer.version elements).graph)
        (some ⟨state.detection, state.graph, changedIds⟩) = analyzer.boundariesOf elements := by
  have weights : state.graph.weights = analyzer.configuration.graph.weights :=
    congrArg DependencyGraph.weights sound.graph.bare_eq
  have comparable : Comparable state.graph.bare (analyzer.version elements).graph := by
    rw [sound.graph.bare_eq]
    exact ⟨built_fresh _ oldClear.distinct _, built_fresh _ newClear.distinct _, oldClear.legible,
      newClear.legible, apart.sameEnds.edgesAgree⟩
  -- The graph of the run before remembers counts, so it is comparable through its bare form only.
  rw [sound.detection_eq]
  refine detect_reuse analyzer.detector ?_ weights ?_ oldClear.distinct
    (apart.keys.places_ties apart.sameEnds) ?_ changedIds
  · exact ⟨.of_bare comparable.previousBuilt, .of_bare comparable.built,
      comparable.previousLegible, comparable.legible, comparable.agree⟩
  · intro id changed
    exact mem_distinct.mpr (List.mem_append_left changedIds changed)
  · intro first isFirst second isSecond
    exact apart.ids first (List.mem_append_left _ isFirst) second isSecond

/-- What a run leaves that takes over what a sound run left: the relationships are those of the
elements whatever is taken over. -/
theorem Sound.stateOf_eq {state : RunState} (sound : analyzer.Sound state) {snapshot : Snapshot}
    {changedFiles : List String}
    (same : SameOutside changedFiles state.snapshot.elements snapshot.elements)
    (oldDistinct : DistinctIds (analyzer.version state.snapshot.elements).elements)
    (newDistinct : DistinctIds (analyzer.version snapshot.elements).elements)
    (undivided : UndividedModules (state.snapshot.elements ++ snapshot.elements))
    (changedIds : List String) :
    analyzer.stateOf snapshot (some ⟨state, changedFiles, changedIds⟩) =
      { snapshot := snapshot
        resolution := analyzer.resolve snapshot.elements none
        graph := after state.graph changedIds (analyzer.version snapshot.elements).graph
        detection := analyzer.detector.detect (analyzer.version snapshot.elements).elements
          (analyzer.version snapshot.elements).relationships
          (after state.graph changedIds (analyzer.version snapshot.elements).graph)
          (some ⟨state.detection, state.graph, changedIds⟩) } := by
  have resolution : analyzer.resolve snapshot.elements (some ⟨state, changedFiles, changedIds⟩) =
      analyzer.resolve snapshot.elements none := by
    simp only [Analyzer.resolve, sound.resolution]
    exact update_resolve _ (distinctIds_of_version oldDistinct)
      (distinctIds_of_version newDistinct) undivided same
  simp only [Analyzer.stateOf, resolution]
  rfl

/-- A run that takes over what a sound run left leaves a sound outcome. -/
theorem Sound.stateOf {state : RunState} (sound : analyzer.Sound state) {snapshot : Snapshot}
    {changedFiles : List String}
    (same : SameOutside changedFiles state.snapshot.elements snapshot.elements)
    (oldClear : analyzer.Clear state.snapshot.elements)
    (newClear : analyzer.Clear snapshot.elements)
    (apart : analyzer.ToldApart state.snapshot.elements snapshot.elements)
    (changedIds : List String) :
    analyzer.Sound (analyzer.stateOf snapshot (some ⟨state, changedFiles, changedIds⟩)) := by
  have follows := sound.graph.after oldClear.distinct newClear.distinct oldClear.legible
    newClear.legible apart.sameEnds.edgesAgree changedIds
  have undivided : UndividedModules (state.snapshot.elements ++ snapshot.elements) :=
    List.forall_mem_append.mpr ⟨oldClear.undivided, newClear.undivided⟩
  rw [sound.stateOf_eq same oldClear.distinct newClear.distinct undivided]
  exact ⟨rfl, follows, sound.detect_again oldClear newClear apart changedIds⟩

/-- Sound outcomes for snapshots that show the same give analyses that agree. -/
theorem Sound.agree {state other : RunState} (sound : analyzer.Sound state)
    (otherSound : analyzer.Sound other) {outcomeAt : String → Option FileOutcome}
    (shows : state.snapshot.Shows outcomeAt) (otherShows : other.snapshot.Shows outcomeAt)
    (sameRoot : state.snapshot.root = other.snapshot.root) (labels : Table String Label)
    (mode otherMode : AnalysisMode) (version otherVersion : Nat) (time otherTime : Instant) :
    (analyzer.analysisOf labels state mode version time).Agree
      (analyzer.analysisOf labels other otherMode otherVersion otherTime) := by
  have elements := shows.elements_eq otherShows
  have resolution : state.resolution = other.resolution := by
    rw [sound.resolution, otherSound.resolution, elements]
  have detection : state.detection = other.detection := by
    rw [sound.detection, otherSound.detection, elements]
  -- The graphs may remember different counts, but what analyses read of them is the same.
  have graph : state.graph.bare = other.graph.bare := by
    rw [sound.graph.bare_eq, otherSound.graph.bare_eq, elements]
  have all : elementsOf state = elementsOf other := by
    rw [elementsOf, elementsOf, elements, resolution]
  have layers : Layer.detect analyzer.layerTests (elementsOf state) state.graph =
      Layer.detect analyzer.layerTests (elementsOf other) other.graph := by
    rw [all, ← Layer.detect_bare, graph, Layer.detect_bare]
  exact
    { rootPath := sameRoot
      elements := by simp only [analysisOf, all]
      relationships := congrArg Resolution.relationships resolution
      boundaries := congrArg Detection.boundaries detection
      unassigned := congrArg Detection.unassigned detection
      layers := layers
      antiPatterns := by
        simp only [analysisOf, AntiPattern.detect, layers, detection, elements]
        rw [← AntiPattern.circles_bare, graph, AntiPattern.circles_bare]
      languageCounts := shows.languageCounts_eq otherShows
      metrics := by
        simp only [analysisOf, detection]
        rw [sound.graph.faithful.report_eq, otherSound.graph.faithful.report_eq, graph]
      diagnostics := by
        simp only [analysisOf, all, resolution, shows.diagnostics_eq otherShows] }

end Analyzer
end CodeAtlas
