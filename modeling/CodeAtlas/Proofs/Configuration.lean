import CodeAtlas.Proofs.Language
import CodeAtlas.Proofs.Number.Order
import CodeAtlas.Proofs.Pattern.Flags
import CodeAtlas.Proofs.Schema
import CodeAtlas.Session.Analyzer

/-!
# Configurations that are loaded

A configuration that is loaded has all its settings within their bounds, and an analyzer can be made
of it whenever the languages against which it was checked have an extractor. Loading a configuration
and making an analyzer of it compile the patterns with different flags and check the language map
against different lists.
-/

namespace CodeAtlas

/-- The settings that take part in computations are within their bounds. -/
structure Configuration.WithinBounds (configuration : Configuration) : Prop where
  /-- A boundary has at least one member. -/
  minSize : 1 ≤ configuration.boundaries.minSize
  /-- Some size is allowed. -/
  maxSize : configuration.boundaries.minSize ≤ configuration.boundaries.maxSize
  /-- A reference found by a guess counts. -/
  heuristic : 0 < configuration.resolution.heuristic
  /-- A reference into the same module counts at least as much. -/
  sameModule : configuration.resolution.heuristic ≤ configuration.resolution.sameModule
  /-- An exact reference counts at least as much again. -/
  exact : configuration.resolution.sameModule ≤ configuration.resolution.exact
  /-- No reference counts more than fully. -/
  full : configuration.resolution.exact ≤ 1
  /-- Edges add to complexity. -/
  edges : 0 < configuration.graph.weights.edges
  /-- Dependencies add to complexity. -/
  fanOut : 0 < configuration.graph.weights.fanOut
  /-- Cycles add to complexity. -/
  cycleMembers : 0 < configuration.graph.weights.cycleMembers

namespace Configuration

open Schema

theorem ensures_readStrength : Ensures readStrength fun value => 0 < value ∧ value ≤ 1 :=
  fun _ _ isRead => ((ensures_number.above 0).atMost 1 isRead).imp_left And.right

theorem ensures_readWeight : Ensures readWeight fun value => 0 < value :=
  fun _ _ isRead => (ensures_number.above 0 isRead).2

theorem ensures_readCount : Ensures readCount fun value => value.isNaN = false ∧ 1 ≤ value :=
  ensures_whole.atLeast 1

theorem ensures_readStrengths : Ensures readStrengths fun strengths =>
    0 < strengths.heuristic ∧ strengths.exact ≤ 1 := by
  refine ensures_objectOrEmpty fun members strengths isRead => ?_
  simp only [Reading.seq_eq_accept, Reading.map_eq_accept, member_eq_accept] at isRead
  obtain ⟨_, ⟨_, ⟨exact, isExact, rfl⟩, _, -, rfl⟩, heuristic, isHeuristic, rfl⟩ := isRead
  exact ⟨(ensures_readStrength.orElse (by decide) isHeuristic).1,
    (ensures_readStrength.orElse (by decide) isExact).2⟩

theorem ensures_readWeights : Ensures readWeights fun weights =>
    0 < weights.edges ∧ 0 < weights.fanOut ∧ 0 < weights.cycleMembers := by
  refine ensures_objectOrEmpty fun members weights isRead => ?_
  simp only [Reading.seq_eq_accept, Reading.map_eq_accept, member_eq_accept] at isRead
  obtain ⟨_, ⟨_, ⟨edges, isEdges, rfl⟩, fanOut, isFanOut, rfl⟩, cycles, isCycles, rfl⟩ := isRead
  exact ⟨ensures_readWeight.orElse (by decide) isEdges,
    ensures_readWeight.orElse (by decide) isFanOut,
    ensures_readWeight.orElse (by decide) isCycles⟩

theorem ensures_readGraph : Ensures readGraph fun graph =>
    0 < graph.weights.edges ∧ 0 < graph.weights.fanOut ∧ 0 < graph.weights.cycleMembers := by
  refine ensures_objectOrEmpty fun members graph isRead => ?_
  simp only [Reading.seq_eq_accept, Reading.map_eq_accept, member_eq_accept] at isRead
  obtain ⟨_, ⟨kinds, -, rfl⟩, weights, isWeights, rfl⟩ := isRead
  exact ensures_readWeights isWeights

theorem ensures_readBoundaries : Ensures readBoundaries fun boundaries =>
    (boundaries.minSize.isNaN = false ∧ 1 ≤ boundaries.minSize) ∧
      boundaries.maxSize.isNaN = false := by
  refine ensures_objectOrEmpty fun members boundaries isRead => ?_
  simp only [Reading.seq_eq_accept, Reading.map_eq_accept, member_eq_accept] at isRead
  obtain ⟨_, ⟨_, ⟨_, ⟨_, ⟨minSize, isMinSize, rfl⟩, maxSize, isMaxSize, rfl⟩, _, -, rfl⟩,
    _, -, rfl⟩, _, -, rfl⟩ := isRead
  exact ⟨ensures_readCount.orElse (by decide) isMinSize,
    (ensures_readCount.orElse (by decide) isMaxSize).1⟩

theorem ensures_readSettings : Ensures readSettings fun configuration =>
    (0 < configuration.resolution.heuristic ∧ configuration.resolution.exact ≤ 1) ∧
      (0 < configuration.graph.weights.edges ∧ 0 < configuration.graph.weights.fanOut ∧
        0 < configuration.graph.weights.cycleMembers) ∧
      (configuration.boundaries.minSize.isNaN = false ∧ 1 ≤ configuration.boundaries.minSize) ∧
      configuration.boundaries.maxSize.isNaN = false := by
  refine ensures_object fun members configuration isRead => ?_
  simp only [Reading.seq_eq_accept, Reading.map_eq_accept, member_eq_accept] at isRead
  obtain ⟨_, ⟨_, ⟨_, ⟨_, ⟨_, ⟨_, ⟨_, ⟨_, ⟨_, ⟨_, ⟨_, -, rfl⟩, _, -, rfl⟩, _, -, rfl⟩, _, -, rfl⟩,
    _, -, rfl⟩, _, isStrengths, rfl⟩, _, isGraph, rfl⟩, _, isBoundaries, rfl⟩, _, -, rfl⟩,
    _, -, rfl⟩, _, -, rfl⟩ := isRead
  exact ⟨ensures_readStrengths isStrengths, ensures_readGraph isGraph,
    ensures_readBoundaries isBoundaries⟩

/-- A configuration is read without issues when its settings are and fit together. -/
theorem read_eq_accept {input : Option Json} {configuration : Configuration}
    (isRead : read input = .accept configuration) :
    readSettings input = .accept configuration ∧ jointIssues configuration = [] := by
  unfold read at isRead
  dsimp only at isRead
  split at isRead
  case h_1 found isFound =>
    simp only [Reading.accept, Reading.mk.injEq, Option.some.injEq,
      List.append_eq_nil_iff] at isRead
    obtain ⟨rfl, clean, joint⟩ := isRead
    refine ⟨?_, joint⟩
    rw [Reading.accept, ← isFound, ← clean]
  case h_2 absent =>
    rw [isRead] at absent
    cases absent

theorem le_of_strengthIssues {strengths : Resolution.Strengths Float}
    (clean : strengthIssues strengths = []) :
    strengths.sameModule ≤ strengths.exact ∧ strengths.heuristic ≤ strengths.sameModule := by
  unfold strengthIssues at clean
  split at clean
  case isTrue ordered => simpa using ordered
  case isFalse => cases clean

theorem not_lt_of_sizeIssues {settings : BoundarySettings} (clean : sizeIssues settings = []) :
    ¬ settings.maxSize < settings.minSize := by
  unfold sizeIssues at clean
  split at clean
  case isTrue => cases clean
  case isFalse ordered => exact ordered

theorem exists_test_of_patternIssues {place : String} {patterns : List (String × Option String)}
    (clean : patternIssues place patterns = []) {pattern : String} {flags : Option String}
    (mem : (pattern, flags) ∈ patterns) : ∃ test, Pattern.compileTest pattern flags = .ok test := by
  obtain ⟨index, isAt⟩ := List.mem_iff_getElem?.mp mem
  have inList : ((pattern, flags), index) ∈ patterns.zipIdx :=
    List.mk_mem_zipIdx_iff_getElem?.mpr isAt
  have noIssue := List.filterMap_eq_nil_iff.mp clean _ inList
  dsimp only at noIssue
  split at noIssue
  case h_1 isCompiled => exact Pattern.exists_compileTest isCompiled
  case h_2 => cases noIssue

theorem exists_tests_of_patternIssues {ρ τ : Type} (written : ρ → String × Option String)
    (ready : ρ → (String → Bool) → τ) {place : String} {rules : List ρ}
    (clean : patternIssues place (rules.map written) = []) :
    ∃ tests, (rules.mapM fun rule => do
      let holds ← Pattern.compileTest (written rule).1 (written rule).2
      pure (ready rule holds)) = .ok tests := by
  have each : ∀ rule ∈ rules, ∃ test,
      Pattern.compileTest (written rule).1 (written rule).2 = .ok test :=
    fun rule mem => exists_test_of_patternIssues clean (List.mem_map_of_mem mem)
  clear clean
  induction rules with
  | nil => exact ⟨[], rfl⟩
  | cons rule rules induction =>
    obtain ⟨holds, isTest⟩ := each rule List.mem_cons_self
    obtain ⟨tests, areTests⟩ := induction fun other mem => each other (List.mem_cons_of_mem _ mem)
    refine ⟨ready rule holds :: tests, ?_⟩
    rw [List.mapM_cons, areTests, isTest]
    rfl

theorem withinBounds_of_read {input : Option Json} {configuration : Configuration}
    (isRead : read input = .accept configuration) : configuration.WithinBounds := by
  obtain ⟨isSettings, joint⟩ := read_eq_accept isRead
  simp only [jointIssues, List.append_eq_nil_iff] at joint
  obtain ⟨⟨⟨strengths, sizes⟩, -⟩, -⟩ := joint
  obtain ⟨⟨heuristic, full⟩, ⟨edges, fanOut, cycleMembers⟩, ⟨minNumber, minSize⟩, maxNumber⟩ :=
    ensures_readSettings isSettings
  obtain ⟨exact, sameModule⟩ := le_of_strengthIssues strengths
  have maxSize := Number.le_of_not_lt minNumber maxNumber (not_lt_of_sizeIssues sizes)
  exact ⟨minSize, maxSize, heuristic, sameModule, exact, full, edges, fanOut, cycleMembers⟩

theorem exists_compileRules_of_read {input : Option Json} {configuration : Configuration}
    (isRead : read input = .accept configuration) :
    ∃ tables, Analyzer.compileRules configuration = .ok tables := by
  have joint := (read_eq_accept isRead).2
  simp only [jointIssues, List.append_eq_nil_iff] at joint
  obtain ⟨⟨-, boundaries⟩, layers⟩ := joint
  obtain ⟨classification, isClassification⟩ := exists_tests_of_patternIssues
    (fun rule : ClassificationRule => (rule.pattern, rule.flags))
    (fun rule holds => (⟨holds, rule.target, rule.kind⟩ : ClassificationTest)) boundaries
  obtain ⟨layerTests, areLayerTests⟩ := exists_tests_of_patternIssues
    (fun rule : LayerRule => (rule.pattern, rule.flags))
    (fun rule holds => (⟨holds, rule.layer⟩ : LayerTest)) layers
  refine ⟨(⟨classification, configuration.boundaries.useEnclosingScope⟩, layerTests), ?_⟩
  rw [Analyzer.compileRules, Classifier.compile, isClassification, Layer.compile, areLayerTests]
  rfl

/-- A configuration that is loaded has been read without issues, and its language map has none. -/
theorem read_of_load {input : Json} {supported : List String} {configuration : Configuration}
    (isLoaded : load input supported = .ok configuration) :
    (∃ present, read present = .accept configuration) ∧
      (LanguageRegistry.build configuration.languages supported).2 = [] := by
  unfold load at isLoaded
  dsimp only at isLoaded
  split at isLoaded
  case h_1 => cases isLoaded
  case h_2 found isRead =>
    split at isLoaded
    case h_1 isBuilt =>
      cases isLoaded
      exact ⟨⟨_, (Reading.result_eq_ok _ _).mp isRead⟩, by rw [isBuilt]⟩
    case h_2 => cases isLoaded

/-- A configuration that is loaded is within its bounds, and an analyzer can be made of it whenever
there are extractors for the languages against which it was checked. -/
theorem usable_of_load {input : Json} {supported : List String} {configuration : Configuration}
    (isLoaded : load input supported = .ok configuration) :
    configuration.WithinBounds ∧
      ∀ (languages : List String) (clock : Nat → Instant), supported ⊆ languages →
        ∃ analyzer, Analyzer.create configuration languages clock = .ok analyzer := by
  obtain ⟨⟨present, isRead⟩, clean⟩ := read_of_load isLoaded
  refine ⟨withinBounds_of_read isRead, fun languages clock more => ?_⟩
  obtain ⟨registry, isBuilt⟩ := LanguageRegistry.exists_create clean more
  obtain ⟨⟨classifier, tests⟩, isCompiled⟩ := exists_compileRules_of_read isRead
  rw [Analyzer.create, isBuilt, isCompiled]
  exact ⟨_, rfl⟩

/-- A configuration with one rule, which asks for all matches whatever their case. -/
def allMatches : Json :=
  .obj
    [("languages", .obj [("go", .arr [.str ".go"])]),
     ("resolution", .obj [("heuristic", .num 0.25)]),
     ("boundaries", .obj [("rules", .arr [.obj
       [("pattern", .str "^get"), ("flags", .str "gi"), ("type", .str "api")]])]),
     ("layers", .obj [("rules", .arr [])])]

/-- The rule is compiled without the flag that asks for all matches, and one more language has an
extractor. -/
theorem usable_of_load_allMatches : ∃ configuration,
    load allMatches ["go"] = .ok configuration ∧ configuration.WithinBounds ∧
      ∀ clock, ∃ analyzer,
        Analyzer.create configuration ["go", "rust"] clock = .ok analyzer := by
  have isSome : (load allMatches ["go"]).toOption.isSome = true := by decide +kernel
  cases isLoaded : load allMatches ["go"] with
  | error =>
    rw [isLoaded] at isSome
    cases isSome
  | ok configuration =>
    obtain ⟨bounds, usable⟩ := usable_of_load isLoaded
    exact ⟨configuration, rfl, bounds, fun clock => usable ["go", "rust"] clock (by decide)⟩

end Configuration
end CodeAtlas
