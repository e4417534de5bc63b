import CodeAtlas.Proofs.Configuration
import CodeAtlas.Proofs.Schema.Written

/-!
# Configurations that are loaded again

A configuration that is loaded and written is loaded again as it is, with the same languages. Every
setting that was given stands in it unchanged, however deep, next to the standard values of those
that were not; of the language map only an entry named `__proto__` is lost.
-/

namespace CodeAtlas
namespace Configuration

open Schema

/-! ## Numbers -/

theorem readsExactly_readStrength : ReadsExactly readStrength Json.num fun value =>
    (Number.IsFinite value ∧ 0 < value) ∧ value ≤ 1 :=
  (readsExactly_number.above 0).atMost 1

theorem readsExactly_readShare : ReadsExactly readShare Json.num fun value =>
    (Number.IsFinite value ∧ 0 ≤ value) ∧ value ≤ 1 :=
  (readsExactly_number.atLeast 0).atMost 1

theorem readsExactly_readWeight : ReadsExactly readWeight Json.num fun value =>
    Number.IsFinite value ∧ 0 < value :=
  readsExactly_number.above 0

theorem readsExactly_readCount :
    ReadsExactly readCount Json.num fun value => IsInteger value ∧ 1 ≤ value :=
  readsExactly_whole.atLeast 1

theorem readsExactly_readPositive :
    ReadsExactly readPositive Json.num fun value => IsInteger value ∧ 0 < value :=
  readsExactly_whole.above 0

/-- A setting that has a standard value and is written as a whole. -/
theorem faithful_setting {α : Type} {reader : Reader α} {write : α → Json} {allowed : α → Prop}
    (exactly : ReadsExactly reader write allowed) {otherwise : α} (standard : allowed otherwise) :
    Faithful .value (orElse otherwise reader) fun value => some (write value) :=
  exactly.faithful.orElse ((exactly _ _).mpr ⟨rfl, standard⟩)

/-! ## Rules -/

/-- The known members of a classification rule. -/
def ruleShape : Shape :=
  .object [("pattern", .value), ("flags", .value), ("appliesTo", .value), ("type", .value)]

theorem readsExactly_target :
    ReadsExactly (choice (RuleTarget.all.map fun target => (target.word, target)))
      (fun target => .str target.word) (· ∈ RuleTarget.all) :=
  readsExactly_choice (by decide)

theorem readsExactly_boundaryKind :
    ReadsExactly (choice (BoundaryKind.all.map fun kind => (kind.name, kind)))
      (fun kind => .str kind.name) (· ∈ BoundaryKind.all) :=
  readsExactly_choice (by decide)

theorem readsExactly_layerName :
    ReadsExactly (choice (LayerName.all.map fun layer => (layer.name, layer)))
      (fun layer => .str layer.name) (· ∈ LayerName.all) :=
  readsExactly_choice (by decide)

theorem faithful_readRule : Faithful ruleShape readRule fun rule => some (ruleToJson rule) := by
  refine faithful_object fun members rule isRead => ?_
  simp only [Reading.seq_eq_accept, Reading.map_eq_accept, member_eq_accept] at isRead ⊢
  obtain ⟨_, ⟨_, ⟨_, ⟨_, isPattern, rfl⟩, flags, areFlags, rfl⟩, _, isTarget, rfl⟩,
    _, isKind, rfl⟩ := isRead
  have pattern := readsExactly_someText.faithful _ _ isPattern
  have flagsAgain := readsExactly_text.optional _ _ areFlags
  have target := faithful_setting readsExactly_target (by decide) _ _ isTarget
  have kind := readsExactly_boundaryKind.faithful _ _ isKind
  cases flags <;>
    exact ⟨⟨_, ⟨_, ⟨_, ⟨_, pattern.1, rfl⟩, _, flagsAgain.1, rfl⟩, _, target.1, rfl⟩,
      _, kind.1, rfl⟩, pattern.2, flagsAgain.2, target.2, kind.2, trivial⟩

theorem readRule_ruleToJson {rule : ClassificationRule} (isSome : rule.pattern ≠ "") :
    readRule (some (ruleToJson rule)) = .accept rule := by
  obtain ⟨pattern, flags, target, kind⟩ := rule
  have isTarget := (readsExactly_target (some (.str target.word)) target).mpr
    ⟨rfl, by cases target <;> decide⟩
  have isKind := (readsExactly_boundaryKind (some (.str kind.name)) kind).mpr
    ⟨rfl, by cases kind <;> decide⟩
  have isPattern := (readsExactly_someText (some (.str pattern)) pattern).mpr ⟨rfl, isSome⟩
  change object _ (some (.obj _)) = _
  simp only [object, Reading.seq_eq_accept, Reading.map_eq_accept, member_eq_accept]
  cases flags <;>
    exact ⟨_, ⟨_, ⟨_, ⟨_, isPattern, rfl⟩, _, rfl, rfl⟩, _, isTarget, rfl⟩, _, isKind, rfl⟩

/-- The known members of a layer rule. -/
def layerRuleShape : Shape :=
  .object [("pattern", .value), ("flags", .value), ("layer", .value)]

theorem faithful_readLayerRule :
    Faithful layerRuleShape readLayerRule fun rule => some (layerRuleToJson rule) := by
  refine faithful_object fun members rule isRead => ?_
  simp only [Reading.seq_eq_accept, Reading.map_eq_accept, member_eq_accept] at isRead ⊢
  obtain ⟨_, ⟨_, ⟨_, isPattern, rfl⟩, flags, areFlags, rfl⟩, _, isLayer, rfl⟩ := isRead
  have pattern := readsExactly_someText.faithful _ _ isPattern
  have flagsAgain := readsExactly_text.optional _ _ areFlags
  have layer := readsExactly_layerName.faithful _ _ isLayer
  cases flags <;>
    exact ⟨⟨_, ⟨_, ⟨_, pattern.1, rfl⟩, _, flagsAgain.1, rfl⟩, _, layer.1, rfl⟩,
      pattern.2, flagsAgain.2, layer.2, trivial⟩

theorem readLayerRule_layerRuleToJson {rule : LayerRule} (isSome : rule.pattern ≠ "") :
    readLayerRule (some (layerRuleToJson rule)) = .accept rule := by
  obtain ⟨pattern, flags, layer⟩ := rule
  have isLayer := (readsExactly_layerName (some (.str layer.name)) layer).mpr
    ⟨rfl, by cases layer <;> decide⟩
  have isPattern := (readsExactly_someText (some (.str pattern)) pattern).mpr ⟨rfl, isSome⟩
  change object _ (some (.obj _)) = _
  simp only [object, Reading.seq_eq_accept, Reading.map_eq_accept, member_eq_accept]
  cases flags <;> exact ⟨_, ⟨_, ⟨_, isPattern, rfl⟩, _, rfl, rfl⟩, _, isLayer, rfl⟩

theorem faithful_table {α : Type} {shape : Shape} {rule : Reader α} {write : α → Json}
    (faithful : Faithful shape rule fun value => some (write value)) {standard : List α}
    (isRead : ∀ value ∈ standard, rule (some (write value)) = .accept value) :
    Faithful (.items shape) (orElse standard (list rule))
      fun rules => some (.arr (rules.map write)) := by
  refine faithful.list.orElse (list_eq_accept.mpr ⟨_, rfl, ?_⟩)
  rw [List.forall₂_map_left_iff, List.forall₂_same]
  exact isRead

/-! ## Groups of settings -/

/-- The known strengths of references. -/
def strengthsShape : Shape :=
  .object [("exact", .value), ("sameModule", .value), ("heuristic", .value)]

theorem faithful_readStrengths : Faithful strengthsShape readStrengths fun strengths => some (.obj
    [("exact", .num strengths.exact), ("sameModule", .num strengths.sameModule),
     ("heuristic", .num strengths.heuristic)]) := by
  refine faithful_objectOrEmpty fun members strengths isRead => ?_
  simp only [Reading.seq_eq_accept, Reading.map_eq_accept, member_eq_accept] at isRead ⊢
  obtain ⟨_, ⟨_, ⟨_, isExact, rfl⟩, _, isSameModule, rfl⟩, _, isHeuristic, rfl⟩ := isRead
  have exactly := faithful_setting readsExactly_readStrength (by decide) _ _ isExact
  have sameModule := faithful_setting readsExactly_readStrength (by decide) _ _ isSameModule
  have heuristic := faithful_setting readsExactly_readStrength (by decide) _ _ isHeuristic
  exact ⟨⟨_, ⟨_, ⟨_, exactly.1, rfl⟩, _, sameModule.1, rfl⟩, _, heuristic.1, rfl⟩,
    exactly.2, sameModule.2, heuristic.2, trivial⟩

/-- The known weights of complexity. -/
def weightsShape : Shape :=
  .object [("edges", .value), ("fanOut", .value), ("cycleMembers", .value)]

theorem faithful_readWeights : Faithful weightsShape readWeights fun weights => some (.obj
    [("edges", .num weights.edges), ("fanOut", .num weights.fanOut),
     ("cycleMembers", .num weights.cycleMembers)]) := by
  refine faithful_objectOrEmpty fun members weights isRead => ?_
  simp only [Reading.seq_eq_accept, Reading.map_eq_accept, member_eq_accept] at isRead ⊢
  obtain ⟨_, ⟨_, ⟨_, isEdges, rfl⟩, _, isFanOut, rfl⟩, _, isCycles, rfl⟩ := isRead
  have edges := faithful_setting readsExactly_readWeight (by decide) _ _ isEdges
  have fanOut := faithful_setting readsExactly_readWeight (by decide) _ _ isFanOut
  have cycles := faithful_setting readsExactly_readWeight (by decide) _ _ isCycles
  exact ⟨⟨_, ⟨_, ⟨_, edges.1, rfl⟩, _, fanOut.1, rfl⟩, _, cycles.1, rfl⟩,
    edges.2, fanOut.2, cycles.2, trivial⟩

/-- The known settings of graphs. -/
def graphShape : Shape :=
  .object [("dependencyKinds", .value), ("complexity", weightsShape)]

theorem readsExactly_relationshipKind :
    ReadsExactly (choice (RelationshipKind.all.map fun kind => (kind.name, kind)))
      (fun kind => .str kind.name) (· ∈ RelationshipKind.all) :=
  readsExactly_choice (by decide)

theorem faithful_readGraph : Faithful graphShape readGraph fun graph => some (.obj
    [("dependencyKinds", .texts (graph.dependencyKinds.map RelationshipKind.name)),
     ("complexity", .obj
       [("edges", .num graph.weights.edges), ("fanOut", .num graph.weights.fanOut),
        ("cycleMembers", .num graph.weights.cycleMembers)])]) := by
  refine faithful_objectOrEmpty fun members graph isRead => ?_
  simp only [Reading.seq_eq_accept, Reading.map_eq_accept, member_eq_accept] at isRead ⊢
  obtain ⟨_, ⟨_, areKinds, rfl⟩, _, areWeights, rfl⟩ := isRead
  have kinds := faithful_setting readsExactly_relationshipKind.list (by decide) _ _ areKinds
  have weights := faithful_readWeights _ _ areWeights
  rw [Json.texts, List.map_map]
  exact ⟨⟨_, ⟨_, kinds.1, rfl⟩, _, weights.1, rfl⟩, kinds.2, weights.2, trivial⟩

/-- The known settings of boundary detection. -/
def boundariesShape : Shape :=
  .object [("minSize", .value), ("maxSize", .value), ("maxIterations", .value),
    ("useEnclosingScope", .value), ("rules", .items ruleShape)]

theorem faithful_readBoundaries : Faithful boundariesShape readBoundaries fun boundaries => some
    (.obj
      [("minSize", .num boundaries.minSize), ("maxSize", .num boundaries.maxSize),
       ("maxIterations", .num boundaries.maxIterations),
       ("useEnclosingScope", .bool boundaries.useEnclosingScope),
       ("rules", .arr (boundaries.rules.map ruleToJson))]) := by
  refine faithful_objectOrEmpty fun members boundaries isRead => ?_
  simp only [Reading.seq_eq_accept, Reading.map_eq_accept, member_eq_accept] at isRead ⊢
  obtain ⟨_, ⟨_, ⟨_, ⟨_, ⟨_, isMinSize, rfl⟩, _, isMaxSize, rfl⟩, _, isMaxIterations, rfl⟩,
    _, isScope, rfl⟩, _, areRules, rfl⟩ := isRead
  have minSize := faithful_setting readsExactly_readCount (by decide +kernel) _ _ isMinSize
  have maxSize := faithful_setting readsExactly_readCount (by decide +kernel) _ _ isMaxSize
  have maxIterations :=
    faithful_setting readsExactly_readCount (by decide +kernel) _ _ isMaxIterations
  have scope := faithful_setting readsExactly_flag trivial _ _ isScope
  have patterns : ∀ rule ∈ ClassificationRule.standard, rule.pattern ≠ "" := by decide
  have rules := faithful_table faithful_readRule
    (fun rule isIn => readRule_ruleToJson (patterns rule isIn)) _ _ areRules
  exact ⟨⟨_, ⟨_, ⟨_, ⟨_, ⟨_, minSize.1, rfl⟩, _, maxSize.1, rfl⟩, _, maxIterations.1, rfl⟩,
    _, scope.1, rfl⟩, _, rules.1, rfl⟩,
    minSize.2, maxSize.2, maxIterations.2, scope.2, rules.2, trivial⟩

/-- The known settings of layers. -/
def layersShape : Shape := .object [("rules", .items layerRuleShape)]

theorem faithful_readLayers : Faithful layersShape readLayers fun rules => some (.obj
    [("rules", .arr (rules.map layerRuleToJson))]) := by
  refine faithful_objectOrEmpty fun members rules isRead => ?_
  simp only [member_eq_accept] at isRead ⊢
  have patterns : ∀ rule ∈ LayerRule.standard, rule.pattern ≠ "" := by decide
  have rulesAgain := faithful_table faithful_readLayerRule
    (fun rule isIn => readLayerRule_layerRuleToJson (patterns rule isIn)) _ _ isRead
  exact ⟨rulesAgain.1, rulesAgain.2, trivial⟩

/-- The known settings of findings. -/
def findingsShape : Shape :=
  .object [("godObjectMethods", .value), ("highCoupling", .value)]

theorem faithful_readFindings : Faithful findingsShape readFindings fun findings => some (.obj
    [("godObjectMethods", .num findings.godObjectMethods),
     ("highCoupling", .num findings.highCoupling)]) := by
  refine faithful_objectOrEmpty fun members findings isRead => ?_
  simp only [Reading.seq_eq_accept, Reading.map_eq_accept, member_eq_accept] at isRead ⊢
  obtain ⟨_, ⟨_, areMethods, rfl⟩, _, isCoupling, rfl⟩ := isRead
  have methods := faithful_setting readsExactly_readPositive (by decide +kernel) _ _ areMethods
  have coupling := faithful_setting readsExactly_readShare (by decide) _ _ isCoupling
  exact ⟨⟨_, ⟨_, methods.1, rfl⟩, _, coupling.1, rfl⟩, methods.2, coupling.2, trivial⟩

/-- The known thresholds of metrics. -/
def thresholdsShape : Shape :=
  .object [("averageInstability", .value), ("averageCoupling", .value), ("averageCohesion", .value),
    ("cycleCount", .value), ("density", .value)]

theorem faithful_readThresholds : Faithful thresholdsShape readThresholds fun limits => some (.obj
    [("averageInstability", .num limits.averageInstability),
     ("averageCoupling", .num limits.averageCoupling),
     ("averageCohesion", .num limits.averageCohesion), ("cycleCount", .num limits.cycleCount),
     ("density", .num limits.density)]) := by
  unfold readThresholds
  dsimp only
  refine faithful_objectOrEmpty fun members limits isRead => ?_
  simp only [Reading.seq_eq_accept, Reading.map_eq_accept, member_eq_accept] at isRead ⊢
  obtain ⟨_, ⟨_, ⟨_, ⟨_, ⟨_, isInstability, rfl⟩, _, isCoupling, rfl⟩, _, isCohesion, rfl⟩,
    _, isCycleCount, rfl⟩, _, isDensity, rfl⟩ := isRead
  have instability := faithful_setting readsExactly_readShare (by decide) _ _ isInstability
  have coupling := faithful_setting readsExactly_readShare (by decide) _ _ isCoupling
  have cohesion := faithful_setting readsExactly_readShare (by decide) _ _ isCohesion
  have cycleCount :=
    faithful_setting (readsExactly_whole.atLeast 0) (by decide +kernel) _ _ isCycleCount
  have density := faithful_setting readsExactly_readShare (by decide) _ _ isDensity
  exact ⟨⟨_, ⟨_, ⟨_, ⟨_, ⟨_, instability.1, rfl⟩, _, coupling.1, rfl⟩, _, cohesion.1, rfl⟩,
    _, cycleCount.1, rfl⟩, _, density.1, rfl⟩,
    instability.2, coupling.2, cohesion.2, cycleCount.2, density.2, trivial⟩

/-- The known settings of metrics. -/
def metricsShape : Shape :=
  .object [("thresholds", thresholdsShape), ("topN", .value)]

theorem faithful_readMetrics :
    Faithful metricsShape readMetrics fun metrics => some (metricsToJson metrics) := by
  refine faithful_objectOrEmpty fun members metrics isRead => ?_
  simp only [Reading.seq_eq_accept, Reading.map_eq_accept, member_eq_accept] at isRead ⊢
  obtain ⟨_, ⟨_, areThresholds, rfl⟩, _, isTopN, rfl⟩ := isRead
  have thresholds := faithful_readThresholds _ _ areThresholds
  have topN := faithful_setting readsExactly_readCount (by decide +kernel) _ _ isTopN
  exact ⟨⟨_, ⟨_, thresholds.1, rfl⟩, _, topN.1, rfl⟩, thresholds.2, topN.2, trivial⟩

/-! ## All settings -/

/-- The known settings of an analysis. -/
def shape : Shape :=
  .object [("languages", .entries), ("ignorePatterns", .value), ("respectGitignore", .value),
    ("concurrency", .value), ("timeBudgetMs", .value), ("resolution", strengthsShape),
    ("graph", graphShape), ("boundaries", boundariesShape), ("layers", layersShape),
    ("antiPatterns", findingsShape), ("metrics", metricsShape)]

theorem faithful_languages :
    Faithful .entries (orElse LanguageMap.standard (entries (list text)))
      fun languages => some (.obj (languages.map fun (language, extensions) =>
        (language, .texts extensions))) := by
  refine readsExactly_text.list.entries.orElse
    (readsExactly_text.list.entries_eq_accept ?_ fun _ _ _ _ => trivial)
  decide

theorem faithful_readSettings :
    Faithful shape readSettings fun configuration => some configuration.toJson := by
  refine faithful_object fun members configuration isRead => ?_
  simp only [Reading.seq_eq_accept, Reading.map_eq_accept, member_eq_accept] at isRead ⊢
  obtain ⟨_, ⟨_, ⟨_, ⟨_, ⟨_, ⟨_, ⟨_, ⟨_, ⟨_, ⟨_, ⟨_, areLanguages, rfl⟩, _, areIgnored, rfl⟩,
    _, isRespected, rfl⟩, _, isConcurrency, rfl⟩, timeBudget, isTimeBudget, rfl⟩,
    _, areStrengths, rfl⟩, _, isGraph, rfl⟩, _, areBoundaries, rfl⟩, _, areLayers, rfl⟩,
    _, areFindings, rfl⟩, _, areMetrics, rfl⟩ := isRead
  have languages := faithful_languages _ _ areLanguages
  have ignored := faithful_setting readsExactly_text.list (fun _ _ => trivial) _ _ areIgnored
  have respected := faithful_setting readsExactly_flag trivial _ _ isRespected
  have concurrency := faithful_setting (readsExactly_readCount.atMost 256) (by decide +kernel) _ _
    isConcurrency
  have timeBudgetAgain := readsExactly_readPositive.optional _ _ isTimeBudget
  have strengths := faithful_readStrengths _ _ areStrengths
  have graph := faithful_readGraph _ _ isGraph
  have boundaries := faithful_readBoundaries _ _ areBoundaries
  have layers := faithful_readLayers _ _ areLayers
  have findings := faithful_readFindings _ _ areFindings
  have metrics := faithful_readMetrics _ _ areMetrics
  cases timeBudget <;>
    exact ⟨⟨_, ⟨_, ⟨_, ⟨_, ⟨_, ⟨_, ⟨_, ⟨_, ⟨_, ⟨_, ⟨_, languages.1, rfl⟩, _, ignored.1, rfl⟩,
      _, respected.1, rfl⟩, _, concurrency.1, rfl⟩, _, timeBudgetAgain.1, rfl⟩,
      _, strengths.1, rfl⟩, _, graph.1, rfl⟩, _, boundaries.1, rfl⟩, _, layers.1, rfl⟩,
      _, findings.1, rfl⟩, _, metrics.1, rfl⟩,
      languages.2, ignored.2, respected.2, concurrency.2, timeBudgetAgain.2, strengths.2, graph.2,
      boundaries.2, layers.2, findings.2, metrics.2, trivial⟩

/-- Settings that are read without issues and fit together make a configuration. -/
theorem read_of_readSettings {input : Option Json} {configuration : Configuration}
    (isRead : readSettings input = .accept configuration)
    (fits : jointIssues configuration = []) : read input = .accept configuration := by
  rw [read, isRead]
  dsimp only [Reading.accept]
  rw [fits]
  rfl

theorem load_eq_ok {input : Json} {supported : List String} {configuration : Configuration} :
    load input supported = .ok configuration ↔
      read (some (match input with | .null => .obj [] | value => value)) = .accept configuration ∧
        (LanguageRegistry.build configuration.languages supported).2 = [] := by
  rw [← Reading.result_eq_ok]
  unfold load
  dsimp only
  generalize (read _).result = outcome
  cases outcome with
  | error => simp
  | ok found =>
    dsimp only
    generalize isBuilt : LanguageRegistry.build found.languages supported = built
    obtain ⟨registry, issues⟩ := built
    cases issues with
    | nil =>
      dsimp only
      constructor
      · rintro ⟨⟩
        exact ⟨rfl, by rw [isBuilt]⟩
      · rintro ⟨same, -⟩
        cases same
        rfl
    | cons issue issues =>
      simp only [reduceCtorEq, false_iff, Except.ok.injEq]
      rintro ⟨rfl, clean⟩
      rw [isBuilt] at clean
      cases clean

/-- A configuration that is loaded is loaded again as it is once it is written, and every setting
that was given stands in it unchanged, but for an entry of the language map named `__proto__`. -/
theorem load_toJson {input : Json} {supported : List String} {configuration : Configuration}
    (isLoaded : load input supported = .ok configuration) :
    load configuration.toJson supported = .ok configuration ∧
      shape.Keeps input configuration.toJson := by
  obtain ⟨isRead, clean⟩ := load_eq_ok.mp isLoaded
  obtain ⟨areSettings, fits⟩ := read_eq_accept isRead
  obtain ⟨again, kept⟩ := faithful_readSettings _ _ areSettings
  refine ⟨load_eq_ok.mpr ⟨read_of_readSettings again fits, clean⟩, ?_⟩
  obtain ⟨written, isWritten, keeps⟩ := kept _ rfl
  cases isWritten
  cases input <;> exact keeps

/-- A language, a time budget and a rule without a target are given, and one thing is unknown. -/
theorem load_toJson_partial :
    let input : Json := .obj
      [("languages", .obj [("go", .arr [.str ".go"])]), ("timeBudgetMs", .num 500),
       ("boundaries", .obj [("note", .null), ("rules", .arr [.obj
         [("pattern", .str "^get"), ("type", .str "api")]])]),
       ("layers", .obj [("rules", .arr [])])]
    ∃ configuration, load input ["go"] = .ok configuration ∧
      load configuration.toJson ["go"] = .ok configuration ∧
        shape.Keeps input configuration.toJson := by
  intro input
  have isSome : (load input ["go"]).toOption.isSome = true := by decide +kernel
  cases isLoaded : load input ["go"] with
  | error =>
    rw [isLoaded] at isSome
    cases isSome
  | ok configuration => exact ⟨configuration, rfl, load_toJson isLoaded⟩

/-- An entry of the language map named `__proto__` is accepted and lost. -/
theorem load_toJson_proto :
    let input : Json := .obj
      [("languages", .obj [("typescript", .arr [.str ".ts"]), ("__proto__", .arr [.str ".x"])]),
       ("boundaries", .obj [("rules", .arr [])]), ("layers", .obj [("rules", .arr [])])]
    let named? (value : Json) := (value.member? "languages").bind fun languages =>
      languages.member? "__proto__"
    ∃ configuration, load input Language.supported = .ok configuration ∧
      named? input = some (.arr [.str ".x"]) ∧ named? configuration.toJson = none := by
  intro input named?
  have isLost : (load input Language.supported).toOption.map
      (fun configuration => (named? configuration.toJson).isNone) = some true := by decide +kernel
  cases isLoaded : load input Language.supported with
  | error =>
    rw [isLoaded] at isLost
    cases isLost
  | ok configuration =>
    rw [isLoaded] at isLost
    exact ⟨configuration, rfl, rfl, Option.isNone_iff_eq_none.mp (Option.some_inj.mp isLost)⟩

end Configuration
end CodeAtlas
