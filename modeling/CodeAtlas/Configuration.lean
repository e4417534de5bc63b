import CodeAtlas.AntiPattern
import CodeAtlas.Boundary.Cluster
import CodeAtlas.Language
import CodeAtlas.Metrics
import CodeAtlas.Project.Ignore
import CodeAtlas.Resolution.Candidate
import CodeAtlas.Schema

/-!
# Configuration

All settings of an analysis. Every setting has a standard value, so that an empty configuration is
complete. Loading checks the shape and the bounds of all settings first, then how they fit together,
and last the language map against the supported languages.
-/

namespace CodeAtlas

/-- The settings of boundary detection. -/
structure BoundarySettings where
  /-- The least size of a boundary. -/
  minSize : Float
  /-- The greatest size of a boundary. -/
  maxSize : Float
  /-- The greatest number of sweeps. -/
  maxIterations : Float
  /-- Whether enclosing scopes are tried. -/
  useEnclosingScope : Bool
  /-- The rule table. -/
  rules : List ClassificationRule

/-- The settings of findings. -/
structure FindingSettings where
  /-- A type with more methods is a finding. -/
  godObjectMethods : Float
  /-- A boundary with a higher coupling is a finding. -/
  highCoupling : Float

/-- The settings of metrics. -/
structure MetricSettings where
  /-- The thresholds of the checks. -/
  thresholds : MetricThresholds Float
  /-- The number of ranked nodes. -/
  topN : Float

/-- All settings of an analysis. -/
structure Configuration where
  /-- The languages with their extensions. -/
  languages : LanguageMap
  /-- The patterns of ignored paths. -/
  ignorePatterns : List String
  /-- Whether the ignore file of the project counts. -/
  respectGitignore : Bool
  /-- The number of files in work at once. -/
  concurrency : Float
  /-- The time for extraction in milliseconds. -/
  timeBudget : Option Float
  /-- How sure a reference is at each level. -/
  resolution : Resolution.Strengths Float
  /-- How graphs are built. -/
  graph : GraphOptions Float
  /-- The settings of boundary detection. -/
  boundaries : BoundarySettings
  /-- The layer rules. -/
  layerRules : List LayerRule
  /-- The settings of findings. -/
  findings : FindingSettings
  /-- The settings of metrics. -/
  metrics : MetricSettings

namespace Configuration

open Schema

/-- Reads a strength. -/
def readStrength : Reader Float := atMost 1 (above 0 number)

/-- Reads a share. -/
def readShare : Reader Float := atMost 1 (atLeast 0 number)

/-- Reads a weight. -/
def readWeight : Reader Float := above 0 number

/-- Reads a count of at least one. -/
def readCount : Reader Float := atLeast 1 whole

/-- Reads an integer above zero. -/
def readPositive : Reader Float := above 0 whole

/-- Reads a classification rule. -/
def readRule : Reader ClassificationRule :=
  object fun members =>
    (fun pattern flags target kind => (⟨pattern, flags, target, kind⟩ : ClassificationRule))
      <$> member members "pattern" someText
      <*> member members "flags" (optional text)
      <*> member members "appliesTo"
        (orElse .name (choice (RuleTarget.all.map fun target => (target.word, target))))
      <*> member members "type" (choice (BoundaryKind.all.map fun kind => (kind.name, kind)))

/-- Reads a layer rule. -/
def readLayerRule : Reader LayerRule :=
  object fun members =>
    (fun pattern flags layer => (⟨pattern, flags, layer⟩ : LayerRule))
      <$> member members "pattern" someText
      <*> member members "flags" (optional text)
      <*> member members "layer" (choice (LayerName.all.map fun layer => (layer.name, layer)))

/-- Reads the strengths of references. -/
def readStrengths : Reader (Resolution.Strengths Float) :=
  objectOrEmpty fun members =>
    (fun exact sameModule heuristic =>
      (⟨exact, sameModule, heuristic⟩ : Resolution.Strengths Float))
      <$> member members "exact" (orElse 1 readStrength)
      <*> member members "sameModule" (orElse 0.8 readStrength)
      <*> member members "heuristic" (orElse 0.5 readStrength)

/-- Reads the weights of complexity. -/
def readWeights : Reader (ComplexityWeights Float) :=
  objectOrEmpty fun members =>
    (fun edges fanOut cycleMembers =>
      (⟨edges, fanOut, cycleMembers⟩ : ComplexityWeights Float))
      <$> member members "edges" (orElse 1 readWeight)
      <*> member members "fanOut" (orElse 2 readWeight)
      <*> member members "cycleMembers" (orElse 3 readWeight)

/-- Reads how graphs are built. -/
def readGraph : Reader (GraphOptions Float) :=
  objectOrEmpty fun members =>
    (fun kinds weights => (⟨kinds, weights⟩ : GraphOptions Float))
      <$> member members "dependencyKinds" (orElse RelationshipKind.references
        (list (choice (RelationshipKind.all.map fun kind => (kind.name, kind)))))
      <*> member members "complexity" readWeights

/-- Reads the settings of boundary detection. -/
def readBoundaries : Reader BoundarySettings :=
  objectOrEmpty fun members =>
    (fun minSize maxSize maxIterations useEnclosingScope rules =>
      (⟨minSize, maxSize, maxIterations, useEnclosingScope, rules⟩ : BoundarySettings))
      <$> member members "minSize" (orElse 2 readCount)
      <*> member members "maxSize" (orElse 40 readCount)
      <*> member members "maxIterations" (orElse 20 readCount)
      <*> member members "useEnclosingScope" (orElse true flag)
      <*> member members "rules" (orElse ClassificationRule.standard (list readRule))

/-- Reads the layer rules. -/
def readLayers : Reader (List LayerRule) :=
  objectOrEmpty fun members =>
    member members "rules" (orElse LayerRule.standard (list readLayerRule))

/-- Reads the settings of findings. -/
def readFindings : Reader FindingSettings :=
  objectOrEmpty fun members =>
    (fun godObjectMethods highCoupling => (⟨godObjectMethods, highCoupling⟩ : FindingSettings))
      <$> member members "godObjectMethods" (orElse 20 readPositive)
      <*> member members "highCoupling" (orElse 0.8 readShare)

/-- Reads the thresholds of metrics. -/
def readThresholds : Reader (MetricThresholds Float) :=
  let standard := MetricThresholds.standard
  objectOrEmpty fun members =>
    (fun instability coupling cohesion cycles density =>
      (⟨instability, coupling, cohesion, cycles, density⟩ : MetricThresholds Float))
      <$> member members "averageInstability" (orElse standard.averageInstability readShare)
      <*> member members "averageCoupling" (orElse standard.averageCoupling readShare)
      <*> member members "averageCohesion" (orElse standard.averageCohesion readShare)
      <*> member members "cycleCount" (orElse standard.cycleCount (atLeast 0 whole))
      <*> member members "density" (orElse standard.density readShare)

/-- Reads the settings of metrics. -/
def readMetrics : Reader MetricSettings :=
  objectOrEmpty fun members =>
    (fun thresholds topN => (⟨thresholds, topN⟩ : MetricSettings))
      <$> member members "thresholds" readThresholds
      <*> member members "topN" (orElse 10 readCount)

/-- Reads all settings, each by itself. -/
def readSettings : Reader Configuration :=
  object fun members =>
    (fun languages ignorePatterns respectGitignore concurrency timeBudget resolution graph
        boundaries layerRules findings metrics =>
      ({ languages := languages, ignorePatterns := ignorePatterns,
         respectGitignore := respectGitignore, concurrency := concurrency,
         timeBudget := timeBudget, resolution := resolution, graph := graph,
         boundaries := boundaries, layerRules := layerRules, findings := findings,
         metrics := metrics } : Configuration))
      <$> member members "languages" (orElse LanguageMap.standard (entries (list text)))
      <*> member members "ignorePatterns" (orElse Ignore.standard (list text))
      <*> member members "respectGitignore" (orElse true flag)
      <*> member members "concurrency" (orElse 8 (atMost 256 readCount))
      <*> member members "timeBudgetMs" (optional readPositive)
      <*> member members "resolution" readStrengths
      <*> member members "graph" readGraph
      <*> member members "boundaries" readBoundaries
      <*> member members "layers" readLayers
      <*> member members "antiPatterns" readFindings
      <*> member members "metrics" readMetrics

/-- The issue with the order of strengths. -/
def strengthIssues (strengths : Resolution.Strengths Float) : List Issue :=
  if strengths.sameModule ≤ strengths.exact && strengths.heuristic ≤ strengths.sameModule then
    []
  else
    [⟨["resolution"], "strengths must satisfy exact >= sameModule >= heuristic"⟩]

/-- The issue with the bounds of sizes. -/
def sizeIssues (settings : BoundarySettings) : List Issue :=
  if settings.maxSize < settings.minSize then
    [⟨["boundaries", "minSize"], "minSize " ++ Number.text settings.minSize ++ " exceeds maxSize "
      ++ Number.text settings.maxSize⟩]
  else
    []

/-- The issues with patterns that cannot be compiled. -/
def patternIssues (place : String) (patterns : List (String × Option String)) : List Issue :=
  patterns.zipIdx.filterMap fun ((pattern, flags), index) =>
    match Pattern.compile pattern (flags.getD "") with
    | .ok _ => none
    | .error error => some ⟨[place, "rules", toString index, "pattern"], error.message⟩

/-- The issues with how settings fit together. -/
def jointIssues (configuration : Configuration) : List Issue :=
  strengthIssues configuration.resolution ++ sizeIssues configuration.boundaries
    ++ patternIssues "boundaries"
      (configuration.boundaries.rules.map fun rule => (rule.pattern, rule.flags))
    ++ patternIssues "layers" (configuration.layerRules.map fun rule => (rule.pattern, rule.flags))

/-- Reads all settings and checks how they fit together. -/
def read : Reader Configuration := fun input =>
  let reading := readSettings input
  match reading.value? with
  | some configuration => ⟨some configuration, reading.issues ++ jointIssues configuration⟩
  | none => reading

/-- Loads a configuration; an absent one is empty. -/
def load (input : Json) (supported : List String) : Except AnalysisError Configuration :=
  let present := match input with
    | .null => .obj []
    | value => value
  match (read (some present)).result with
  | .error issues => .error (.configuration "Invalid configuration" (issues.map Issue.text))
  | .ok configuration =>
    match LanguageRegistry.build configuration.languages supported with
    | (_, []) => .ok configuration
    | (_, issues) =>
      .error (.configuration "Invalid configuration" (issues.map LanguageRegistry.Issue.message))

/-- A classification rule as a structured value. -/
def ruleToJson (rule : ClassificationRule) : Json :=
  Json.record
    [("pattern", some (.str rule.pattern)), ("flags", rule.flags.map .str),
     ("appliesTo", some (.str rule.target.word)), ("type", some (.str rule.kind.name))]

/-- A layer rule as a structured value. -/
def layerRuleToJson (rule : LayerRule) : Json :=
  Json.record
    [("pattern", some (.str rule.pattern)), ("flags", rule.flags.map .str),
     ("layer", some (.str rule.layer.name))]

/-- The settings of metrics as a structured value. -/
def metricsToJson (settings : MetricSettings) : Json :=
  let limits := settings.thresholds
  .obj
    [("thresholds", .obj
      [("averageInstability", .num limits.averageInstability),
       ("averageCoupling", .num limits.averageCoupling),
       ("averageCohesion", .num limits.averageCohesion), ("cycleCount", .num limits.cycleCount),
       ("density", .num limits.density)]),
     ("topN", .num settings.topN)]

/-- All settings as a structured value, from which they can be loaded again. -/
def toJson (configuration : Configuration) : Json :=
  let strengths := configuration.resolution
  let weights := configuration.graph.weights
  let boundaries := configuration.boundaries
  Json.record
    [("languages", some (.obj (configuration.languages.map fun (language, extensions) =>
       (language, .texts extensions)))),
     ("ignorePatterns", some (.texts configuration.ignorePatterns)),
     ("respectGitignore", some (.bool configuration.respectGitignore)),
     ("concurrency", some (.num configuration.concurrency)),
     ("timeBudgetMs", configuration.timeBudget.map .num),
     ("resolution", some (.obj
       [("exact", .num strengths.exact), ("sameModule", .num strengths.sameModule),
        ("heuristic", .num strengths.heuristic)])),
     ("graph", some (.obj
       [("dependencyKinds",
          .texts (configuration.graph.dependencyKinds.map RelationshipKind.name)),
        ("complexity", .obj
          [("edges", .num weights.edges), ("fanOut", .num weights.fanOut),
           ("cycleMembers", .num weights.cycleMembers)])])),
     ("boundaries", some (.obj
       [("minSize", .num boundaries.minSize), ("maxSize", .num boundaries.maxSize),
        ("maxIterations", .num boundaries.maxIterations),
        ("useEnclosingScope", .bool boundaries.useEnclosingScope),
        ("rules", .arr (boundaries.rules.map ruleToJson))])),
     ("layers", some (.obj [("rules", .arr (configuration.layerRules.map layerRuleToJson))])),
     ("antiPatterns", some (.obj
       [("godObjectMethods", .num configuration.findings.godObjectMethods),
        ("highCoupling", .num configuration.findings.highCoupling)])),
     ("metrics", some (metricsToJson configuration.metrics))]

end Configuration
end CodeAtlas
