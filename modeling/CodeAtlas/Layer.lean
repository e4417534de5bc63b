import CodeAtlas.Classification
import CodeAtlas.Graph.Basic

/-!
# Layers

A rule table places elements into layers by their names, then by their paths. An element without a
layer of its own takes that of the nearest element around it that has one. A dependency from a lower
layer into a higher one is a violation.
-/

namespace CodeAtlas

/-- The layers, the highest first. -/
inductive LayerName where
  | presentation
  | application
  | domain
  | infrastructure
  deriving DecidableEq, Repr

namespace LayerName

/-- All layers, the highest first. -/
def all : List LayerName := [presentation, application, domain, infrastructure]

/-- The word for a layer. -/
def name : LayerName → String
  | presentation => "presentation"
  | application => "application"
  | domain => "domain"
  | infrastructure => "infrastructure"

/-- Reads the word for a layer. -/
def ofName? (word : String) : Option LayerName := all.find? (·.name = word)

/-- The height of a layer. -/
def level : LayerName → Nat
  | presentation => 3
  | application => 2
  | domain => 1
  | infrastructure => 0

end LayerName

/-- A layer rule as it is written. -/
structure LayerRule where
  /-- The pattern. -/
  pattern : String
  /-- The flags of the pattern. -/
  flags : Option String := none
  /-- The layer that the rule assigns. -/
  layer : LayerName
  deriving DecidableEq, Repr

/-- The layer rules unless others are given. -/
def LayerRule.standard : List LayerRule :=
  [⟨"controller|view|route|handler|endpoint|resolver|page|screen|cli", some "i", .presentation⟩,
   ⟨"service|usecase|interactor|workflow|command|application", some "i", .application⟩,
   ⟨"entity|model|domain|aggregate|policy|value", some "i", .domain⟩,
   ⟨"repository|repo|dao|client|adapter|gateway|config|database|cache|queue|infrastructure"
      ++ "|persistence", some "i", .infrastructure⟩]

/-- A layer with its members. -/
structure Layer where
  /-- Which layer it is. -/
  name : LayerName
  /-- The members, sorted. -/
  memberIds : List String
  /-- The other layers that members depend on, the highest first. -/
  dependsOn : List LayerName
  deriving DecidableEq, Repr

/-- A dependency from a lower layer into a higher one. -/
structure LayerViolation where
  /-- The element in the lower layer. -/
  sourceId : String
  /-- The element in the higher layer. -/
  targetId : String
  /-- The lower layer. -/
  source : LayerName
  /-- The higher layer. -/
  target : LayerName
  deriving DecidableEq, Repr

/-- The layers of a code base. -/
structure LayerReport where
  /-- The layers that have members, the highest first. -/
  layers : List Layer
  /-- The violations in the order of their ends. -/
  violations : List LayerViolation
  deriving DecidableEq, Repr

/-- A layer rule that is ready to be used. -/
structure LayerTest where
  /-- The test of a text. -/
  holds : String → Bool
  /-- The layer that is assigned. -/
  layer : LayerName

namespace Layer

/-- Makes layer rules ready to be used. -/
def compile (rules : List LayerRule) : Except Pattern.CompileError (List LayerTest) :=
  rules.mapM fun rule => do
    let holds ← Pattern.compileTest rule.pattern rule.flags
    pure (⟨holds, rule.layer⟩ : LayerTest)

/-- The layer of the first rule that holds of a text. -/
def ofText? (tests : List LayerTest) (text : String) : Option LayerName :=
  (tests.find? (·.holds text)).map LayerTest.layer

/-- The layer of an element by its own name, or else by its path. -/
def own? (tests : List LayerTest) (element : Element) : Option LayerName :=
  match ofText? tests element.name with
  | some layer => some layer
  | none => if element.filePath = "" then none else ofText? tests element.filePath

/-- The layers that ids have been found to have of their own. -/
abbrev Known := Table String (Option LayerName)

/-- The layer that an id has of its own; it is found once. -/
def ask (tests : List LayerTest) (known : Known) (element : Element) : Option LayerName × Known :=
  match known.get? element.id with
  | some layer => (layer, known)
  | none => (own? tests element, known.put element.id (own? tests element))

/-- The layer of the first element on a chain of parents that has one. The chain ends when it comes
back to an element, so it is never longer than the list of elements. -/
def climb (tests : List LayerTest) (byId : Table String Element) :
    Nat → List String → Known → Element → Option LayerName × Known
  | 0, _, known, _ => (none, known)
  | fuel + 1, visited, known, element =>
    if visited.contains element.id then
      (none, known)
    else
      let (layer, known) := ask tests known element
      match layer, element.parentId.bind byId.get? with
      | some layer, _ => (some layer, known)
      | none, some parent => climb tests byId fuel (element.id :: visited) known parent
      | none, none => (none, known)

/-- Adds the layer of one element, if it has one. Stubs and imports have none. -/
def place (tests : List LayerTest) (byId : Table String Element) (fuel : Nat)
    (state : Table String LayerName × Known) (element : Element) : Table String LayerName × Known :=
  if element.isExternal || element.kind == .importItem then
    state
  else
    match climb tests byId fuel [] state.2 element with
    | (some layer, known) => (state.1.put element.id layer, known)
    | (none, known) => (state.1, known)

/-- The layers of elements that have one, in the given order. -/
def assign (tests : List LayerTest) (elements : List Element) : Table String LayerName :=
  let byId := Table.ofList (elements.map fun element => (element.id, element))
  (elements.foldl (place tests byId (elements.length + 2)) (Table.empty, Table.empty)).1

variable {α : Type}

/-- The dependencies from one element into other layers. -/
def crossings (assigned : Table String LayerName) (graph : DependencyGraph α)
    (entry : String × LayerName) : List LayerViolation :=
  (graph.dependenciesOf entry.1).filterMap fun targetId =>
    match assigned.get? targetId with
    | some target =>
      if target = entry.2 then none else some ⟨entry.1, targetId, entry.2, target⟩
    | none => none

/-- The two ends of a violation as one text. -/
def violationKey (violation : LayerViolation) : String :=
  violation.sourceId ++ "\x00" ++ violation.targetId

/-- The layers of a code base and the violations between them. Violations are kept by their ends, a
later one in the place of an earlier one. -/
def detect (tests : List LayerTest) (elements : List Element) (graph : DependencyGraph α) :
    LayerReport :=
  let assigned := assign tests elements
  let entries := Text.sortBy Prod.fst assigned.entries
  let crossed := entries.flatMap (crossings assigned graph)
  let upward := crossed.filter fun crossing => crossing.source.level < crossing.target.level
  { layers := LayerName.all.filterMap fun name =>
      let members := (entries.filter (·.2 = name)).map (·.1)
      if members.isEmpty then
        none
      else
        some ⟨name, members, LayerName.all.filter fun other =>
          crossed.any fun crossing => crossing.source == name && crossing.target == other⟩
    violations :=
      (Table.ofList (upward.map fun violation => (violationKey violation, violation))).values }

end Layer

/-- A violation as a structured value. -/
def LayerViolation.toJson (violation : LayerViolation) : Json :=
  .obj
    [("sourceId", .str violation.sourceId), ("targetId", .str violation.targetId),
     ("fromLayer", .str violation.source.name), ("toLayer", .str violation.target.name)]

/-- A layer as a structured value. -/
def Layer.toJson (layer : Layer) : Json :=
  .obj
    [("name", .str layer.name.name), ("level", .nat layer.name.level),
     ("memberIds", .texts layer.memberIds),
     ("dependsOn", .texts (layer.dependsOn.map LayerName.name))]

/-- The layers of a code base as a structured value. -/
def LayerReport.toJson (report : LayerReport) : Json :=
  .obj
    [("layers", .arr (report.layers.map Layer.toJson)),
     ("violations", .arr (report.violations.map LayerViolation.toJson))]

end CodeAtlas
