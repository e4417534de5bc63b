import CodeAtlas.Boundary.Score
import CodeAtlas.Layer

/-!
# Anti-patterns

Findings that call for attention: dependency cycles, types with too many methods, boundaries that
are coupled too much, and dependencies against the order of layers.
-/

namespace CodeAtlas

/-- The kinds of findings, in the order in which they are listed. -/
inductive AntiPatternKind where
  | circularDependency
  | godObject
  | highCoupling
  | layerViolation
  deriving DecidableEq, Repr

namespace AntiPatternKind

/-- The word for a kind of finding. -/
def name : AntiPatternKind → String
  | circularDependency => "circular_dependency"
  | godObject => "god_object"
  | highCoupling => "high_coupling"
  | layerViolation => "layer_violation"

/-- Reads the word for a kind of finding. -/
def ofName? (word : String) : Option AntiPatternKind :=
  [circularDependency, godObject, highCoupling, layerViolation].find? (·.name = word)

/-- The place of a kind in the list of findings. -/
def rank : AntiPatternKind → Nat
  | circularDependency => 0
  | godObject => 1
  | highCoupling => 2
  | layerViolation => 3

/-- A cycle is an error, all else a warning. -/
def severity : AntiPatternKind → Severity
  | circularDependency => .error
  | _ => .warning

end AntiPatternKind

/-- A finding that calls for attention. -/
structure AntiPattern where
  /-- The kind of finding. -/
  kind : AntiPatternKind
  /-- What a reader is told. -/
  message : String
  /-- The elements concerned. -/
  elementIds : List String
  /-- The boundary concerned. -/
  boundaryId : Option String := none
  deriving DecidableEq, Repr

namespace AntiPattern

/-- When findings are made. -/
structure Limits where
  /-- A type with more methods is a finding. -/
  godObjectMethods : Nat
  /-- A boundary with a higher coupling is a finding. -/
  highCoupling : Float

/-- The limits unless others are given. -/
def Limits.standard : Limits := ⟨20, 0.8⟩

/-- The number of methods whose parent has an id. -/
def methodCount (elements : List Element) (id : String) : Nat :=
  (elements.filter fun element => element.kind == .method && element.parentId == some id).length

/-- The types with too many methods. -/
def godObjects (limits : Limits) (elements : List Element) : List AntiPattern :=
  elements.filterMap fun element =>
    let count := methodCount elements element.id
    if (element.kind == .classType || element.kind == .structType)
        && limits.godObjectMethods < count then
      some ⟨.godObject, element.qualifiedName ++ " declares " ++ toString count
        ++ " methods (limit " ++ toString limits.godObjectMethods ++ ")", [element.id], none⟩
    else
      none

/-- The dependency cycles of a graph. -/
def circles (graph : DependencyGraph Float) : List AntiPattern :=
  graph.cycles.map fun cycle =>
    ⟨.circularDependency,
      "Dependency cycle through " ++ toString cycle.memberIds.length ++ " element(s)",
      cycle.memberIds, none⟩

/-- The boundaries that are coupled too much. -/
def coupled (limits : Limits) (boundaries : List (Boundary Float)) : List AntiPattern :=
  (boundaries.filter fun boundary => limits.highCoupling < boundary.coupling).map fun boundary =>
    ⟨.highCoupling, "Boundary " ++ boundary.name ++ " has coupling "
        ++ Number.fixed 2 boundary.coupling ++ " (limit " ++ Number.text limits.highCoupling ++ ")",
      boundary.memberIds, some boundary.id⟩

/-- The dependencies against the order of layers. -/
def misplaced (layers : LayerReport) : List AntiPattern :=
  layers.violations.map fun violation =>
    ⟨.layerViolation, violation.source.name ++ " element depends on " ++ violation.target.name
      ++ " element", [violation.sourceId, violation.targetId], none⟩

/-- The order of findings by kind, boundary and elements. -/
def order (left right : AntiPattern) : Ordering :=
  (compare left.kind.rank right.kind.rank).then
    ((Text.order (left.boundaryId.getD "") (right.boundaryId.getD "")).then
      (Text.order (Text.join "\n" left.elementIds) (Text.join "\n" right.elementIds)))

/-- All findings in order. -/
def detect (limits : Limits) (elements : List Element) (graph : DependencyGraph Float)
    (boundaries : List (Boundary Float)) (layers : LayerReport) : List AntiPattern :=
  (godObjects limits elements ++ circles graph ++ coupled limits boundaries
    ++ misplaced layers).mergeSort fun left right => order left right != .gt

/-- A finding as a structured value. -/
def toJson (finding : AntiPattern) : Json :=
  Json.record
    [("kind", some (.str finding.kind.name)),
     ("severity", some (.str finding.kind.severity.name)),
     ("message", some (.str finding.message)), ("elementIds", some (.texts finding.elementIds)),
     ("boundaryId", finding.boundaryId.map .str)]

end AntiPattern
end CodeAtlas
