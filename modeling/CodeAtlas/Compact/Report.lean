import CodeAtlas.AntiPattern
import CodeAtlas.Compact.Model
import CodeAtlas.Language
import CodeAtlas.Metrics

/-!
# Reports in written form

Readers for what is written about a model: diagnostics, rules, boundaries, layers, findings and
metrics. They undo the printing of these values and accept ones with members left out.
-/

namespace CodeAtlas
namespace Compact

open Json.Access

/-- A diagnostic. -/
def diagnostic (value : Json) : Diagnostic :=
  { severity := (Severity.ofName? (textAt value "severity")).getD .info
    code := textAt value "code"
    message := textAt value "message"
    filePath := (get value "filePath").text?
    line := (get value "line").number?.map Number.toNat
    elementId := (get value "elementId").text?
    relationshipId := (get value "relationshipId").text? }

/-- A language map. -/
def languageMap (value : Json) : LanguageMap :=
  (members value).map fun (language, extensions) => (language, texts extensions)

/-- A kind of boundary. -/
def boundaryKind (value : Json) : BoundaryKind := (BoundaryKind.ofName? (text value)).getD .utility

/-- A classification rule. -/
def rule (value : Json) : ClassificationRule :=
  { pattern := textAt value "pattern"
    flags := (get value "flags").text?
    target := (RuleTarget.ofWord? (textAt value "appliesTo")).getD .name
    kind := boundaryKind (get value "type") }

/-- A boundary. -/
def boundary (value : Json) : Boundary Float :=
  { id := textAt value "id"
    name := textAt value "name"
    kind := boundaryKind (get value "type")
    memberIds := texts (get value "memberIds")
    externalDependencyIds := texts (get value "externalDependencyIds")
    cohesion := number (get value "cohesion")
    coupling := number (get value "coupling")
    complexity := number (get value "complexity") }

/-- A list of boundaries. -/
def boundaries (value : Json) : List (Boundary Float) := (items value).map boundary

/-- A layer by name. -/
def layerName (value : Json) : LayerName := (LayerName.ofName? (text value)).getD .domain

/-- A layer rule. -/
def layerRule (value : Json) : LayerRule :=
  ⟨textAt value "pattern", (get value "flags").text?, layerName (get value "layer")⟩

/-- The layers of a code base. -/
def layerReport (value : Json) : LayerReport :=
  { layers := (items (get value "layers")).map fun layer =>
      ⟨layerName (get layer "name"), texts (get layer "memberIds"),
        (items (get layer "dependsOn")).map layerName⟩
    violations := (items (get value "violations")).map fun violation =>
      ⟨textAt violation "sourceId", textAt violation "targetId",
        layerName (get violation "fromLayer"), layerName (get violation "toLayer")⟩ }

/-- A finding. -/
def finding (value : Json) : AntiPattern :=
  { kind := (AntiPatternKind.ofName? (textAt value "kind")).getD .circularDependency
    message := textAt value "message"
    elementIds := texts (get value "elementIds")
    boundaryId := (get value "boundaryId").text? }

/-- The thresholds of metrics; those left out have their standard values. -/
def thresholds (value : Json) : MetricThresholds Float :=
  let standard := MetricThresholds.standard
  { averageInstability := numberOr (get value "averageInstability") standard.averageInstability
    averageCoupling := numberOr (get value "averageCoupling") standard.averageCoupling
    averageCohesion := numberOr (get value "averageCohesion") standard.averageCohesion
    cycleCount := numberOr (get value "cycleCount") standard.cycleCount
    density := numberOr (get value "density") standard.density }

end Compact
end CodeAtlas
