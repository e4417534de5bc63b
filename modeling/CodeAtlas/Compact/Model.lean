import CodeAtlas.Graph.Basic
import CodeAtlas.Json.Access
import CodeAtlas.Resolution.Basic

/-!
# Models in compact form

A model can be written down with little more than names. Whatever an element leaves out has a
standard value, references and relationships are short lists, and relationships that are not written
at all are found by resolution.
-/

namespace CodeAtlas
namespace Compact

open Json.Access

/-- A kind of element. -/
def kind (value : Json) : ElementKind := (ElementKind.ofName? (text value)).getD .function

/-- A kind of reference. -/
def referenceKind (value : Json) : ReferenceKind := (ReferenceKind.ofName? (text value)).getD .calls

/-- A visibility. -/
def visibility (value : Json) : Visibility := (Visibility.ofName? (text value)).getD .everyone

/-- A reference: its kind, its target and its line. -/
def reference (value : Json) : Reference :=
  ⟨referenceKind (nth value 0), text (nth value 1), naturalOr (nth value 2) 1⟩

/-- The path of the file of a module. -/
def fileOf (moduleName : String) : String :=
  String.ofList (moduleName.toList.map fun char => if char = '.' then '/' else char) ++ ".ts"

/-- An element of a file in a language, which it may also name itself. -/
def elementIn (filePath language : Option String) (value : Json) : Element :=
  let name := textAt value "name"
  let kind := kind (get value "kind")
  let moduleName := ((get value "module").text?).getD "app"
  let filePath := ((get value "filePath").text?.or filePath).getD (fileOf moduleName)
  let qualifiedName := ((get value "qualifiedName").text?).getD (moduleName ++ "." ++ name)
  let startLine := naturalOr (get value "startLine") 1
  { id := ((get value "id").text?).getD (filePath ++ "::" ++ kind.name ++ ":" ++ qualifiedName)
    name := name
    qualifiedName := qualifiedName
    kind := kind
    language := ((get value "language").text?.or language).getD "typescript"
    filePath := filePath
    startLine := startLine
    endLine := naturalOr (get value "endLine") startLine
    moduleName := moduleName
    visibility := visibility (get value "visibility")
    modifiers := texts (get value "modifiers")
    parentId := (get value "parentId").text?
    references := (items (get value "references")).map reference
    metadata := members (get value "metadata") }

/-- An element. -/
def element (value : Json) : Element := elementIn none none value

/-- A list of elements. -/
def elements (value : Json) : List Element := (items value).map element

/-- A kind of relationship. -/
def relationshipKind (value : Json) : RelationshipKind :=
  (RelationshipKind.ofName? (text value)).getD .contains

/-- A relationship: its source, its kind, its target, its strength and whether it goes both ways. -/
def relationship (value : Json) : Relationship Float :=
  { sourceId := text (nth value 0)
    targetId := text (nth value 2)
    kind := relationshipKind (nth value 1)
    strength := numberOr (nth value 3) 1
    bidirectional := flagOr (nth value 4) false
    evidence := ⟨.exact, false, 1, none, none, 1⟩ }

/-- A list of relationships. -/
def relationships (value : Json) : List (Relationship Float) := (items value).map relationship

/-- The strengths named by a member, or the standard ones. -/
def strengths (value : Json) : Resolution.Strengths Float :=
  match value.member? "strengths" with
  | some strengths =>
    ⟨number (get strengths "exact"), number (get strengths "sameModule"),
      number (get strengths "heuristic")⟩
  | none => .standard

/-- Elements with their relationships. -/
structure Model where
  /-- The elements, stubs included. -/
  elements : List Element
  /-- The relationships. -/
  relationships : List (Relationship Float)

/-- A model with all relationships written down. -/
def written (value : Json) : Model :=
  ⟨elements (get value "elements"), relationships (get value "relationships")⟩

/-- A model; relationships that are not written down are those of the resolved references. -/
def model (value : Json) : Model :=
  if has value "relationships" then
    written value
  else
    let elements := elements (get value "elements")
    let resolution := Resolution.resolve (strengths value) elements
    ⟨elements ++ resolution.externals, resolution.relationships⟩

/-- How graphs are built, taken from the first value that says so. -/
def graphOptions (values : List Json) : GraphOptions Float :=
  let find (name : String) : Option Json := values.findSome? (·.member? name)
  { dependencyKinds := match find "dependencyKinds" with
      | some kinds => (items kinds).map relationshipKind
      | none => RelationshipKind.references
    weights := match find "complexity" with
      | some weights =>
        ⟨number (get weights "edges"), number (get weights "fanOut"),
          number (get weights "cycleMembers")⟩
      | none => .standard }

end Compact
end CodeAtlas
