import CodeAtlas.Element
import CodeAtlas.Schema

/-!
# Labels

A label is attached to an element from outside. It goes into the facts about the element and changes
nothing else.
-/

namespace CodeAtlas

/-- A label for an element. -/
structure Label where
  /-- The label itself. -/
  text : String
  /-- How sure the label is. -/
  confidence : Float
  /-- The category of the label. -/
  category : Option String
  /-- What the label means. -/
  description : Option String

/-- A label with the element it is meant for. -/
structure LabelRequest where
  /-- The element. -/
  elementId : String
  /-- The label. -/
  label : Label

namespace Label

/-- A label as a structured value. -/
def toJson (label : Label) : Json :=
  Json.record
    [("label", some (.str label.text)), ("confidence", some (.num label.confidence)),
     ("category", label.category.map .str), ("description", label.description.map .str)]

end Label

namespace LabelRequest

/-- Reads a label with its element. -/
def read : Schema.Reader LabelRequest :=
  Schema.object fun members =>
    (fun elementId label category confidence description =>
      (⟨elementId, ⟨label, confidence, category, description⟩⟩ : LabelRequest))
      <$> Schema.member members "elementId" Schema.someText
      <*> Schema.member members "label" Schema.someText
      <*> Schema.member members "category" (Schema.optional Schema.text)
      <*> Schema.member members "confidence" (Schema.atMost 1 (Schema.atLeast 0 Schema.number))
      <*> Schema.member members "description" (Schema.optional Schema.text)

/-- Reads a list of labels. -/
def readAll : Schema.Reader (List LabelRequest) := Schema.list read

end LabelRequest

/-- An element with a label among the facts about it. -/
def Element.withLabel (element : Element) (label : Option Label) : Element :=
  match label with
  | some label => { element with metadata := Json.putMember element.metadata "label" label.toJson }
  | none => element

end CodeAtlas
