import CodeAtlas.Analysis.Basic
import CodeAtlas.Json.Printer

/-!
# Differences between analyses

Two analyses are compared by the ids of what they hold. Values with one id are equal if their
canonical texts are, whatever the order of their members.
-/

namespace CodeAtlas

/-- How the ids of two lists differ. -/
structure IdDifference where
  /-- The ids that are only in the second list, sorted. -/
  added : List String
  /-- The ids that are only in the first list, sorted. -/
  removed : List String
  /-- The ids whose values differ, sorted. -/
  changed : List String
  deriving DecidableEq, Repr

/-- How two analyses differ. -/
structure Difference where
  /-- The version of the first one, zero if there is none. -/
  fromVersion : Nat
  /-- The version of the second one. -/
  toVersion : Nat
  /-- The difference of elements. -/
  elements : IdDifference
  /-- The difference of relationships. -/
  relationships : IdDifference
  /-- The difference of boundaries. -/
  boundaries : IdDifference
  deriving DecidableEq, Repr

namespace IdDifference

/-- The canonical texts of values by their ids; the last value of an id counts. -/
def textsById {β : Type} (id : β → String) (toJson : β → Json) (values : List β) :
    Table String String :=
  .ofList (values.map fun value => (id value, (toJson value).canonical))

/-- How texts by id differ. -/
def between (before after : Table String String) : IdDifference :=
  { added := Text.sort (after.keys.filter fun id => !before.has id)
    removed := Text.sort (before.keys.filter fun id => !after.has id)
    changed := Text.sort (after.keys.filter fun id =>
      before.has id && before.get? id != after.get? id) }

/-- A difference as a structured value. -/
def toJson (difference : IdDifference) : Json :=
  .obj
    [("added", .texts difference.added), ("removed", .texts difference.removed),
     ("changed", .texts difference.changed)]

end IdDifference

namespace Difference

/-- How an analysis differs from an earlier one. Without an earlier one everything is added. -/
def between (previous : Option Analysis) (current : Analysis) : Difference :=
  let compare {β : Type} (id : β → String) (toJson : β → Json) (part : Analysis → List β) :=
    IdDifference.between
      (IdDifference.textsById id toJson ((previous.map part).getD []))
      (IdDifference.textsById id toJson (part current))
  { fromVersion := (previous.map Analysis.version).getD 0
    toVersion := current.version
    elements := compare Element.id Element.toJson Analysis.elements
    relationships := compare Relationship.id Relationship.toJson Analysis.relationships
    boundaries := compare Boundary.id Boundary.toJson Analysis.boundaries }

/-- The members of a difference by name. -/
def members (difference : Difference) : List (String × Json) :=
  [("fromVersion", .nat difference.fromVersion), ("toVersion", .nat difference.toVersion),
   ("elements", difference.elements.toJson), ("relationships", difference.relationships.toJson),
   ("boundaries", difference.boundaries.toJson)]

end Difference
end CodeAtlas
