import CodeAtlas.Element
import CodeAtlas.Number.Scalar

/-!
# Relationships

A relationship leads from one element to another. It either says that the first contains the second
or stands for references in the source of the first. Its strength tells how sure the resolution of
these references is.
-/

namespace CodeAtlas

/-- The kinds of relationships. -/
inductive RelationshipKind where
  /-- The source refers to the target. -/
  | reference (kind : ReferenceKind)
  /-- The source is the parent of the target. -/
  | contains
  deriving DecidableEq, Repr

namespace RelationshipKind

/-- All kinds of relationships. -/
def all : List RelationshipKind := ReferenceKind.all.map reference ++ [contains]

/-- The kinds that stand for references. -/
def references : List RelationshipKind := ReferenceKind.all.map reference

/-- The word for a kind of relationship. -/
def name : RelationshipKind → String
  | reference kind => kind.name
  | contains => "contains"

/-- Reads the word for a kind of relationship. -/
def ofName? (word : String) : Option RelationshipKind :=
  all.find? (·.name = word)

end RelationshipKind

/-- How the target of a relationship was found. -/
inductive ResolutionLevel where
  /-- By its qualified name. -/
  | exact
  /-- By its name in the module of the source. -/
  | sameModule
  /-- By the last segment of the name alone. -/
  | heuristic
  /-- Not at all: the target is a stub. -/
  | external
  /-- The relationship is one of containment. -/
  | structural
  deriving DecidableEq, Repr

namespace ResolutionLevel

/-- The word for a level. -/
def name : ResolutionLevel → String
  | exact => "exact"
  | sameModule => "same_module"
  | heuristic => "heuristic"
  | external => "external"
  | structural => "structural"

end ResolutionLevel

/-- What a relationship was derived from. -/
structure Evidence where
  /-- How the target was found. -/
  level : ResolutionLevel
  /-- Whether there were several candidates. -/
  ambiguous : Bool
  /-- The number of candidates. -/
  candidateCount : Nat
  /-- The text of the first reference. -/
  reference : Option String
  /-- The line of the first reference. -/
  line : Option Nat
  /-- The number of references. -/
  occurrences : Nat
  deriving DecidableEq, Repr

/-- A relationship between two elements, with a strength of some scalar type. -/
structure Relationship (α : Type) where
  /-- The element that the relationship starts from. -/
  sourceId : String
  /-- The element that the relationship leads to. -/
  targetId : String
  /-- The kind of relationship. -/
  kind : RelationshipKind
  /-- How sure the relationship is. -/
  strength : α
  /-- Whether the relationship holds in both directions. -/
  bidirectional : Bool
  /-- What the relationship was derived from. -/
  evidence : Evidence

namespace Relationship

/-- The identity of the relationship of a kind between two elements. -/
def idOf (sourceId : String) (kind : RelationshipKind) (targetId : String) : String :=
  "rel:" ++ sourceId ++ "|" ++ kind.name ++ "|" ++ targetId

/-- The identity of a relationship. -/
def id {α : Type} (relationship : Relationship α) : String :=
  idOf relationship.sourceId relationship.kind relationship.targetId

end Relationship

/-- What a relationship was derived from, as a structured value. -/
def Evidence.toJson (evidence : Evidence) : Json :=
  Json.record
    [("resolution", some (.str evidence.level.name)),
     ("ambiguous", some (.bool evidence.ambiguous)),
     ("candidateCount", some (.nat evidence.candidateCount)),
     ("reference", evidence.reference.map .str), ("line", evidence.line.map .nat),
     ("occurrences", some (.nat evidence.occurrences))]

/-- A relationship as a structured value. -/
def Relationship.toJson (relationship : Relationship Float) : Json :=
  .obj
    [("id", .str relationship.id), ("sourceId", .str relationship.sourceId),
     ("targetId", .str relationship.targetId), ("kind", .str relationship.kind.name),
     ("strength", .num relationship.strength), ("bidirectional", .bool relationship.bidirectional),
     ("metadata", relationship.evidence.toJson)]

/-- Whether an element stands for something outside the code base. -/
def Element.isExternal (element : Element) : Bool :=
  match element.fact? "external" with
  | some (.bool value) => value
  | _ => false

end CodeAtlas
