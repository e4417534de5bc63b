import CodeAtlas.Resolution.Candidate
import CodeAtlas.Table

/-!
# Resolution

Resolving a complete list of elements turns their references into relationships. References of one
element with the same kind and target become one relationship. Mutual associations are folded into
one relationship of both directions. After a change, relationships of elements that no changed name
can concern are taken over from the resolution before.
-/

namespace CodeAtlas

/-- The relationships of a list of elements. -/
structure Resolution (α : Type) where
  /-- The elements that were resolved, without stubs. -/
  elements : List Element
  /-- The relationships in the order of their ids. -/
  relationships : List (Relationship α)
  /-- The stubs in the order of their ids. -/
  externals : List Element
  /-- The relationships from each element, before folding. -/
  bySource : Table String (List (Relationship α))

namespace Resolution

variable {α : Type} [Scalar α]

/-- The relationship that a first reference gives rise to. -/
def first (source : Element) (reference : Reference) (candidate : Candidate α) : Relationship α :=
  { sourceId := source.id
    targetId := candidate.targetId
    kind := .reference reference.kind
    strength := candidate.strength
    bidirectional := false
    evidence :=
      { level := candidate.level
        ambiguous := decide (1 < candidate.count)
        candidateCount := candidate.count
        reference := some reference.target
        line := some reference.line
        occurrences := 1 } }

/-- Counts one more reference for a relationship; a surer one decides how the target was found. -/
def again (existing : Relationship α) (candidate : Candidate α) : Relationship α :=
  let counted := { existing.evidence with occurrences := existing.evidence.occurrences + 1 }
  if Scalar.lt existing.strength candidate.strength then
    { existing with
      strength := candidate.strength
      evidence :=
        { counted with
          level := candidate.level
          ambiguous := decide (1 < candidate.count)
          candidateCount := candidate.count } }
  else
    { existing with evidence := counted }

/-- The references of an element with each of their candidates. -/
def mentions (strengths : Strengths α) (symbols : Symbols) (source : Element) :
    List (Reference × Candidate α) :=
  source.references.flatMap fun reference =>
    (candidates strengths symbols source reference).map (reference, ·)

/-- Adds one mention to the relationships of its source. -/
def mention (source : Element) (found : Table String (Relationship α))
    (entry : Reference × Candidate α) : Table String (Relationship α) :=
  let id := Relationship.idOf source.id (.reference entry.1.kind) entry.2.targetId
  found.update id fun
    | some existing => again existing entry.2
    | none => first source entry.1 entry.2

/-- The relationships from one element in the order of their ids. -/
def resolveElement (strengths : Strengths α) (symbols : Symbols) (source : Element) :
    List (Relationship α) :=
  Text.sortBy Relationship.id
    ((mentions strengths symbols source).foldl (mention source) Table.empty).values

/-- The relationship between a parent and its child. -/
def containment (parentId childId : String) : Relationship α :=
  { sourceId := parentId
    targetId := childId
    kind := .contains
    strength := Scalar.one
    bidirectional := false
    evidence := ⟨.structural, false, 1, none, none, 1⟩ }

/-- The containments of elements that have a parent. -/
def containments (elements : List Element) : List (Relationship α) :=
  elements.filterMap fun element => element.parentId.map (containment · element.id)

/-- Relationships by their ids, a later one in place of an earlier one of the same id. -/
def byId (relationships : List (Relationship α)) : Table String (Relationship α) :=
  Table.ofList (relationships.map fun relationship => (relationship.id, relationship))

/-- Both directions of an association in one relationship. -/
def merge (forward backward : Relationship α) : Relationship α :=
  { forward with
    strength := Scalar.max forward.strength backward.strength
    bidirectional := true
    evidence :=
      { forward.evidence with
        ambiguous := forward.evidence.ambiguous || backward.evidence.ambiguous
        occurrences := forward.evidence.occurrences + backward.evidence.occurrences } }

/-- What becomes of a relationship when mutual associations are folded: of two directions the one
from the smaller id stays. -/
def fold? (all : Table String (Relationship α)) (relationship : Relationship α) :
    Option (Relationship α) :=
  if relationship.kind ≠ .reference .associates ∨ relationship.sourceId = relationship.targetId then
    some relationship
  else
    match all.get? (Relationship.idOf relationship.targetId (.reference .associates)
        relationship.sourceId) with
    | none => some relationship
    | some opposite =>
      if Text.before relationship.targetId relationship.sourceId then none
      else some (merge relationship opposite)

/-- The kind of stub for something that is referred to in the given ways. -/
def stubKind (kinds : List RelationshipKind) : ElementKind :=
  if kinds.any [.reference .imports, .reference .dependsOn].contains then .file
  else if kinds.any [.reference .inherits, .reference .implements, .reference .uses,
      .reference .associates, .reference .composes, .reference .aggregates].contains then .classType
  else .function

/-- The element that stands for something outside the code base. -/
def stub (id : String) (kinds : List RelationshipKind) : Element :=
  let target := String.ofList (id.toList.drop externalBeginning.length)
  { id := id
    name := lastSegment target
    qualifiedName := target
    kind := stubKind kinds
    language := "external"
    filePath := ""
    startLine := 0
    endLine := 0
    moduleName := ""
    visibility := .everyone
    modifiers := []
    parentId := none
    references := []
    metadata := [("external", .bool true)] }

/-- The stubs that relationships lead to, in the order of their ids. -/
def stubs (relationships : List (Relationship α)) : List Element :=
  let outside := relationships.filter fun relationship =>
    Text.startsWith relationship.targetId externalBeginning
  Text.sortBy Element.id ((Table.group Relationship.targetId outside).entries.map
    fun (id, found) => stub id (found.map Relationship.kind))

/-- The resolution that follows from the relationships of each element. -/
def assemble (elements : List Element) (bySource : Table String (List (Relationship α))) :
    Resolution α :=
  let all := byId (bySource.values.flatten ++ containments elements)
  let relationships := Text.sortBy Relationship.id (all.values.filterMap (fold? all))
  { elements := elements
    relationships := relationships
    externals := stubs relationships
    bySource := bySource }

/-- Resolves a complete list of elements. -/
def resolve (strengths : Strengths α) (elements : List Element) : Resolution α :=
  let symbols := Symbols.ofElements elements
  assemble elements (Table.ofList (elements.map fun element =>
    (element.id, resolveElement strengths symbols element)))

/-- The names and qualified names of the elements of changed files. -/
def changedNames (elements : List Element) (changed : List String) : List String :=
  (elements.filter fun element => changed.contains element.filePath).flatMap fun element =>
    [element.qualifiedName, element.name]

/-- Whether a reference of an element may mean one of the names. -/
def mayMean (names : List String) (element : Element) : Bool :=
  element.references.any fun reference =>
    names.contains reference.target || names.contains (lastSegment reference.target)

/-- The relationships of an element after a change: those of the resolution before, unless the
element stands in a changed file or refers to a name from one. -/
def resolveAgain (strengths : Strengths α) (previous : Resolution α) (symbols : Symbols)
    (changed names : List String) (element : Element) : List (Relationship α) :=
  match previous.bySource.get? element.id with
  | some kept =>
    if !changed.contains element.filePath && !mayMean names element then kept
    else resolveElement strengths symbols element
  | none => resolveElement strengths symbols element

/-- Resolves elements after the files `changed` have changed since the resolution before. -/
def update (strengths : Strengths α) (previous : Resolution α) (elements : List Element)
    (changed : List String) : Resolution α :=
  let names := changedNames (previous.elements ++ elements) changed
  let symbols := Symbols.ofElements elements
  assemble elements (Table.ofList (elements.map fun element =>
    (element.id, resolveAgain strengths previous symbols changed names element)))

/-- The relationships of a list of elements as a structured value. -/
def toJson (resolution : Resolution Float) : Json :=
  .obj
    [("relationships", .arr (resolution.relationships.map Relationship.toJson)),
     ("externals", .arr (resolution.externals.map Element.toJson)),
     ("bySource", .arr (resolution.bySource.entries.map fun (id, found) =>
       .arr [.str id, .texts (found.map Relationship.id)]))]

end Resolution
end CodeAtlas
