import CodeAtlas.Boundary.Cluster
import CodeAtlas.Graph.Reuse

/-!
# Boundary detection

Clusters become boundaries: each gets the kind that most of its members have, the name of the module
most of them stand in, and its scores. After a change, clusters are taken over when what they are
built from is the same, and scores when nothing near the members has changed.
-/

namespace CodeAtlas
namespace Boundary

/-- The boundaries of a code base. -/
structure Detection (α : Type) where
  /-- The boundaries in the order of their ids. -/
  boundaries : List (Boundary α)
  /-- The elements in no boundary, sorted. -/
  unassigned : List String
  /-- The members of the boundaries, in the order of their ids. -/
  clusters : List (List String)
  /-- The digest of what the clusters are built from. -/
  structuralKey : String

/-- What is known from before a change. -/
structure Earlier (α : Type) where
  /-- The boundaries before. -/
  detection : Detection α
  /-- The graph before. -/
  graph : DependencyGraph α
  /-- The ids of elements that may have changed. -/
  changedIds : List String

/-- Detects boundaries with a rule table and size limits. -/
structure Detector where
  /-- The rule table. -/
  classifier : Classifier
  /-- The size limits. -/
  limits : Limits

variable {α : Type}

/-- The elements that can be in a boundary. -/
def candidates (elements : List Element) : List Element :=
  elements.filter fun element => !element.isExternal

/-- The relationships that tie candidates together. -/
def structural (members : List Element) (relationships : List (Relationship α)) :
    List (Relationship α) :=
  let ids := members.map Element.id
  relationships.filter fun relationship =>
    (relationship.kind == .contains || relationship.kind == .reference .dependsOn)
      && relationship.sourceId != relationship.targetId
      && ids.contains relationship.sourceId && ids.contains relationship.targetId

/-- The digest of what clusters are built from. -/
def structuralKey [Scalar α] (members : List Element) (relationships : List (Relationship α)) :
    String :=
  let places := (sortByPlace members).map fun element =>
    element.id ++ "\x00" ++ element.filePath ++ "\x00" ++ toString element.startLine ++ "\n"
  let ties := relationships.map fun relationship =>
    relationship.id ++ "\x00" ++ Scalar.text relationship.strength ++ "\n"
  Digest.sha1 (Text.join "" places ++ "\x01" ++ Text.join "" ties)

/-- The greater of two counted values, the first one if the counts are equal. -/
def moreFrequent {β : Type} (count : β → Nat) (best : β × Nat) (value : β) : β × Nat :=
  if best.2 < count value then (value, count value) else best

/-- The kind that most members have; imports have no vote. -/
def vote (classifier : Classifier) (members : List Element) : BoundaryKind :=
  let kinds := (members.filter (·.kind != .importItem)).map classifier.classify
  (BoundaryKind.all.foldl (moreFrequent fun kind => kinds.count kind) (.utility, 0)).1

/-- The module with more members, the smaller name if the numbers are equal. -/
def moreCommon (best entry : String × Nat) : String × Nat :=
  if best.2 < entry.2 || (best.2 == entry.2 && Text.before entry.1 best.1) then entry else best

/-- The module that most members stand in. -/
def dominantModule (members : List Element) : String :=
  let names := (Table.group Element.moduleName members).entries.map fun (name, found) =>
    (name, found.length)
  let name := (names.foldl moreCommon ("", 0)).1
  if name = "" then "root" else name

/-- The boundaries with the name of each made distinct by a number. -/
def nameApart (boundaries : List (Boundary α)) : List (Boundary α) :=
  let step (state : Table String Nat × List (Boundary α)) (boundary : Boundary α) :=
    let count := (state.1.get? boundary.name).getD 0 + 1
    let name := if count = 1 then boundary.name else boundary.name ++ "#" ++ toString count
    (state.1.put boundary.name count, state.2 ++ [{ boundary with name := name }])
  (boundaries.foldl step (Table.empty, [])).2

/-- Whether nothing near members has changed. -/
def isUntouched (graph : DependencyGraph α) (earlier : Earlier α) (memberIds : List String) :
    Bool :=
  memberIds.all fun id =>
    !graph.changed.contains id && !earlier.changedIds.contains id
      && graph.isInCycle id == earlier.graph.isInCycle id

variable [Scalar α]

/-- The scores of a boundary, those from before if they still hold. -/
def scoreAgain (graph : DependencyGraph α) (earlier : Option (Earlier α))
    (memberIds : List String) : Scores α :=
  let known := earlier.bind fun earlier =>
    let byId := Table.ofList (earlier.detection.boundaries.map fun boundary =>
      (boundary.id, boundary))
    (byId.get? (idOf memberIds)).bind fun boundary =>
      if isUntouched graph earlier memberIds then some boundary else none
  match known with
  | some boundary =>
    ⟨boundary.cohesion, boundary.coupling, boundary.complexity, boundary.externalDependencyIds⟩
  | none => score graph memberIds

/-- The boundary of a cluster, before names are made distinct. -/
def ofCluster (classifier : Classifier) (graph : DependencyGraph α) (byId : Table String Element)
    (earlier : Option (Earlier α)) (memberIds : List String) : Boundary α :=
  let members := memberIds.filterMap byId.get?
  let scores := scoreAgain graph earlier memberIds
  { id := idOf memberIds
    name := dominantModule members
    kind := vote classifier members
    memberIds := memberIds
    externalDependencyIds := scores.externalDependencyIds
    cohesion := scores.cohesion
    coupling := scores.coupling
    complexity := scores.complexity }

/-- The clusters, those from before if what they are built from is the same. -/
def clusterAgain (limits : Limits) (members : List Element)
    (relationships : List (Relationship α)) (key : String) (earlier : Option (Earlier α)) :
    List (List String) × List String :=
  match earlier with
  | some earlier =>
    if earlier.detection.structuralKey = key then
      (earlier.detection.clusters, earlier.detection.unassigned)
    else
      cluster limits members relationships
  | none => cluster limits members relationships

/-- Detects the boundaries of a code base. -/
def Detector.detect (detector : Detector) (elements : List Element)
    (relationships : List (Relationship α)) (graph : DependencyGraph α)
    (earlier : Option (Earlier α)) : Detection α :=
  let members := candidates elements
  let ties := structural members relationships
  let key := structuralKey members ties
  let (clusters, unassigned) := clusterAgain detector.limits members ties key earlier
  let byId := Table.ofList (members.map fun element => (element.id, element))
  let drafts := clusters.map (ofCluster detector.classifier graph byId earlier)
  { boundaries := nameApart (Text.sortBy Boundary.id drafts)
    unassigned := unassigned
    clusters := clusters
    structuralKey := key }

/-- The boundaries of a code base as a structured value. -/
def Detection.toJson (detection : Detection Float) : Json :=
  .obj
    [("boundaries", .arr (detection.boundaries.map Boundary.toJson)),
     ("unassigned", .texts detection.unassigned),
     ("clusters", .arr (detection.clusters.map Json.texts)),
     ("structuralKey", .str detection.structuralKey)]

end Boundary
end CodeAtlas
