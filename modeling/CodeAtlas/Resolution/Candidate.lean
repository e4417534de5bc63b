import CodeAtlas.Relationship
import CodeAtlas.Table
import CodeAtlas.Text.Split

/-!
# Candidates

The elements that a reference may mean. A reference is looked up by qualified name, then by name in
the module of its source, then by the last segment of its target. The first level at which some
element of a suitable kind is found decides; if there is none, the reference means a stub outside
the code base.
-/

namespace CodeAtlas
namespace Resolution

/-- The kinds of elements that a kind of reference may mean. -/
def compatible : ReferenceKind → List ElementKind
  | .imports | .dependsOn =>
    [.file, .package, .namespaceItem, .classType, .interface, .structType, .enumeration]
  | .inherits | .implements => [.classType, .interface, .structType]
  | .calls => [.function, .method, .classType, .structType]
  | .uses => [.classType, .structType, .interface, .enumeration, .function]
  | .associates | .composes | .aggregates => [.classType, .structType, .interface, .enumeration]

/-- Whether a character divides the segments of a target. -/
def isDivider (char : Char) : Bool :=
  char == '.' || char == ':' || char == '/'

/-- Whether a target has dividers. -/
def isQualified (target : String) : Bool :=
  target.toList.any isDivider

/-- The segments of a list of characters between dividers, empty ones included. -/
def segmentsOf : List Char → List (List Char)
  | [] => [[]]
  | char :: rest =>
    if isDivider char then
      [] :: segmentsOf rest
    else
      match segmentsOf rest with
      | [] => [[char]]
      | segment :: segments => (char :: segment) :: segments

/-- The last segment of a target that is not empty, or the whole target if all are. -/
def lastSegment (target : String) : String :=
  match ((segmentsOf target.toList).filter (· ≠ [])).getLast? with
  | some segment => String.ofList segment
  | none => target

/-- How sure a reference is at each level. -/
structure Strengths (α : Type) where
  /-- For a match by qualified name. -/
  exact : α
  /-- For a match in the same module. -/
  sameModule : α
  /-- For a match by the last segment alone. -/
  heuristic : α

/-- The strengths unless others are given. -/
def Strengths.standard : Strengths Float := ⟨1, 0.8, 0.5⟩

/-- An element that a reference may mean. -/
structure Candidate (α : Type) where
  /-- The element. -/
  targetId : String
  /-- How sure it is. -/
  strength : α
  /-- How it was found. -/
  level : ResolutionLevel
  /-- How many were found together. -/
  count : Nat

/-- The beginning of the ids of stubs. -/
def externalBeginning : String := "external:"

/-- The id of the stub for a target. -/
def externalId (target : String) : String := externalBeginning ++ target

/-- The key under which a name is found in a module. -/
def moduleKey (moduleName name : String) : String := moduleName ++ "\x00" ++ name

/-- The elements that references may mean, under each of the keys by which they are looked up. -/
structure Symbols where
  /-- By qualified name. -/
  byQualifiedName : Table String (List Element)
  /-- By module and name. -/
  byModuleName : Table String (List Element)
  /-- By name. -/
  byName : Table String (List Element)

/-- The elements under their keys, in the given order. Imports stand for nothing themselves. -/
def Symbols.ofElements (elements : List Element) : Symbols :=
  let named := elements.filter (·.kind != .importItem)
  { byQualifiedName := .group Element.qualifiedName named
    byModuleName := .group (fun element => moduleKey element.moduleName element.name) named
    byName := .group Element.name named }

/-- The elements under a key that a kind of reference may mean, in the order of their ids. -/
def accept (kind : ReferenceKind) (table : Table String (List Element)) (key : String) :
    List Element :=
  Text.sortBy Element.id (((table.get? key).getD []).filter fun element =>
    (compatible kind).contains element.kind)

/-- The elements found by qualified name. -/
def exactMatches (symbols : Symbols) (reference : Reference) : List Element :=
  accept reference.kind symbols.byQualifiedName reference.target

/-- The elements found by name in one module; a qualified target finds none. -/
def sameModuleMatches (symbols : Symbols) (moduleName : String) (reference : Reference) :
    List Element :=
  if isQualified reference.target then
    []
  else
    accept reference.kind symbols.byModuleName (moduleKey moduleName reference.target)

/-- The elements found by the last segment. -/
def namedMatches (symbols : Symbols) (reference : Reference) : List Element :=
  accept reference.kind symbols.byName (lastSegment reference.target)

variable {α : Type} [Scalar α]

/-- Elements found together share the strength of their level. -/
def share (level : ResolutionLevel) (strength : α) (found : List Element) : List (Candidate α) :=
  found.map fun element =>
    ⟨element.id, Scalar.div strength (Scalar.ofNat found.length), level, found.length⟩

/-- The candidates for a reference of an element. -/
def candidates (strengths : Strengths α) (symbols : Symbols) (source : Element)
    (reference : Reference) : List (Candidate α) :=
  let exact := exactMatches symbols reference
  let near := sameModuleMatches symbols source.moduleName reference
  let named := namedMatches symbols reference
  if !exact.isEmpty then
    share .exact strengths.exact exact
  else if !near.isEmpty then
    share .sameModule strengths.sameModule near
  else if !named.isEmpty then
    share .heuristic strengths.heuristic named
  else
    [⟨externalId reference.target, strengths.heuristic, .external, 0⟩]

end Resolution
end CodeAtlas
