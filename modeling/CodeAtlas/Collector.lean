import CodeAtlas.Element
import CodeAtlas.Text.Blank
import CodeAtlas.Text.Split

/-!
# Collecting the elements of a file

A collector holds the elements found so far in one file, the file's own module element first. Each
new element takes an identity that no earlier one has. References are kept as written until
`finish`, which replaces a first segment bound by an import with what the import means.
-/

namespace CodeAtlas

/-- What is needed to speak of an element that is being collected. -/
structure Handle where
  /-- The identity of the element. -/
  id : String
  /-- The name as written. -/
  name : String
  /-- The name with those of all enclosing elements. -/
  qualifiedName : String
  /-- The kind of element. -/
  kind : ElementKind
  /-- What the qualified names of its children start with. -/
  scope : String
  deriving DecidableEq, Repr

/-- A handle as a structured value. -/
def Handle.toJson (handle : Handle) : Json :=
  .obj
    [("id", .str handle.id), ("name", .str handle.name),
     ("qualifiedName", .str handle.qualifiedName), ("kind", .str handle.kind.name),
     ("scope", .str handle.scope)]

/-- An element that is being collected. -/
structure Draft extends Handle where
  /-- The first line. -/
  startLine : Nat
  /-- The last line. -/
  endLine : Nat
  /-- The enclosing module or package. -/
  moduleName : String
  /-- Who may use the element. -/
  visibility : Visibility
  /-- The words that qualify the declaration, each once. -/
  modifiers : List String
  /-- The element this one belongs to. -/
  parentId : Option String
  /-- The references so far. -/
  references : List Reference
  /-- Further facts by name. -/
  metadata : List (String × Json)

/-- What a new element says of itself. -/
structure Declaration where
  /-- The name as written. -/
  name : String
  /-- The kind of element. -/
  kind : ElementKind
  /-- The first line. -/
  startLine : Nat
  /-- The last line. -/
  endLine : Nat
  /-- Who may use the element. -/
  visibility : Visibility := .everyone
  /-- The words that qualify the declaration. -/
  modifiers : List String := []
  /-- The qualified name, if it is not the parent's scope and the name. -/
  qualifiedName : Option String := none
  /-- Further facts by name. -/
  metadata : List (String × Json) := []

/-- The elements of one file as far as they are known. -/
structure Collector where
  /-- The file. -/
  filePath : String
  /-- The language of the file. -/
  language : String
  /-- The module or package that new elements belong to. -/
  currentModule : String
  /-- The element of the file itself. -/
  root : Draft
  /-- The other elements in the order they were added. -/
  others : List Draft
  /-- What local names stand for, the latest binding first. -/
  bindings : List (String × String)

namespace Collector

/-- Why a step is refused. -/
inductive Error where
  /-- No element of the file has the identity. -/
  | unknownElement (id filePath : String)
  deriving DecidableEq, Repr

/-- What a reader is told. -/
def Error.message : Error → String
  | unknownElement id filePath => s!"Unknown element {id} in {filePath}"

/-- A collector that holds only the element of the file. -/
def start (filePath language moduleName : String) (lineCount : Nat) : Collector :=
  { filePath := filePath
    language := language
    currentModule := moduleName
    root :=
      { id := filePath ++ "::module"
        name := Text.lastPiece '.' moduleName
        qualifiedName := moduleName
        kind := .file
        scope := moduleName
        startLine := 1
        endLine := max 1 lineCount
        moduleName := moduleName
        visibility := .everyone
        modifiers := []
        parentId := none
        references := []
        metadata := [] }
    others := []
    bindings := [] }

/-- All elements in the order they were added. -/
def drafts (collector : Collector) : List Draft :=
  collector.root :: collector.others

/-- Whether an identity is in use. -/
def hasId (collector : Collector) (id : String) : Bool :=
  collector.drafts.any (·.id = id)

/-- The first free numbered form of an identity, searched from a number on. -/
def numberedId (collector : Collector) (base : String) : Nat → Nat → String
  | 0, number => s!"{base}~{number}"
  | fuel + 1, number =>
    let id := s!"{base}~{number}"
    if collector.hasId id then numberedId collector base fuel (number + 1) else id

/-- An identity that is not in use: the base itself, else the base with the least free number. -/
def freeId (collector : Collector) (base : String) : String :=
  if collector.hasId base then numberedId collector base collector.drafts.length 2 else base

/-- The handle of the file's own element. -/
def rootHandle (collector : Collector) : Handle := collector.root.toHandle

/-- The element with an identity. -/
def draft? (collector : Collector) (id : String) : Option Draft :=
  collector.drafts.find? (·.id = id)

/-- The handle of the element with an identity. -/
def handle (collector : Collector) (id : String) : Except Error Handle :=
  match collector.draft? id with
  | some draft => .ok draft.toHandle
  | none => .error (.unknownElement id collector.filePath)

/-- Adds an element below a parent. -/
def add (collector : Collector) (parent : Handle) (declaration : Declaration) :
    Collector × Handle :=
  let qualifiedName :=
    declaration.qualifiedName.getD (parent.scope ++ "." ++ declaration.name)
  let base := collector.filePath ++ "::" ++ declaration.kind.name ++ ":" ++ qualifiedName
  let draft : Draft :=
    { id := collector.freeId base
      name := declaration.name
      qualifiedName := qualifiedName
      kind := declaration.kind
      scope := qualifiedName
      startLine := declaration.startLine
      endLine := max declaration.startLine declaration.endLine
      moduleName := collector.currentModule
      visibility := declaration.visibility
      modifiers := declaration.modifiers.eraseDups
      parentId := some parent.id
      references := []
      metadata := declaration.metadata }
  ({ collector with others := collector.others ++ [draft] }, draft.toHandle)

/-- Enters a package: the file's element and all new ones belong to it from now on. -/
def enterPackage (collector : Collector) (name : String) (line : Nat) : Collector × Handle :=
  let entered :=
    { collector with
      currentModule := name
      root := { collector.root with moduleName := name, scope := name } }
  entered.add entered.rootHandle
    { name := Text.lastPiece '.' name
      kind := .package
      startLine := line
      endLine := line
      qualifiedName := some name }

/-- Changes the element with an identity. -/
def modify (collector : Collector) (id : String) (change : Draft → Draft) :
    Except Error Collector :=
  if collector.root.id = id then
    .ok { collector with root := change collector.root }
  else if collector.hasId id then
    .ok { collector with
      others := collector.others.map fun draft => if draft.id = id then change draft else draft }
  else
    .error (.unknownElement id collector.filePath)

/-- Records a reference of an element. A blank target is no reference. -/
def reference (collector : Collector) (id : String) (kind : ReferenceKind) (target : String)
    (line : Nat) : Except Error Collector :=
  let trimmed := Text.trim target
  if trimmed = "" then
    .ok collector
  else
    collector.modify id fun draft =>
      { draft with references := draft.references ++ [⟨kind, trimmed, line⟩] }

/-- Adds a qualifying word to an element. -/
def addModifier (collector : Collector) (id modifier : String) : Except Error Collector :=
  collector.modify id fun draft =>
    { draft with modifiers := (draft.modifiers ++ [modifier]).eraseDups }

/-- Records that a local name stands for a qualified one. A later binding of the name wins. -/
def bind (collector : Collector) (name target : String) : Collector :=
  if name = "" ∨ target = "" ∨ name = target then
    collector
  else
    { collector with bindings := (name, target) :: collector.bindings }

/-- The first element with a qualified name and one of the given kinds. -/
def find? (collector : Collector) (qualifiedName : String) (kinds : List ElementKind) :
    Option Handle :=
  (collector.drafts.find? fun draft =>
    draft.qualifiedName = qualifiedName && kinds.contains draft.kind).map (·.toHandle)

/-- What a local name stands for. -/
def binding? (collector : Collector) (name : String) : Option String :=
  (collector.bindings.find? (·.1 = name)).map (·.2)

/-- A target with its first segment replaced by what the segment is bound to. -/
def boundTarget (collector : Collector) (target : String) : String :=
  let chars := target.toList
  let first := chars.takeWhile (· ≠ '.')
  match collector.binding? (String.ofList first) with
  | some bound => bound ++ String.ofList (chars.drop first.length)
  | none => target

/-- A reference with its target replaced, unless it names a module as such. -/
def boundReference (collector : Collector) (reference : Reference) : Reference :=
  match reference.kind with
  | .imports | .dependsOn => reference
  | _ => { reference with target := collector.boundTarget reference.target }

/-- A collected element. -/
def finishDraft (collector : Collector) (draft : Draft) : Element :=
  { id := draft.id
    name := draft.name
    qualifiedName := draft.qualifiedName
    kind := draft.kind
    language := collector.language
    filePath := collector.filePath
    startLine := draft.startLine
    endLine := draft.endLine
    moduleName := draft.moduleName
    visibility := draft.visibility
    modifiers := Text.sort draft.modifiers
    parentId := draft.parentId
    references := draft.references.map collector.boundReference
    metadata := draft.metadata }

/-- The collected elements in the order they were added. -/
def finish (collector : Collector) : List Element :=
  collector.drafts.map collector.finishDraft

end Collector
end CodeAtlas
