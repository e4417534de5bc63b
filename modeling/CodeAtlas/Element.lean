import CodeAtlas.Json.Basic

/-!
# Elements

An element is a named part of a code base: a file as a module, a class, a function and so on. It
knows where it stands, which element it belongs to, and what the source says it refers to.
-/

namespace CodeAtlas

/-- The kinds of elements. -/
inductive ElementKind where
  | file
  | classType
  | function
  | method
  | variableItem
  | importItem
  | package
  | interface
  | enumeration
  | structType
  | namespaceItem
  deriving DecidableEq, Repr

namespace ElementKind

/-- All kinds. -/
def all : List ElementKind :=
  [file, classType, function, method, variableItem, importItem, package, interface, enumeration,
    structType, namespaceItem]

/-- The word for a kind. -/
def name : ElementKind → String
  | file => "module"
  | classType => "class"
  | function => "function"
  | method => "method"
  | variableItem => "variable"
  | importItem => "import"
  | package => "package"
  | interface => "interface"
  | enumeration => "enum"
  | structType => "struct"
  | namespaceItem => "namespace"

/-- Reads the word for a kind. -/
def ofName? (word : String) : Option ElementKind :=
  all.find? (·.name = word)

end ElementKind

/-- The ways in which the source of one element refers to another. -/
inductive ReferenceKind where
  | imports
  | dependsOn
  | inherits
  | implements
  | calls
  | uses
  | associates
  | composes
  | aggregates
  deriving DecidableEq, Repr

namespace ReferenceKind

/-- All kinds of references. -/
def all : List ReferenceKind :=
  [imports, dependsOn, inherits, implements, calls, uses, associates, composes, aggregates]

/-- The word for a kind of reference. -/
def name : ReferenceKind → String
  | imports => "imports"
  | dependsOn => "depends_on"
  | inherits => "inherits"
  | implements => "implements"
  | calls => "calls"
  | uses => "uses"
  | associates => "associates"
  | composes => "composes"
  | aggregates => "aggregates"

/-- Reads the word for a kind of reference. -/
def ofName? (word : String) : Option ReferenceKind :=
  all.find? (·.name = word)

end ReferenceKind

/-- Who may use an element. -/
inductive Visibility where
  | everyone
  | owner
  | heirs
  | neighbours
  deriving DecidableEq, Repr

namespace Visibility

/-- The word for a visibility. -/
def name : Visibility → String
  | everyone => "public"
  | owner => "private"
  | heirs => "protected"
  | neighbours => "internal"

/-- Reads the word for a visibility. -/
def ofName? (word : String) : Option Visibility :=
  [everyone, owner, heirs, neighbours].find? (·.name = word)

end Visibility

/-- A reference as the source writes it. -/
structure Reference where
  /-- How the source refers. -/
  kind : ReferenceKind
  /-- The name it refers to. -/
  target : String
  /-- The line of the reference. -/
  line : Nat
  deriving DecidableEq, Repr

/-- A named part of a code base. -/
structure Element where
  /-- The identity of the element. -/
  id : String
  /-- The name as written. -/
  name : String
  /-- The name with those of all enclosing elements. -/
  qualifiedName : String
  /-- The kind of element. -/
  kind : ElementKind
  /-- The language of the source. -/
  language : String
  /-- The file, relative to the root of the code base. -/
  filePath : String
  /-- The first line. -/
  startLine : Nat
  /-- The last line. -/
  endLine : Nat
  /-- The enclosing module or package. -/
  moduleName : String
  /-- Who may use the element. -/
  visibility : Visibility
  /-- The words that qualify the declaration, sorted. -/
  modifiers : List String
  /-- The element this one belongs to. -/
  parentId : Option String
  /-- What the source of the element refers to. -/
  references : List Reference
  /-- Further facts by name. -/
  metadata : List (String × Json)

namespace Reference

/-- A reference as a structured value. -/
def toJson (reference : Reference) : Json :=
  .obj [("kind", .str reference.kind.name), ("target", .str reference.target),
    ("line", .nat reference.line)]

end Reference

namespace Element

/-- An element as a structured value. -/
def toJson (element : Element) : Json :=
  Json.record
    [("id", some (.str element.id)), ("name", some (.str element.name)),
     ("qualifiedName", some (.str element.qualifiedName)),
     ("kind", some (.str element.kind.name)), ("language", some (.str element.language)),
     ("filePath", some (.str element.filePath)), ("startLine", some (.nat element.startLine)),
     ("endLine", some (.nat element.endLine)), ("module", some (.str element.moduleName)),
     ("visibility", some (.str element.visibility.name)),
     ("modifiers", some (.texts element.modifiers)), ("parentId", element.parentId.map .str),
     ("references", some (.arr (element.references.map Reference.toJson))),
     ("metadata", some (.obj element.metadata))]

/-- A fact about the element by name. -/
def fact? (element : Element) (name : String) : Option Json :=
  (element.metadata.find? (·.1 = name)).map (·.2)

end Element
end CodeAtlas
