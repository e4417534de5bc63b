import CodeAtlas.Extract.Names
import CodeAtlas.Outline

/-!
# Outlines of Java files

Declarations belong to the package of the compilation unit. Types may nest; the parameter types of a
constructor and the types of fields are associations of the type.
-/

namespace CodeAtlas
namespace Extract
namespace Java

open SyntaxTree (Node Place)

/-- The kinds of nodes that declare a type. -/
def typeDeclarations : List String :=
  ["class_declaration", "interface_declaration", "enum_declaration", "record_declaration",
    "annotation_type_declaration"]

/-- The kinds of nodes that name a type. -/
def typeNameKinds : List String := ["type_identifier", "scoped_type_identifier"]

/-- The tokens that qualify a declaration. -/
def modifierTokens : List String :=
  ["static", "final", "abstract", "synchronized", "default", "sealed"]

/-- The import of a class or of all classes of a package. -/
def importOutlines (file : SourceFile) (node : Node) : List Outline :=
  match node.firstOf? ["scoped_identifier", "identifier"] with
  | none => []
  | some nameNode =>
    let target := nameNode.text
    let wildcard := node.named.any (·.kind = "asterisk")
    let imported := Outline.importModule
      { name := target
        kind := .importItem
        startLine := node.startLine
        endLine := node.endLine
        visibility := .owner
        qualifiedName := some
          (file.moduleName ++ ":import:" ++ target ++ (if wildcard then ".*" else ""))
        metadata := [("target", .str target), ("wildcard", .bool wildcard)] }
      target node.startLine
    imported :: (if wildcard then [] else [.bind (Text.lastPiece '.' target) target])

/-- Reads one modifier: who may use the declaration, and the words that qualify it. -/
def readModifier (state : Visibility × List String) (node : Node) : Visibility × List String :=
  match node.kind with
  | "public" => (.everyone, state.2)
  | "private" => (.owner, state.2)
  | "protected" => (.heirs, state.2)
  | "marker_annotation" | "annotation" =>
    (state.1, state.2 ++ (present? (node.fieldText? "name")).toList.map ("@" ++ ·))
  | token => if modifierTokens.contains token then (state.1, state.2 ++ [token]) else state

/-- The modifiers of a declaration. -/
def modifiersOf (node : Node) (otherwise : Visibility) : Visibility × List String :=
  match node.firstOf? ["modifiers"] with
  | some list => list.children.foldl readModifier (otherwise, [])
  | none => (otherwise, [])

/-- The type names of a node. -/
def typeNames (node : Node) : List String :=
  node.namesOfKind typeNameKinds

/-- The names in a list of types, without those of type arguments. -/
def listedTypes (node : Node) : List String :=
  let list := (node.firstOf? ["type_list"]).getD node
  list.named.filterMap fun entry =>
    let named := if entry.kind = "generic_type" then entry.firstOf? typeNameKinds else some entry
    named.bind fun found => if typeNameKinds.contains found.kind then some found.text else none

/-- The dotted name of an invoked method. -/
def invocationTarget (object : Option Node) (name : String) : String :=
  match object with
  | none => name
  | some object =>
    if object.kind = "identifier" ∨ object.kind = "this"
        ∨ (object.kind = "field_access" ∧ isDottedName object.text) then
      stripReceiver (object.text ++ "." ++ name)
    else
      name

/-- What one node of an expression refers to. -/
def referenceAt (found : Array Outline) (node : Node) : Array Outline × Bool :=
  let next := if node.kind = "method_invocation" then
      match present? (node.fieldText? "name") with
      | some name =>
        found.push (.refer ⟨.calls, invocationTarget (node.field? "object") name, node.startLine⟩)
      | none => found
    else if node.kind = "object_creation_expression" then
      match present? ((node.field? "type").bind fun typeNode => (typeNames typeNode).head?) with
      | some name => found.push (.refer ⟨.uses, name, node.startLine⟩)
      | none => found
    else
      found
  (next, true)

/-- What a node and everything below it refers to. -/
def references (node : Node) : List Outline :=
  (node.visitTree referenceAt #[]).toList

/-- The references inside a child, if there is one. -/
def referencesIn (node : Option Node) : List Outline :=
  (node.map references).getD []

/-- Who may use a member without a modifier. -/
def memberVisibility (isInterface : Bool) : Visibility :=
  if isInterface then .everyone else .neighbours

/-- A method or constructor. -/
def method (owner : String) (isInterface : Bool) (place : Place) : List Outline :=
  let node := place.node
  let (visibility, modifiers) := modifiersOf node (memberVisibility isInterface)
  let declared := Outline.declare
    { name := (node.fieldText? "name").getD owner
      kind := .method
      startLine := node.startLine
      endLine := node.endLine
      visibility := visibility
      modifiers := modifiers
      metadata := documented (place.documentation? "///")
        ++ withParameters (parameterNames (node.field? "parameters")) }
    (referencesIn (node.field? "body"))
  let collaborators := match node.field? "parameters" with
    | some parameters =>
      if node.kind = "method_declaration" then
        []
      else
        (referAll .associates ((typeNames parameters).map stripGenerics)
          parameters.startLine).map Outline.refer
    | none => []
  declared :: collaborators

/-- The variables of a field declaration. -/
def fieldOutlines (isInterface : Bool) (node : Node) : List Outline :=
  let (visibility, modifiers) := modifiersOf node (memberVisibility isInterface)
  let declared := (node.named.filter (·.kind = "variable_declarator")).flatMap fun declarator =>
    Outline.declare
      { name := (declarator.fieldText? "name").getD "anonymous"
        kind := .variableItem
        startLine := node.startLine
        endLine := node.endLine
        visibility := visibility
        modifiers := modifiers } []
      :: referencesIn (declarator.field? "value")
  let typed := match node.field? "type" with
    | some typeNode => (referAll .associates (typeNames typeNode) node.startLine).map Outline.refer
    | none => []
  declared ++ typed

/-- The kind of element that a type declaration adds. -/
def kindOf (node : Node) : ElementKind :=
  if node.kind = "interface_declaration" ∨ node.kind = "annotation_type_declaration" then .interface
  else if node.kind = "enum_declaration" then .enumeration
  else .classType

/-- The types that a type declaration extends or implements. -/
def supertypes (node : Node) : List Outline :=
  let superclass := match node.field? "superclass" with
    | some found =>
      (referAll .inherits (((typeNames found).take 1).map stripGenerics) found.startLine).map
        Outline.refer
    | none => []
  let interfaces := match node.field? "interfaces" with
    | some found => (referAll .implements (listedTypes found) found.startLine).map Outline.refer
    | none => []
  let extended := match node.firstOf? ["extends_interfaces"] with
    | some found => (referAll .inherits (listedTypes found) found.startLine).map Outline.refer
    | none => []
  superclass ++ interfaces ++ extended

mutual

/-- A type declaration. -/
def typeOutline (place : Place) : Outline :=
  let node := place.node
  let name := (node.fieldText? "name").getD "Anonymous"
  let (visibility, modifiers) := modifiersOf node .neighbours
  let members := match h : place.field? "body" with
    | some found =>
      have : found.node.size < place.node.size := Place.size_lt_of_field? h
      body name (kindOf node = .interface) found
    | none => []
  .declare
    { name := name
      kind := kindOf node
      startLine := node.startLine
      endLine := node.endLine
      visibility := visibility
      modifiers := modifiers ++ (if node.kind = "record_declaration" then ["record"] else [])
      metadata := documented (place.documentation? "///") }
    (supertypes node ++ members)
termination_by place.node.size

/-- The members of a type body. -/
def body (owner : String) (isInterface : Bool) (place : Place) : List Outline :=
  place.named.attach.flatMap fun ⟨member, hmember⟩ =>
    have : member.node.size < place.node.size := Place.size_lt_of_mem_named hmember
    match member.node.kind with
    | "method_declaration" | "constructor_declaration" | "compact_constructor_declaration" =>
      method owner isInterface member
    | "field_declaration" | "constant_declaration" => fieldOutlines isInterface member.node
    | "enum_body_declarations" => body owner isInterface member
    | kind =>
      if typeDeclarations.contains kind then [typeOutline member] else references member.node
termination_by place.node.size

end

/-- A top-level node. -/
def topLevel (file : SourceFile) (place : Place) : List Outline :=
  if place.node.kind = "import_declaration" then
    importOutlines file place.node
  else if typeDeclarations.contains place.node.kind then
    [typeOutline place]
  else if place.node.kind = "ERROR" then
    place.named.attach.flatMap fun ⟨child, hchild⟩ =>
      have : child.node.size < place.node.size := Place.size_lt_of_mem_named hchild
      topLevel file child
  else
    []
termination_by place.node.size

/-- The package that a file names, with the line. -/
def packageDeclaration? (root : Node) : Option (String × Nat) := do
  let declaration ← root.named.find? fun node => node.kind = "package_declaration"
  let name ← present? ((declaration.firstOf? ["scoped_identifier", "identifier"]).map Node.text)
  pure (name, declaration.startLine)

/-- The outline of a Java file. -/
def outline (file : SourceFile) (root : Node) : List Outline :=
  (packageDeclaration? root).toList.map (fun (name, line) => .package name line)
    ++ (Place.ofRoot root).named.flatMap (topLevel file)

end Java
end Extract
end CodeAtlas
