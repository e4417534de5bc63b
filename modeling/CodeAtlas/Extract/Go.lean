import CodeAtlas.Extract.Names
import CodeAtlas.Outline

/-!
# Outlines of Go files

Declarations belong to the package that the file names. Types are read first, so that a method finds
the type of its receiver wherever the file declares it.
-/

namespace CodeAtlas
namespace Extract
namespace Go

open SyntaxTree (Node Place)

/-- The kinds of nodes that name a type. -/
def typeNameKinds : List String := ["type_identifier", "qualified_type"]

/-- The types that the language itself declares. -/
def builtinTypes : List String :=
  ["bool", "byte", "complex64", "complex128", "error", "float32", "float64", "int", "int8", "int16",
    "int32", "int64", "rune", "string", "uint", "uint8", "uint16", "uint32", "uint64", "uintptr",
    "any"]

/-- Who may use a name, by its first letter. -/
def visibilityOf (name : String) : Visibility :=
  if isCapitalized name then .everyone else .neighbours

/-- What one node of an expression refers to. -/
def referenceAt (found : Array Outline) (node : Node) : Array Outline × Bool :=
  let next := if node.kind = "call_expression" then
      match node.field? "function" with
      | none => found
      | some callee =>
        if callee.kind = "identifier" then
          found.push (.refer ⟨.calls, callee.text, node.startLine⟩)
        else if callee.kind = "selector_expression" then
          match present? (callee.fieldText? "field") with
          | none => found
          | some member =>
            let target := match callee.field? "operand" with
              | some operand =>
                if operand.kind = "identifier" then operand.text ++ "." ++ member else member
              | none => member
            found.push (.refer ⟨.calls, target, node.startLine⟩)
        else
          found
    else if node.kind = "composite_literal" then
      match node.field? "type" with
      | some typeNode =>
        if typeNameKinds.contains typeNode.kind then
          found.push (.refer ⟨.uses, typeNode.text, node.startLine⟩)
        else
          found
      | none => found
    else
      found
  (next, true)

/-- What the nodes below a node refer to. -/
def references (node : Node) : List Outline :=
  (node.visitDescendants referenceAt #[]).toList

/-- The references below a child, if there is one. -/
def referencesIn (node : Option Node) : List Outline :=
  (node.map references).getD []

/-- The imports of an import declaration. -/
def imports (file : SourceFile) (node : Node) : List Outline :=
  (node.ofKinds ["import_spec"]).flatMap fun spec =>
    match spec.field? "path" with
    | none => []
    | some pathNode =>
      let target := unquote pathNode.text
      let imported := Outline.importModule
        { name := target
          kind := .importItem
          startLine := spec.startLine
          endLine := spec.endLine
          visibility := .owner
          qualifiedName := some (file.moduleName ++ ":import:" ++ target)
          metadata := [("target", .str target)] }
        target spec.startLine
      let bound := match spec.field? "name" with
        | some given =>
          if given.kind = "package_identifier" then
            [Outline.bind given.text (Text.lastPiece '/' target)]
          else
            []
        | none => []
      imported :: bound

/-- The type names of a type, without those of the language. -/
def typeNames (node : Node) : List String :=
  (node.namesOfKind typeNameKinds).filter fun name => !builtinTypes.contains name

/-- The references that the fields of a structure make; a field without a name is embedded. -/
def structFields (node : Node) : List Outline :=
  match node.firstOf? ["field_declaration_list"] with
  | none => []
  | some list => (list.named.filter (·.kind = "field_declaration")).flatMap fun declaration =>
    match declaration.field? "type" with
    | none => []
    | some typeNode =>
      let kind := if (declaration.field? "name").isNone then .composes else .associates
      (referAll kind (typeNames typeNode) declaration.startLine).map .refer

/-- The types of a type declaration. The comment of a single type stands above the declaration,
those of a group above each type. -/
def typeDeclaration (place : Place) : List Outline :=
  (place.named.filter (·.node.kind = "type_spec")).flatMap fun spec =>
    match present? (spec.node.fieldText? "name"), spec.node.field? "type" with
    | some name, some typeNode =>
      let declared (kind : ElementKind) (body : List Outline) : Outline := .declare
        { name := name
          kind := kind
          startLine := spec.node.startLine
          endLine := spec.node.endLine
          visibility := visibilityOf name
          metadata := documented ((spec.documentation? "//").or (place.documentation? "//")) } body
      if typeNode.kind = "struct_type" then [declared .structType (structFields typeNode)]
      else if typeNode.kind = "interface_type" then [declared .interface []]
      else []
    | _, _ => []

/-- The facts recorded about a function. -/
def functionFacts (place : Place) : List (String × Json) :=
  documented (place.documentation? "//")
    ++ withParameters (parameterNames (place.node.field? "parameters"))

/-- A function. -/
def functionOutline (place : Place) : Outline :=
  let node := place.node
  let name := (node.fieldText? "name").getD "anonymous"
  .declare
    { name := name
      kind := .function
      startLine := node.startLine
      endLine := node.endLine
      visibility := visibilityOf name
      metadata := functionFacts place }
    (referencesIn (node.field? "body"))

/-- The name of the type that a method belongs to. -/
def receiverType? (node : Node) : Option String := do
  let receiver ← node.field? "receiver"
  let parameter ← receiver.named.find? fun child => child.kind = "parameter_declaration"
  let typeNode ← parameter.field? "type"
  if typeNode.kind = "type_identifier" then
    pure typeNode.text
  else
    ((typeNode.ofKinds ["type_identifier"]).head?).map Node.text

/-- A method, below the type of its receiver if the file declares it. -/
def method (package : String) (place : Place) : Outline :=
  let node := place.node
  let name := (node.fieldText? "name").getD "anonymous"
  let declared (qualifiedName : String) (facts : List (String × Json)) : Outline := .declare
    { name := name
      kind := .method
      startLine := node.startLine
      endLine := node.endLine
      visibility := visibilityOf name
      qualifiedName := some qualifiedName
      metadata := functionFacts place ++ facts }
    (referencesIn (node.field? "body"))
  match present? (receiverType? node) with
  | some receiver =>
    let owner := package ++ "." ++ receiver
    let outline := declared (owner ++ "." ++ name) [("receiver", .str receiver)]
    .about owner [.structType, .interface] [outline] [outline]
  | none => declared (package ++ "." ++ name) []

/-- The constants or variables of a declaration. -/
def values (node : Node) : List Outline :=
  (node.ofKinds ["const_spec", "var_spec"]).flatMap fun spec =>
    (spec.named.filter (·.kind = "identifier")).map fun nameNode =>
      .declare
        { name := nameNode.text
          kind := .variableItem
          startLine := spec.startLine
          endLine := spec.endLine
          visibility := visibilityOf nameNode.text
          modifiers := if node.kind = "const_declaration" then ["const"] else [] }
        (referencesIn (spec.field? "value"))

/-- A top-level node that is no type declaration. -/
def topLevel (file : SourceFile) (package : String) (place : Place) : List Outline :=
  match place.node.kind with
  | "import_declaration" => imports file place.node
  | "function_declaration" => [functionOutline place]
  | "method_declaration" => [method package place]
  | "const_declaration" | "var_declaration" => values place.node
  | "ERROR" => references place.node
  | _ => []

/-- The package that a file names, with the line. -/
def packageClause? (root : Node) : Option (String × Nat) := do
  let clause ← root.named.find? fun node => node.kind = "package_clause"
  let name ← present? ((clause.firstOf? ["package_identifier"]).map Node.text)
  pure (name, clause.startLine)

/-- The outline of a Go file. -/
def outline (file : SourceFile) (root : Node) : List Outline :=
  let clause := packageClause? root
  let package := (clause.map (·.1)).getD file.moduleName
  let declarations := (Place.ofRoot root).named
  clause.toList.map (fun (name, line) => .package name line)
    ++ (declarations.filter (·.node.kind = "type_declaration")).flatMap typeDeclaration
    ++ declarations.flatMap (topLevel file package)

end Go
end Extract
end CodeAtlas
