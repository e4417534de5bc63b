import CodeAtlas.Extract.Names
import CodeAtlas.ModulePath
import CodeAtlas.Outline

/-!
# Outlines of TypeScript and JavaScript files

Declarations at statement position become elements; calls, constructions and markup tags become
references of the enclosing element; import statements, re-exports, `require` calls and dynamic
imports become imports of the file.
-/

namespace CodeAtlas
namespace Extract
namespace Script

open SyntaxTree (Node Place)

/-- The kinds of class nodes. -/
def classKinds : List String := ["class_declaration", "abstract_class_declaration", "class"]

/-- The kinds of nodes that are functions as values. -/
def functionValueKinds : List String :=
  ["arrow_function", "function", "function_expression", "generator_function"]

/-- The kinds of nodes that name a type. -/
def typeNameKinds : List String := ["type_identifier", "nested_type_identifier"]

/-- The kinds of nodes that may name a base class. -/
def heritageKinds : List String :=
  ["identifier", "type_identifier", "member_expression", "nested_type_identifier", "generic_type",
    "nested_identifier"]

/-- The tokens that qualify a class member. -/
def memberTokens : List String :=
  ["static", "async", "abstract", "readonly", "override", "get", "set"]

/-- What a statement knows of its surroundings. -/
structure Surroundings where
  /-- Whether the statement is exported. -/
  exported : Bool := false
  /-- The decorators that stand before the statement. -/
  decorators : List String := []

/-- Who may use a declaration outside a class. -/
def Surroundings.visibility (surroundings : Surroundings) : Visibility :=
  if surroundings.exported then .everyone else .neighbours

/-- The mark of an exported declaration. -/
def Surroundings.exportMark (surroundings : Surroundings) : List String :=
  if surroundings.exported then ["export"] else []

/-- The module that a specifier in a file names. -/
def targetOf (file : SourceFile) (specifier : String) : String :=
  ModulePath.resolveSpecifier file.path specifier file.language

/-- The import of a module by a specifier. -/
def importOf (file : SourceFile) (specifier : String) (node : Node) : Outline :=
  .importModule
    { name := specifier
      kind := .importItem
      startLine := node.startLine
      endLine := node.endLine
      visibility := .owner
      qualifiedName := some (file.moduleName ++ ":import:" ++ specifier)
      metadata := [("specifier", .str specifier), ("target", .str (targetOf file specifier))] }
    (targetOf file specifier) node.startLine

/-- The specifier of a `require` call. -/
def requireSpecifier? (node : Node) : Option String := do
  guard (node.kind = "call_expression")
  let callee ← node.field? "function"
  guard (callee.kind = "identifier" ∧ callee.text = "require")
  let arguments ← node.field? "arguments"
  let argument ← arguments.named.head?
  guard (argument.kind = "string")
  pure (unquote argument.text)

/-- The dotted name of what is called; inside another expression only the last member is known. -/
def calleeTarget? (callee : Node) : Option String :=
  if ["identifier", "property_identifier", "private_property_identifier", "this"].contains
      callee.kind then
    some callee.text
  else if callee.kind = "member_expression" then
    match present? (callee.fieldText? "property") with
    | none => none
    | some property =>
      match h : callee.field? "object" with
      | none => some property
      | some object =>
        have : object.size < callee.size := Node.size_lt_of_field? h
        match present? (calleeTarget? object) with
        | some base => some (base ++ "." ++ property)
        | none => some property
  else
    none
termination_by callee.size

/-- What one node of an expression refers to, and whether to look below it. -/
def referenceAt (file : SourceFile) (make : Reference → Outline) (found : Array Outline)
    (node : Node) : Array Outline × Bool :=
  if node.kind = "call_expression" then
    match requireSpecifier? node with
    | some specifier => (found.push (importOf file specifier node), false)
    | none =>
      match node.field? "function" with
      | none => (found, true)
      | some callee =>
        if callee.kind = "import" then
          match (node.field? "arguments").bind (·.named.head?) with
          | some argument =>
            if argument.kind = "string" then
              (found.push (importOf file (unquote argument.text) node), false)
            else
              (found, false)
          | none => (found, false)
        else
          match present? (calleeTarget? callee) with
          | some target =>
            if target = "this" then (found, true)
            else (found.push (make ⟨.calls, stripReceiver target, node.startLine⟩), true)
          | none => (found, true)
  else if node.kind = "new_expression" then
    match present? ((node.field? "constructor").bind calleeTarget?) with
    | some target => (found.push (make ⟨.uses, stripReceiver target, node.startLine⟩), true)
    | none => (found, true)
  else if node.kind = "jsx_opening_element" ∨ node.kind = "jsx_self_closing_element" then
    match node.fieldText? "name" with
    | some name =>
      if isCapitalized name then (found.push (make ⟨.uses, name, node.startLine⟩), true)
      else (found, true)
    | none => (found, true)
  else
    (found, true)

/-- What a node and everything below it refers to. -/
def referencesWith (file : SourceFile) (make : Reference → Outline) (node : Node) : List Outline :=
  (node.visitTree (referenceAt file make) #[]).toList

/-- What a node and everything below it refers to, as references of the current element. -/
def references (file : SourceFile) (node : Node) : List Outline :=
  referencesWith file .refer node

/-- The references inside a child, if there is one. -/
def referencesIn (file : SourceFile) (node : Option Node) : List Outline :=
  (node.map (references file)).getD []

/-- The parameters of a function; a single one may stand without a list. -/
def parametersOf (node : Node) : List String :=
  match node.field? "parameter" with
  | some single => [single.text]
  | none => parameterNames (node.field? "parameters")

/-- The imports and bindings of an import statement. -/
def importStatement (file : SourceFile) (node : Node) : List Outline :=
  match node.field? "source" with
  | none => []
  | some source =>
    let specifier := unquote source.text
    let target := targetOf file specifier
    let bindings := match node.firstOf? ["import_clause"] with
      | none => []
      | some clause => clause.named.flatMap fun part =>
        if part.kind = "identifier" then
          [Outline.bind part.text (target ++ "." ++ part.text)]
        else if part.kind = "namespace_import" then
          (part.firstOf? ["identifier"]).toList.map fun given => .bind given.text target
        else if part.kind = "named_imports" then
          part.named.flatMap fun specifier =>
            if specifier.kind = "import_specifier" then
              (present? (specifier.fieldText? "name")).toList.map fun name =>
                .bind ((specifier.fieldText? "alias").getD name) (target ++ "." ++ name)
            else
              []
        else
          []
    importOf file specifier node :: bindings

/-- The import and the bindings of a statement that exports from another module. -/
def reexport (file : SourceFile) (node source : Node) : List Outline :=
  let specifier := unquote source.text
  let target := targetOf file specifier
  importOf file specifier node :: (node.ofKinds ["export_specifier"]).flatMap fun specifier =>
    (present? (specifier.fieldText? "name")).toList.map fun name =>
      .bind name (target ++ "." ++ name)

/-- Who may use a class member. -/
def memberVisibility (node : Node) (name : Option Node) : Visibility :=
  let accessibility := (node.firstOf? ["accessibility_modifier"]).map Node.text
  if accessibility = some "private" then .owner
  else if accessibility = some "protected" then .heirs
  else if (name.map Node.kind) = some "private_property_identifier" then .owner
  else .everyone

/-- The words that qualify a class member. -/
def memberModifiers (node : Node) (decorators : List String) : List String :=
  decorators ++ memberTokens.filter node.hasToken
    ++ (if node.kind = "abstract_method_signature" then ["abstract"] else [])

/-- A method of a class. The parameter types of its constructor are references of the class. -/
def method (file : SourceFile) (decorators : List String) (place : Place) : List Outline :=
  let node := place.node
  let nameNode := node.field? "name"
  let name := (nameNode.map Node.text).getD "anonymous"
  let declared := Outline.declare
    { name := name
      kind := .method
      startLine := node.startLine
      endLine := node.endLine
      visibility := memberVisibility node nameNode
      modifiers := memberModifiers node decorators
      metadata := documented (place.documentation? "///") ++ withParameters (parametersOf node) }
    (referencesIn file (node.field? "body"))
  let collaborators := match node.field? "parameters" with
    | some parameters =>
      if name = "constructor" then
        (referAll .associates (parameters.namesOfKind typeNameKinds)
          parameters.startLine).map .refer
      else
        []
    | none => []
  declared :: collaborators

/-- A field of a class; one that holds a function is a method. -/
def classField (file : SourceFile) (decorators : List String) (place : Place) : List Outline :=
  let node := place.node
  let nameNode := (node.field? "name").or (node.field? "property")
  let name := (nameNode.map Node.text).getD "anonymous"
  let value := node.field? "value"
  let modifiers := memberModifiers node decorators
  let variableOutlines : List Outline :=
    .declare
      { name := name
        kind := .variableItem
        startLine := node.startLine
        endLine := node.endLine
        visibility := memberVisibility node nameNode
        modifiers := modifiers } []
    :: (match node.field? "type" with
        | some typeNode =>
          (referAll .associates (typeNode.namesOfKind typeNameKinds)
            typeNode.startLine).map .refer
        | none => [])
    ++ referencesIn file value
  match value with
  | some function =>
    if functionValueKinds.contains function.kind then
      [.declare
        { name := name
          kind := .method
          startLine := node.startLine
          endLine := node.endLine
          visibility := memberVisibility node nameNode
          modifiers := modifiers ++ (if function.hasToken "async" then ["async"] else [])
          metadata :=
            documented (place.documentation? "///") ++ withParameters (parametersOf function) }
        (references file function)]
    else
      variableOutlines
  | none => variableOutlines

/-- One member of a class, with the decorators that stand before it. -/
def member (file : SourceFile) (pending : List String) (place : Place) : List Outline :=
  let decorators := pending ++ decoratorsOf place.node
  if ["method_definition", "method_signature", "abstract_method_signature"].contains
      place.node.kind then
    method file decorators place
  else if ["public_field_definition", "field_definition"].contains place.node.kind then
    classField file decorators place
  else if place.node.kind = "comment" then
    []
  else
    references file place.node

/-- The members of a class; decorators are kept for the member after them. -/
def members (file : SourceFile) (pending : List String) : List Place → List Outline
  | [] => []
  | place :: rest =>
    if place.node.kind = "decorator" then
      members file (pending ++ [decoratorName place.node.text]) rest
    else
      member file pending place ++ members file [] rest

/-- The references that the head of a class makes. -/
def heritage (node : Node) : List Outline :=
  match node.firstOf? ["class_heritage"] with
  | none => []
  | some heritage => heritage.named.flatMap fun clause =>
    let refer (kind : ReferenceKind) (base : Node) : Outline :=
      .refer ⟨kind, stripGenerics base.text, base.startLine⟩
    if clause.kind = "extends_clause" then
      (clause.named.filter fun base => heritageKinds.contains base.kind).map (refer .inherits)
    else if clause.kind = "implements_clause" then
      clause.named.map (refer .implements)
    else if heritageKinds.contains clause.kind then
      [refer .inherits clause]
    else
      []

/-- A class. -/
def classOutline (file : SourceFile) (surroundings : Surroundings) (name : Option String)
    (place : Place) : Outline :=
  let node := place.node
  .declare
    { name := ((node.fieldText? "name").or name).getD "default"
      kind := .classType
      startLine := node.startLine
      endLine := node.endLine
      visibility := surroundings.visibility
      modifiers := surroundings.decorators ++ decoratorsOf node ++ surroundings.exportMark
        ++ (if node.kind = "abstract_class_declaration" then ["abstract"] else [])
      metadata := documented (place.documentation? "///") }
    (heritage node ++ ((place.field? "body").map fun body => members file [] body.named).getD [])

/-- A function. -/
def functionOutline (file : SourceFile) (surroundings : Surroundings) (name : Option String)
    (place : Place) : Outline :=
  let node := place.node
  .declare
    { name := ((node.fieldText? "name").or name).getD "default"
      kind := .function
      startLine := node.startLine
      endLine := node.endLine
      visibility := surroundings.visibility
      modifiers := surroundings.decorators ++ surroundings.exportMark
        ++ (if node.hasToken "async" then ["async"] else [])
        ++ (if Text.startsWith node.kind "generator" then ["generator"] else [])
      metadata := documented (place.documentation? "///") ++ withParameters (parametersOf node) }
    (referencesIn file (node.field? "body"))

/-- An interface. -/
def interfaceOutline (surroundings : Surroundings) (place : Place) : Outline :=
  let node := place.node
  let bases := match node.firstOf? ["extends_type_clause", "extends_clause"] with
    | some clause => clause.named
    | none => []
  .declare
    { name := (node.fieldText? "name").getD "default"
      kind := .interface
      startLine := node.startLine
      endLine := node.endLine
      visibility := surroundings.visibility
      modifiers := surroundings.exportMark
      metadata := documented (place.documentation? "///") }
    (bases.map fun base => .refer ⟨.inherits, stripGenerics base.text, base.startLine⟩)

/-- An enumeration. -/
def enumOutline (surroundings : Surroundings) (node : Node) : Outline :=
  .declare
    { name := (node.fieldText? "name").getD "default"
      kind := .enumeration
      startLine := node.startLine
      endLine := node.endLine
      visibility := surroundings.visibility
      modifiers := surroundings.exportMark } []

/-- One declarator of a variable declaration. -/
def declarator (file : SourceFile) (surroundings : Surroundings) (isConst : Bool) (place : Place) :
    List Outline :=
  let node := place.node
  let name := present? ((node.field? "name").bind fun found =>
    if found.kind = "identifier" then some found.text else none)
  let value := place.field? "value"
  match name with
  | none => referencesIn file (value.map (·.node))
  | some name =>
    let mark := surroundings.exportMark ++ (if isConst then ["const"] else [])
    let plain (body : List Outline) : Outline := .declare
      { name := name
        kind := .variableItem
        startLine := node.startLine
        endLine := node.endLine
        visibility := surroundings.visibility
        modifiers := mark } body
    match value with
    | none => [plain []]
    | some value =>
      if functionValueKinds.contains value.node.kind then
        [functionOutline file surroundings (some name) value]
      else if value.node.kind = "class" then
        [classOutline file surroundings (some name) value]
      else
        match requireSpecifier? value.node with
        | some specifier =>
          [plain [], importOf file specifier value.node, .bind name (targetOf file specifier)]
        | none => [plain (references file value.node)]

/-- A variable declaration. -/
def variableOutlines (file : SourceFile) (surroundings : Surroundings) (place : Place) :
    List Outline :=
  let isConst := (place.node.children.head?.map Node.text) = some "const"
  (place.named.filter (·.node.kind = "variable_declarator")).flatMap
    (declarator file surroundings isConst)

/-- What an export statement exports: its declaration, else its first named child that is neither a
decorator nor a comment. -/
def exported? (place : Place) : Option Place :=
  match place.field? "declaration" with
  | some declaration => some declaration
  | none => place.named.find? fun child =>
    child.node.kind ≠ "decorator" && child.node.kind ≠ "comment"

theorem size_lt_of_exported? {place child : Place} (h : exported? place = some child) :
    child.node.size < place.node.size := by
  unfold exported? at h
  split at h
  · next declaration hfield =>
    cases h
    exact Place.size_lt_of_field? hfield
  · exact Place.size_lt_of_mem_named (List.mem_of_find?_eq_some h)

mutual

/-- A statement. -/
def statement (file : SourceFile) (surroundings : Surroundings) (place : Place) : List Outline :=
  let node := place.node
  match node.kind with
  | "export_statement" => exportStatement file place
  | "import_statement" => importStatement file node
  | "class_declaration" | "abstract_class_declaration" =>
    [classOutline file surroundings none place]
  | "function_declaration" | "generator_function_declaration" =>
    [functionOutline file surroundings none place]
  | "interface_declaration" => [interfaceOutline surroundings place]
  | "enum_declaration" => [enumOutline surroundings node]
  | "lexical_declaration" | "variable_declaration" => variableOutlines file surroundings place
  | "internal_module" | "module" => namespaceOutline file surroundings place
  | "expression_statement" =>
    match h : place.named.head? with
    | some inner =>
      have : inner.node.size < place.node.size :=
        Place.size_lt_of_mem_named (List.mem_of_head? h)
      if inner.node.kind = "internal_module" then namespaceOutline file surroundings inner
      else references file node
    | none => references file node
  | "ambient_declaration" | "ERROR" =>
    place.named.attach.flatMap fun ⟨child, hchild⟩ =>
      have : child.node.size < place.node.size := Place.size_lt_of_mem_named hchild
      statement file surroundings child
  | "type_alias_declaration" | "comment" => []
  | _ => references file node
termination_by (place.node.size, 1)

/-- An export statement. An exported expression refers on behalf of the file. -/
def exportStatement (file : SourceFile) (place : Place) : List Outline :=
  let node := place.node
  match node.field? "source" with
  | some source => reexport file node source
  | none =>
    match h : exported? place with
    | none => []
    | some declaration =>
      have : declaration.node.size < place.node.size := size_lt_of_exported? h
      let kind := declaration.node.kind
      if kind = "identifier" ∨ kind = "export_clause" then
        []
      else if classKinds.contains kind || Text.endsWith kind "declaration"
          || kind == "internal_module" then
        statement file { exported := true, decorators := decoratorsOf node } declaration
      else
        referencesWith file .referFile declaration.node
termination_by (place.node.size, 0)

/-- A namespace. One that is named by a string describes another package and is left out. -/
def namespaceOutline (file : SourceFile) (surroundings : Surroundings) (place : Place) :
    List Outline :=
  let node := place.node
  match node.field? "name" with
  | none => []
  | some nameNode =>
    if nameNode.kind = "string" then
      []
    else
      let body := match h : place.field? "body" with
        | none => []
        | some body =>
          have hbody : body.node.size < place.node.size := Place.size_lt_of_field? h
          body.named.attach.flatMap fun ⟨child, hchild⟩ =>
            have : child.node.size < place.node.size :=
              Nat.lt_trans (Place.size_lt_of_mem_named hchild) hbody
            statement file {} child
      [.declare
        { name := nameNode.text
          kind := .namespaceItem
          startLine := node.startLine
          endLine := node.endLine
          visibility := surroundings.visibility
          modifiers := surroundings.exportMark } body]
termination_by (place.node.size, 0)

end

/-- The outline of a script file. -/
def outline (file : SourceFile) (root : Node) : List Outline :=
  (Place.ofRoot root).named.flatMap (statement file {})

end Script
end Extract
end CodeAtlas
