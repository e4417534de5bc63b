import CodeAtlas.Extract.Names
import CodeAtlas.ModulePath
import CodeAtlas.Outline

/-!
# Outlines of Python files

Classes and functions at module level and inside class bodies become elements. Imports count
wherever they stand. The parameter types of `__init__` and the annotated attributes of a class are
associations of the class.
-/

namespace CodeAtlas
namespace Extract
namespace Python

open SyntaxTree (Node)

/-- Where a statement stands. -/
inductive Scope where
  /-- In the module. -/
  | module
  /-- In the body of a class. -/
  | classBody
  deriving DecidableEq, Repr

/-- The kinds of nodes that name a type or a base class. -/
def nameKinds : List String := ["identifier", "attribute"]

/-- Who may use a name, by its underscores. -/
def visibilityOf (name : String) : Visibility :=
  if Text.startsWith name "__" && Text.endsWith name "__" then .everyone
  else if Text.startsWith name "__" then .owner
  else if Text.startsWith name "_" then .heirs
  else .everyone

/-- The import of a module. -/
def importOf (file : SourceFile) (target : String) (node : Node) : Outline :=
  .importModule
    { name := target
      kind := .importItem
      startLine := node.startLine
      endLine := node.endLine
      visibility := .owner
      qualifiedName := some (file.moduleName ++ ":import:" ++ target)
      metadata := [("target", .str target)] }
    target node.startLine

/-- The module that a relative import names. -/
def relativeTarget (file : SourceFile) (node : Node) : String :=
  let textOf (kind : String) : Option String :=
    (node.named.find? fun child => child.kind = kind).map Node.text
  ModulePath.resolveRelative file.moduleName (ModulePath.isIndex file.path file.language)
    (Text.unitLength ((textOf "import_prefix").getD ".")) ((textOf "dotted_name").getD "")

/-- The dotted name of an imported item and its alias. -/
def importedItem? (item : Node) : Option (String × Option String) :=
  if item.kind = "aliased_import" then
    (item.field? "name").bind fun name =>
      if name.kind = "dotted_name" then some (name.text, item.fieldText? "alias") else none
  else if item.kind = "dotted_name" then
    some (item.text, none)
  else
    none

/-- The imports and bindings of an import statement. -/
def importOutlines (file : SourceFile) (node : Node) : List Outline :=
  if node.kind = "import_statement" then
    node.named.flatMap fun item =>
      match importedItem? item with
      | none => []
      | some (name, given) =>
        importOf file name node :: (present? given).toList.map fun given => .bind given name
  else
    match node.field? "module_name" with
    | none => []
    | some moduleNode =>
      let target := if moduleNode.kind = "relative_import" then relativeTarget file moduleNode
        else moduleNode.text
      let others := node.named.filter fun item => item.label.offset ≠ moduleNode.label.offset
      importOf file target node :: others.flatMap fun item =>
        match importedItem? item with
        | none => []
        | some (name, given) =>
          let local' := given.getD ((Text.split '.' name).headD name)
          [.bind local' (if target = "" then name else target ++ "." ++ name)]

/-- Whether an expression is a chain of attributes of a name. -/
def isDottedChain (node : Node) : Bool :=
  if node.kind = "identifier" then
    true
  else if node.kind = "attribute" then
    match h : node.field? "object" with
    | some object =>
      have : object.size < node.size := Node.size_lt_of_field? h
      isDottedChain object
    | none => false
  else
    false
termination_by node.size

/-- What one node of an expression refers to, and whether to look below it. -/
def referenceAt (file : SourceFile) (found : Array Outline) (node : Node) : Array Outline × Bool :=
  if node.kind = "import_statement" ∨ node.kind = "import_from_statement" then
    (found ++ importOutlines file node, false)
  else if node.kind = "call" then
    match node.field? "function" with
    | none => (found, true)
    | some callee =>
      if callee.kind = "identifier" then
        (found.push (.refer ⟨.calls, callee.text, node.startLine⟩), true)
      else if callee.kind = "attribute" then
        let target := if isDottedChain callee then some callee.text
          else callee.fieldText? "attribute"
        match present? target with
        | some target => (found.push (.refer ⟨.calls, stripReceiver target, node.startLine⟩), true)
        | none => (found, true)
      else
        (found, true)
  else
    (found, true)

/-- What a node and everything below it refers to. -/
def references (file : SourceFile) (node : Node) : List Outline :=
  (node.visitTree (referenceAt file) #[]).toList

/-- The references inside a child, if there is one. -/
def referencesIn (file : SourceFile) (node : Option Node) : List Outline :=
  (node.map (references file)).getD []

/-- A letter that may stand before the quotes of a string. -/
def isStringMark (char : Char) : Bool :=
  ['r', 'R', 'u', 'U', 'b', 'B', 'f', 'F'].contains char

/-- The quotes of a string, the long ones first. -/
def quotes : List (List Char) :=
  [['"', '"', '"'], ['\'', '\'', '\''], ['"'], ['\'']]

/-- Drops the first quotes that open a text. -/
def dropQuotes? (chars : List Char) : Option (List Char) :=
  (quotes.filterMap fun quote => Text.dropBeginning? quote chars).head?

/-- The text of a string literal without its marks and quotes. -/
def literalText (literal : String) : List Char :=
  let chars := literal.toList
  let opened := (dropQuotes? (chars.dropWhile isStringMark)).getD chars
  match dropQuotes? opened.reverse with
  | some rest => rest.reverse
  | none => opened

/-- The string that opens the body of a class or function, its lines trimmed. -/
def docstring? (node : Node) : Option String := do
  let body ← node.field? "body"
  let first ← body.named.head?
  guard (first.kind = "expression_statement")
  let literal ← first.named.head?
  guard (literal.kind = "string")
  let lines := (Text.splitChars '\n' (literalText literal.text)).map fun line =>
    String.ofList (Text.trimChars line)
  SyntaxTree.Place.nonEmpty? (Text.trim (Text.join "\n" lines))

/-- A function, or a method inside a class. -/
def functionOutline (file : SourceFile) (scope : Scope) (decorators : List String) (node : Node) :
    List Outline :=
  let name := (node.fieldText? "name").getD "anonymous"
  let isInit := scope = .classBody ∧ name = "__init__"
  let modifiers := decorators ++ (if node.hasToken "async" then ["async"] else [])
  let typed := match node.field? "parameters" with
    | none => []
    | some parameters => parameters.named.flatMap fun parameter =>
      match parameter.field? "type" with
      | none => []
      | some typeNode =>
        (referAll (if isInit then .associates else .uses) (typeNode.namesOfKind nameKinds)
          typeNode.startLine).map Outline.refer
  let declared := Outline.declare
    { name := name
      kind := if scope = .classBody then .method else .function
      startLine := node.startLine
      endLine := node.endLine
      visibility := visibilityOf name
      modifiers := modifiers ++ (if modifiers.contains "@staticmethod" then ["static"] else [])
      metadata :=
        documented (docstring? node) ++ withParameters (parameterNames (node.field? "parameters")) }
    ((if isInit then [] else typed) ++ referencesIn file (node.field? "body"))
  declared :: (if isInit then typed else [])

/-- Whether a name is written like a constant. -/
def isConstantName (name : String) : Bool :=
  match name.toList with
  | first :: rest => first.isUpper && rest.all fun char =>
    char.isUpper || char.isDigit || char == '_'
  | [] => false

/-- An assignment. -/
def assignment (file : SourceFile) (scope : Scope) (node : Node) : List Outline :=
  let declared := match node.field? "left" with
    | some left =>
      if left.kind = "identifier" then
        [Outline.declare
          { name := left.text
            kind := .variableItem
            startLine := node.startLine
            endLine := node.endLine
            visibility := visibilityOf left.text
            modifiers := if isConstantName left.text then ["const"] else [] } []]
      else
        []
    | none => []
  let typed := match node.field? "type" with
    | some typeNode =>
      if scope = .classBody then
        (referAll .associates (typeNode.namesOfKind nameKinds) typeNode.startLine).map Outline.refer
      else
        []
    | none => []
  declared ++ typed ++ referencesIn file (node.field? "right")

/-- The base classes that a class names. -/
def bases (node : Node) : List Outline :=
  match node.field? "superclasses" with
  | none => []
  | some list => list.named.flatMap fun base =>
    if nameKinds.contains base.kind then
      [.refer ⟨.inherits, base.text, base.startLine⟩]
    else if base.kind = "subscript" then
      (present? (base.fieldText? "value")).toList.map fun value =>
        .refer ⟨.inherits, value, base.startLine⟩
    else
      []

mutual

/-- A statement. -/
def statement (file : SourceFile) (scope : Scope) (decorators : List String) (node : Node) :
    List Outline :=
  match node.kind with
  | "import_statement" | "import_from_statement" => importOutlines file node
  | "class_definition" => classOutline file decorators node
  | "function_definition" => functionOutline file scope decorators node
  | "decorated_definition" =>
    match h : node.field? "definition" with
    | some definition =>
      have : definition.size < node.size := Node.size_lt_of_field? h
      statement file scope (decoratorsOf node) definition
    | none => []
  | "expression_statement" =>
    match node.named.head? with
    | some inner =>
      if inner.kind = "assignment" then assignment file scope inner else references file node
    | none => references file node
  | "ERROR" =>
    node.named.attach.flatMap fun ⟨child, hchild⟩ =>
      have : child.size < node.size := Node.size_lt_of_mem_named hchild
      statement file scope [] child
  | "comment" => []
  | _ => references file node
termination_by (node.size, 1)

/-- A class. -/
def classOutline (file : SourceFile) (decorators : List String) (node : Node) : List Outline :=
  let name := (node.fieldText? "name").getD "anonymous"
  let body := match h : node.field? "body" with
    | none => []
    | some body =>
      have hbody : body.size < node.size := Node.size_lt_of_field? h
      body.named.attach.flatMap fun ⟨child, hchild⟩ =>
        have : child.size < node.size := Nat.lt_trans (Node.size_lt_of_mem_named hchild) hbody
        statement file .classBody [] child
  [.declare
    { name := name
      kind := .classType
      startLine := node.startLine
      endLine := node.endLine
      visibility := visibilityOf name
      modifiers := decorators
      metadata := documented (docstring? node) }
    (bases node ++ body)]
termination_by (node.size, 0)

end

/-- The outline of a Python file. -/
def outline (file : SourceFile) (root : Node) : List Outline :=
  root.named.flatMap (statement file .module [])

end Python
end Extract
end CodeAtlas
