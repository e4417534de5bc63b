import CodeAtlas.Extract.Names
import CodeAtlas.ModulePath
import CodeAtlas.Outline

/-!
# Outlines of Rust files

Paths are brought to dotted names relative to the crate. The types of a module are read before its
other items, so that an `impl` block finds its type wherever the module declares it.
-/

namespace CodeAtlas
namespace Extract
namespace Rust

open SyntaxTree (Node Place)

/-- The kinds of items that declare a type. -/
def typeItems : List String := ["struct_item", "enum_item", "trait_item"]

/-- The types that every module knows. -/
def preludeTypes : List String :=
  ["String", "Vec", "Option", "Result", "Box", "Rc", "Arc", "HashMap", "HashSet", "BTreeMap",
   "Self"]

/-- Who may use an item. -/
def visibilityOf (node : Node) : Visibility :=
  match present? ((node.firstOf? ["visibility_modifier"]).map Node.text) with
  | none => .owner
  | some modifier => if modifier = "pub" then .everyone else .neighbours

/-- A path that a `use` declaration brings in, with its alias. A wildcard binds no name. -/
structure UseLeaf where
  /-- The path as written, with those around it. -/
  path : String
  /-- What the path is called from now on. -/
  newName : Option String
  deriving DecidableEq, Repr

/-- The paths of a use tree below a given beginning. -/
def expandUse (beginning : String) (node : Node) : List UseLeaf :=
  match node.kind with
  | "scoped_identifier" | "identifier" | "crate" | "self" | "super" =>
    [⟨beginning ++ node.text, none⟩]
  | "use_as_clause" =>
    (present? (node.fieldText? "path")).toList.map fun path =>
      ⟨beginning ++ path, present? (node.fieldText? "alias")⟩
  | "use_wildcard" =>
    (node.firstOf? ["scoped_identifier", "identifier", "crate", "self", "super"]).toList.map
      fun path => ⟨beginning ++ path.text, some "*"⟩
  | "scoped_use_list" =>
    match h : node.field? "list" with
    | some list =>
      have : list.size < node.size := Node.size_lt_of_field? h
      expandUse (match present? (node.fieldText? "path") with
        | some path => beginning ++ path ++ "::"
        | none => beginning) list
    | none => []
  | "use_list" =>
    node.named.attach.flatMap fun ⟨child, hchild⟩ =>
      have : child.size < node.size := Node.size_lt_of_mem_named hchild
      expandUse beginning child
  | _ => []
termination_by node.size

/-- The import of one path. -/
def importLeaf (file : SourceFile) (node : Node) (leaf : UseLeaf) : List Outline :=
  let target := ModulePath.normalizeColons leaf.path file.moduleName
  if target = "" then
    []
  else
    let imported := Outline.importModule
      { name := leaf.path
        kind := .importItem
        startLine := node.startLine
        endLine := node.endLine
        visibility := .owner
        qualifiedName := some (file.moduleName ++ ":import:" ++ leaf.path)
        metadata := [("target", .str target)] }
      target node.startLine
    imported :: (if leaf.newName = some "*" then []
      else [.bind (leaf.newName.getD (Text.lastPiece '.' target)) target])

/-- The imports of a `use` declaration. -/
def useOutlines (file : SourceFile) (node : Node) : List Outline :=
  match node.field? "argument" with
  | some argument => (expandUse "" argument).flatMap (importLeaf file node)
  | none => []

/-- The type names of a node, without those that every module knows. -/
def typeNames (node : Node) : List String :=
  let found := node.visitTree (fun (names : Array String) found =>
    if found.kind = "type_identifier" then (names.push found.text, false)
    else if found.kind = "scoped_type_identifier" then (names.push (dotColons found.text), false)
    else (names, true)) #[]
  found.toList.filter fun name => !preludeTypes.contains name

/-- The dotted name of what is called. -/
def callTarget? (file : SourceFile) (callee : Node) : Option String :=
  match callee.kind with
  | "identifier" => some callee.text
  | "scoped_identifier" =>
    some (ModulePath.normalizeColons (stripGenerics callee.text) file.moduleName)
  | "field_expression" =>
    match present? (callee.fieldText? "field") with
    | none => none
    | some member =>
      match callee.field? "value" with
      | some value =>
        if isDottedName value.text then some (stripReceiver (value.text ++ "." ++ member))
        else some member
      | none => some member
  | "generic_function" =>
    match h : callee.field? "function" with
    | some function =>
      have : function.size < callee.size := Node.size_lt_of_field? h
      callTarget? file function
    | none => none
  | _ => none
termination_by callee.size

/-- What one node of an expression refers to. -/
def referenceAt (file : SourceFile) (found : Array Outline) (node : Node) : Array Outline × Bool :=
  let next := if node.kind = "call_expression" then
      match present? ((node.field? "function").bind (callTarget? file)) with
      | some target =>
        if target = "self" then found
        else found.push (.refer ⟨.calls, target, node.startLine⟩)
      | none => found
    else if node.kind = "struct_expression" then
      match present? (node.fieldText? "name") with
      | some name => found.push (.refer ⟨.uses, dotColons (stripGenerics name), node.startLine⟩)
      | none => found
    else
      found
  (next, true)

/-- What a node and everything below it refers to. -/
def references (file : SourceFile) (node : Node) : List Outline :=
  (node.visitTree (referenceAt file) #[]).toList

/-- The references inside a child, if there is one. -/
def referencesIn (file : SourceFile) (node : Option Node) : List Outline :=
  (node.map (references file)).getD []

/-- The facts recorded about a function. -/
def functionFacts (place : Place) : List (String × Json) :=
  documented (place.documentation? "///")
    ++ withParameters (parameterNames (place.node.field? "parameters"))

/-- A function or method. -/
def functionOutline (file : SourceFile) (kind : ElementKind) (place : Place) : Outline :=
  let node := place.node
  let qualifiers := match node.firstOf? ["function_modifiers"] with
    | some list => list.children.map Node.kind
    | none => []
  .declare
    { name := (node.fieldText? "name").getD "anonymous"
      kind := kind
      startLine := node.startLine
      endLine := node.endLine
      visibility := visibilityOf node
      modifiers := qualifiers
      metadata := functionFacts place }
    (referencesIn file (node.field? "body"))

/-- A structure, enumeration or trait. -/
def typeItem (file : SourceFile) (place : Place) : List Outline :=
  let node := place.node
  match present? (node.fieldText? "name") with
  | none => []
  | some name =>
    let kind := if node.kind = "struct_item" then ElementKind.structType
      else if node.kind = "enum_item" then .enumeration else .interface
    let contents := match place.field? "body" with
      | none => []
      | some body =>
        let members := if node.kind = "struct_item" then
            (referAll .associates (typeNames body.node) body.node.startLine).map Outline.refer
          else if node.kind = "trait_item" then
            (body.named.filter fun member => member.node.kind = "function_item"
              || member.node.kind = "function_signature_item").map (functionOutline file .method)
          else
            []
        let bounds := match node.field? "bounds" with
          | some bounds =>
            (referAll .inherits (typeNames bounds) bounds.startLine).map Outline.refer
          | none => []
        members ++ bounds
    [.declare
      { name := name
        kind := kind
        startLine := node.startLine
        endLine := node.endLine
        visibility := visibilityOf node
        metadata := documented (place.documentation? "///") }
      contents]

/-- A method of a type that the module does not declare. -/
def foreignMethod (file : SourceFile) (scope typeName : String) (place : Place) : Outline :=
  let node := place.node
  let name := (node.fieldText? "name").getD "anonymous"
  .declare
    { name := name
      kind := .method
      startLine := node.startLine
      endLine := node.endLine
      visibility := visibilityOf node
      qualifiedName := some (scope ++ "." ++ typeName ++ "." ++ name)
      metadata := functionFacts place ++ [("implFor", .str typeName)] }
    (referencesIn file (node.field? "body"))

/-- An `impl` block: its methods belong to its type if the module declares the type. -/
def implOutlines (file : SourceFile) (scope : String) (place : Place) : List Outline :=
  match place.node.field? "type" with
  | none => []
  | some typeNode =>
    let typeName := stripGenerics typeNode.text
    let traits := (place.node.field? "trait").toList.map fun node =>
      Reference.mk .implements (dotColons (stripGenerics node.text)) node.startLine
    let methods : List Place := match place.field? "body" with
      | some body => body.named.filter fun member => member.node.kind = "function_item"
      | none => []
    [.about (scope ++ "." ++ typeName) [.structType, .enumeration]
      (traits.map .refer ++ methods.map (functionOutline file .method))
      (traits.map .referFile ++ methods.map (foreignMethod file scope typeName))]

/-- The module that a module declaration without a body loads. -/
def loadedModule (file : SourceFile) (name : String) : String :=
  if ModulePath.isIndex file.path file.language
      && (Text.split '.' file.moduleName).length ≤ 1 then
    name
  else
    file.moduleName ++ "." ++ name

/-- A constant or static item. -/
def valueItem (file : SourceFile) (node : Node) : List Outline :=
  (present? (node.fieldText? "name")).toList.map fun name =>
    .declare
      { name := name
        kind := .variableItem
        startLine := node.startLine
        endLine := node.endLine
        visibility := visibilityOf node
        modifiers := [if node.kind = "const_item" then "const" else "static"] }
      (referencesIn file (node.field? "value"))

/-- The items of a container; those inside a malformed stretch count as its own. -/
def itemsOf (place : Place) : List Place :=
  place.named.flatMap fun item => if item.node.kind = "ERROR" then item.named else [item]

theorem size_lt_of_mem_itemsOf {place item : Place} (h : item ∈ itemsOf place) :
    item.node.size < place.node.size := by
  obtain ⟨child, hchild, hitem⟩ := List.mem_flatMap.1 h
  have hsize := Place.size_lt_of_mem_named hchild
  split at hitem
  · exact Nat.lt_trans (Place.size_lt_of_mem_named hitem) hsize
  · rw [List.mem_singleton.1 hitem]
    exact hsize

/-- The items of a module: types first. -/
def items (file : SourceFile) (scope : String) (place : Place) : List Outline :=
  let types := (itemsOf place).filter fun item => typeItems.contains item.node.kind
  types.flatMap (typeItem file) ++ (itemsOf place).attach.flatMap fun ⟨item, hitem⟩ =>
    have hsize : item.node.size < place.node.size := size_lt_of_mem_itemsOf hitem
    let node := item.node
    match node.kind with
    | "use_declaration" => useOutlines file node
    | "function_item" => [functionOutline file .function item]
    | "impl_item" => implOutlines file scope item
    | "mod_item" =>
      match present? (node.fieldText? "name") with
      | none => []
      | some name =>
        match h : item.field? "body" with
        | none => [.referFile ⟨.dependsOn, loadedModule file name, node.startLine⟩]
        | some body =>
          have : body.node.size < place.node.size :=
            Nat.lt_trans (Place.size_lt_of_field? h) hsize
          [.declare
            { name := name
              kind := .namespaceItem
              startLine := node.startLine
              endLine := node.endLine
              visibility := visibilityOf node }
            (items file (scope ++ "." ++ name) body)]
    | "const_item" | "static_item" => valueItem file node
    | _ => []
termination_by place.node.size

/-- The outline of a Rust file. -/
def outline (file : SourceFile) (root : Node) : List Outline :=
  items file file.moduleName (Place.ofRoot root)

end Rust
end Extract
end CodeAtlas
