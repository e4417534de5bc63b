import CodeAtlas.Collector
import CodeAtlas.SyntaxTree.Place
import CodeAtlas.SyntaxTree.Traversal

/-!
# Names in source text

How the readers of the different languages cut names out of source text, and the facts that they
record about every declaration.
-/

namespace CodeAtlas
namespace Extract

open SyntaxTree (Node Place)

/-- The file that is being read. -/
structure SourceFile where
  /-- The path, relative to the root of the code base. -/
  path : String
  /-- The language. -/
  language : String
  /-- The module name. -/
  moduleName : String

/-- A quote of any kind. -/
def isQuote (char : Char) : Bool :=
  char == '"' || char == '\'' || char == '\x60'

/-- A text without the quotes at its ends. -/
def unquote (text : String) : String :=
  let opened := text.toList.dropWhile isQuote
  String.ofList (opened.reverse.dropWhile isQuote).reverse

/-- A type name without its arguments and without blanks. -/
def stripGenerics (text : String) : String :=
  String.ofList ((text.toList.takeWhile (· ≠ '<')).filter fun char => !Text.isBlank char)

/-- A target without the word for the current object in front. -/
def stripReceiver (target : String) : String :=
  let beginnings := ["this.", "self.", "cls.", "super."]
  let rests := beginnings.filterMap fun beginning =>
    Text.dropBeginning? beginning.toList target.toList
  match rests with
  | rest :: _ => String.ofList rest
  | [] => target

/-- The name of a decorator: an at sign and the text up to its arguments. -/
def decoratorName (text : String) : String :=
  let trimmed := Text.trimChars text.toList
  let bare := match trimmed with
    | '@' :: rest => rest.dropWhile Text.isBlank
    | chars => chars
  "@" ++ String.ofList (bare.takeWhile fun char => !(Text.isBlank char || char == '('))

/-- The names of the decorators among the children of a node. -/
def decoratorsOf (node : Node) : List String :=
  (node.named.filter (·.kind = "decorator")).map fun child => decoratorName child.text

/-- Whether a name starts with an ASCII capital. -/
def isCapitalized (name : String) : Bool :=
  match name.toList with
  | first :: _ => first.isUpper
  | [] => false

/-- Whether a text is made of letters, digits, underscores and dots only. -/
def isDottedName (text : String) : Bool :=
  text ≠ "" && text.toList.all fun char => char.isAlphanum || char == '_' || char == '.'

/-- A path with a dot for every pair of colons. -/
def dotColons (path : String) : String :=
  Text.join "." ((Text.splitPairs ':' path.toList).map String.ofList)

/-- A text that is present and not empty. -/
def present? : Option String → Option String
  | some text => if text = "" then none else some text
  | none => none

/-- The names that one declared parameter stands for. -/
def parameterName (parameter : Node) : List String :=
  if Text.contains parameter.kind "comment" then
    []
  else if parameter.kind = "identifier" ∨ parameter.kind = "self" then
    [parameter.text]
  else if parameter.kind = "self_parameter" then
    ["self"]
  else
    match parameter.fields "name" with
    | first :: second :: rest => (first :: second :: rest).map Node.text
    | _ =>
      ((((parameter.field? "pattern").or (parameter.field? "name")).or
        (parameter.field? "left")).or (parameter.firstOf? ["identifier"])).toList.map Node.text

/-- The declared parameter names of a parameter list, in order. -/
def parameterNames (list : Option Node) : List String :=
  match list with
  | some list => list.named.flatMap parameterName
  | none => []

/-- The documentation of a declaration as a recorded fact. -/
def documented (documentation : Option String) : List (String × Json) :=
  documentation.toList.map fun text => ("docstring", .str text)

/-- Parameter names as a recorded fact. -/
def withParameters (names : List String) : List (String × Json) :=
  [("parameters", .texts names)]

/-- The references of one kind to each of the given targets. -/
def referAll (kind : ReferenceKind) (targets : List String) (line : Nat) : List Reference :=
  targets.map fun target => ⟨kind, target, line⟩

end Extract
end CodeAtlas
