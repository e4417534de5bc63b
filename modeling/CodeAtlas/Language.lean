import CodeAtlas.Error
import CodeAtlas.Text.Path
import CodeAtlas.Text.Units

/-!
# Languages by file extension

A language map gives each language its file extensions. A registry is built from a map that names
only supported languages, whose extensions are well formed, and in which no two languages share one.
-/

namespace CodeAtlas

/-- Languages with their extensions, in written order. -/
abbrev LanguageMap := List (String × List String)

namespace LanguageMap

/-- The languages known without configuration. -/
def standard : LanguageMap :=
  [("typescript", [".ts", ".mts", ".cts"]), ("tsx", [".tsx"]),
   ("javascript", [".js", ".jsx", ".mjs", ".cjs"]), ("python", [".py", ".pyi"]), ("go", [".go"]),
   ("java", [".java"]), ("rust", [".rs"])]

end LanguageMap

namespace Language

/-- The languages for which there is an extractor. -/
def supported : List String :=
  ["typescript", "tsx", "javascript", "python", "go", "java", "rust"]

end Language

/-- The language of each extension. -/
structure LanguageRegistry where
  /-- Extensions in lower case with their languages, in the order they were entered. -/
  entries : List (String × String)

namespace LanguageRegistry

/-- The lower case of a character that may occur in an extension. Apart from the ASCII letters only
the Kelvin sign falls onto such a character. -/
def lowerChar (char : Char) : Char :=
  if char.toNat = 0x212A then 'k' else char.toLower

/-- An extension in lower case. -/
def lower (extension : String) : String :=
  String.ofList (extension.toList.map lowerChar)

/-- A character allowed after the dot of an extension. -/
def isExtensionChar (char : Char) : Bool :=
  char.isLower || char.isDigit || char == '_' || char == '+' || char == '-'

/-- Whether a lower-case extension is a dot with at least one allowed character after it. -/
def isWellFormed (extension : String) : Bool :=
  match extension.toList with
  | '.' :: rest => !rest.isEmpty && rest.all isExtensionChar
  | _ => false

/-- What is wrong with a language map. -/
inductive Issue where
  /-- There is no extractor for the language. -/
  | unsupported (language : String)
  /-- The extension is not well formed. -/
  | malformed (language extension : String)
  /-- The extension belongs to a language named before. -/
  | taken (language extension holder : String)
  deriving DecidableEq, Repr

/-- What a reader is told about an issue. -/
def Issue.message : Issue → String
  | unsupported language => s!"languages.{language}: no extractor for this language"
  | malformed language extension => s!"languages.{language}: invalid extension \"{extension}\""
  | taken language extension holder =>
    s!"languages.{language}: extension {extension} already mapped to {holder}"

/-- The language of an extension. -/
def find? (registry : LanguageRegistry) (extension : String) : Option String :=
  (registry.entries.find? (·.1 = extension)).map (·.2)

/-- Enters an extension of a language, or records the issue with it. -/
def enter (language : String) (state : LanguageRegistry × List Issue) (raw : String) :
    LanguageRegistry × List Issue :=
  let (registry, issues) := state
  let extension := lower raw
  if isWellFormed extension then
    match registry.find? extension with
    | some holder =>
      if holder = language then state
      else (registry, issues ++ [.taken language extension holder])
    | none => (⟨registry.entries ++ [(extension, language)]⟩, issues)
  else
    (registry, issues ++ [.malformed language raw])

/-- Enters a language with its extensions. -/
def enterLanguage (supported : List String) (state : LanguageRegistry × List Issue)
    (entry : String × List String) : LanguageRegistry × List Issue :=
  if supported.contains entry.1 then
    entry.2.foldl (enter entry.1) state
  else
    (state.1, state.2 ++ [.unsupported entry.1])

/-- Builds a registry, with the issues found in map order. -/
def build (map : LanguageMap) (supported : List String) : LanguageRegistry × List Issue :=
  map.foldl (enterLanguage supported) (⟨[]⟩, [])

/-- The registry of a map without issues. -/
def create (map : LanguageMap) (supported : List String) : Except AnalysisError LanguageRegistry :=
  match build map supported with
  | (registry, []) => .ok registry
  | (_, issues) => .error (.configuration "Invalid language map" (issues.map Issue.message))

/-- The language of a file. -/
def detect (registry : LanguageRegistry) (path : String) : Option String :=
  registry.find? (lower (Path.extension path))

/-- The languages of a registry, sorted. -/
def languages (registry : LanguageRegistry) : List String :=
  Text.sort (registry.entries.map (·.2)).eraseDups

end LanguageRegistry
end CodeAtlas
