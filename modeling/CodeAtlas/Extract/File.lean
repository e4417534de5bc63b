import CodeAtlas.Digest.Sha256
import CodeAtlas.Extract.Go
import CodeAtlas.Extract.Java
import CodeAtlas.Extract.Python
import CodeAtlas.Extract.Rust
import CodeAtlas.Extract.Script
import CodeAtlas.SyntaxTree.Issue

/-!
# The elements of a file

A file is read through the outline of its language. The result carries a fingerprint of the content,
by which an unchanged file is recognised later.
-/

namespace CodeAtlas

/-- What was found in one file. -/
structure FileExtraction where
  /-- The file, relative to the root of the code base. -/
  filePath : String
  /-- The language. -/
  language : String
  /-- The fingerprint of the content. -/
  contentHash : String
  /-- The elements, the file's own module first. -/
  elements : List Element
  /-- The malformed places. -/
  issues : List SyntaxTree.Issue

/-- A malformed place as a structured value. -/
def SyntaxTree.Issue.toJson (issue : SyntaxTree.Issue) : Json :=
  .obj [("line", .nat issue.line), ("column", .nat issue.column), ("message", .str issue.message)]

/-- What was found in a file as a structured value. -/
def FileExtraction.toJson (extraction : FileExtraction) : Json :=
  .obj
    [("filePath", .str extraction.filePath), ("language", .str extraction.language),
     ("contentHash", .str extraction.contentHash),
     ("elements", .arr (extraction.elements.map Element.toJson)),
     ("syntaxIssues", .arr (extraction.issues.map SyntaxTree.Issue.toJson))]

namespace Extract

/-- The fingerprint of a content. -/
def contentHash (source : String) : String :=
  Digest.sha256 source

/-- Why a file could not be extracted. -/
inductive Error where
  /-- There is no reader for the language. -/
  | unsupported (language filePath : String)
  /-- The parser gave up. -/
  | parser (message : String)
  /-- The collector refused a step. -/
  | collector (error : Collector.Error)

/-- What a reader is told. -/
def Error.message : Error → String
  | unsupported language filePath => s!"No extractor for language \"{language}\" ({filePath})"
  | parser message => message
  | collector error => error.message

/-- The reader of a language. -/
def outlineOf? (language : String) : Option (SourceFile → SyntaxTree.Node → List Outline) :=
  match language with
  | "typescript" | "tsx" | "javascript" => some Script.outline
  | "python" => some Python.outline
  | "go" => some Go.outline
  | "java" => some Java.outline
  | "rust" => some Rust.outline
  | _ => none

/-- The number of lines of a source. -/
def lineCount (source : String) : Nat :=
  source.toList.count '\n' + 1

/-- The elements that a syntax tree declares, in the order they are found. -/
def elementsOf (outline : SourceFile → SyntaxTree.Node → List Outline) (file : SourceFile)
    (lines : Nat) (root : SyntaxTree.Node) : Except Collector.Error (List Element) := do
  let collector := Collector.start file.path file.language file.moduleName lines
  let collector ← collector.recordFile (outline file root)
  pure collector.finish

/-- Extracts a file from the outcome of parsing it. -/
def extract (source filePath language : String) (parsed : Except String SyntaxTree.Node) :
    Except Error FileExtraction :=
  match outlineOf? language with
  | none => .error (.unsupported language filePath)
  | some outline =>
    match parsed with
    | .error message => .error (.parser message)
    | .ok root =>
      let file := ⟨filePath, language, ModulePath.nameOf filePath language⟩
      match elementsOf outline file (lineCount source) root with
      | .error error => .error (.collector error)
      | .ok elements =>
        .ok ⟨filePath, language, contentHash source, elements, root.issues⟩

end Extract
end CodeAtlas
