import CodeAtlas.Language
import CodeAtlas.Project.Workspace

/-!
# The outcome of a file

A file that takes part in a run is extracted, skipped or fails. What is skipped or fails leaves a
diagnostic that names the file.
-/

namespace CodeAtlas

/-- What became of one file. -/
structure FileOutcome where
  /-- The file, relative to the root. -/
  filePath : String
  /-- What was found in the file. -/
  extraction : Option FileExtraction := none
  /-- The problems with the file. -/
  diagnostics : List Diagnostic := []

namespace FileOutcome

/-- A file that was not looked at. -/
def untouched (filePath : String) : FileOutcome := { filePath := filePath }

/-- A file that was not started in time. -/
def late (filePath : String) : FileOutcome :=
  { filePath := filePath
    diagnostics :=
      [{ severity := .warning
         code := "time_budget"
         message := "Skipped: extraction time budget exhausted"
         filePath := some filePath }] }

/-- A file in no known language. -/
def unsupported (filePath : String) : FileOutcome :=
  { filePath := filePath
    diagnostics :=
      [{ severity := .info
         code := "unsupported_language"
         message := "Skipped: no extractor for this extension"
         filePath := some filePath }] }

/-- The reason behind a failure to read: the one it gives, else its whole message. -/
def reasonOf : AnalysisError → String
  | .fileAccess filePath reason =>
    reason.getD (AnalysisError.fileAccess filePath reason).message
  | error => error.message

/-- A file that could not be read. -/
def unreadable (filePath : String) (error : AnalysisError) : FileOutcome :=
  { filePath := filePath
    diagnostics :=
      [(AnalysisError.fileAccess filePath (some (reasonOf error))).diagnostic .warning] }

/-- A file that could not be extracted. -/
def failed (filePath : String) (error : Extract.Error) : FileOutcome :=
  { filePath := filePath
    diagnostics :=
      [(AnalysisError.parse filePath ("Extraction failed: " ++ error.message) none).diagnostic
        .error] }

/-- The diagnostic for the malformed places of a file, which stands at the first of them. -/
def issueDiagnostics (filePath : String) (extraction : FileExtraction) : List Diagnostic :=
  match extraction.issues with
  | [] => []
  | first :: rest =>
    let count := rest.length + 1
    let noun := if count = 1 then "error" else "errors"
    let found := extraction.elements.length
    [(AnalysisError.parse filePath s!"{count} syntax {noun}; recovered {found} elements"
      (some first.line)).diagnostic .warning]

/-- A file that was extracted. -/
def extracted (filePath : String) (extraction : FileExtraction) : FileOutcome :=
  { filePath := filePath
    extraction := some extraction
    diagnostics := issueDiagnostics filePath extraction }

/-- The outcome of a file as a structured value. -/
def toJson (outcome : FileOutcome) : Json :=
  Json.record
    [("filePath", some (.str outcome.filePath)),
     ("extraction", outcome.extraction.map FileExtraction.toJson),
     ("diagnostics", some (.arr (outcome.diagnostics.map Diagnostic.toJson)))]

end FileOutcome

/-- The part of a run that looks at files. -/
structure FileReader where
  /-- Where the files are. -/
  workspace : Workspace
  /-- The languages by extension. -/
  registry : LanguageRegistry
  /-- The root of the code base. -/
  root : String

namespace FileReader

/-- The language of a file; a language without a name does not count. -/
def language? (reader : FileReader) (filePath : String) : Option String :=
  (reader.registry.detect filePath).filter (· != "")

/-- The content of a file. -/
def content (reader : FileReader) (filePath : String) : Except AnalysisError String :=
  reader.workspace.read (Path.joinAll [reader.root, filePath])

/-- Whether a file gets as far as being extracted. -/
def isExtracted (reader : FileReader) (filePath : String) : Bool :=
  (reader.language? filePath).isSome && (reader.content filePath).toBool

/-- What becomes of a file that is looked at. -/
def outcome (reader : FileReader) (filePath : String) : FileOutcome :=
  match reader.language? filePath with
  | none => .unsupported filePath
  | some language =>
    match reader.content filePath with
    | .error error => .unreadable filePath error
    | .ok source =>
      match reader.workspace.extract reader.root source filePath language with
      | .error error => .failed filePath error
      | .ok extraction => .extracted filePath extraction

end FileReader
end CodeAtlas
