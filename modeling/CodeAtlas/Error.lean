import CodeAtlas.Diagnostic
import CodeAtlas.Text.Split

/-!
# Errors

The causes for which an analysis step fails. Each has a code and a message; those that do not stop a
run become diagnostics of its result.
-/

namespace CodeAtlas

/-- The kind of a failure. -/
inductive ErrorCode where
  | fileAccess
  | parseError
  | graphIntegrity
  | configuration
  | cancelled
  deriving DecidableEq, Repr

namespace ErrorCode

/-- The word for a kind of failure. -/
def name : ErrorCode → String
  | fileAccess => "file_access"
  | parseError => "parse_error"
  | graphIntegrity => "graph_integrity"
  | configuration => "configuration"
  | cancelled => "cancelled"

/-- Reads the word for a kind of failure. -/
def ofName? (word : String) : Option ErrorCode :=
  [fileAccess, parseError, graphIntegrity, configuration, cancelled].find? (·.name = word)

end ErrorCode

/-- Why an analysis step failed. -/
inductive AnalysisError where
  /-- A failure of a given kind with its own message. -/
  | general (code : ErrorCode) (message : String)
  /-- A file could not be read, for a reason if one is known. -/
  | fileAccess (filePath : String) (reason : Option String)
  /-- A file is malformed, at a line if one is known. -/
  | parse (filePath message : String) (line : Option Nat)
  /-- A relationship names an element that does not exist. -/
  | missingElement (relationshipId missingId : String)
  /-- A configuration is refused for the listed issues. -/
  | configuration (summary : String) (issues : List String)
  /-- The run was cancelled. -/
  | cancelled (message : String)
  deriving DecidableEq, Repr

namespace AnalysisError

/-- The kind of a failure. -/
def code : AnalysisError → ErrorCode
  | general code _ => code
  | fileAccess .. => .fileAccess
  | parse .. => .parseError
  | missingElement .. => .graphIntegrity
  | configuration .. => .configuration
  | cancelled _ => .cancelled

/-- What a reader is told. -/
def message : AnalysisError → String
  | general _ message => message
  | fileAccess filePath reason => s!"Cannot read {filePath}: " ++ reason.getD "unknown error"
  | parse _ message _ => message
  | missingElement relationshipId missingId =>
    s!"Relationship {relationshipId} references missing element {missingId}"
  | configuration summary issues =>
    if issues.isEmpty then summary else summary ++ ": " ++ Text.join "; " issues
  | cancelled message => message

/-- The message of a cancelled run that gives no other. -/
def cancelledMessage : String := "Analysis cancelled"

/-- The diagnostic that records a failure. -/
def diagnostic (error : AnalysisError) (severity : Severity) : Diagnostic :=
  let plain : Diagnostic :=
    { severity := severity, code := error.code.name, message := error.message }
  match error with
  | fileAccess filePath _ => { plain with filePath := some filePath }
  | parse filePath _ line => { plain with filePath := some filePath, line := line }
  | missingElement relationshipId _ => { plain with relationshipId := some relationshipId }
  | _ => plain

end AnalysisError
end CodeAtlas
