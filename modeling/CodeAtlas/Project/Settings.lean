import CodeAtlas.Json.Parser
import CodeAtlas.Project.Directory

/-!
# The settings file

A project may hold its settings in a file at its root. A project without one has no settings of its
own.
-/

namespace CodeAtlas
namespace Settings

/-- The name of the settings file. -/
def fileName : String := "archlens.config.json"

/-- Why the settings of a project cannot be taken. -/
inductive Error where
  /-- The file is there but cannot be read. -/
  | unreadable (reason : String)
  /-- The file is no structured value. -/
  | malformed
  deriving DecidableEq, Repr

/-- The failure that a reader is told about. -/
def Error.failure : Error → AnalysisError
  | unreadable reason => .configuration ("Cannot read " ++ fileName) [reason]
  | malformed => .configuration ("Invalid JSON in " ++ fileName) []

/-- Reads the settings of a project, which are not checked here. -/
def read (project : Directory) : Except Error Json :=
  match project.content (Path.joinAll [project.root, fileName]) with
  | .error (.missing _) => .ok (.obj [])
  | .error error => .error (.unreadable error.message)
  | .ok text =>
    match Json.parse? text with
    | some value => .ok value
    | none => .error .malformed

end Settings
end CodeAtlas
