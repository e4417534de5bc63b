import CodeAtlas.Extract.File
import CodeAtlas.Project.Scan
import CodeAtlas.Table

/-!
# Workspaces

A workspace answers what a run asks of the outside: which files there are, what they contain, and
which elements they declare. One kind of workspace keeps its files in memory.
-/

namespace CodeAtlas

/-- The outside of a run. -/
structure Workspace where
  /-- Lists the files below a root. -/
  scan : String → ScanOptions → Except AnalysisError Listing
  /-- Reads the file at an absolute path. -/
  read : String → Except AnalysisError String
  /-- Whether there is a file at an absolute path. -/
  holds : String → Bool
  /-- Extracts a source below a root, given its relative path and its language. -/
  extract : (root source filePath language : String) → Except Extract.Error FileExtraction

/-- A file kept in memory. -/
structure MemoryFile where
  /-- The content, or the reason for which there is none, if one is known. -/
  content : Except (Option String) String
  /-- Extracts a source, given its relative path and its language. -/
  extract : (source filePath language : String) → Except Extract.Error FileExtraction

namespace Workspace

/-- The reason for which a file that is not there cannot be read. -/
def missingReason : String := "ENOENT"

/-- The path of a file relative to a root above it. -/
def pathBelow? (root path : String) : Option String :=
  let start := if root = "/" then root else root ++ "/"
  (Text.dropBeginning? start.toList path.toList).map String.ofList

/-- The paths below a root that rules leave, sorted. -/
def listBelow (rules : Ignore.Rules) (root : String) (paths : List String) : List String :=
  Text.sort ((paths.filterMap (pathBelow? root)).filter fun path => !rules.ignores path)

/-- The workspace of files in memory by their absolute paths. -/
def ofFiles (files : Table String MemoryFile) : Workspace where
  scan root options :=
    let ignoreText := (files.get? (Path.joinAll [root, Scan.ignoreFile])).bind fun file =>
      file.content.toOption
    let rules := Scan.rulesOf options ignoreText
    .ok ⟨listBelow rules root files.keys, rules⟩
  read path :=
    match (files.get? path).map MemoryFile.content with
    | some (.ok content) => .ok content
    | some (.error reason) => .error (.fileAccess path reason)
    | none => .error (.fileAccess path (some missingReason))
  holds path := files.has path
  extract root source filePath language :=
    match files.get? (Path.joinAll [root, filePath]) with
    | some file => file.extract source filePath language
    | none => .error (.parser missingReason)

/-- A workspace in which scanning fails for a reason. -/
def withoutScan (workspace : Workspace) (reason : String) : Workspace :=
  { workspace with scan := fun root _ => .error (.fileAccess root (some reason)) }

end Workspace
end CodeAtlas
