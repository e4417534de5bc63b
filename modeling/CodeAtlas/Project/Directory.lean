import CodeAtlas.Error
import CodeAtlas.Text.Path

/-!
# Directories

A directory stands at an absolute path and holds files and folders. Paths are walked segment by
segment as they are written: a step needs a folder to start from, also a step to the same place or
upwards.
-/

namespace CodeAtlas

/-- What stands at a path. -/
inductive Entry where
  | folder
  | file (content : String)
  deriving DecidableEq, Repr

/-- A folder of the file system with all that is below it. -/
structure Directory where
  /-- The absolute path of the folder. -/
  root : String
  /-- What was put below the folder, by the segments of its path. -/
  entries : List (List String × Entry)

namespace Directory

/-- Why a path cannot be read. -/
inductive AccessError where
  /-- There is nothing at the path. -/
  | missing (path : String)
  /-- The path leads through a file. -/
  | throughFile (path : String)
  /-- There is a folder at the path. -/
  | isFolder
  deriving DecidableEq, Repr

/-- What a reader is told. -/
def AccessError.message : AccessError → String
  | missing path => "ENOENT: no such file or directory, open '" ++ path ++ "'"
  | throughFile path => "ENOTDIR: not a directory, open '" ++ path ++ "'"
  | isFolder => "EISDIR: illegal operation on a directory, read"

/-- The segments of a path that name something. -/
def namedSegments (path : String) : List String :=
  (Text.split '/' path).filter fun segment => segment != "" && segment != "."

/-- The directory with files by their paths; a path without a content is a folder. -/
def ofFiles (root : String) (files : List (String × Option String)) : Directory :=
  ⟨root, files.map fun (path, content) =>
    (namedSegments path, (content.map Entry.file).getD .folder)⟩

/-- What stands below the folder at the given segments. Whatever something stands below is a
folder. -/
def below? (directory : Directory) (segments : List String) : Option Entry :=
  match directory.entries.find? (·.1 = segments) with
  | some entry => some entry.2
  | none =>
    if segments.isEmpty || directory.entries.any (segments.isPrefixOf ·.1) then some .folder
    else none

/-- What stands at the given segments of an absolute path. -/
def entryAt? (directory : Directory) (segments : List String) : Option Entry :=
  let root := Path.absoluteSegments directory.root
  if segments.isPrefixOf root then
    directory.below? (segments.drop root.length)
  else if root.isPrefixOf segments then
    directory.below? (segments.drop root.length)
  else
    none

/-- Walks segments from a folder. -/
def walk (directory : Directory) (path : String) : List String → List String →
    Except AccessError Entry
  | _, [] => .ok .folder
  | here, segment :: rest =>
    if segment = "" || segment = "." then
      walk directory path here rest
    else if segment = ".." then
      walk directory path here.dropLast rest
    else
      match directory.entryAt? (here ++ [segment]) with
      | none => .error (.missing path)
      | some .folder => walk directory path (here ++ [segment]) rest
      | some (.file content) =>
        if rest.isEmpty then .ok (.file content) else .error (.throughFile path)

/-- The absolute path meant by a path that may be relative to the folder. -/
def absolute (directory : Directory) (path : String) : String :=
  if Path.isAbsolute path then path else Path.resolve directory.root path

/-- What stands at a path. -/
def access (directory : Directory) (path : String) : Except AccessError Entry :=
  directory.walk (directory.absolute path) [] (Text.split '/' (directory.absolute path))

/-- The content of the file at a path. -/
def content (directory : Directory) (path : String) : Except AccessError String :=
  match directory.access path with
  | .ok (.file content) => .ok content
  | .ok .folder => .error .isFolder
  | .error error => .error error

/-- Reads a file. -/
def read (directory : Directory) (path : String) : Except AnalysisError String :=
  match directory.content path with
  | .ok content => .ok content
  | .error error => .error (.fileAccess path (some error.message))

/-- Whether something stands at a path. -/
def holds (directory : Directory) (path : String) : Bool :=
  match directory.access path with
  | .ok _ => true
  | .error _ => false

/-- The paths of all files below the folder, sorted. -/
def files (directory : Directory) : List String :=
  Text.sort (directory.entries.filterMap fun (segments, entry) =>
    match entry with
    | .file _ => some (Text.join "/" segments)
    | .folder => none)

end Directory
end CodeAtlas
