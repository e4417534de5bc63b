import CodeAtlas.Compact.Model
import CodeAtlas.Project.Workspace
import CodeAtlas.SyntaxTree.Flat

/-!
# Files in compact form

A file in memory is written with its source and what extracting it gives: its elements, the flat
form of its syntax tree, or a failure.
-/

namespace CodeAtlas
namespace Compact

open Json.Access

/-- A node of the flat form of a tree: depth, flags, kind, start, end and role. -/
def flatNode (value : Json) : SyntaxTree.FlatNode :=
  let flags := natural (nth value 1)
  { depth := natural (nth value 0)
    isNamed := flags % 2 = 1
    isMissing := flags / 2 % 2 = 1
    kind := text (nth value 2)
    start := natural (nth value 3)
    stop := natural (nth value 4)
    role := (nth value 5).text? }

/-- The tree of an empty source. -/
def emptyTree : SyntaxTree.Node := .mk ⟨"", true, false, none, "", ⟨0, 0⟩, ⟨0, 0⟩, 0⟩ []

/-- What parsing a source gives: a tree, or the message of a parser that gave up. -/
def parsed (value : Json) (source : String) : Except String SyntaxTree.Node :=
  match value.member? "parseThrows" with
  | some message => .error (text message)
  | none =>
    .ok ((SyntaxTree.Node.ofFlat? source ((items (get value "tree")).map flatNode)).getD emptyTree)

/-- A malformed place. -/
def issue (value : Json) : SyntaxTree.Issue :=
  { line := natural (get value "line")
    column := natural (get value "column")
    message := textAt value "message" }

/-- What extracting a file gives. -/
def extraction (value : Json) (source filePath language : String) :
    Except Extract.Error FileExtraction :=
  match (get value "fail").text?, has value "tree" with
  | some message, _ => .error (.parser message)
  | none, true => Extract.extract source filePath language (parsed value source)
  | none, false =>
    .ok
      { filePath := filePath
        language := language
        contentHash := Extract.contentHash source
        elements := (items (get value "elements")).map (elementIn (some filePath) (some language))
        issues := (items (get value "issues")).map issue }

/-- A file in memory. -/
def memoryFile (value : Json) : MemoryFile :=
  { content := match value.member? "unreadable" with
      | some reason => .error reason.text?
      | none => .ok (textAt value "source")
    extract := extraction value }

/-- Files in memory by their absolute paths, written relative to a root. -/
def memoryFiles (root : String) (value : Json) : Table String MemoryFile :=
  .ofList ((members value).map fun (path, file) => (Path.joinAll [root, path], memoryFile file))

end Compact
end CodeAtlas
