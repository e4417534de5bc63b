import CodeAtlas.Project.Directory
import CodeAtlas.Project.Ignore

/-!
# Scanning a project

A scan lists the files of a project that are not ignored. Folders in which everything is ignored are
not entered. The rules of a scan can be asked about a path later.
-/

namespace CodeAtlas

/-- What a scan leaves out. -/
structure ScanOptions where
  /-- The patterns of ignored paths. -/
  ignorePatterns : List String := Ignore.standard
  /-- Whether the ignore file at the root counts. -/
  respectGitignore : Bool := true

/-- The files of a project and the rules they were chosen by. -/
structure Listing where
  /-- The paths of the files, relative to the root and sorted. -/
  files : List String
  /-- The rules of the scan. -/
  rules : Ignore.Rules

namespace Scan

/-- The ignore file at the root of a project. -/
def ignoreFile : String := ".gitignore"

/-- A list of characters without a carriage return at its end. -/
def dropReturn (chars : List Char) : List Char :=
  match chars.reverse with
  | '\r' :: rest => rest.reverse
  | _ => chars

/-- The lines of a text. Of a line that ends in a carriage return the last one is dropped, unless
the text ends there. -/
def lines (text : String) : List String :=
  let pieces := Text.splitChars '\n' text.toList
  (pieces.dropLast.map dropReturn ++ pieces.getLast?.toList).map String.ofList

/-- The rules of a scan, given the ignore file if there is one. -/
def rulesOf (options : ScanOptions) (ignoreText : Option String) : Ignore.Rules :=
  let further := if options.respectGitignore then (ignoreText.map lines).getD [] else []
  Ignore.Rules.ofLines (options.ignorePatterns ++ further)

/-- A name that stands for anything in a folder. -/
def childMarker : String := "__archlens_child__"

/-- Whether a folder is not entered. -/
def isSkipped (rules : Ignore.Rules) (folder : String) : Bool :=
  rules.ignores folder || rules.ignores (folder ++ "/" ++ childMarker)

/-- The paths of the folders above a file, the root aside. -/
def foldersAbove (path : String) : List String :=
  let segments := Text.split '/' path
  (List.range (segments.length - 1)).map fun count => Text.join "/" (segments.take (count + 1))

/-- Whether a file is listed. -/
def isListed (rules : Ignore.Rules) (path : String) : Bool :=
  !(foldersAbove path).any (isSkipped rules) && !rules.ignores path

/-- Scans a project; one that does not exist has no files. -/
def scan (options : ScanOptions) (project : Option Directory) : Listing :=
  match project with
  | none => ⟨[], rulesOf options none⟩
  | some directory =>
    let ignoreText := (directory.content (Path.joinAll [directory.root, ignoreFile])).toOption
    let rules := rulesOf options ignoreText
    ⟨directory.files.filter (isListed rules), rules⟩

end Scan
end CodeAtlas
