import CodeAtlas.Text.Split

/-!
# Slash-separated paths

Lexical operations on paths whose segments are divided by `/`: normal form, joining, the directory,
the base name and the extension of a path, and the path from one absolute path to another. No
operation looks at a file system.
-/

namespace CodeAtlas
namespace Path

open Text (split join startsWith endsWith)

/-- Whether a path starts at the root. -/
def isAbsolute (path : String) : Bool :=
  startsWith path "/"

/-- One step of normalisation: `kept` holds the segments so far, last first. -/
def pushSegment (allowAbove : Bool) (kept : List String) (segment : String) : List String :=
  if segment = "" ∨ segment = "." then
    kept
  else if segment = ".." then
    match kept with
    | [] => if allowAbove then [".."] else []
    | last :: rest => if last = ".." then ".." :: kept else rest
  else
    segment :: kept

/-- The segments of a path with `.` dropped and `..` cancelled against the segment before it. Above
the root of an absolute path a `..` is dropped, otherwise it stays. -/
def normalSegments (allowAbove : Bool) (segments : List String) : List String :=
  (segments.foldl (pushSegment allowAbove) []).reverse

/-- The normal form of a path. A trailing slash stays. -/
def normalize (path : String) : String :=
  if path = "" then
    "."
  else
    let absolute := isAbsolute path
    let trailing := endsWith path "/"
    let body := join "/" (normalSegments (!absolute) (split '/' path))
    if body = "" then
      if absolute then "/" else if trailing then "./" else "."
    else
      (if absolute then "/" else "") ++ body ++ (if trailing then "/" else "")

/-- Joins the non-empty parts with slashes and normalises the result. -/
def joinAll (parts : List String) : String :=
  normalize (join "/" (parts.filter (· ≠ "")))

/-- Drops the slashes at the end. -/
def dropTrailingSlashes (path : String) : String :=
  String.ofList (path.toList.reverse.dropWhile (· = '/')).reverse

/-- The last segment of a path, trailing slashes aside. -/
def baseName (path : String) : String :=
  Text.lastPiece '/' (dropTrailingSlashes path)

/-- Everything before the last segment of a path: `.` when there is nothing, `/` at the root. -/
def directory (path : String) : String :=
  let chars := (dropTrailingSlashes path).toList.reverse.dropWhile (· ≠ '/')
  match (chars.drop 1).reverse with
  | [] => if chars.isEmpty && !(isAbsolute path) then "." else "/"
  | parent => String.ofList parent

/-- The extension of a path: the last dot of its base name and what follows it. A dot that opens the
base name starts no extension, and neither does the name `..`. -/
def extension (path : String) : String :=
  let name := (baseName path).toList
  let tail := name.reverse.takeWhile (· ≠ '.')
  if tail.length + 1 < name.length ∧ name ≠ ['.', '.'] then
    String.ofList ('.' :: tail.reverse)
  else
    ""

/-- The absolute normal form of a path read from a directory; it carries no trailing slash. -/
def resolve (base path : String) : String :=
  let whole := if isAbsolute path then path else base ++ "/" ++ path
  "/" ++ join "/" (normalSegments false (split '/' whole))

/-- The segments of an absolute path. -/
def absoluteSegments (path : String) : List String :=
  normalSegments false (split '/' path)

/-- The steps from one list of segments to another: the common beginning is skipped, each segment
left in the first becomes `..`. -/
def stepsBetween : List String → List String → List String
  | first :: rest, second :: others =>
    if first = second then
      stepsBetween rest others
    else
      List.replicate (rest.length + 1) ".." ++ second :: others
  | left, right => List.replicate left.length ".." ++ right

/-- The path that leads from one absolute path to another. -/
def relative (origin target : String) : String :=
  join "/" (stepsBetween (absoluteSegments origin) (absoluteSegments target))

end Path
end CodeAtlas
