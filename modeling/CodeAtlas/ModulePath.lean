import CodeAtlas.Text.Path

/-!
# Module names

The name of a module is read off the path of its file, and the names that import statements write
are brought to the same form, so that an import can be matched with the module it means.
-/

namespace CodeAtlas
namespace ModulePath

open Text (split join)

/-- The extensions of source files, apart from the two-part one of type declarations. -/
def sourceExtensions : List String :=
  ["ts", "tsx", "js", "jsx", "cts", "ctsx", "cjs", "cjsx", "mts", "mtsx", "mjs", "mjsx",
    "py", "pyi", "go", "java", "rs"]

/-- A path without the extension of a source file. -/
def withoutExtension (path : String) : String :=
  let chars := path.toList.reverse
  match Text.dropBeginning? ".d.ts".toList.reverse chars with
  | some stem => String.ofList stem.reverse
  | none =>
    let ending := String.ofList (chars.takeWhile (· ≠ '.')).reverse
    if sourceExtensions.contains ending ∧ ending.length < chars.length then
      String.ofList (chars.drop (ending.length + 1)).reverse
    else
      path

/-- The file stems that stand for their directory. -/
def indexStems (language : String) : List String :=
  if language = "typescript" ∨ language = "tsx" ∨ language = "javascript" then ["index"]
  else if language = "python" then ["__init__"]
  else if language = "rust" then ["mod", "lib", "main"]
  else []

/-- Drops a first segment `src` that is not the only one. -/
def dropSourceRoot : List String → List String
  | first :: second :: rest => if first = "src" then second :: rest else first :: second :: rest
  | segments => segments

/-- Drops a last segment that stands for its directory and is not the only one. -/
def dropIndex (stems segments : List String) : List String :=
  match segments.getLast? with
  | some last =>
    if 1 < segments.length ∧ stems.contains last then segments.dropLast else segments
  | none => segments

/-- The module name of a file: its path without extension, with dots between the segments. A file
that stands for its directory takes the directory's name. -/
def nameOf (path language : String) : String :=
  let segments := (split '/' (withoutExtension path)).filter (· ≠ "")
  let rooted := if language = "rust" then dropSourceRoot segments else segments
  join "." (dropIndex (indexStems language) rooted)

/-- Whether a file stands for its directory. -/
def isIndex (path language : String) : Bool :=
  (indexStems language).contains (withoutExtension (Path.baseName path))

/-- Drops one slash at the end. -/
def dropSlash (path : String) : String :=
  match path.toList.reverse with
  | '/' :: rest => String.ofList rest.reverse
  | _ => path

/-- The module that a specifier names in a script file. A specifier that does not start with a dot
names a package and stays as it is. -/
def resolveSpecifier (path specifier language : String) : String :=
  if Text.startsWith specifier "." then
    let joined := Path.normalize (Path.joinAll [Path.directory path, specifier])
    nameOf (dropSlash joined) language
  else
    specifier

/-- The module that a relative import names: one dot is the package of the importing module, each
further dot the package above. -/
def resolveRelative (moduleName : String) (isPackage : Bool) (dots : Nat) (rest : String) :
    String :=
  let segments := split '.' moduleName
  let package := if isPackage then segments else segments.dropLast
  let base := if dots = 0 then package else package.take (package.length - (dots - 1))
  join "." (base ++ (if rest = "" then [] else split '.' rest))

/-- The segments of a path written with double colons. -/
def colonSegments (path : String) : List String :=
  ((Text.splitPairs ':' path.toList).map String.ofList).filter (· ≠ "")

/-- Goes one module up for each leading `super`. -/
def climb (parent : List String) : List String → List String
  | segment :: rest =>
    if segment = "super" then climb parent.dropLast rest else parent ++ segment :: rest
  | [] => parent

/-- A path with double colons as a dotted name: `crate` is dropped, `self` is the current module and
`super` the one above. -/
def normalizeColons (path moduleName : String) : String :=
  let segments := colonSegments path
  let current := (split '.' moduleName).filter (· ≠ "")
  match segments with
  | [] => ""
  | first :: rest =>
    if first = "crate" then join "." rest
    else if first = "self" then join "." (current ++ rest)
    else if first = "super" then join "." (climb current segments)
    else join "." segments

end ModulePath
end CodeAtlas
