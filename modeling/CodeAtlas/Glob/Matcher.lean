import CodeAtlas.Glob.Reader
import CodeAtlas.Pattern.Matcher

/-!
# Matching paths

A glob is compiled into a pattern for whole paths. Some common forms of globs have patterns of their
own. A path that is equal to the glob matches too, and the empty path matches none.
-/

namespace CodeAtlas
namespace Glob

/-- The pattern text of a common glob without its extension. -/
def commonText? (glob : String) : Option String :=
  let segments := "(?:" ++ noDotsText ++ globstarText ++ slashText ++ ")?"
  match glob with
  | "*" => some (noDotsText ++ someText ++ starText)
  | ".*" => some (dotText ++ someText ++ starText)
  | "*.*" => some (noDotsText ++ starText ++ dotText ++ someText ++ starText)
  | "*/*" =>
    some (noDotsText ++ starText ++ slashText ++ someText ++ noDotsSegmentText ++ starText)
  | "**" => some (noDotsText ++ globstarText)
  | "**/*" => some (segments ++ noDotsSegmentText ++ someText ++ starText)
  | "**/*.*" =>
    some (segments ++ noDotsSegmentText ++ starText ++ dotText ++ someText ++ starText)
  | "**/.*" => some (segments ++ dotText ++ someText ++ starText)
  | _ => none

/-- A glob cut before its last extension, which consists of word characters. -/
def cutExtension? (glob : String) : Option (String × String) :=
  let back := glob.toList.reverse
  let extension := (back.takeWhile isWordChar).reverse
  match back.dropWhile isWordChar with
  | '.' :: before =>
    if extension.isEmpty || before.any (fun char => char == '\n' || char == '\r') then none
    else some (String.ofList before.reverse, String.ofList extension)
  | _ => none

/-- The pattern text of a common glob with any number of extensions. -/
def shortcut? : Nat → String → Option String
  | 0, _ => none
  | fuel + 1, glob =>
    match commonText? glob with
    | some text => some text
    | none =>
      match cutExtension? glob with
      | some (before, extension) =>
        (shortcut? fuel before).map fun text => text ++ dotText ++ extension
      | none => none

/-- Whether a glob has no segments, groups and sets. -/
def isFlat (glob : List Char) : Bool :=
  glob.head? != some '*' && glob.head? != some '!'
    && !glob.any fun char => "/()[]\x7b\x7d\"".toList.contains char

/-- The pattern text of a run of equal characters. -/
def runText (char : Char) (count : Nat) : String :=
  if isWordChar char then Text.replicate count char
  else if char = '?' then Text.join "" (List.replicate count anyText)
  else if char = '.' then Text.join "" (List.replicate count dotText)
  else if char = '*' then starText
  else "\\" ++ Text.replicate count char

/-- The pattern text of a glob without segments, groups and sets, run by run. -/
def flatText : Nat → List Char → String
  | 0, _ => ""
  | _, [] => ""
  | fuel + 1, char :: rest =>
    let run := rest.takeWhile (· == char)
    runText char (run.length + 1) ++ flatText fuel (rest.drop run.length)

/-- The pattern of a glob. -/
def patternText (glob : String) : String :=
  let whole (text : String) : String := "^(?:" ++ text ++ ")$"
  let isCommon := glob.toList.head? == some '*' || glob.toList.head? == some '.'
  let size := glob.toList.length + 1
  match if isCommon then shortcut? size (String.ofList (withoutDot (simplify glob))) else none with
  | some text => whole (text ++ slashText ++ "?")
  | none =>
    let chars := withoutDot (simplify glob)
    if isFlat chars then
      whole (flatText size chars)
    else
      let progress := read size glob
      let text := whole progress.finish
      if progress.negated then "^(?!" ++ text ++ ").*$" else text

/-- A glob that is ready to be used. -/
structure Compiled where
  /-- The glob. -/
  glob : String
  /-- Its pattern, unless it makes none. -/
  pattern : Option Pattern.Compiled

/-- Makes a glob ready to be used. -/
def compile (glob : String) : Compiled :=
  ⟨glob, (Pattern.compile (patternText glob) "").toOption⟩

/-- Whether a path matches a glob. -/
def Compiled.accepts (compiled : Compiled) (path : String) : Bool :=
  path != "" && (path == compiled.glob || compiled.pattern.any (·.matches? path))

end Glob
end CodeAtlas
