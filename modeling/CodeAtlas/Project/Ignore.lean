import CodeAtlas.Glob.Matcher
import CodeAtlas.Text.Blank

/-!
# Ignored paths

Each line of an ignore file stands for globs: one for the path itself and one for all below it. A
line without a slash inside counts at every depth. Blank lines, comments and negations count for
nothing.
-/

namespace CodeAtlas
namespace Ignore

/-- The patterns unless others are given. -/
def standard : List String :=
  ["**/node_modules/**", "**/.git/**", "**/__pycache__/**", "**/dist/**", "**/build/**",
   "**/target/**", "**/venv/**", "**/.venv/**", "**/coverage/**", "**/*.pyc", "**/*.min.js"]

/-- A list of characters with slashes for backslashes. -/
def withSlashes (chars : List Char) : List Char :=
  chars.map fun char => if char = '\\' then '/' else char

/-- A list of characters without the slashes at its end. -/
def dropEndSlashes (chars : List Char) : List Char :=
  (chars.reverse.dropWhile (· == '/')).reverse

/-- The globs that a line stands for. -/
def expand (line : String) : List String :=
  let chars := withSlashes (Text.trimChars line.toList)
  if chars.isEmpty || chars.head? == some '#' || chars.head? == some '!' then
    []
  else
    let body := dropEndSlashes chars
    let anchored := body.contains '/'
    let bare := String.ofList (body.dropWhile (· == '/'))
    if bare = "" then
      []
    else
      let base := if anchored then bare else "**/" ++ bare
      if Text.endsWith base "/**" then [base] else [base, base ++ "/**"]

/-- Ignore rules that are ready to be used. -/
structure Rules where
  /-- The globs. -/
  globs : List Glob.Compiled

/-- Makes the lines of ignore files ready to be used. -/
def Rules.ofLines (lines : List String) : Rules :=
  ⟨(lines.flatMap expand).eraseDups.map Glob.compile⟩

/-- Whether a path is ignored. -/
def Rules.ignores (rules : Rules) (path : String) : Bool :=
  let slashed := String.ofList (withSlashes path.toList)
  rules.globs.any (·.accepts slashed)

end Ignore
end CodeAtlas
