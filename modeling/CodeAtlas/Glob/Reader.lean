import CodeAtlas.Glob.Basic
import CodeAtlas.Pattern.Parser

/-!
# Reading globs

A glob is read character by character. Each character adds a piece, changes the last one, or opens
or closes a group. What is left open at the end stands for itself.
-/

namespace CodeAtlas
namespace Glob
namespace Progress

/-! ## Brackets and quotes -/

/-- Writes characters into the last piece. -/
def extend (progress : Progress) (value : String) : Progress :=
  (progress.changeLast fun last => { last with value := last.value ++ value }).write value

/-- The set named at the end of an open bracket, with what stands before the name. -/
def namedSet? (value : String) : Option (String × String) :=
  let back := value.toList.reverse
  let name := (back.takeWhile (· ≠ '[')).reverse
  let before := (back.dropWhile (· ≠ '[')).tail.reverse
  match name with
  | _ :: letters =>
    (namedSets.find? (·.1 = String.ofList letters)).map fun entry =>
      (String.ofList before, entry.2)
  | [] => none

/-- A glob that starts with a named set matches no empty path. -/
def requireSome (progress : Progress) : Progress :=
  match progress.pieces with
  | [bracket, start] =>
    if start.output == some "" then
      { progress with pieces := [bracket, { start with output := some someText }] }
    else
      progress
  | _ => progress

/-- Reads a character inside a bracket. -/
def readInBracket (progress : Progress) (char : Char) : Progress :=
  let inner := progress.last.value.toList.drop 1
  let noted := if char = ':' ∧ inner.contains '[' then
    progress.changeLast fun last => { last with named := true } else progress
  let found := if char = ':' ∧ inner.contains '[' ∧ inner.contains ':' then
    namedSet? progress.last.value else none
  match found with
  | some (before, set) =>
    let changed := noted.changeLast fun last => { last with value := before ++ set }
    ({ changed with rebuild := true }.skip 1).requireSome
  | none =>
    let next := progress.peek? 1
    let isLiteral := (char = '[' ∧ next ≠ some ':') ∨ (char = '-' ∧ next = some ']')
      ∨ char = ']'
    noted.extend (if isLiteral then "\\" ++ String.singleton char else String.singleton char)

/-- Whether a character belongs to the open bracket. -/
def isInside (progress : Progress) (char : Char) : Bool :=
  progress.inBracket
    && (char != ']' || progress.last.value == "[" || progress.last.value == "[^")

/-- Opens a bracket; one that is never closed stands for itself. -/
def openBracket (progress : Progress) : Progress :=
  if progress.rest.contains ']' then
    { progress.nest .brackets with inBracket := true }.push { kind := .bracket, value := "[" }
  else
    progress.push { kind := .bracket, value := "\\[" }

/-- Closes a bracket. One without special characters also matches its own text. -/
def closeBracket (progress : Progress) : Progress :=
  if !progress.inBracket then
    progress.push { kind := .text, value := "]", output := some "\\]" }
  else
    let inner := progress.last.value.toList.drop 1
    let closing := if !progress.last.named && inner.head? == some '^' && !inner.contains '/' then
      "/]" else "]"
    let closed := { progress.unnest with inBracket := false }.extend closing
    if inner.any isSpecial then
      closed
    else
      let value := closed.last.value
      let both := "(?:" ++ escape value ++ "|" ++ value ++ ")"
      ((closed.takeBack value).changeLast fun last => { last with value := both }).write both

/-! ## Parentheses and extended groups -/

/-- Opens an extended group at its mark. -/
def openGroup (progress : Progress) (kind : Kind) (mark : Char) : Progress :=
  let opened := { progress.nest .parens with parens := progress.parens + 1 }
  let marked := opened.push
    { kind := kind, value := String.singleton mark
      output := some (if progress.output = "" then someText else "") }
  let entered := (marked.skip 1).push
    { kind := .paren, value := "(", output := some (openingText mark), extended := true }
  { entered with groups := { mark := mark, depth := progress.parens } :: entered.groups }

/-- Whether the rest of a glob is a dot and a name without further dots and slashes. -/
def isEnding (rest : List Char) : Bool :=
  match rest with
  | '.' :: name => !name.isEmpty && name.all fun char => char != '/' && char != '.' && char != '\\'
  | _ => false

/-- The pattern text that closes a negated group. `nested` gives the pattern text of what follows.
-/
def negationText (nested : String → String) (group : OpenGroup) (rest : List Char) : String :=
  let inner := group.inner.toList
  let isDeep := decide (1 < inner.length) && inner.contains '/'
  let star := if isDeep then globstarText else starText
  if inner.contains '*' && isEnding rest then
    ")" ++ nested (String.ofList rest) ++ ")" ++ star ++ ")"
  else if isDeep || rest.all (· == ')') then
    ")$))" ++ star
  else
    closingText '!'

/-- Closes an extended group. -/
def closeGroup (nested : String → String) (progress : Progress) (group : OpenGroup)
    (groups : List OpenGroup) : Progress :=
  let output := if group.mark = '!' then negationText nested group progress.rest
    else closingText group.mark
  let closed := { progress with groups := groups }.push
    { kind := .paren, value := ")", output := some output, extended := true }
  { closed.unnest with parens := closed.parens - 1 }

/-- Closes a parenthesis or the extended group that it belongs to. -/
def closeParen (nested : String → String) (progress : Progress) : Progress :=
  let plain := progress.push
    { kind := .paren, value := ")", output := some (if progress.parens = 0 then "\\)" else ")") }
  match progress.groups with
  | group :: groups =>
    if progress.parens = group.depth + 1 then closeGroup nested progress group groups
    else { plain.unnest with parens := plain.parens - 1 }
  | [] => { plain.unnest with parens := plain.parens - 1 }

/-! ## Braces -/

/-- Opens a brace. -/
def openBrace (progress : Progress) : Progress :=
  let opened := { progress.nest .braces with
    braces := ⟨progress.output.toList.length, progress.pieces.length, false, false⟩
      :: progress.braces }
  opened.push { kind := .brace, value := "\x7b", output := some "(" }

/-- The pattern text of a range between values. -/
def rangeText (values : List String) : String :=
  let sorted := Text.sort values
  let set := "[" ++ Text.join "-" sorted ++ "]"
  match Pattern.compile set "" with
  | .ok _ => set
  | .error _ => Text.join ".." (sorted.map escape)

/-- Closes a brace that holds a range. -/
def closeRange (progress : Progress) : Progress :=
  let inside := progress.pieces.takeWhile (·.kind != .brace)
  let values := (inside.filter (·.kind != .dots)).map Piece.value
  { progress with pieces := progress.pieces.drop (inside.length + 1), rebuild := true }.push
    { kind := .brace, value := "\x7d", output := some (rangeText values.reverse) }

/-- Closes a brace that holds no alternatives: it stands for itself. -/
def closePlain (progress : Progress) (brace : OpenBrace) : Progress :=
  let ordered := progress.pieces.reverse
  let inside := match ordered.drop brace.place with
    | opening :: rest => { opening with value := "\\\x7b", output := some "\\\x7b" } :: rest
    | [] => []
  let output := String.ofList (progress.output.toList.take brace.outputLength)
    ++ Text.join "" (inside.map Piece.rewritten)
  { progress with
    pieces := (ordered.take brace.place ++ inside).reverse, output := output }.push
    { kind := .brace, value := "\\\x7d", output := some "\\\x7d" }

/-- Closes a brace. -/
def closeBrace (progress : Progress) : Progress :=
  match progress.braces with
  | [] => progress.push { kind := .text, value := "\x7d", output := some "\x7d" }
  | brace :: braces =>
    let closed :=
      if brace.hasDots then progress.closeRange
      else if brace.hasComma then
        progress.push { kind := .brace, value := "\x7d", output := some ")" }
      else progress.closePlain brace
    { closed.unnest with braces := braces }

/-- Reads a comma, which divides alternatives directly inside a brace. -/
def readComma (progress : Progress) : Progress :=
  match progress.braces with
  | brace :: braces =>
    if progress.nesting.head? == some .braces then
      { progress with braces := { brace with hasComma := true } :: braces }.push
        { kind := .comma, value := ",", output := some "|" }
    else
      progress.push { kind := .comma, value := ",", output := some "," }
  | [] => progress.push { kind := .comma, value := ",", output := some "," }

/-- Reads a dot that is no part of a range. -/
def readPlainDot (progress : Progress) : Progress :=
  let isFree := (progress.braces.length : Int) + progress.parens == 0
  if isFree && progress.last.kind != .start && progress.last.kind != .slash then
    progress.push { kind := .text, value := ".", output := some dotText }
  else
    progress.push { kind := .dot, value := ".", output := some dotText }

/-- Reads a dot, which may be the second one of a range. -/
def readDot (progress : Progress) : Progress :=
  let last := progress.last
  match progress.braces with
  | brace :: braces =>
    if last.kind == .dot then
      let base := if last.value = "." then dotText else last.written
      { progress with braces := { brace with hasDots := true } :: braces }.changeLast fun last =>
        { last with kind := .dots, output := some (base ++ "."), value := last.value ++ "." }
    else
      progress.readPlainDot
  | [] => progress.readPlainDot

/-! ## Marks -/

/-- Whether an opening angle with a look-behind or a name follows somewhere. -/
def hasAngle : List Char → Bool
  | [] => false
  | '<' :: rest =>
    let isName := match rest.dropWhile isWordChar with
      | '>' :: _ => rest.head? != some '>'
      | _ => false
    rest.head? == some '!' || rest.head? == some '=' || isName || hasAngle rest
  | _ :: rest => hasAngle rest

/-- Whether a character continues a group mark after a question mark. -/
def isGroupMark (char : Option Char) : Bool :=
  char == some '!' || char == some '=' || char == some '<' || char == some ':'

/-- Reads a question mark. -/
def readQuestion (progress : Progress) : Progress :=
  let last := progress.last
  if last.value != "(" && progress.peek? 1 == some '(' && progress.peek? 2 != some '?' then
    progress.openGroup .question '?'
  else if last.kind == .paren then
    let next := progress.peek? 1
    let isLiteral := (last.value == "(" && !isGroupMark next)
      || (next == some '<' && !hasAngle progress.rest)
    progress.push
      { kind := .text, value := "?", output := some (if isLiteral then "\\?" else "?") }
  else
    progress.push { kind := .question, value := "?", output := some anyText }

/-- Reads exclamation marks at the start: an odd number of them negates the glob. -/
def negate : Nat → Nat → Progress → Progress
  | 0, _, progress => progress
  | fuel + 1, count, progress =>
    if progress.peek? 1 == some '!'
        && (progress.peek? 2 != some '(' || progress.peek? 3 == some '?') then
      negate fuel (count + 1) { progress.skip 1 with start := progress.start + 1 }
    else if count % 2 = 0 then
      progress
    else
      { progress with negated := true, start := progress.start + 1 }

/-- Whether a character ends a stretch of plain characters. -/
def endsPlain (char : Char) : Bool :=
  "@![].,$*+?^\x7b\x7d()|\\/".toList.contains char

/-- Reads a stretch of plain characters. -/
def readPlain (progress : Progress) (char : Char) : Progress :=
  let more := progress.rest.takeWhile fun char => !endsPlain char
  let first := if char = '$' ∨ char = '^' then ['\\', char] else [char]
  (progress.skip more.length).push { kind := .text, value := String.ofList (first ++ more) }

/-- Reads an exclamation mark. -/
def readExclamation (progress : Progress) : Progress :=
  if progress.peek? 1 == some '('
      && (progress.peek? 2 != some '?' || !isGroupMark (progress.peek? 3)) then
    progress.openGroup .negation '!'
  else if progress.index = 1 then
    progress.negate (progress.rest.length + 1) 1
  else
    progress.readPlain '!'

/-- Reads a plus sign, which repeats a group or a set and stands for itself elsewhere. -/
def readPlus (progress : Progress) : Progress :=
  let last := progress.last
  if progress.peek? 1 == some '(' && progress.peek? 2 != some '?' then
    progress.openGroup .plus '+'
  else if last.value == "(" then
    progress.push { kind := .plus, value := "+", output := some "\\+" }
  else if last.kind == .bracket || last.kind == .paren || last.kind == .brace
      || 0 < progress.parens then
    progress.push { kind := .plus, value := "+" }
  else
    progress.push { kind := .plus, value := "\\+" }

/-- Reads a slash. A dot and a slash at the start are left out. -/
def readSlash (progress : Progress) : Progress :=
  if progress.last.kind == .dot && progress.index = progress.start + 2 then
    { progress with start := progress.index, output := "", pieces := progress.pieces.tail }
  else
    progress.push { kind := .slash, value := "/", output := some slashText }

/-! ## Stars -/

/-- Leaves out stars across segments that follow others. -/
def skipRepeated : Nat → Progress → Progress
  | 0, progress => progress
  | fuel + 1, progress =>
    match progress.rest with
    | '/' :: '*' :: '*' :: after =>
      if after.isEmpty || after.head? == some '/' then skipRepeated fuel (progress.skip 3)
      else progress
    | _ => progress

/-- Makes the last star one across segments, with the given pattern text. -/
def promote (progress : Progress) (output : String) : Progress :=
  (progress.changeLast fun last =>
    { last with kind := .globstar, value := last.value ++ "*", output := some output }).write output

/-- Takes the last star and the slash before it back and opens a group around the slash. -/
def regroup (progress : Progress) : Progress :=
  match progress.pieces with
  | star :: slash :: pieces =>
    let opened := "(?:" ++ slash.written
    { (progress.takeBack (slash.written ++ star.written)).write opened with
      pieces := star :: { slash with output := some opened } :: pieces }
  | _ => progress

/-- Reads the slash after stars across segments, whose pattern text is already written. -/
def passSlash (progress : Progress) : Progress :=
  (progress.skip 1).push { kind := .slash, value := "/", output := some "" }

/-- Reads the second of two stars that stand between slashes. -/
def readGlobstar (progress : Progress) : Progress :=
  let before := progress.kindBefore? 1
  let beyond := progress.kindBefore? 2
  let afterStar := beyond == some .star || beyond == some .globstar
  let skipped := progress.skipRepeated (progress.rest.length + 1)
  let isEnd := skipped.rest.isEmpty
  let followed := skipped.rest.head? == some '/'
  if before == some .start && isEnd then
    { skipped with output := "" }.promote globstarText
  else if before == some .slash && beyond != some .start && !afterStar && isEnd then
    skipped.regroup.promote (globstarText ++ "|$)")
  else if before == some .slash && beyond != some .start && followed then
    let ending := if skipped.rest.length = 1 then "" else "|$"
    (skipped.regroup.promote
      (globstarText ++ slashText ++ "|" ++ slashText ++ ending ++ ")")).passSlash
  else if before == some .start && followed then
    ({ skipped with output := "" }.promote
      ("(?:^|" ++ slashText ++ "|" ++ globstarText ++ slashText ++ ")")).passSlash
  else
    (skipped.takeBack skipped.last.written).promote globstarText

/-- Reads a star that follows no other. -/
def readFirstStar (progress : Progress) : Progress :=
  let last := progress.last
  let isFirst := progress.index = progress.start + 1 ∨ last.kind = .slash ∨ last.kind = .dot
  let guarded := if isFirst then
      let guard := (if last.kind = .dot then noDotSegmentText else noDotsSegmentText)
        ++ (if progress.peek? 1 = some '*' then "" else someText)
      (progress.changeLast fun last => { last with output := some (last.output.getD "" ++ guard) }
        ).write guard
    else progress
  guarded.push { kind := .star, value := "*", output := some starText }

/-- Reads a star. -/
def readStar (progress : Progress) : Progress :=
  let last := progress.last
  let before := progress.kindBefore? 1
  if last.kind == .globstar || last.crowded then
    { progress with rebuild := true }.changeLast fun last =>
      { last with
        kind := .star, crowded := true, value := last.value ++ "*", output := some starText }
  else if progress.peek? 1 == some '(' && (progress.peek? 2).isSome
      && progress.peek? 2 != some '?' then
    progress.openGroup .star '*'
  else if last.kind == .star then
    let inBraces := !progress.braces.isEmpty && (before == some .comma || before == some .brace)
    if before == some .slash || before == some .start || before == some .paren || inBraces then
      progress.readGlobstar
    else
      progress.push { kind := .star, value := "*", output := some "" }
  else
    progress.readFirstStar

/-! ## The whole glob -/

/-- Reads one character, which is no longer part of the rest. -/
def step (nested : String → String) (progress : Progress) (char : Char) : Progress :=
  if progress.isInside char then progress.readInBracket char
  else if progress.inQuote && char != '"' then progress.extend (escape (String.singleton char))
  else
    match char with
    | '\x00' => progress
    | '"' => { progress with inQuote := !progress.inQuote }
    | '(' => { progress.nest .parens with parens := progress.parens + 1 }.push
        { kind := .paren, value := "(" }
    | ')' => progress.closeParen nested
    | '[' => progress.openBracket
    | ']' => progress.closeBracket
    | '\x7b' => progress.openBrace
    | '\x7d' => progress.closeBrace
    | '|' => progress.push { kind := .text, value := "|" }
    | ',' => progress.readComma
    | '/' => progress.readSlash
    | '.' => progress.readDot
    | '?' => progress.readQuestion
    | '!' => progress.readExclamation
    | '+' => progress.readPlus
    | '@' =>
      if progress.peek? 1 == some '(' && progress.peek? 2 != some '?' then
        progress.push { kind := .atSign, value := "@", output := some "", extended := true }
      else
        progress.push { kind := .text, value := "@" }
    | '*' => progress.readStar
    | char => progress.readPlain char

/-- Reads the rest of a glob; every step reads a character. -/
def run (nested : String → String) : Nat → Progress → Progress
  | 0, progress => progress
  | fuel + 1, progress =>
    match progress.rest with
    | [] => progress
    | char :: rest =>
      run nested fuel ({ progress with rest := rest, index := progress.index + 1 }.step nested char)

/-- Puts a backslash before the last occurrence of a character that has none, in a reversed list. -/
def escapeLast (char : Char) : List Char → List Char
  | [] => []
  | [first] => if first = char then [first, '\\'] else [first]
  | first :: second :: rest =>
    if first = char ∧ second ≠ '\\' then first :: '\\' :: second :: rest
    else first :: escapeLast char (second :: rest)

/-- Makes an opening that was never closed stand for itself. -/
def abandon (char : Char) (progress : Progress) : Progress :=
  { progress with
    output := String.ofList (escapeLast char progress.output.toList.reverse).reverse }

/-- The pattern text of a glob that has been read. -/
def finish (progress : Progress) : String :=
  let bracketed := if progress.inBracket then progress.abandon '[' else progress
  let closed := (List.replicate progress.parens.toNat '(' ++
    List.replicate progress.braces.length '\x7b').foldl (fun progress char =>
      progress.abandon char) bracketed
  let ended := if closed.last.kind == .star || closed.last.kind == .bracket then
    closed.push { kind := .stop, value := "", output := some (slashText ++ "?") } else closed
  if ended.rebuild then Text.join "" (ended.pieces.reverse.map Piece.written) else ended.output

end Progress

/-- Globs that others stand for. -/
def simplify (glob : String) : String :=
  if glob = "***" then "*" else if glob = "**/**" ∨ glob = "**/**/**" then "**" else glob

/-- A glob without a dot and a slash at its start. -/
def withoutDot (glob : String) : List Char :=
  match glob.toList with
  | '.' :: '/' :: rest => rest
  | chars => chars

/-- Reads a glob. A glob may hold the end of another one, which is read in turn. -/
def read : Nat → String → Progress
  | 0, _ => { rest := [] }
  | fuel + 1, glob =>
    let chars := withoutDot (simplify glob)
    Progress.run (fun ending => (read fuel ending).finish) (chars.length + 1) { rest := chars }

end Glob
end CodeAtlas
