import CodeAtlas.Pattern.Category
import CodeAtlas.Text.Units

/-!
# Reading patterns

A pattern is read from left to right with a stack of open groups. Outside Unicode mode the grammar
is lenient: a bracket or an escape that means nothing stands for itself. `Pattern.compile` gives the
pattern or the fault for which it is refused.
-/

namespace CodeAtlas
namespace Pattern

/-- Why a pattern is refused. -/
inductive Fault where
  | unterminatedGroup
  | unmatchedParenthesis
  | escapeAtEnd
  | invalidPropertyName
  | invalidClassPropertyName
  | invalidEscape
  | invalidDecimalEscape
  | invalidClassEscape
  | invalidUnicodeEscape
  | nothingToRepeat
  | loneBrackets
  | numbersOutOfOrder
  | incompleteQuantifier
  | invalidQuantifier
  | invalidGroup
  | invalidName
  | duplicateName
  | invalidNamedReference
  | unknownName
  | invalidClass
  | unterminatedClass
  | rangeOutOfOrder
  | invalidSetOperation
  | invalidClassCharacter
  deriving DecidableEq, Repr

/-- What a reader is told about a fault. -/
def Fault.message : Fault → String
  | unterminatedGroup => "Unterminated group"
  | unmatchedParenthesis => "Unmatched ')'"
  | escapeAtEnd => "\\ at end of pattern"
  | invalidPropertyName => "Invalid property name"
  | invalidClassPropertyName => "Invalid property name in character class"
  | invalidEscape => "Invalid escape"
  | invalidDecimalEscape => "Invalid decimal escape"
  | invalidClassEscape => "Invalid class escape"
  | invalidUnicodeEscape => "Invalid Unicode escape"
  | nothingToRepeat => "Nothing to repeat"
  | loneBrackets => "Lone quantifier brackets"
  | numbersOutOfOrder => "numbers out of order in \x7b\x7d quantifier"
  | incompleteQuantifier => "Incomplete quantifier"
  | invalidQuantifier => "Invalid quantifier"
  | invalidGroup => "Invalid group"
  | invalidName => "Invalid capture group name"
  | duplicateName => "Duplicate capture group name"
  | invalidNamedReference => "Invalid named reference"
  | unknownName => "Invalid named capture referenced"
  | invalidClass => "Invalid character class"
  | unterminatedClass => "Unterminated character class"
  | rangeOutOfOrder => "Range out of order in character class"
  | invalidSetOperation => "Invalid set operation in character class"
  | invalidClassCharacter => "Invalid character in character class"

/-- The code of a character. -/
def code (char : Char) : Nat := char.toNat

/-- Whether a symbol is a decimal digit. -/
def isDigit (symbol : Nat) : Bool := 48 ≤ symbol && symbol ≤ 57

/-- Whether a symbol is an ASCII letter. -/
def isLetter (symbol : Nat) : Bool :=
  (65 ≤ symbol && symbol ≤ 90) || (97 ≤ symbol && symbol ≤ 122)

/-- The value of a hexadecimal digit. -/
def hexDigit? (symbol : Nat) : Option Nat :=
  if isDigit symbol then some (symbol - 48)
  else if 65 ≤ symbol ∧ symbol ≤ 70 then some (symbol - 55)
  else if 97 ≤ symbol ∧ symbol ≤ 102 then some (symbol - 87)
  else none

/-- Reads a fixed count of hexadecimal digits. -/
def readHex? : Nat → Nat → List Nat → Option (Nat × List Nat)
  | 0, value, rest => some (value, rest)
  | count + 1, value, symbol :: rest =>
    match hexDigit? symbol with
    | some digit => readHex? count (value * 16 + digit) rest
    | none => none
  | _ + 1, _, [] => none

/-- What is known of the whole pattern while it is read. -/
structure Setting where
  /-- The flags of the pattern. -/
  flags : Flags
  /-- The number of groups of the pattern. -/
  groupCount : Nat
  /-- Whether some group has a name. -/
  hasNames : Bool

/-- Skips a class, its opening bracket being behind. -/
def skipClass : List Nat → List Nat
  | [] => []
  | [_] => []
  | symbol :: next :: rest =>
    if symbol = code '\\' then skipClass rest
    else if symbol = code ']' then next :: rest
    else skipClass (next :: rest)

/-- Counts the groups of a pattern and looks for names. -/
def countGroups : Nat → Nat → Bool → List Nat → Nat × Bool
  | 0, count, named, _ => (count, named)
  | _, count, named, [] => (count, named)
  | fuel + 1, count, named, symbol :: rest =>
    if symbol = code '\\' then
      countGroups fuel count named (rest.drop 1)
    else if symbol = code '[' then
      countGroups fuel count named (skipClass rest)
    else if symbol = code '(' then
      match rest with
      | mark :: after =>
        if mark = code '?' then
          match after with
          | angle :: next :: _ =>
            if angle = code '<' ∧ next ≠ code '=' ∧ next ≠ code '!' then
              countGroups fuel (count + 1) true after
            else
              countGroups fuel count named after
          | _ => countGroups fuel count named after
        else
          countGroups fuel (count + 1) named rest
      | [] => (count + 1, named)
    else
      countGroups fuel count named rest

/-- Reads `XXXX`, or in Unicode mode `{X…}` or a pair of surrogates, after a backslash and `u`. -/
def readUnicodeEscape? (byCharacter : Bool) (symbols : List Nat) : Option (Nat × List Nat) :=
  match symbols with
  | brace :: rest =>
    if brace = code '\x7b' ∧ byCharacter then
      let digits := rest.takeWhile fun symbol => (hexDigit? symbol).isSome
      let value := digits.foldl (fun value digit => value * 16 + (hexDigit? digit).getD 0) 0
      match rest.drop digits.length with
      | closing :: after =>
        if closing = code '\x7d' ∧ digits ≠ [] ∧ value ≤ 0x10FFFF then some (value, after) else none
      | [] => none
    else
      match readHex? 4 0 symbols with
      | none => none
      | some (value, rest) =>
        if byCharacter ∧ 0xD800 ≤ value ∧ value ≤ 0xDBFF then
          match rest with
          | slash :: letter :: after =>
            if slash = code '\\' ∧ letter = code 'u' then
              match readHex? 4 0 after with
              | some (low, final) =>
                if 0xDC00 ≤ low ∧ low ≤ 0xDFFF then
                  some (0x10000 + (value - 0xD800) * 0x400 + (low - 0xDC00), final)
                else
                  some (value, rest)
              | none => some (value, rest)
            else
              some (value, rest)
          | _ => some (value, rest)
        else
          some (value, rest)
  | [] => none

/-- Reads up to three octal digits of a value below 256, the first being a digit below eight. -/
def readOctal (symbols : List Nat) : Nat × List Nat :=
  let isOctal (symbol : Nat) : Bool := 48 ≤ symbol && symbol ≤ 55
  match symbols with
  | first :: second :: third :: rest =>
    if !isOctal second then (first - 48, second :: third :: rest)
    else if isOctal third ∧ first - 48 < 4 then
      (((first - 48) * 8 + (second - 48)) * 8 + (third - 48), rest)
    else ((first - 48) * 8 + (second - 48), third :: rest)
  | [first, second] =>
    if isOctal second then ((first - 48) * 8 + (second - 48), []) else (first - 48, [second])
  | [first] => (first - 48, [])
  | [] => (0, [])

/-- The characters that the grammar uses. -/
def syntaxSymbols : List Nat := "^$\\.*+?()[]\x7b\x7d|/".toList.map code

/-- Reads a character escape after its backslash. -/
def readEscape (setting : Setting) (inClass : Bool) : List Nat → Except Fault (Nat × List Nat)
  | [] => .error .escapeAtEnd
  | symbol :: rest =>
    let strict := setting.flags.byCharacter
    if symbol = code 'f' then .ok (12, rest)
    else if symbol = code 'n' then .ok (10, rest)
    else if symbol = code 'r' then .ok (13, rest)
    else if symbol = code 't' then .ok (9, rest)
    else if symbol = code 'v' then .ok (11, rest)
    else if symbol = code 'c' then
      match rest with
      | letter :: after =>
        if isLetter letter then .ok (letter % 32, after)
        else if strict then .error .invalidUnicodeEscape
        else if inClass ∧ (isDigit letter ∨ letter = code '_') then .ok (letter % 32, after)
        else .ok (code '\\', symbol :: rest)
      | [] => if strict then .error .invalidUnicodeEscape else .ok (code '\\', symbol :: rest)
    else if 48 ≤ symbol ∧ symbol ≤ 55 then
      let next := rest.head?.getD 0
      if symbol = 48 ∧ !isDigit next then .ok (0, rest)
      else if strict then .error (if inClass then .invalidClassEscape else .invalidDecimalEscape)
      else .ok (readOctal (symbol :: rest))
    else if symbol = code 'x' then
      match readHex? 2 0 rest with
      | some found => .ok found
      | none => if strict then .error .invalidEscape else .ok (symbol, rest)
    else if symbol = code 'u' then
      match readUnicodeEscape? strict rest with
      | some found => .ok found
      | none => if strict then .error .invalidUnicodeEscape else .ok (symbol, rest)
    else if strict then
      if syntaxSymbols.contains symbol ∨ (inClass ∧ symbol = code '-') then .ok (symbol, rest)
      else .error .invalidEscape
    else if setting.hasNames ∧ symbol = code 'k' then .error .invalidEscape
    else .ok (symbol, rest)

/-- Reads the name of a property in braces. -/
def readProperty? (symbols : List Nat) : Option (SymbolSet × List Nat) :=
  match symbols with
  | brace :: rest =>
    if brace = code '\x7b' then
      let inside := rest.takeWhile (· ≠ code '\x7d')
      match rest.drop inside.length with
      | _ :: after =>
        let name := inside.takeWhile (· ≠ code '=')
        let value := match inside.drop name.length with
          | _ :: value => some (String.ofList (value.map Char.ofNat))
          | [] => none
        (Category.property? (String.ofList (name.map Char.ofNat)) value).map (·, after)
      | [] => none
    else
      none
  | [] => none

/-- Reads an escape that stands for a set, after its backslash. -/
def readSetEscape? (setting : Setting) (inClass : Bool) :
    List Nat → Option (Except Fault (SymbolSet × List Nat))
  | [] => none
  | symbol :: rest =>
    let flags := setting.flags
    if symbol = code 'd' then some (.ok (SymbolSet.digits, rest))
    else if symbol = code 'D' then some (.ok (SymbolSet.digits.complement, rest))
    else if symbol = code 's' then some (.ok (SymbolSet.blanks, rest))
    else if symbol = code 'S' then some (.ok (SymbolSet.blanks.complement, rest))
    else if symbol = code 'w' then some (.ok (wordSet flags, rest))
    else if symbol = code 'W' then some (.ok ((wordSet flags).complement, rest))
    else if (symbol = code 'p' ∨ symbol = code 'P') ∧ flags.byCharacter then
      some (match readProperty? rest with
        | some (set, after) => .ok (if symbol = code 'P' then set.complement else set, after)
        | none => .error (if inClass then .invalidClassPropertyName else .invalidPropertyName))
    else none

/-- One part of a class: a symbol or a set. -/
inductive ClassAtom where
  | symbol (code : Nat)
  | set (symbols : SymbolSet)

/-- A part of a class as a set. -/
def ClassAtom.toSet : ClassAtom → SymbolSet
  | symbol code => [(code, code)]
  | set symbols => symbols

/-- Reads one part of a class. -/
def readClassAtom (setting : Setting) : List Nat → Except Fault (ClassAtom × List Nat)
  | [] => .error .unterminatedClass
  | symbol :: rest =>
    if symbol = code '\\' then
      match rest with
      | [] => .error .escapeAtEnd
      | next :: after =>
        if next = code 'b' then
          .ok (.symbol 8, after)
        else
          match readSetEscape? setting true rest with
          | some outcome => outcome.map fun (set, after) => (.set set, after)
          | none => (readEscape setting true rest).map fun (found, after) => (.symbol found, after)
    else
      .ok (.symbol symbol, rest)

/-- Reads the ranges of a class up to its closing bracket. -/
def readRanges (setting : Setting) : Nat → SymbolSet → List Nat →
    Except Fault (SymbolSet × List Nat)
  | 0, _, _ => .error .unterminatedClass
  | _, _, [] => .error .unterminatedClass
  | fuel + 1, set, symbol :: rest =>
    if symbol = code ']' then
      .ok (set, rest)
    else do
      let (first, rest) ← readClassAtom setting (symbol :: rest)
      match rest with
      | dash :: after =>
        if dash = code '-' then
          match after with
          | [] => .error .unterminatedClass
          | next :: _ =>
            if next = code ']' then
              readRanges setting fuel (set ++ first.toSet ++ [(dash, dash)]) after
            else do
              let (second, rest) ← readClassAtom setting after
              match first, second with
              | .symbol low, .symbol high =>
                if high < low then .error .rangeOutOfOrder
                else readRanges setting fuel (set ++ [(low, high)]) rest
              | _, _ =>
                if setting.flags.byCharacter then .error .invalidClass
                else
                  readRanges setting fuel (set ++ first.toSet ++ [(dash, dash)] ++ second.toSet)
                    rest
        else
          readRanges setting fuel (set ++ first.toSet) rest
      | [] => .error .unterminatedClass

/-- The operation between the parts of a class with set operations. -/
inductive SetOperation where
  | union
  | intersection
  | subtraction
  deriving DecidableEq

/-- The characters that must be escaped in a class with set operations. -/
def setSyntaxSymbols : List Nat := "()[]\x7b\x7d/-\\|".toList.map code

/-- The characters that must not be doubled in a class with set operations. -/
def setPunctuators : List Nat := "&!#$%*+,.:;<=>?@^\x60~".toList.map code

/-- Reads a symbol of a class with set operations. -/
def readSetSymbol (setting : Setting) : List Nat → Except Fault (Nat × List Nat)
  | [] => .error .unterminatedClass
  | symbol :: rest =>
    if symbol = code '\\' then
      match rest with
      | [] => .error .escapeAtEnd
      | next :: after =>
        if next = code 'b' then .ok (8, after)
        else if (setPunctuators ++ [code '-']).contains next then .ok (next, after)
        else readEscape setting true rest
    else if setSyntaxSymbols.contains symbol then
      .error .invalidClassCharacter
    else if setPunctuators.contains symbol ∧ rest.head? = some symbol then
      .error .invalidSetOperation
    else
      .ok (symbol, rest)

/-- The meaning of a set joined to another. -/
def SetOperation.apply : SetOperation → SymbolSet → SymbolSet → SymbolSet
  | union, left, right => left ++ right
  | intersection, left, right => SymbolSet.minus left right.complement
  | subtraction, left, right => SymbolSet.minus left right

/-- Reads a class with set operations up to its closing bracket. `operation` is fixed by the first
operator between parts. -/
def readSetParts (setting : Setting) : Nat → Option SetOperation → Option SymbolSet → List Nat →
    Except Fault (SymbolSet × List Nat)
  | 0, _, _, _ => .error .unterminatedClass
  | _, _, _, [] => .error .unterminatedClass
  | fuel + 1, operation, set, symbol :: rest =>
    if symbol = code ']' then
      .ok (set.getD [], rest)
    else
      let doubled := rest.head? = some symbol
      if symbol = code '-' ∧ doubled ∧ set.isSome then
        if operation = none ∨ operation = some .subtraction then
          readSetOperand setting fuel .subtraction set (rest.drop 1)
        else
          .error .invalidSetOperation
      else if symbol = code '&' ∧ doubled ∧ set.isSome then
        if operation = none ∨ operation = some .intersection then
          readSetOperand setting fuel .intersection set (rest.drop 1)
        else
          .error .invalidSetOperation
      else if operation = some .subtraction ∨ operation = some .intersection then
        .error .invalidSetOperation
      else
        readSetOperand setting fuel .union set (symbol :: rest)
where
  /-- Reads one part and joins it to what has been read. -/
  readSetOperand (setting : Setting) : Nat → SetOperation → Option SymbolSet → List Nat →
      Except Fault (SymbolSet × List Nat)
    | 0, _, _, _ => .error .unterminatedClass
    | _, _, _, [] => .error .unterminatedClass
    | fuel + 1, operation, set, symbol :: rest => do
      let joined (part : SymbolSet) : SymbolSet := match set with
        | some set => operation.apply set part
        | none => part
      let next := match operation, set with
        | .union, none => none
        | operation, _ => some operation
      if symbol = code '[' then
        let (negated, rest) := match rest with
          | hat :: after => if hat = code '^' then (true, after) else (false, rest)
          | [] => (false, rest)
        let (part, rest) ← readSetParts setting fuel none none rest
        readSetParts setting fuel next (joined (if negated then part.complement else part)) rest
      else
        let escaped := if symbol = code '\\' then readSetEscape? setting true rest else none
        match escaped with
        | some outcome => do
          let (part, rest) ← outcome
          readSetParts setting fuel next (joined part) rest
        | none => do
          let (low, rest) ← readSetSymbol setting (symbol :: rest)
          match rest with
          | dash :: after =>
            if dash = code '-' ∧ after.head? ≠ some (code '-') ∧ operation = .union then do
              let (high, rest) ← readSetSymbol setting after
              if high < low then .error .rangeOutOfOrder
              else readSetParts setting fuel (some .union) (joined [(low, high)]) rest
            else
              readSetParts setting fuel next (joined [(low, low)]) rest
          | [] => .error .unterminatedClass

/-- Reads a class after its opening bracket. -/
def readClass (setting : Setting) (symbols : List Nat) : Except Fault (Expr × List Nat) := do
  let (negated, rest) := match symbols with
    | hat :: rest => if hat = code '^' then (true, rest) else (false, symbols)
    | [] => (false, [])
  if setting.flags.unicodeSets then
    let (set, rest) ← readSetParts setting (2 * rest.length + 2) none none rest
    pure (.set negated set, rest)
  else
    let (set, rest) ← readRanges setting (rest.length + 1) [] rest
    pure (.set negated set, rest)

/-- Whether a character may open the name of a group. -/
def isNameStart (symbol : Nat) : Bool :=
  isLetter symbol || symbol == code '$' || symbol == code '_'
    || (128 ≤ symbol && ((Category.binary? "Alphabetic").getD []).has symbol)

/-- Whether a character may continue the name of a group. -/
def isNamePart (symbol : Nat) : Bool :=
  isNameStart symbol || isDigit symbol || symbol == 0x200C || symbol == 0x200D
    || (128 ≤ symbol && SymbolSet.has (["Mn", "Mc", "Nd", "Pc"].flatMap Category.symbols) symbol)

/-- Reads the name of a group up to its closing angle. -/
def readName : Nat → List Nat → List Nat → Except Fault (List Nat × List Nat)
  | 0, _, _ => .error .invalidName
  | _, _, [] => .error .invalidName
  | fuel + 1, name, symbol :: rest =>
    if symbol = code '>' ∧ name ≠ [] then
      .ok (name.reverse, rest)
    else do
      let (symbol, rest) ←
        if symbol = code '\\' then
          match rest with
          | letter :: after =>
            if letter = code 'u' then
              match readUnicodeEscape? true after with
              | some found => .ok found
              | none => .error .invalidUnicodeEscape
            else
              .error .invalidName
          | [] => .error .invalidName
        else if 0xD800 ≤ symbol ∧ symbol ≤ 0xDBFF then
          match rest with
          | low :: after =>
            .ok (0x10000 + (symbol - 0xD800) * 0x400 + (low - 0xDC00), after)
          | [] => .error .invalidName
        else
          .ok (symbol, rest)
      if (if name = [] then isNameStart symbol else isNamePart symbol) then
        readName fuel (symbol :: name) rest
      else
        .error .invalidName

/-- What an open group will become. -/
inductive GroupKind where
  | capture (index : Nat)
  | plain
  | look (behind negated : Bool)

/-- A group that is open, with what stands before it in the group around it. -/
structure OpenGroup where
  /-- What the group will become. -/
  kind : GroupKind
  /-- The name of the group. -/
  name : Option (List Nat)
  /-- The finished alternatives around the group, last first. -/
  alternatives : List Expr
  /-- The terms before the group, last first. -/
  terms : List Expr

/-- How far a pattern has been read. -/
structure Reading where
  /-- The open groups, innermost first. -/
  groups : List OpenGroup := []
  /-- The finished alternatives of the innermost group, last first. -/
  alternatives : List Expr := []
  /-- The terms of the current alternative, last first. -/
  terms : List Expr := []
  /-- The number of groups so far. -/
  count : Nat := 0
  /-- The named groups so far. -/
  names : List (List Nat × Nat) := []
  /-- The names that have been referred to. -/
  recalled : List (List Nat) := []

namespace Reading

/-- The terms of the current alternative as one expression. -/
def sequence (reading : Reading) : Expr :=
  reading.terms.foldl (fun rest term => .seq term rest) .empty

/-- The alternatives of the innermost group as one expression. -/
def choice (reading : Reading) : Expr :=
  reading.alternatives.foldl (fun rest first => .alt first rest) reading.sequence

/-- Adds a term. -/
def push (reading : Reading) (term : Expr) : Reading :=
  { reading with terms := term :: reading.terms }

/-- Starts the next alternative. -/
def nextAlternative (reading : Reading) : Reading :=
  { reading with alternatives := reading.sequence :: reading.alternatives, terms := [] }

/-- Opens a group. -/
def enter (reading : Reading) (kind : GroupKind) (name : Option (List Nat)) : Reading :=
  { reading with
    groups := ⟨kind, name, reading.alternatives, reading.terms⟩ :: reading.groups
    alternatives := []
    terms := [] }

/-- Closes the innermost group. -/
def leave? (reading : Reading) : Option Reading :=
  match reading.groups with
  | [] => none
  | group :: groups =>
    let body := reading.choice
    let term := match group.kind with
      | .capture index => Expr.capture index body
      | .plain => body
      | .look behind negated => .look behind negated body
    some { reading with
      groups := groups, alternatives := group.alternatives, terms := term :: group.terms }

/-- Whether a numbered group is open. -/
def isInside (reading : Reading) (index : Nat) : Bool :=
  reading.groups.any fun group => match group.kind with
    | .capture found => found == index
    | _ => false

/-- Whether a named group is open. -/
def isInsideName (reading : Reading) (name : List Nat) : Bool :=
  reading.groups.any fun group => group.name == some name

end Reading

/-- The greatest count a quantifier can name. -/
def countLimit : Nat := 2147483647

/-- Reads decimal digits as a count. -/
def readCount (symbols : List Nat) : Nat × List Nat :=
  let digits := symbols.takeWhile isDigit
  (min countLimit (digits.foldl (fun value digit => value * 10 + (digit - 48)) 0),
    symbols.drop digits.length)

/-- A count, with no bound for the greatest one. -/
def upperCount (count : Nat) : Option Nat :=
  if count = countLimit then none else some count

/-- Reads a counted quantifier after its opening brace. -/
def readInterval? (symbols : List Nat) : Option (Nat × Option Nat × List Nat) :=
  match symbols with
  | first :: _ =>
    if isDigit first then
      let (least, rest) := readCount symbols
      match rest with
      | mark :: after =>
        if mark = code '\x7d' then
          some (least, upperCount least, after)
        else if mark = code ',' then
          match after with
          | next :: final =>
            if next = code '\x7d' then
              some (least, none, final)
            else
              let (most, rest) := readCount after
              match rest with
              | closing :: final =>
                if closing = code '\x7d' then some (least, upperCount most, final) else none
              | [] => none
          | [] => none
        else
          none
      | [] => none
    else
      none
  | [] => none

/-- The number of groups of an expression and the least index among them. -/
def groupsOf : Expr → List Nat
  | .seq first second | .alt first second => groupsOf first ++ groupsOf second
  | .capture index body => index :: groupsOf body
  | .look _ _ body => groupsOf body
  | .loop _ _ _ _ _ body => groupsOf body
  | _ => []

/-- Whether an expression is a look-around that may not be repeated. -/
def isFixed (setting : Setting) : Expr → Bool
  | .look behind _ _ => behind || setting.flags.byCharacter
  | _ => false

/-- Repeats the last term. -/
def repeatLast (setting : Setting) (least : Nat) (most : Option Nat) (greedy : Bool)
    (reading : Reading) : Except Fault Reading :=
  match reading.terms with
  | [] => .ok reading
  | last :: terms =>
    if isFixed setting last then
      .error .invalidQuantifier
    else
      let groups := groupsOf last
      let first := groups.foldl min (groups.headD 0)
      .ok { reading with
        terms := .loop least most greedy first groups.length last :: terms }

/-- Reads the quantifier after a term, if there is one. -/
def readQuantifier (setting : Setting) (reading : Reading) (symbols : List Nat) :
    Except Fault (Reading × List Nat) :=
  let finish (least : Nat) (most : Option Nat) (rest : List Nat) :
      Except Fault (Reading × List Nat) :=
    match rest with
    | mark :: after =>
      if mark = code '?' then
        (repeatLast setting least most false reading).map (·, after)
      else
        (repeatLast setting least most true reading).map (·, rest)
    | [] => (repeatLast setting least most true reading).map (·, [])
  match symbols with
  | [] => .ok (reading, [])
  | symbol :: rest =>
    if symbol = code '*' then finish 0 none rest
    else if symbol = code '+' then finish 1 none rest
    else if symbol = code '?' then finish 0 (some 1) rest
    else if symbol = code '\x7b' then
      match readInterval? rest with
      | some (least, most, after) =>
        match most with
        | some bound =>
          if bound < least then .error .numbersOutOfOrder else finish least most after
        | none => finish least most after
      | none =>
        if setting.flags.byCharacter then .error .incompleteQuantifier else .ok (reading, symbols)
    else .ok (reading, symbols)

/-- Reads what follows an opening parenthesis. -/
def readOpening (reading : Reading) (symbols : List Nat) : Except Fault (Reading × List Nat) :=
  let index := reading.count + 1
  let capture := { reading with count := index }
  match symbols with
  | mark :: rest =>
    if mark = code '?' then
      match rest with
      | symbol :: after =>
        if symbol = code ':' then .ok (reading.enter .plain none, after)
        else if symbol = code '=' then .ok (reading.enter (.look false false) none, after)
        else if symbol = code '!' then .ok (reading.enter (.look false true) none, after)
        else if symbol = code '<' then
          match after with
          | next :: final =>
            if next = code '=' then .ok (reading.enter (.look true false) none, final)
            else if next = code '!' then .ok (reading.enter (.look true true) none, final)
            else do
              let (name, rest) ← readName (after.length + 1) [] after
              if reading.names.any (·.1 = name) then .error .duplicateName
              else .ok ({ capture with names := (name, index) :: reading.names }.enter
                (.capture index) (some name), rest)
          | [] => .error .invalidName
        else .error .invalidGroup
      | [] => .error .invalidGroup
    else
      .ok (capture.enter (.capture index) none, symbols)
  | [] => .ok (capture.enter (.capture index) none, [])

/-- Reads a decimal escape as a reference to a group, if there are so many. -/
def readGroupNumber? (setting : Setting) (symbols : List Nat) : Option (Nat × List Nat) :=
  let digits := symbols.takeWhile isDigit
  let value := digits.foldl (fun value digit => value * 10 + (digit - 48)) 0
  if value ≤ setting.groupCount then some (value, symbols.drop digits.length) else none

/-- Reads an escape outside a class, after its backslash. The flag says whether a quantifier may
follow. -/
def readAtomEscape (setting : Setting) (reading : Reading) (symbols : List Nat) :
    Except Fault (Reading × List Nat × Bool) :=
  let plain (outcome : Except Fault (Nat × List Nat)) : Except Fault (Reading × List Nat × Bool) :=
    outcome.map fun (found, rest) => (reading.push (.symbol found), rest, true)
  match symbols with
  | [] => .error .escapeAtEnd
  | symbol :: rest =>
    let strict := setting.flags.byCharacter
    if 49 ≤ symbol ∧ symbol ≤ 57 then
      match readGroupNumber? setting symbols with
      | some (index, rest) =>
        .ok (reading.push (if reading.isInside index then .empty else .repeatGroup index),
          rest, true)
      | none =>
        if strict then .error .invalidEscape
        else if 56 ≤ symbol then .ok (reading.push (.symbol symbol), rest, true)
        else plain (.ok (readOctal symbols))
    else if symbol = 48 then
      if strict ∧ isDigit (rest.head?.getD 0) then .error .invalidDecimalEscape
      else plain (.ok (readOctal symbols))
    else if symbol = code 'b' then .ok (reading.push (.boundary false), rest, false)
    else if symbol = code 'B' then .ok (reading.push (.boundary true), rest, false)
    else if symbol = code 'k' ∧ (strict ∨ setting.hasNames) then
      match rest with
      | angle :: after =>
        if angle = code '<' then do
          let (name, rest) ← readName (after.length + 1) [] after
          if reading.isInsideName name then
            .ok (reading.push .empty, rest, true)
          else
            .ok ({ reading with recalled := name :: reading.recalled }.push (.recallName name),
              rest, true)
        else
          .error .invalidNamedReference
      | [] => .error .invalidNamedReference
    else
      match readSetEscape? setting false symbols with
      | some outcome =>
        outcome.map fun (set, rest) => (reading.push (.set false set), rest, true)
      | none => plain (readEscape setting false symbols)

/-- Reads one term and what follows it. -/
def readTerm (setting : Setting) (reading : Reading) (symbol : Nat) (rest : List Nat) :
    Except Fault (Reading × List Nat) :=
  if symbol = code ')' then
    match reading.leave? with
    | some reading => readQuantifier setting reading rest
    | none => .error .unmatchedParenthesis
  else if symbol = code '|' then
    .ok (reading.nextAlternative, rest)
  else if symbol = code '*' ∨ symbol = code '+' ∨ symbol = code '?' then
    .error .nothingToRepeat
  else if symbol = code '^' then
    .ok (reading.push .start, rest)
  else if symbol = code '$' then
    .ok (reading.push .stop, rest)
  else if symbol = code '(' then
    readOpening reading rest
  else if symbol = code '.' then
    readQuantifier setting (reading.push .dot) rest
  else if symbol = code '[' then do
    let (expr, rest) ← readClass setting rest
    readQuantifier setting (reading.push expr) rest
  else if symbol = code '\\' then do
    let (reading, rest, quantifiable) ← readAtomEscape setting reading rest
    if quantifiable then readQuantifier setting reading rest else .ok (reading, rest)
  else if symbol = code '\x7b' ∧ (readInterval? rest).isSome then
    .error .nothingToRepeat
  else if (symbol = code '\x7b' ∨ symbol = code '\x7d' ∨ symbol = code ']')
      ∧ setting.flags.byCharacter then
    .error .loneBrackets
  else
    readQuantifier setting (reading.push (.symbol symbol)) rest

/-- Reads terms to the end of the pattern; every term consumes a symbol. -/
def readTerms (setting : Setting) : Nat → Reading → List Nat → Except Fault Reading
  | 0, reading, _ => .ok reading
  | _, reading, [] => if reading.groups.isEmpty then .ok reading else .error .unterminatedGroup
  | fuel + 1, reading, symbol :: rest => do
    let (reading, rest) ← readTerm setting reading symbol rest
    readTerms setting fuel reading rest

/-- Reads a pattern. -/
def parse (flags : Flags) (source : String) : Except Fault Compiled := do
  let symbols := if flags.byCharacter then source.toList.map Char.toNat else Text.units source
  let (groupCount, hasNames) := countGroups (symbols.length + 1) 0 false symbols
  let setting := ⟨flags, groupCount, hasNames⟩
  let reading ← readTerms setting (symbols.length + 1) {} symbols
  if reading.recalled.all fun name => reading.names.any (·.1 = name) then
    pure ⟨flags, reading.choice, reading.names⟩
  else
    .error .unknownName

/-- Why a pattern with flags is refused. -/
inductive CompileError where
  /-- The flags are no flags. -/
  | unknownFlags (letters : String)
  /-- The pattern has a fault. -/
  | faulty (source : String) (flags : Flags) (fault : Fault)

/-- What a reader is told. -/
def CompileError.message : CompileError → String
  | unknownFlags letters => s!"Invalid flags supplied to RegExp constructor '{letters}'"
  | faulty source flags fault =>
    "Invalid regular expression: /" ++ source ++ "/" ++ flags.text ++ ": " ++ fault.message

/-- Compiles a pattern with its flags. -/
def compile (source letters : String) : Except CompileError Compiled :=
  match Flags.ofText? letters with
  | none => .error (.unknownFlags letters)
  | some flags =>
    match parse flags source with
    | .ok compiled => .ok compiled
    | .error fault => .error (.faulty source flags fault)

end Pattern
end CodeAtlas
