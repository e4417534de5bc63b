import CodeAtlas.Pattern.Case
import CodeAtlas.Text.Units

/-!
# Matching

Matching tries the ways to match an expression in order and goes on with what follows, so that the
first way that lets the rest match is the one that counts. Behind a look-behind everything runs from
right to left. A loop stops when a further round would consume nothing.
-/

namespace CodeAtlas
namespace Pattern

/-- A place in the text and what the groups have matched so far. -/
structure Match where
  /-- The number of symbols before the place. -/
  place : Nat
  /-- The ends of what each group has matched. -/
  groups : List (Nat × Nat × Nat)

namespace Match

/-- Where a group has matched. -/
def group? (found : Match) (index : Nat) : Option (Nat × Nat) :=
  (found.groups.find? (·.1 = index)).map (·.2)

/-- Forgets a range of groups. -/
def forget (found : Match) (first count : Nat) : Match :=
  { found with groups := found.groups.filter fun group =>
      !(decide (first ≤ group.1) && decide (group.1 < first + count)) }

end Match

/-- What matching goes on with. -/
abbrev Rest := Match → Option Match

/-- Runs the rounds of a loop. Every round after the least number must consume something, so the
rounds never outnumber the fuel. -/
def rounds (body : Match → Rest → Option Match) (first count : Nat) (greedy : Bool) :
    Nat → Nat → Option Nat → Match → Rest → Option Match
  | 0, _, _, found, rest => rest found
  | fuel + 1, least, most, found, rest =>
    if most = some 0 then
      rest found
    else
      let again (_ : Unit) : Option Match :=
        body (found.forget first count) fun next =>
          if least = 0 ∧ next.place = found.place then
            none
          else
            rounds body first count greedy fuel (if next.place = found.place then 0 else least - 1)
              (most.map (· - 1)) next rest
      if 0 < least then again ()
      else if greedy then (again ()).orElse fun _ => rest found
      else (rest found).orElse again

namespace Compiled

/-- Whether a symbol of the text is in a set, case aside if it does not matter. -/
def isIn (flags : Flags) (negated : Bool) (symbols : SymbolSet) (symbol : Nat) : Bool :=
  let found := (Case.alike flags symbol).any symbols.has
  found != negated

/-- Whether the symbol at a place is a word character. -/
def isWord (flags : Flags) (text : Array Nat) (place : Nat) : Bool :=
  match text[place]? with
  | some symbol => (wordSet flags).has symbol
  | none => false

/-- The symbol to be consumed at a place, and the place after it. -/
def consume? (text : Array Nat) (behind : Bool) (place : Nat) : Option (Nat × Nat) :=
  if behind then
    match place with
    | 0 => none
    | place + 1 => text[place]?.map (·, place)
  else
    text[place]?.map (·, place + 1)

/-- Whether two stretches of the text agree, case aside if it does not matter. -/
def agree (flags : Flags) (text : Array Nat) (left right : Nat) : Nat → Bool
  | 0 => true
  | count + 1 =>
    match text[left]?, text[right]? with
    | some first, some second =>
      Case.form flags first == Case.form flags second
        && agree flags text (left + 1) (right + 1) count
    | _, _ => false

/-- Matches again what a group has matched; a group that has matched nothing matches the empty
list. -/
def repeatGroup (flags : Flags) (text : Array Nat) (behind : Bool) (group : Option (Nat × Nat))
    (found : Match) (rest : Rest) : Option Match :=
  match group with
  | none => rest found
  | some (start, stop) =>
    let count := stop - start
    if behind then
      if count ≤ found.place ∧ agree flags text start (found.place - count) count then
        rest { found with place := found.place - count }
      else
        none
    else if found.place + count ≤ text.size ∧ agree flags text start found.place count then
      rest { found with place := found.place + count }
    else
      none

/-- Whether a line ends or starts at a symbol. -/
def isLineEnd (text : Array Nat) (place : Nat) : Bool :=
  match text[place]? with
  | some symbol => SymbolSet.lineEnds.has symbol
  | none => false

/-- Matches an expression at a place and goes on. -/
def run (pattern : Compiled) (text : Array Nat) (behind : Bool) :
    Expr → Match → Rest → Option Match
  | .empty, found, rest => rest found
  | .symbol code, found, rest =>
    match consume? text behind found.place with
    | some (symbol, place) =>
      if Case.form pattern.flags symbol = Case.form pattern.flags code then
        rest { found with place := place }
      else
        none
    | none => none
  | .dot, found, rest =>
    match consume? text behind found.place with
    | some (symbol, place) =>
      if pattern.flags.dotAll || !SymbolSet.lineEnds.has symbol then
        rest { found with place := place }
      else none
    | none => none
  | .set negated symbols, found, rest =>
    match consume? text behind found.place with
    | some (symbol, place) =>
      if isIn pattern.flags negated symbols symbol then rest { found with place := place } else none
    | none => none
  | .start, found, rest =>
    if found.place = 0 || (pattern.flags.multiline && isLineEnd text (found.place - 1)) then
      rest found
    else
      none
  | .stop, found, rest =>
    if found.place = text.size || (pattern.flags.multiline && isLineEnd text found.place) then
      rest found
    else
      none
  | .boundary negated, found, rest =>
    let before := found.place != 0 && isWord pattern.flags text (found.place - 1)
    let after := isWord pattern.flags text found.place
    if (before != after) != negated then rest found else none
  | .seq first second, found, rest =>
    if behind then
      run pattern text behind second found fun next => run pattern text behind first next rest
    else
      run pattern text behind first found fun next => run pattern text behind second next rest
  | .alt first second, found, rest =>
    (run pattern text behind first found rest).orElse fun _ =>
      run pattern text behind second found rest
  | .capture index body, found, rest =>
    run pattern text behind body found fun next =>
      let ends := if behind then (next.place, found.place) else (found.place, next.place)
      rest { next with groups := (index, ends) :: next.groups.filter (·.1 ≠ index) }
  | .look backward negated body, found, rest =>
    match run pattern text backward body found some with
    | some next => if negated then none else rest { next with place := found.place }
    | none => if negated then rest found else none
  | .loop least most greedy first count body, found, rest =>
    rounds (run pattern text behind body) first count greedy (least + text.size + 2) least most
      found rest
  | .repeatGroup index, found, rest =>
    repeatGroup pattern.flags text behind (found.group? index) found rest
  | .recallName name, found, rest =>
    let index := ((pattern.names.find? (·.1 = name)).map (·.2)).getD 0
    repeatGroup pattern.flags text behind (found.group? index) found rest

/-- The symbols of a text. -/
def symbolsOf (flags : Flags) (text : String) : Array Nat :=
  if flags.byCharacter then (text.toList.map Char.toNat).toArray else (Text.units text).toArray

/-- Whether a pattern matches somewhere in a text. -/
def matches? (pattern : Compiled) (text : String) : Bool :=
  let symbols := symbolsOf pattern.flags text
  (List.range (symbols.size + 1)).any fun place =>
    (run pattern symbols false pattern.expr ⟨place, []⟩ some).isSome

end Compiled
end Pattern
end CodeAtlas
