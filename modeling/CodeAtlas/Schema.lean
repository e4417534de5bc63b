import CodeAtlas.Json.Basic
import CodeAtlas.Number.Shortest
import CodeAtlas.Text.Split

/-!
# Checked reading

Reading a structured value collects all its issues. A value of the wrong shape cannot be read; a
value that only breaks a bound is read all the same, so that later checks can look at it. Issues
name the place where they were found.
-/

namespace CodeAtlas
namespace Schema

/-- What is wrong at some place of a value. -/
structure Issue where
  /-- The member names and list positions that lead to the place. -/
  path : List String
  /-- What a reader is told. -/
  message : String
  deriving DecidableEq, Repr

namespace Issue

/-- The place of an issue as a text. -/
def location (issue : Issue) : String := Text.join "." issue.path

/-- An issue with its place, which may be empty. -/
def located (issue : Issue) : String := issue.location ++ ": " ++ issue.message

/-- An issue with its place, if it has one. -/
def text (issue : Issue) : String :=
  if issue.location = "" then issue.message else issue.located

end Issue

/-- What reading a value gives: the value unless its shape is wrong, and all issues. -/
structure Reading (α : Type) where
  /-- The value that was read. -/
  value? : Option α
  /-- The issues in the order in which they were found. -/
  issues : List Issue

namespace Reading

variable {α β : Type}

/-- A value without issues. -/
def accept (value : α) : Reading α := ⟨some value, []⟩

/-- A value of the wrong shape. -/
def refuse (message : String) : Reading α := ⟨none, [⟨[], message⟩]⟩

/-- Applies a function to what was read. -/
def map (change : α → β) (reading : Reading α) : Reading β :=
  ⟨reading.value?.map change, reading.issues⟩

/-- Reads two parts, the issues of the first before those of the second. -/
def both (first : Reading (α → β)) (second : Reading α) : Reading β :=
  ⟨first.value?.bind fun change => second.value?.map change, first.issues ++ second.issues⟩

instance : Applicative Reading where
  pure := accept
  seq first second := both first (second ())
  map := map

/-- Puts a step before the places of all issues. -/
def under (step : String) (reading : Reading α) : Reading α :=
  ⟨reading.value?, reading.issues.map fun issue => { issue with path := step :: issue.path }⟩

/-- Reports a value that was read but does not pass a test. -/
def check (reading : Reading α) (passes : α → Bool) (message : String) : Reading α :=
  match reading.value? with
  | some value =>
    if passes value then reading else ⟨some value, reading.issues ++ [⟨[], message⟩]⟩
  | none => reading

/-- The parts of a list, each with its own issues. -/
def all : List (Reading α) → Reading (List α)
  | [] => accept []
  | reading :: readings => both (reading.map List.cons) (all readings)

/-- The value of a reading without issues, or the issues. -/
def result (reading : Reading α) : Except (List Issue) α :=
  match reading.value?, reading.issues with
  | some value, [] => .ok value
  | _, issues => .error issues

end Reading

/-- Reads a value that may be absent. -/
abbrev Reader (α : Type) := Option Json → Reading α

/-- The word for the kind of a value that may be absent. -/
def kindOf (input : Option Json) : String := (input.map Json.kindName).getD "undefined"

/-- A value of another kind than expected. -/
def unexpected {α : Type} (expected : String) (input : Option Json) : Reading α :=
  .refuse s!"Invalid input: expected {expected}, received {kindOf input}"

/-- Reads a text. -/
def text : Reader String
  | some (.str value) => .accept value
  | input => unexpected "string" input

/-- Reads a text that is not empty. An empty list is reported for being empty too. -/
def someText : Reader String
  | some (.str value) =>
    (Reading.accept value).check (· != "") "Too small: expected string to have >=1 characters"
  | some (.arr []) =>
    let reading : Reading String := unexpected "string" (some (.arr []))
    ⟨none, reading.issues ++ [⟨[], "Too small: expected array to have >=1 items"⟩]⟩
  | input => unexpected "string" input

/-- Reads a truth value. -/
def flag : Reader Bool
  | some (.bool value) => .accept value
  | input => unexpected "boolean" input

/-- Reads a finite number. -/
def number : Reader Float := fun input =>
  match input with
  | some (.num value) =>
    if value.isNaN || value.isInf then unexpected "number" input else .accept value
  | _ => unexpected "number" input

/-- The greatest number up to which all integers are numbers. -/
def greatestWhole : Float := 9007199254740991

/-- Reads an integer; one that is too large to be exact is reported. -/
def whole : Reader Float := fun input =>
  let reading := number input
  match reading.value? with
  | some value =>
    if Number.isWhole value then
      (reading.check (· ≤ greatestWhole)
        s!"Too big: expected int to be <{Number.text greatestWhole}").check (-greatestWhole ≤ ·)
        s!"Too small: expected int to be >-{Number.text greatestWhole}"
    else
      unexpected "int" input
  | none => reading

/-- Reports a number below a bound. -/
def atLeast (bound : Float) (reader : Reader Float) : Reader Float := fun input =>
  (reader input).check (bound ≤ ·) s!"Too small: expected number to be >={Number.text bound}"

/-- Reports a number that is not above a bound. -/
def above (bound : Float) (reader : Reader Float) : Reader Float := fun input =>
  (reader input).check (bound < ·) s!"Too small: expected number to be >{Number.text bound}"

/-- Reports a number above a bound. -/
def atMost (bound : Float) (reader : Reader Float) : Reader Float := fun input =>
  (reader input).check (· ≤ bound) s!"Too big: expected number to be <={Number.text bound}"

/-- Reads one of a list of words. -/
def choice {α : Type} (words : List (String × α)) : Reader α := fun input =>
  match (input.bind Json.text?).bind fun word => words.find? (·.1 = word) with
  | some entry => .accept entry.2
  | none =>
    let options := words.map fun entry => "\"" ++ entry.1 ++ "\""
    .refuse ("Invalid option: expected one of " ++ Text.join "|" options)

/-- Reads a list. -/
def list {α : Type} (item : Reader α) : Reader (List α)
  | some (.arr items) =>
    .all (items.zipIdx.map fun (value, index) => (item (some value)).under (toString index))
  | input => unexpected "array" input

/-- Reads members of any names, except that one named `__proto__` is passed over. An object with a
member named `constructor` is no record. -/
def entries {α : Type} (item : Reader α) : Reader (List (String × α))
  | some (.obj members) =>
    if members.any (·.1 = "constructor") then
      unexpected "record" (some (.obj members))
    else
      .all ((members.filter (·.1 ≠ "__proto__")).map fun (name, value) =>
        ((item (some value)).under name).map (name, ·))
  | input => unexpected "record" input

/-- Reads an absent value as a given one. -/
def orElse {α : Type} (otherwise : α) (reader : Reader α) : Reader α
  | none => .accept otherwise
  | input => reader input

/-- Reads a value that may be absent. -/
def optional {α : Type} (reader : Reader α) : Reader (Option α)
  | none => .accept none
  | input => (reader input).map some

/-- Reads an object by its members. -/
def object {α : Type} (read : (String → Option Json) → Reading α) : Reader α
  | some (.obj members) => read fun name => (Json.obj members).member? name
  | input => unexpected "object" input

/-- Reads an object that may be absent: then none of its members is there. -/
def objectOrEmpty {α : Type} (read : (String → Option Json) → Reading α) : Reader α
  | none => read fun _ => none
  | input => object read input

/-- Reads one member. -/
def member {α : Type} (members : String → Option Json) (name : String) (reader : Reader α) :
    Reading α :=
  (reader (members name)).under name

end Schema
end CodeAtlas
