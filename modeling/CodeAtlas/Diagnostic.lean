import CodeAtlas.Json.Basic

/-!
# Diagnostics

A recorded problem names the file, line, element or relationship it is about. Lists of diagnostics
are sorted by file, line, code, subject and message, a missing key standing before every present
one, so that two runs over one tree report one list.
-/

namespace CodeAtlas

/-- How serious a recorded problem is. -/
inductive Severity where
  | info
  | warning
  | error
  deriving DecidableEq, Repr

namespace Severity

/-- The word for a severity. -/
def name : Severity → String
  | info => "info"
  | warning => "warning"
  | error => "error"

/-- Reads the word for a severity. -/
def ofName? (word : String) : Option Severity :=
  [info, warning, error].find? (·.name = word)

end Severity

/-- One recorded problem. -/
structure Diagnostic where
  /-- How serious the problem is. -/
  severity : Severity
  /-- The kind of problem. -/
  code : String
  /-- What a reader is told. -/
  message : String
  /-- The file the problem is in. -/
  filePath : Option String := none
  /-- The line the problem is at. -/
  line : Option Nat := none
  /-- The element the problem is about. -/
  elementId : Option String := none
  /-- The relationship the problem is about. -/
  relationshipId : Option String := none
  deriving DecidableEq, Repr

namespace Diagnostic

/-- Compares two optional keys, a missing one standing first. -/
def compareOptional {α : Type} (compare : α → α → Ordering) : Option α → Option α → Ordering
  | none, none => .eq
  | none, some _ => .lt
  | some _, none => .gt
  | some left, some right => compare left right

/-- What the problem is about: the element, else the relationship. -/
def subject (diagnostic : Diagnostic) : Option String :=
  diagnostic.elementId.or diagnostic.relationshipId

/-- The order of diagnostics: by file, line, code, subject and message. -/
def order (left right : Diagnostic) : Ordering :=
  (compareOptional Text.order left.filePath right.filePath).then <|
  (compareOptional compare left.line right.line).then <|
  (Text.order left.code right.code).then <|
  (compareOptional Text.order left.subject right.subject).then <|
  Text.order left.message right.message

/-- Sorts values by the diagnostic each of them carries, keeping the order of equal ones. -/
def sortOn {α : Type} (view : α → Diagnostic) (values : List α) : List α :=
  values.mergeSort fun left right => order (view left) (view right) != .gt

/-- Sorts diagnostics. -/
def sort (diagnostics : List Diagnostic) : List Diagnostic :=
  sortOn id diagnostics

/-- A diagnostic as a structured value. -/
def toJson (diagnostic : Diagnostic) : Json :=
  Json.record
    [("severity", some (.str diagnostic.severity.name)), ("code", some (.str diagnostic.code)),
     ("message", some (.str diagnostic.message)), ("filePath", diagnostic.filePath.map .str),
     ("line", diagnostic.line.map .nat), ("elementId", diagnostic.elementId.map .str),
     ("relationshipId", diagnostic.relationshipId.map .str)]

end Diagnostic
end CodeAtlas
