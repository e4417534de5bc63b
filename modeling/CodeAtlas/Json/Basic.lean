import CodeAtlas.Text.Units

/-!
# Structured values

Values with numbers, texts, lists and members by name. The members of an object keep the order they
were written in; a name occurs once.
-/

namespace CodeAtlas

/-- A structured value. -/
inductive Json where
  /-- The absent value. -/
  | null
  /-- A truth value. -/
  | bool (value : Bool)
  /-- A number. -/
  | num (value : Float)
  /-- A text. -/
  | str (value : String)
  /-- A list of values. -/
  | arr (items : List Json)
  /-- Members by name, in written order. -/
  | obj (members : List (String × Json))
  deriving Inhabited

namespace Json

/-- A natural number as a value. -/
def nat (value : Nat) : Json := num (Float.ofNat value)

/-- A list of texts as a value. -/
def texts (values : List String) : Json := arr (values.map str)

/-- An object of the members that are present. -/
def record (members : List (String × Option Json)) : Json :=
  obj (members.filterMap fun (name, value) => value.map (name, ·))

/-- A member of an object by name. -/
def member? (name : String) : Json → Option Json
  | obj members => (members.find? (·.1 = name)).map (·.2)
  | _ => none

/-- The text that a value holds. -/
def text? : Json → Option String
  | str value => some value
  | _ => none

/-- The number that a value holds. -/
def number? : Json → Option Float
  | num value => some value
  | _ => none

/-- The truth value that a value holds. -/
def bool? : Json → Option Bool
  | bool value => some value
  | _ => none

/-- The items of a list. -/
def items? : Json → Option (List Json)
  | arr items => some items
  | _ => none

/-- The members of an object. -/
def members? : Json → Option (List (String × Json))
  | obj members => some members
  | _ => none

/-- The word for the kind of a value in messages. -/
def kindName : Json → String
  | null => "null"
  | bool _ => "boolean"
  | num value => if value.isNaN then "NaN" else "number"
  | str _ => "string"
  | arr _ => "array"
  | obj _ => "object"

/-- Puts a member: a name already there keeps its place and takes the new value. -/
def putMember (members : List (String × Json)) (name : String) (value : Json) :
    List (String × Json) :=
  if members.any (·.1 = name) then
    members.map fun entry => if entry.1 = name then (name, value) else entry
  else
    members ++ [(name, value)]

/-- Members written over other members, in order. -/
def overlay (base added : List (String × Json)) : List (String × Json) :=
  added.foldl (fun members entry => putMember members entry.1 entry.2) base

end Json
end CodeAtlas
