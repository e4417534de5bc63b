import CodeAtlas.Json.Basic
import CodeAtlas.Number.Shortest

/-!
# Lenient access

Values of a known shape are taken apart without ceremony: what is absent or of another kind reads as
the empty value of the kind asked for, or as a given one.
-/

namespace CodeAtlas
namespace Json
namespace Access

/-- A member of an object. -/
def get (value : Json) (name : String) : Json := (value.member? name).getD .null

/-- Whether an object has a member. -/
def has (value : Json) (name : String) : Bool := (value.member? name).isSome

/-- A text. -/
def text (value : Json) : String := (value.text?).getD ""

/-- A text that is a member of an object. -/
def textAt (value : Json) (name : String) : String := text (get value name)

/-- The items of a list. -/
def items (value : Json) : List Json := (value.items?).getD []

/-- The item of a list at a position. -/
def nth (value : Json) (index : Nat) : Json := ((items value)[index]?).getD .null

/-- A list of texts. -/
def texts (value : Json) : List String := (items value).map text

/-- The members of an object. -/
def members (value : Json) : List (String × Json) := (value.members?).getD []

/-- A number, or a given one. -/
def numberOr (value : Json) (otherwise : Float) : Float := (value.number?).getD otherwise

/-- A number. -/
def number (value : Json) : Float := numberOr value 0

/-- A natural number, or a given one. -/
def naturalOr (value : Json) (otherwise : Nat) : Nat :=
  (value.number?.map Number.toNat).getD otherwise

/-- A natural number. -/
def natural (value : Json) : Nat := naturalOr value 0

/-- A truth value, or a given one. -/
def flagOr (value : Json) (otherwise : Bool) : Bool := (value.bool?).getD otherwise

end Access
end Json
end CodeAtlas
