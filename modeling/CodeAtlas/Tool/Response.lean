import CodeAtlas.Json.Basic

/-!
# Tool responses

A response is a text for a reader together with the same facts as structured members.
-/

namespace CodeAtlas
namespace Tool

/-- The answer to a tool request. -/
structure Response where
  /-- What a reader is shown. -/
  text : String
  /-- The facts behind the text. -/
  content : Option (List (String × Json)) := none
  /-- Whether the request failed. -/
  isError : Bool := false

namespace Response

/-- A response that is only text. -/
def plain (text : String) : Response := { text := text }

/-- The response to a request that failed. -/
def failure (message : String) : Response :=
  { text := "Error: " ++ message
    content := some [("success", .bool false), ("error", .str message)]
    isError := true }

/-- The response to a request that succeeded; the given members win over the mark of success. -/
def success (text : String) (members : List (String × Json)) : Response :=
  { text := text, content := some (Json.overlay [("success", .bool true)] members) }

/-- A response in the form it is sent. -/
def toJson (response : Response) : Json :=
  Json.record
    [("content", some (.arr [.obj [("type", .str "text"), ("text", .str response.text)]])),
     ("structuredContent", response.content.map .obj),
     ("isError", if response.isError then some (.bool true) else none)]

end Response
end Tool
end CodeAtlas
