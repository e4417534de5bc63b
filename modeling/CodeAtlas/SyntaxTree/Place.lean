import CodeAtlas.SyntaxTree.Basic
import CodeAtlas.Text.Blank
import CodeAtlas.Text.Split

/-!
# Documentation comments

The comment that documents a declaration stands directly above it, or above the statement that wraps
it. A `Place` is a node together with the named nodes before it, or before the outermost wrapper
around it, which is where the comment is looked for.
-/

namespace CodeAtlas
namespace SyntaxTree

/-- A node and the named nodes that stand before it, nearest first. -/
structure Place where
  /-- The node. -/
  node : Node
  /-- The row of the node or of the wrapper around it. -/
  row : Nat
  /-- The named nodes before that row's node, nearest first. -/
  above : List Node

namespace Place

/-- The kinds of statements that wrap the declaration they hold. -/
def wrappers : List String :=
  ["export_statement", "variable_declarator", "lexical_declaration", "variable_declaration"]

/-- The place of the root of a tree. -/
def ofRoot (node : Node) : Place := ⟨node, node.label.start.row, []⟩

/-- The places of sibling nodes, given those before them. -/
def siblings (above : List Node) : List Node → List Place
  | [] => []
  | node :: rest =>
    ⟨node, node.label.start.row, above⟩
      :: siblings (if node.isNamed then node :: above else above) rest

/-- The places of the children. Inside a wrapper they keep the wrapper's place. -/
def children (place : Place) : List Place :=
  if wrappers.contains place.node.kind then
    place.node.children.map fun child => ⟨child, place.row, place.above⟩
  else
    siblings [] place.node.children

/-- The places of the named children. -/
def named (place : Place) : List Place :=
  place.children.filter fun child => child.node.isNamed

/-- The place of the first child held under a name. -/
def field? (place : Place) (role : String) : Option Place :=
  place.children.find? fun child => child.node.label.role == some role

theorem node_mem_of_mem_siblings {place : Place} {above nodes : List Node}
    (h : place ∈ siblings above nodes) : place.node ∈ nodes := by
  induction nodes generalizing above with
  | nil => simp [siblings] at h
  | cons node rest ih =>
    rcases List.mem_cons.1 h with rfl | h
    · simp
    · exact List.mem_cons_of_mem _ (ih h)

theorem node_mem_of_mem_children {place child : Place} (h : child ∈ place.children) :
    child.node ∈ place.node.children := by
  unfold children at h
  split at h
  · obtain ⟨node, hnode, rfl⟩ := List.mem_map.1 h
    exact hnode
  · exact node_mem_of_mem_siblings h

theorem size_lt_of_mem_children {place child : Place} (h : child ∈ place.children) :
    child.node.size < place.node.size :=
  Node.size_lt_of_mem_children (node_mem_of_mem_children h)

theorem size_lt_of_mem_named {place child : Place} (h : child ∈ place.named) :
    child.node.size < place.node.size :=
  size_lt_of_mem_children (List.mem_filter.1 h).1

theorem size_lt_of_field? {place child : Place} {role : String}
    (h : place.field? role = some child) : child.node.size < place.node.size :=
  size_lt_of_mem_children (List.mem_of_find?_eq_some h)

/-- Drops the blanks, one star and one space that open a line of a block comment. A line without a
star keeps its indentation. -/
def dropStar (line : List Char) : List Char :=
  match line.dropWhile Text.isBlank with
  | '*' :: ' ' :: rest => rest
  | '*' :: rest => rest
  | _ => line

/-- A text unless it is empty. -/
def nonEmpty? (text : String) : Option String :=
  if text = "" then none else some text

/-- The text of a block comment without its frame. -/
def cleanBlock (comment : List Char) : Option String :=
  let opened := (Text.dropBeginning? ['/', '*', '*'] comment).getD comment
  let closed := match Text.dropBeginning? ['/', '*'] opened.reverse with
    | some rest => rest.reverse
    | none => opened
  let lines := (Text.splitChars '\n' closed).map fun line =>
    String.ofList (Text.trimEndChars (dropStar line))
  nonEmpty? (Text.trim (Text.join "\n" lines))

/-- Drops an exclamation mark at the front. -/
def dropBang : List Char → List Char
  | '!' :: rest => rest
  | chars => chars

/-- Reads comments upward from a row: a run of line comments that open with the mark, each on the
row above the last or later, or a block comment that stands first. -/
def readAbove (mark : List Char) (row : Nat) (lines : List String) : List Node → Option String
  | [] => nonEmpty? (Text.trim (Text.join "\n" lines))
  | node :: rest =>
    let finish := nonEmpty? (Text.trim (Text.join "\n" lines))
    if Text.contains node.kind "comment" && row ≤ node.label.stop.row + 1 then
      let comment := Text.trimChars node.text.toList
      if (Text.dropBeginning? ['/', '*', '*'] comment).isSome then
        if lines.isEmpty then cleanBlock comment else finish
      else
        match Text.dropBeginning? mark comment with
        | some body =>
          readAbove mark node.label.start.row
            (String.ofList (Text.trimChars (dropBang body)) :: lines) rest
        | none => finish
    else
      finish

/-- The documentation of a declaration: the block comment or the line comments directly above it. -/
def documentation? (place : Place) (mark : String) : Option String :=
  readAbove mark.toList place.row [] place.above

end Place
end SyntaxTree
end CodeAtlas
