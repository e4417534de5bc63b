import CodeAtlas.SyntaxTree.Place
import Mathlib.Data.List.Forall2

/-!
# Places that read alike

The documentation of a declaration depends on the comments directly above it and on nothing beyond
them. Two places of one node that have the same documentation are alike, and so are the places of
what stands inside them. A reader that does not tell such places apart reads a run of siblings in
the same way wherever it stands, as long as no comment is cut off from what it documents.
-/

namespace CodeAtlas
namespace SyntaxTree

/-- Whether a node is a comment. -/
def Node.isComment (node : Node) : Bool := Text.contains node.kind "comment"

namespace Place

/-! ## Alike places -/

/-- Two places of one node from which the same documentation is read. -/
structure Alike (left right : Place) : Prop where
  /-- The node is the same. -/
  node_eq : left.node = right.node
  /-- The documentation is the same, whatever opens a line of it. -/
  documentation?_eq : ∀ mark, left.documentation? mark = right.documentation? mark

variable {left right : Place}

theorem Alike.refl (place : Place) : Alike place place := ⟨rfl, fun _ => rfl⟩

theorem forall₂_alike_refl (places : List Place) : List.Forall₂ Alike places places :=
  List.forall₂_same.mpr fun place _ => .refl place

theorem Alike.children (alike : Alike left right) :
    List.Forall₂ Alike left.children right.children := by
  unfold Place.children
  rw [alike.node_eq]
  split
  · rw [List.forall₂_map_left_iff, List.forall₂_map_right_iff, List.forall₂_same]
    exact fun child _ => ⟨rfl, alike.documentation?_eq⟩
  · exact forall₂_alike_refl _

theorem forall₂_alike_filter {lefts rights : List Place} (alike : List.Forall₂ Alike lefts rights)
    (keep : Node → Bool) : List.Forall₂ Alike (lefts.filter fun place => keep place.node)
      (rights.filter fun place => keep place.node) := by
  induction alike with
  | nil => exact .nil
  | cons first _ induction =>
    rw [List.filter_cons, List.filter_cons, first.node_eq]
    split
    · exact .cons first induction
    · exact induction

theorem rel_alike_find? {lefts rights : List Place} (alike : List.Forall₂ Alike lefts rights)
    (wanted : Node → Bool) : Option.Rel Alike (lefts.find? fun place => wanted place.node)
      (rights.find? fun place => wanted place.node) := by
  induction alike with
  | nil => exact .none
  | cons first _ induction =>
    rw [List.find?_cons, List.find?_cons, first.node_eq]
    split
    · exact .some first
    · exact induction

theorem rel_alike_head? {lefts rights : List Place} (alike : List.Forall₂ Alike lefts rights) :
    Option.Rel Alike lefts.head? rights.head? := by
  cases alike with
  | nil => exact .none
  | cons first _ => exact .some first

theorem Alike.named (alike : Alike left right) : List.Forall₂ Alike left.named right.named :=
  forall₂_alike_filter alike.children Node.isNamed

theorem Alike.field? (alike : Alike left right) (role : String) :
    Option.Rel Alike (left.field? role) (right.field? role) :=
  rel_alike_find? alike.children fun node => node.label.role == some role

/-- A function of places that does not tell alike places apart. -/
def Respects {α : Type} (read : Place → α) : Prop :=
  ∀ ⦃left right : Place⦄, Alike left right → read left = read right

variable {α : Type} {read : Place → α}

theorem Respects.option_map (respects : Respects read) {left right : Option Place}
    (alike : Option.Rel Alike left right) : left.map read = right.map read := by
  cases alike with
  | none => rfl
  | some alike => exact congrArg some (respects alike)

/-- A reader of alike places only has to agree on those that are there. -/
theorem flatMap_eq_of_alike {read : Place → List α} {lefts rights : List Place}
    (alike : List.Forall₂ Alike lefts rights)
    (same : ∀ left right, Alike left right → right ∈ rights → read left = read right) :
    lefts.flatMap read = rights.flatMap read := by
  induction alike with
  | nil => rfl
  | cons first _ induction =>
    rw [List.flatMap_cons, List.flatMap_cons, same _ _ first List.mem_cons_self,
      induction fun left right alike isThere => same left right alike (.tail _ isThere)]

theorem Respects.flatMap {read : Place → List α} (respects : Respects read)
    {lefts rights : List Place} (alike : List.Forall₂ Alike lefts rights) :
    lefts.flatMap read = rights.flatMap read :=
  flatMap_eq_of_alike alike fun _ _ alike _ => respects alike

theorem Respects.map (respects : Respects read) {lefts rights : List Place}
    (alike : List.Forall₂ Alike lefts rights) : lefts.map read = rights.map read := by
  induction alike with
  | nil => rfl
  | cons first _ induction => rw [List.map_cons, List.map_cons, respects first, induction]

/-! ## What stands above -/

/-- Two lists of nodes, nearest first, from which the same comments are read. -/
def SameAbove (left right : List Node) : Prop :=
  ∀ mark row lines, readAbove mark row lines left = readAbove mark row lines right

theorem SameAbove.refl (above : List Node) : SameAbove above above := fun _ _ _ => rfl

theorem SameAbove.cons {left right : List Node} (same : SameAbove left right) (node : Node) :
    SameAbove (node :: left) (node :: right) := by
  intro mark row lines
  simp only [readAbove, same mark]

theorem sameAbove_nil {node : Node} (noComment : node.isComment = false) (above : List Node) :
    SameAbove (node :: above) [] := by
  intro mark row lines
  have isNoComment : Text.contains node.kind "comment" = false := noComment
  simp only [readAbove, isNoComment, Bool.false_and, Bool.false_eq_true, if_false]

/-- The last named node, if there is one, is no comment. -/
def Bare (nodes : List Node) : Prop :=
  ∀ node ∈ (nodes.filter Node.isNamed).getLast?, node.isComment = false

instance (nodes : List Node) : Decidable (Bare nodes) :=
  inferInstanceAs (Decidable (∀ node ∈ (nodes.filter Node.isNamed).getLast?, _))

theorem sameAbove_of_bare {nodes : List Node} (bare : Bare nodes) :
    SameAbove (nodes.filter Node.isNamed).reverse [] := by
  cases reversed : (nodes.filter Node.isNamed).reverse with
  | nil => exact .refl []
  | cons node rest =>
    refine sameAbove_nil (bare node ?_) rest
    rw [Option.mem_def, ← List.head?_reverse, reversed, List.head?_cons]

/-! ## Siblings -/

/-- What is read from the named nodes among siblings, given the nodes above them. -/
def readSiblings {α : Type} (read : Place → List α) (above nodes : List Node) : List α :=
  ((siblings above nodes).filter fun place => place.node.isNamed).flatMap read

variable {read : Place → List α}

@[simp]
theorem readSiblings_nil (above : List Node) : readSiblings read above [] = [] := rfl

theorem readSiblings_cons (above nodes : List Node) (node : Node) :
    readSiblings read above (node :: nodes) =
      if node.isNamed then
        read ⟨node, node.label.start.row, above⟩ ++ readSiblings read (node :: above) nodes
      else
        readSiblings read above nodes := by
  unfold readSiblings
  rw [siblings, List.filter_cons]
  dsimp only
  split
  · exact List.flatMap_cons
  · rfl

theorem readSiblings_append (above left right : List Node) :
    readSiblings read above (left ++ right) = readSiblings read above left ++
      readSiblings read ((left.filter Node.isNamed).reverse ++ above) right := by
  induction left generalizing above with
  | nil => rfl
  | cons node rest induction =>
    rw [List.cons_append, readSiblings_cons, readSiblings_cons, induction, induction,
      List.filter_cons]
    split
    · simp
    · rfl

theorem readSiblings_node (read : Node → List α) (above nodes : List Node) :
    readSiblings (fun place => read place.node) above nodes =
      (nodes.filter Node.isNamed).flatMap read := by
  induction nodes generalizing above with
  | nil => rfl
  | cons node rest induction =>
    rw [readSiblings_cons, induction, induction, List.filter_cons]
    split
    · exact List.flatMap_cons.symm
    · rfl

/-- Siblings are read in the same way under nodes from which the same comments are read. -/
theorem Respects.readSiblings (respects : Respects read) {left right : List Node}
    (same : SameAbove left right) (nodes : List Node) :
    readSiblings read left nodes = readSiblings read right nodes := by
  induction nodes generalizing left right with
  | nil => rfl
  | cons node rest induction =>
    rw [readSiblings_cons, readSiblings_cons, induction same, induction (same.cons node)]
    have alike : Alike ⟨node, node.label.start.row, left⟩ ⟨node, node.label.start.row, right⟩ :=
      ⟨rfl, fun mark => same mark.toList _ _⟩
    rw [respects alike]

/-- A run of siblings that does not end in a comment, with none before it, is read by itself. -/
theorem Respects.readSiblings_between (respects : Respects read) {before run : List Node}
    (bareBefore : Bare before) (bareRun : Bare run) (after : List Node) :
    Place.readSiblings read [] (before ++ run ++ after) = Place.readSiblings read [] before ++
      (Place.readSiblings read [] run ++ Place.readSiblings read [] after) := by
  have noneBefore : SameAbove ((before.filter Node.isNamed).reverse ++ []) [] := by
    simpa using sameAbove_of_bare bareBefore
  have noneLast : SameAbove ((run.filter Node.isNamed).reverse ++ []) [] := by
    simpa using sameAbove_of_bare bareRun
  rw [List.append_assoc, readSiblings_append, respects.readSiblings noneBefore,
    readSiblings_append, respects.readSiblings noneLast]

/-- Runs of siblings from which the same is read can stand for each other between siblings if
neither run ends in a comment and none stands before them. -/
theorem Respects.replace (respects : Respects read) {before left right : List Node}
    (bareBefore : Bare before) (bareLeft : Bare left) (bareRight : Bare right)
    (same : Place.readSiblings read [] left = Place.readSiblings read [] right)
    (after : List Node) :
    Place.readSiblings read [] (before ++ left ++ after) =
      Place.readSiblings read [] (before ++ right ++ after) := by
  rw [respects.readSiblings_between bareBefore bareLeft,
    respects.readSiblings_between bareBefore bareRight, same]

end Place
end SyntaxTree
end CodeAtlas
