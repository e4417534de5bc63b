import CodeAtlas.Proofs.Extract.Rust
import CodeAtlas.Proofs.Outline.Declarations
import CodeAtlas.Proofs.Text.Split

/-!
# Items in nested modules

The items of a Rust file stand in inline modules, at any depth. Each item that becomes an element is
named below the module of the file and all inline modules around it.
-/

namespace CodeAtlas
namespace Extract
namespace Rust

open Outline (allDeclared declared)
open SyntaxTree (Node Place)
open Text (join)

/-! ## Items in inline modules -/

/-- An item with the names of the inline modules around it, the outermost first. -/
structure Standing where
  /-- The names of the modules. -/
  modules : List String
  /-- The item. -/
  item : Place

/-- The items of a container inside modules, each followed by those inside it. -/
def standing (modules : List String) (place : Place) : List Standing :=
  (itemsOf place).attach.flatMap fun ⟨item, isItem⟩ =>
    ⟨modules, item⟩ ::
      match isInline : inlineModule? item with
      | none => []
      | some (name, body) =>
        have : body.node.size < place.node.size :=
          Nat.lt_trans (size_lt_of_inlineModule? isInline) (size_lt_of_mem_itemsOf isItem)
        standing (modules ++ [name]) body
termination_by place.node.size

/-- The items inside an item of a module. -/
def standingIn (modules : List String) (item : Place) : List Standing :=
  match inlineModule? item with
  | none => []
  | some (name, body) => standing (modules ++ [name]) body

theorem standing_eq (modules : List String) (place : Place) :
    standing modules place =
      (itemsOf place).flatMap fun item => ⟨modules, item⟩ :: standingIn modules item := by
  rw [standing, List.flatMap_subtype
    (g := fun item => (⟨modules, item⟩ : Standing) :: standingIn modules item),
    List.unattach_attach]
  intro item isItem
  unfold standingIn
  dsimp only
  congr 1
  generalize isInline : inlineModule? item = found
  cases found <;> rfl

/-- All items of a file. -/
def allStanding (root : Node) : List Standing := standing [] (Place.ofRoot root)

/-! ## Names of items -/

/-- An item becomes an element of a name: a type, a function, a value or an inline module. -/
structure Declares (item : Place) (name : String) : Prop where
  /-- It has the name. -/
  isNamed : present? (item.node.fieldText? "name") = some name
  /-- It is of such a kind. -/
  isKind : item.node.kind ∈ typeItems ++ ["function_item", "const_item", "static_item"] ∨
    (inlineModule? item).isSome

/-- A declaration of the name of an item, under a qualified name. -/
def IsDeclared (outlines : List Outline) (scope : String) (item : Place)
    (name qualifiedName : String) : Prop :=
  ∃ declaration, (declaration, qualifiedName) ∈ allDeclared scope outlines ∧
    declaration.name = name ∧ declaration.startLine = item.node.startLine

theorem fieldText?_of_present? {text : Option String} {name : String}
    (isPresent : present? text = some name) : text = some name := by
  cases text with
  | none => cases isPresent
  | some other =>
    rw [present?] at isPresent
    split at isPresent
    · cases isPresent
    · exact isPresent

theorem isDeclared_declare {declaration : Declaration} {scope name : String} {item : Place}
    (unqualified : declaration.qualifiedName = none) (isName : declaration.name = name)
    (isLine : declaration.startLine = item.node.startLine) (body : List Outline) :
    IsDeclared [.declare declaration body] scope item name (scope ++ "." ++ name) := by
  have isQualified : declaration.nameIn scope = scope ++ "." ++ name := by
    rw [Declaration.nameIn, unqualified, isName]
    rfl
  refine ⟨declaration, ?_, isName, isLine⟩
  rw [← isQualified]
  exact List.mem_append_left _ List.mem_cons_self

theorem isDeclared_typeItem (file : SourceFile) (scope : String) {item : Place} {name : String}
    (isNamed : present? (item.node.fieldText? "name") = some name) :
    IsDeclared (typeItem file item) scope item name (scope ++ "." ++ name) := by
  unfold typeItem
  simp only [isNamed]
  exact isDeclared_declare rfl rfl rfl _

theorem isDeclared_itemOutlines (file : SourceFile) (scope : String) {item : Place} {name : String}
    (isNamed : present? (item.node.fieldText? "name") = some name)
    (isKind : item.node.kind ∈ ["function_item", "const_item", "static_item"] ∨
      (inlineModule? item).isSome) :
    IsDeclared (itemOutlines file scope item) scope item name (scope ++ "." ++ name) := by
  rcases isKind with isKind | isInline
  · have isValue : IsDeclared (valueItem file item.node) scope item name
        (scope ++ "." ++ name) := by
      rw [valueItem, isNamed]
      exact isDeclared_declare rfl rfl rfl _
    have isFunction : IsDeclared [functionOutline file .function item] scope item name
        (scope ++ "." ++ name) := by
      refine isDeclared_declare rfl ?_ rfl _
      rw [fieldText?_of_present? isNamed]
      rfl
    simp only [List.mem_cons, List.not_mem_nil, or_false] at isKind
    unfold itemOutlines
    rcases isKind with isKind | isKind | isKind <;> simp only [isKind]
    · exact isFunction
    · exact isValue
    · exact isValue
  · obtain ⟨⟨inner, body⟩, isInner⟩ := Option.isSome_iff_exists.mp isInline
    obtain rfl : inner = name :=
      Option.some.inj ((inlineModule?_eq_some_iff.mp isInner).2.1.symm.trans isNamed)
    rw [itemOutlines_inline file scope isInner]
    exact isDeclared_declare rfl rfl rfl _

theorem IsDeclared.items {file : SourceFile} {scope : String} {place item other : Place}
    {name qualifiedName : String} (isItem : item ∈ itemsOf place)
    (isDeclared : IsDeclared (itemOutlines file scope item) scope other name qualifiedName) :
    IsDeclared (Rust.items file scope place) scope other name qualifiedName := by
  obtain ⟨declaration, member, isIts⟩ := isDeclared
  refine ⟨declaration, ?_, isIts⟩
  rw [items_eq, Outline.allDeclared_append, Outline.allDeclared_flatMap,
    Outline.allDeclared_flatMap]
  exact List.mem_append_right _ (List.mem_flatMap.mpr ⟨item, isItem, member⟩)

theorem Declares.isDeclared {place item : Place} {name : String} (declares : Declares item name)
    (isItem : item ∈ itemsOf place) (file : SourceFile) (scope : String) :
    IsDeclared (items file scope place) scope item name (scope ++ "." ++ name) := by
  have isKind := declares.isKind
  rw [List.mem_append, or_assoc] at isKind
  rcases isKind with isType | isOther
  · obtain ⟨declaration, member, isIts⟩ := isDeclared_typeItem file scope declares.isNamed
    refine ⟨declaration, ?_, isIts⟩
    rw [items_eq, Outline.allDeclared_append, Outline.allDeclared_flatMap,
      Outline.allDeclared_flatMap]
    refine List.mem_append_left _ (List.mem_flatMap.mpr ⟨item, ?_, member⟩)
    exact List.mem_filter.mpr ⟨isItem, by simpa using isType⟩
  · exact .items isItem (isDeclared_itemOutlines file scope declares.isNamed isOther)

theorem join_concat (moduleName : String) (modules : List String) (name : String) :
    join "." (moduleName :: modules) ++ "." ++ name =
      join "." (moduleName :: (modules ++ [name])) := by
  rw [← List.cons_append, Text.join_append "." (List.cons_ne_nil _ _) (List.cons_ne_nil _ _), join]

/-- An item that stands in modules is named below all of them. -/
theorem Declares.isDeclared_standing (file : SourceFile) (moduleName : String)
    (modules : List String) (place : Place) {found : Standing}
    (isFound : found ∈ standing modules place) {name : String}
    (declares : Declares found.item name) :
    let scope := join "." (moduleName :: modules)
    IsDeclared (items file scope place) scope found.item name
      (join "." (moduleName :: (found.modules ++ [name]))) := by
  intro scope
  rw [standing_eq] at isFound
  obtain ⟨item, isItem, isFound⟩ := List.mem_flatMap.mp isFound
  rcases List.mem_cons.mp isFound with rfl | inside
  · rw [← join_concat]
    exact declares.isDeclared isItem file scope
  · rw [standingIn] at inside
    cases isInline : inlineModule? item with
    | none =>
      rw [isInline] at inside
      exact absurd inside List.not_mem_nil
    | some inner =>
      obtain ⟨innerName, body⟩ := inner
      rw [isInline] at inside
      have := Nat.lt_trans (size_lt_of_inlineModule? isInline) (size_lt_of_mem_itemsOf isItem)
      obtain ⟨declaration, member, isIts⟩ :=
        declares.isDeclared_standing file moduleName (modules ++ [innerName]) body inside
      refine .items isItem ⟨declaration, ?_, isIts⟩
      have isScope : (namespaceOf item innerName).nameIn scope =
          join "." (moduleName :: (modules ++ [innerName])) := join_concat ..
      rw [itemOutlines_inline file scope isInline, join_concat, allDeclared, declared, isScope]
      exact List.mem_append_left _ (.tail _ member)
termination_by place.node.size

end Rust
end Extract
end CodeAtlas
