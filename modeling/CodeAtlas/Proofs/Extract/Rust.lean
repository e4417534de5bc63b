import CodeAtlas.Extract.Rust
import CodeAtlas.Proofs.Extract.Names

/-!
# Regular outlines of Rust files

The outline of a Rust file is regular, whatever the syntax tree. Only `use` declarations import, and
only module items without a body load other files.
-/

namespace CodeAtlas
namespace Extract
namespace Rust

open Outline (AllRegular Grants Regular)
open SyntaxTree (Node Place)

/-- No item of a Rust file is a package. -/
abbrev itemGrants (imports loads : Bool) : Grants := ⟨imports, loads, [.package]⟩

variable {imports loads : Bool}

theorem allRegular_importLeaf (file : SourceFile) (node : Node) (leaf : UseLeaf) :
    AllRegular (itemGrants true loads) (importLeaf file node leaf) := by
  unfold importLeaf
  dsimp only
  split
  · exact Outline.allRegular_nil
  · rw [Outline.allRegular_cons]
    refine ⟨by simp, ?_⟩
    split <;> simp

theorem allRegular_useOutlines (file : SourceFile) (node : Node) :
    AllRegular (itemGrants true loads) (useOutlines file node) := by
  unfold useOutlines
  split
  · rw [Outline.allRegular_flatMap]
    exact fun leaf _ => allRegular_importLeaf file node leaf
  · exact Outline.allRegular_nil

theorem referenceAt_cases (file : SourceFile) (found : Array Outline) (node : Node) :
    (referenceAt file found node).1 = found ∨ ∃ kind target,
      (kind = .calls ∨ kind = .uses) ∧
      (referenceAt file found node).1 = found.push (.refer ⟨kind, target, node.startLine⟩) := by
  unfold referenceAt
  dsimp only
  split
  · split
    · split
      · exact .inl rfl
      · exact .inr ⟨.calls, _, .inl rfl, rfl⟩
    · exact .inl rfl
  · split
    · split
      · exact .inr ⟨.uses, _, .inr rfl, rfl⟩
      · exact .inl rfl
    · exact .inl rfl

theorem allRegular_referenceAt (file : SourceFile) (found : Array Outline) (node : Node)
    (kept : AllRegular (itemGrants imports loads) found.toList) :
    AllRegular (itemGrants imports loads) (referenceAt file found node).1.toList := by
  rcases referenceAt_cases file found node with same | ⟨kind, target, isKind, isNext⟩
  · rwa [same]
  · rcases isKind with rfl | rfl <;> simp [isNext, kept]

@[simp]
theorem allRegular_references (file : SourceFile) (node : Node) :
    AllRegular (itemGrants imports loads) (references file node) :=
  Outline.allRegular_visitTree (allRegular_referenceAt file) node

@[simp]
theorem allRegular_referencesIn (file : SourceFile) (node : Option Node) :
    AllRegular (itemGrants imports loads) (referencesIn file node) := by
  cases node <;> simp [referencesIn]

theorem regular_functionOutline (file : SourceFile) {kind : ElementKind}
    (ordinary : kind ∉ [.importItem, .package]) (place : Place) :
    Regular (itemGrants imports loads) (functionOutline file kind place) := by
  simpa [functionOutline] using ordinary

@[simp]
theorem regular_method (file : SourceFile) (place : Place) :
    Regular (itemGrants imports loads) (functionOutline file .method place) :=
  regular_functionOutline file (by simp) place

@[simp]
theorem regular_foreignMethod (file : SourceFile) (scope typeName : String) (place : Place) :
    Regular (itemGrants imports loads) (foreignMethod file scope typeName place) := by
  simp [foreignMethod]

theorem allRegular_typeItem (file : SourceFile) (place : Place) :
    AllRegular (itemGrants imports loads) (typeItem file place) := by
  unfold typeItem
  dsimp only
  split
  · exact Outline.allRegular_nil
  · rw [Outline.allRegular_cons, Outline.Regular]
    refine ⟨⟨Node.one_le_startLine place.node, by dsimp only; split_ifs <;> simp, ?_⟩,
      Outline.allRegular_nil⟩
    split
    · exact Outline.allRegular_nil
    · rw [Outline.allRegular_append]
      constructor
      · split_ifs <;> simp
      · split <;> simp

theorem allRegular_implOutlines (file : SourceFile) (scope : String) (place : Place) :
    AllRegular (itemGrants imports loads) (implOutlines file scope place) := by
  unfold implOutlines
  split
  · exact Outline.allRegular_nil
  · rw [Outline.allRegular_cons, Outline.Regular]
    refine ⟨⟨by simp, ?_, ?_⟩, Outline.allRegular_nil⟩
    · refine Outline.allRegular_append.mpr ⟨by simp, Outline.allRegular_map.mpr fun member _ => ?_⟩
      exact regular_method file member
    · refine Outline.allRegular_append.mpr ⟨by simp, Outline.allRegular_map.mpr fun member _ => ?_⟩
      exact regular_foreignMethod file scope _ member

theorem allRegular_valueItem (file : SourceFile) (node : Node) :
    AllRegular (itemGrants imports loads) (valueItem file node) := by
  simp [valueItem]

/-! ## Items of a module -/

/-- What an item adds behind the types of its module. -/
def itemOutlines (file : SourceFile) (scope : String) (item : Place) : List Outline :=
  match item.node.kind with
  | "use_declaration" => useOutlines file item.node
  | "function_item" => [functionOutline file .function item]
  | "impl_item" => implOutlines file scope item
  | "mod_item" =>
    match present? (item.node.fieldText? "name") with
    | none => []
    | some name =>
      match item.field? "body" with
      | none => [.referFile ⟨.dependsOn, loadedModule file name, item.node.startLine⟩]
      | some body =>
        [.declare
          { name := name
            kind := .namespaceItem
            startLine := item.node.startLine
            endLine := item.node.endLine
            visibility := visibilityOf item.node }
          (items file (scope ++ "." ++ name) body)]
  | "const_item" | "static_item" => valueItem file item.node
  | _ => []

theorem items_eq (file : SourceFile) (scope : String) (place : Place) :
    items file scope place =
      ((itemsOf place).filter fun item => typeItems.contains item.node.kind).flatMap
          (typeItem file) ++
        (itemsOf place).flatMap (itemOutlines file scope) := by
  rw [items]
  dsimp only
  congr 1
  rw [List.flatMap_subtype (g := itemOutlines file scope), List.unattach_attach]
  intro item isItem
  unfold itemOutlines
  split
  case h_4 isKind =>
    simp only [isKind]
    cases present? (item.node.fieldText? "name") with
    | none => rfl
    | some name =>
      dsimp only
      generalize isBody : item.field? "body" = found
      cases found <;> rfl
  all_goals simp only [*]

/-- What is collected from the items of a module comes from their outlines one by one, if types
contribute nothing. -/
theorem flatMap_items {α : Type} {collect : Outline → List α} (file : SourceFile)
    (types : ∀ item, (typeItem file item).flatMap collect = []) (scope : String) (place : Place) :
    (items file scope place).flatMap collect =
      (itemsOf place).flatMap fun item => (itemOutlines file scope item).flatMap collect := by
  rw [items_eq, List.flatMap_append, List.flatMap_assoc, List.flatMap_assoc,
    List.flatMap_eq_nil_iff.mpr fun item _ => types item, List.nil_append]

/-- The name and the body of an inline module. -/
def inlineModule? (item : Place) : Option (String × Place) :=
  if item.node.kind = "mod_item" then
    (present? (item.node.fieldText? "name")).bind fun name =>
      (item.field? "body").map fun body => (name, body)
  else
    none

theorem inlineModule?_eq_some_iff {item body : Place} {name : String} :
    inlineModule? item = some (name, body) ↔ item.node.kind = "mod_item" ∧
      present? (item.node.fieldText? "name") = some name ∧ item.field? "body" = some body := by
  unfold inlineModule?
  split_ifs with isModule
  · simp only [isModule, true_and, Option.bind_eq_some_iff, Option.map_eq_some_iff, Prod.mk.injEq]
    constructor
    · rintro ⟨_, isName, _, isBody, rfl, rfl⟩
      exact ⟨isName, isBody⟩
    · rintro ⟨isName, isBody⟩
      exact ⟨name, isName, body, isBody, rfl, rfl⟩
  · simp [isModule]

theorem size_lt_of_inlineModule? {item body : Place} {name : String}
    (isInline : inlineModule? item = some (name, body)) : body.node.size < item.node.size :=
  Place.size_lt_of_field? (inlineModule?_eq_some_iff.mp isInline).2.2

/-- The element that an inline module becomes. -/
def namespaceOf (item : Place) (name : String) : Declaration :=
  { name := name
    kind := .namespaceItem
    startLine := item.node.startLine
    endLine := item.node.endLine
    visibility := visibilityOf item.node }

section

variable (file : SourceFile) (scope : String) {item : Place}

theorem itemOutlines_use (isUse : item.node.kind = "use_declaration") :
    itemOutlines file scope item = useOutlines file item.node := by
  unfold itemOutlines
  simp only [isUse]

theorem itemOutlines_inline {body : Place} {name : String}
    (isInline : inlineModule? item = some (name, body)) : itemOutlines file scope item =
      [.declare (namespaceOf item name) (items file (scope ++ "." ++ name) body)] := by
  obtain ⟨isModule, isName, isBody⟩ := inlineModule?_eq_some_iff.mp isInline
  unfold itemOutlines
  simp only [isModule, isName, isBody, namespaceOf]

theorem itemOutlines_outer (isModule : item.node.kind = "mod_item")
    (noInline : inlineModule? item = none) : ∀ outline ∈ itemOutlines file scope item,
      ∃ name, outline = .referFile ⟨.dependsOn, loadedModule file name, item.node.startLine⟩ := by
  unfold itemOutlines
  simp only [isModule]
  cases isName : present? (item.node.fieldText? "name") with
  | none => simp
  | some name =>
    cases isBody : item.field? "body" with
    | none => simp
    | some body =>
      rw [inlineModule?_eq_some_iff.mpr ⟨isModule, isName, isBody⟩] at noInline
      cases noInline

theorem allRegular_itemOutlines (noUse : item.node.kind ≠ "use_declaration")
    (noModule : item.node.kind ≠ "mod_item") :
    AllRegular (itemGrants imports loads) (itemOutlines file scope item) := by
  unfold itemOutlines
  split
  · exact absurd (by assumption) noUse
  · simp [regular_functionOutline]
  · exact allRegular_implOutlines file scope item
  · exact absurd (by assumption) noModule
  · exact allRegular_valueItem file item.node
  · exact allRegular_valueItem file item.node
  · exact Outline.allRegular_nil

end

theorem allRegular_items (file : SourceFile) (scope : String) (place : Place) :
    AllRegular (itemGrants true true) (items file scope place) := by
  rw [items_eq, Outline.allRegular_append, Outline.allRegular_flatMap, Outline.allRegular_flatMap]
  refine ⟨fun item _ => allRegular_typeItem file item, fun item isItem => ?_⟩
  by_cases isModule : item.node.kind = "mod_item"
  · cases isInline : inlineModule? item with
    | none =>
      rw [Outline.allRegular_iff]
      intro outline member
      obtain ⟨name, rfl⟩ := itemOutlines_outer file scope isModule isInline outline member
      simp
    | some inner =>
      obtain ⟨name, body⟩ := inner
      have := Nat.lt_trans (size_lt_of_inlineModule? isInline) (size_lt_of_mem_itemsOf isItem)
      rw [itemOutlines_inline file scope isInline, Outline.allRegular_cons, Outline.Regular]
      exact ⟨⟨Node.one_le_startLine item.node, by simp [namespaceOf], allRegular_items file _ body⟩,
        Outline.allRegular_nil⟩
  · by_cases isUse : item.node.kind = "use_declaration"
    · rw [itemOutlines_use file scope isUse]
      exact allRegular_useOutlines file item.node
    · exact allRegular_itemOutlines file scope isUse isModule
termination_by place.node.size

theorem allRegular_outline (file : SourceFile) (root : Node) :
    AllRegular (itemGrants true true) (outline file root) :=
  allRegular_items file file.moduleName (Place.ofRoot root)

theorem allPlaced_outline (file : SourceFile) (root : Node) :
    Outline.AllPlaced (outline file root) :=
  (allRegular_outline file root).allPlaced

end Rust
end Extract
end CodeAtlas
