import CodeAtlas.Proofs.Extract.Imports
import CodeAtlas.Proofs.Extract.Nested
import CodeAtlas.Proofs.ModulePath.Colons

/-!
# Paths that Rust files use

Every path of a `use` declaration that leads anywhere is imported by the file, wherever the
declaration stands. The path is read from the module of the file even if the declaration stands in
an inline module, whose items are named below that module all the same.
-/

namespace CodeAtlas
namespace Extract
namespace Rust

open Outline (allImports)
open SyntaxTree (Node Place)
open Text (join)

/-! ## Paths that are used -/

/-- The paths that a `use` declaration brings in. -/
def leavesOf (node : Node) : List UseLeaf :=
  match node.field? "argument" with
  | some argument => expandUse "" argument
  | none => []

theorem useOutlines_eq (file : SourceFile) (node : Node) :
    useOutlines file node = (leavesOf node).flatMap (importLeaf file node) := by
  unfold useOutlines leavesOf
  cases node.field? "argument" <;> rfl

/-- A path that a `use` declaration brings in, with the modules around the declaration. -/
structure Use where
  /-- The names of the inline modules, the outermost first. -/
  modules : List String
  /-- The declaration. -/
  declaration : Node
  /-- The path. -/
  leaf : UseLeaf

/-- The paths that an item brings in: none unless it is a `use` declaration. -/
def usesOf (standing : Standing) : List Use :=
  if standing.item.node.kind = "use_declaration" then
    (leavesOf standing.item.node).map fun leaf =>
      ⟨standing.modules, standing.item.node, leaf⟩
  else
    []

/-- All paths that a file brings in. -/
def uses (root : Node) : List Use := (allStanding root).flatMap usesOf

/-- What a path means when read from a module. -/
def Use.target (use : Use) (moduleName : String) : String :=
  ModulePath.normalizeColons use.leaf.path moduleName

/-- The import that is declared for a path. -/
def Use.declared (use : Use) (moduleName : String) : Declaration :=
  { name := use.leaf.path
    kind := .importItem
    startLine := use.declaration.startLine
    endLine := use.declaration.endLine
    visibility := .owner
    qualifiedName := some (moduleName ++ ":import:" ++ use.leaf.path)
    metadata := [("target", .str (use.target moduleName))] }

/-- What is declared for a path: nothing if the path means nothing. -/
def Use.imported (use : Use) (moduleName : String) : List Declaration :=
  if use.target moduleName = "" then [] else [use.declared moduleName]

theorem flatMap_imported (moduleName : String) (uses : List Use) :
    (uses.flatMap fun use => use.imported moduleName) =
      (uses.filter fun use => use.target moduleName ≠ "").map
        fun use => use.declared moduleName := by
  induction uses with
  | nil => rfl
  | cons use uses induction =>
    rw [List.flatMap_cons, List.filter_cons, induction, Use.imported]
    by_cases blank : use.target moduleName = "" <;> simp [blank]

theorem allImports_importLeaf (file : SourceFile) (modules : List String) (node : Node)
    (leaf : UseLeaf) : allImports (importLeaf file node leaf) =
      (⟨modules, node, leaf⟩ : Use).imported file.moduleName := by
  unfold importLeaf Use.imported Use.target
  dsimp only
  split_ifs <;> rfl

/-- What is declared for the paths of an item. -/
def importedBy (moduleName : String) (standing : Standing) : List Declaration :=
  (usesOf standing).flatMap fun use => use.imported moduleName

theorem importedBy_eq_nil (moduleName : String) {standing : Standing}
    (noUse : standing.item.node.kind ≠ "use_declaration") :
    importedBy moduleName standing = [] := by
  rw [importedBy, usesOf, if_neg noUse]
  rfl

theorem standingIn_eq_nil (modules : List String) {item : Place}
    (noModule : item.node.kind ≠ "mod_item") : standingIn modules item = [] := by
  rw [standingIn, inlineModule?, if_neg noModule]

theorem allImports_useOutlines (file : SourceFile) {standing : Standing}
    (isUse : standing.item.node.kind = "use_declaration") :
    allImports (useOutlines file standing.item.node) = importedBy file.moduleName standing := by
  rw [useOutlines_eq, importedBy, usesOf, if_pos isUse, List.flatMap_map,
    Outline.allImports_flatMap]
  exact List.flatMap_congr fun leaf _ =>
    allImports_importLeaf file standing.modules standing.item.node leaf

theorem allImports_items (file : SourceFile) (scope : String) (modules : List String)
    (place : Place) : allImports (items file scope place) =
      (standing modules place).flatMap (importedBy file.moduleName) := by
  have types (item : Place) : (typeItem file item).flatMap Outline.imports = [] := by
    rw [← Outline.allImports_eq_flatMap]
    exact (allRegular_typeItem file item).allImports_eq_nil
  rw [standing_eq, Outline.allImports_eq_flatMap, flatMap_items file types, List.flatMap_assoc]
  simp only [← Outline.allImports_eq_flatMap]
  apply List.flatMap_congr
  intro item isItem
  rw [List.flatMap_cons]
  by_cases isModule : item.node.kind = "mod_item"
  · have noUse : (⟨modules, item⟩ : Standing).item.node.kind ≠ "use_declaration" := by
      simp [isModule]
    rw [importedBy_eq_nil file.moduleName noUse, List.nil_append, standingIn]
    cases isInline : inlineModule? item with
    | none =>
      rw [Outline.allImports_eq_flatMap, List.flatMap_nil, List.flatMap_eq_nil_iff]
      intro outline member
      obtain ⟨name, rfl⟩ := itemOutlines_outer file scope isModule isInline outline member
      rfl
    | some inner =>
      obtain ⟨name, body⟩ := inner
      have := Nat.lt_trans (size_lt_of_inlineModule? isInline) (size_lt_of_mem_itemsOf isItem)
      rw [itemOutlines_inline file scope isInline]
      exact (List.append_nil _).trans (allImports_items file _ (modules ++ [name]) body)
  · rw [standingIn_eq_nil modules isModule, List.flatMap_nil, List.append_nil]
    by_cases isUse : item.node.kind = "use_declaration"
    · rw [itemOutlines_use file scope isUse]
      have isUse : (⟨modules, item⟩ : Standing).item.node.kind = "use_declaration" := isUse
      exact allImports_useOutlines file isUse
    · rw [(allRegular_itemOutlines file scope isUse isModule).allImports_eq_nil]
      have noUse : (⟨modules, item⟩ : Standing).item.node.kind ≠ "use_declaration" := isUse
      exact (importedBy_eq_nil file.moduleName noUse).symm
termination_by place.node.size

theorem allImports_outline (file : SourceFile) (root : Node) :
    allImports (outline file root) =
      (uses root).flatMap fun use => use.imported file.moduleName := by
  rw [outline, allImports_items file _ [], uses, List.flatMap_assoc]
  rfl

/-! ## Elements -/

/-- An element of a file imports a path that is used. -/
structure Use.Imports (use : Use) (moduleName fileId : String) (element : Element) : Prop where
  /-- It is called as the path is written. -/
  name_eq : element.name = use.leaf.path
  /-- It starts where the declaration starts. -/
  startLine_eq : element.startLine = use.declaration.startLine
  /-- It belongs to the file. -/
  parentId_eq : element.parentId = some fileId
  /-- It records what the path means. -/
  metadata_eq : element.metadata = [("target", .str (use.target moduleName))]
  /-- It refers to what the path means. -/
  references_eq : element.references =
    Collector.written .imports (use.target moduleName) use.declaration.startLine

theorem Use.imports_finishDraft {use : Use} {moduleName fileId : String} {collector : Collector}
    {draft : Draft} (makes : (use.declared moduleName).Makes fileId draft)
    (isImport : Collector.IsImport fileId draft) :
    use.Imports moduleName fileId (collector.finishDraft draft) := by
  refine ⟨makes.name_eq, makes.startLine_eq, makes.parentId_eq, makes.metadata_eq, ?_⟩
  obtain ⟨target, fact, refers⟩ := isImport.refers
  have isTarget : target = use.target moduleName := by
    rw [makes.metadata_eq] at fact
    simpa [Use.declared] using fact
  rw [isImport.references_finishDraft, refers, isTarget, makes.startLine_eq]
  rfl

/-- What outlines of a file declare for paths becomes imports of these paths. -/
theorem forall₂_imports {collector : Collector} {moduleName : String} {uses : List Use}
    (areImports : ∀ draft ∈ collector.imports, Collector.IsImport collector.root.id draft)
    (makes : List.Forall₂ (fun declaration draft => declaration.Makes collector.root.id draft)
      (uses.flatMap fun use => use.imported moduleName)
      (collector.bares.filter (·.kind = .importItem))) :
    List.Forall₂ (fun use element => use.Imports moduleName collector.root.id element)
      (uses.filter fun use => use.target moduleName ≠ "")
      ((collector.others.map collector.finishDraft).filter (·.kind = .importItem)) := by
  have bares : collector.bares.filter (·.kind = .importItem) = collector.imports.map Draft.bare :=
    List.filter_map
  have elements : (collector.others.map collector.finishDraft).filter (·.kind = .importItem) =
      collector.imports.map collector.finishDraft := List.filter_map
  rw [flatMap_imported, bares, List.forall₂_map_left_iff, List.forall₂_map_right_iff] at makes
  rw [elements, List.forall₂_map_right_iff]
  have both := (List.forall₂_and_left _ _).mpr ⟨areImports, makes.flip⟩
  exact both.flip.imp fun use draft each =>
    Use.imports_finishDraft (each.2.refer draft.references) each.1

section

variable {filePath moduleName : String} {lines : Nat} {root : Node} {last : Collector}
  (isLast : (Collector.start filePath "rust" moduleName lines).recordFile
    (outline ⟨filePath, "rust", moduleName⟩ root) = .ok last)
include isLast

theorem forall₂_imports_of_recordFile :
    List.Forall₂ (fun use element => use.Imports moduleName last.root.id element)
      ((uses root).filter fun use => use.target moduleName ≠ "")
      ((last.others.map last.finishDraft).filter (·.kind = .importItem)) := by
  have regular := allRegular_outline ⟨filePath, "rust", moduleName⟩ root
  have starts := Collector.Records.start filePath "rust" moduleName lines
  have records := starts.recordAll starts.ordinary_root regular isLast
  obtain ⟨added, grows, brings⟩ := Collector.exists_brings_recordAll isLast
  have bares : last.bares = added := grows.bares_eq
  have makes := brings.forall₂_allImports regular
  rw [← bares, ← grows.root_id, allImports_outline] at makes
  exact forall₂_imports records.isImport makes

/-- The items of a file have names below all modules around them. -/
theorem exists_named_of_recordFile {found : Standing} (isFound : found ∈ allStanding root)
    {name : String} (declares : Declares found.item name) :
    ∃ element ∈ last.others.map last.finishDraft, element.name = name ∧
      element.startLine = found.item.node.startLine ∧
      element.qualifiedName = join "." (moduleName :: (found.modules ++ [name])) := by
  let file : SourceFile := ⟨filePath, "rust", moduleName⟩
  obtain ⟨declaration, member, isName, isLine⟩ :=
    declares.isDeclared_standing file moduleName [] (Place.ofRoot root) isFound
  have regular := allRegular_items file moduleName (Place.ofRoot root)
  have noPackage : .package ∉ Outline.allKinds _ :=
    regular.notMem_allKinds (by decide) List.mem_cons_self
  obtain ⟨draft, isDraft, names⟩ :=
    Collector.exists_names_recordAll noPackage (Collector.handle_root _) isLast _ member
  obtain ⟨other, isOther, rfl⟩ := List.mem_map.mp isDraft
  exact ⟨last.finishDraft other, List.mem_map_of_mem isOther, names.name_eq.trans isName,
    names.startLine_eq.trans isLine, names.qualifiedName_eq⟩

end

end Rust

open ModulePath (IsRelative IsSegment ascent dotted nameOf)
open Rust (Declares Use allStanding uses)
open SyntaxTree (Node Place)
open Text (join)

/-- The imports of a Rust file are those of the paths that it uses, in the order of the source. Each
path is read from the module of the file, and one that means nothing is left out. Items in inline
modules have names below all of these. A path that starts with `self` or `super` in such a module
means the same as if it were read from there only if it climbs out of all modules. -/
theorem extract_uses (source filePath : String) (root : Node) :
    let moduleName := nameOf filePath "rust"
    ∃ file others, Yields source filePath "rust" root (file :: others) ∧
      List.Forall₂ (fun use element => use.Imports moduleName file.id element)
        ((uses root).filter fun use => use.target moduleName ≠ "")
        (others.filter (·.kind = .importItem)) ∧
      (∀ found ∈ allStanding root, ∀ name, Declares found.item name →
        ∃ element ∈ others, element.name = name ∧ element.startLine = found.item.node.startLine ∧
          element.qualifiedName = join "." (moduleName :: (found.modules ++ [name]))) ∧
      ∀ use ∈ uses root, IsRelative use.leaf.path → (∀ name ∈ use.modules, IsSegment name) →
        (use.target moduleName = use.target (join "." (moduleName :: use.modules)) ↔
          use.modules = [] ∨
            (dotted moduleName).length + use.modules.length ≤ ascent use.leaf.path) := by
  intro moduleName
  have regular := Rust.allRegular_outline ⟨filePath, "rust", moduleName⟩ root
  obtain ⟨last, isLast, yields⟩ := exists_yields_of_allPlaced source filePath
    (show outlineOf? "rust" = some Rust.outline from rfl) regular.allPlaced
  dsimp only at isLast
  have isRecorded : (Collector.start filePath "rust" moduleName (lineCount source)).recordFile
      (Rust.outline ⟨filePath, "rust", moduleName⟩ root) = .ok last := isLast
  refine ⟨_, _, yields, Rust.forall₂_imports_of_recordFile isRecorded, ?_, ?_⟩
  · intro found isFound name declares
    exact Rust.exists_named_of_recordFile isRecorded isFound declares
  · intro use _ relative segments
    exact ModulePath.normalizeColons_nested segments relative moduleName

/-- A path above the module of the file, and a function in an inline module of the file. -/
theorem extract_uses_above :
    let node (kind : String) (role : Option String) (text : String) (children : List Node) : Node :=
      .mk ⟨kind, true, false, role, text, ⟨0, 0⟩, ⟨0, 9⟩, 0⟩ children
    let use := node "use_declaration" none "use super::Pool;"
      [node "scoped_identifier" (some "argument") "super::Pool" []]
    let check := node "function_item" none "" [node "identifier" (some "name") "check" []]
    let tests := node "mod_item" none ""
      [node "identifier" (some "name") "tests" [], node "declaration_list" (some "body") "" [check]]
    let root := node "source_file" none "" [use, tests]
    ∃ file others, Yields "" "src/net/http.rs" "rust" root (file :: others) ∧
      (∃ element ∈ others, element.references = [⟨.imports, "net.Pool", 1⟩]) ∧
      ∃ element ∈ others, element.name = "check" ∧
        element.qualifiedName = "net.http.tests.check" := by
  intro node use check tests root
  obtain ⟨file, others, yields, along, names, -⟩ := extract_uses "" "src/net/http.rs" root
  have isStanding : allStanding root = [⟨[], ⟨use, 0, []⟩⟩, ⟨[], ⟨tests, 0, [use]⟩⟩,
      ⟨["tests"], ⟨check, 0, []⟩⟩] := by
    have isItem : Rust.itemsOf (Place.ofRoot root) = [⟨use, 0, []⟩, ⟨tests, 0, [use]⟩] := rfl
    have isInner : Rust.standingIn [] ⟨tests, 0, [use]⟩ = [⟨["tests"], ⟨check, 0, []⟩⟩] := by
      rw [Rust.standingIn]
      change Rust.standing ["tests"] _ = _
      rw [Rust.standing_eq]
      rfl
    rw [allStanding, Rust.standing_eq, isItem, List.flatMap_cons, List.flatMap_singleton, isInner]
    rfl
  refine ⟨file, others, yields, ?_, ?_⟩
  · have isUse : uses root = [⟨[], use, ⟨"super::Pool", none⟩⟩] := by
      have isLeaf : Rust.leavesOf use = [⟨"super::Pool", none⟩] := by
        change Rust.expandUse "" _ = _
        rw [Rust.expandUse]
        rfl
      have isFirst : Rust.usesOf ⟨[], ⟨use, 0, []⟩⟩ =
          (Rust.leavesOf use).map fun leaf => ⟨[], use, leaf⟩ := if_pos rfl
      rw [uses, isStanding, List.flatMap_cons, isFirst, isLeaf]
      rfl
    have isMeant : ([⟨[], use, ⟨"super::Pool", none⟩⟩] : List Use).filter
        (fun use => use.target (nameOf "src/net/http.rs" "rust") ≠ "") =
          [⟨[], use, ⟨"super::Pool", none⟩⟩] := List.filter_cons_of_pos (by decide +kernel)
    rw [isUse, isMeant] at along
    obtain ⟨element, rest, imports, -, isImports⟩ := List.forall₂_cons_left_iff.mp along
    have isElement : element ∈ others.filter (·.kind = .importItem) := by
      rw [isImports]
      exact List.mem_cons_self
    refine ⟨element, (List.mem_filter.mp isElement).1, imports.references_eq.trans ?_⟩
    decide +kernel
  · obtain ⟨element, isElement, isName, -, isQualified⟩ :=
      names ⟨["tests"], ⟨check, 0, []⟩⟩ (by simp [isStanding]) "check" ⟨rfl, .inl (by decide)⟩
    refine ⟨element, isElement, isName, isQualified.trans ?_⟩
    decide +kernel

/-- Inside an inline module `super` leads to the module of the file, but the path is read from the
file and leads above it. -/
theorem extract_uses_inline :
    let node (kind : String) (role : Option String) (text : String) (children : List Node) : Node :=
      .mk ⟨kind, true, false, role, text, ⟨0, 0⟩, ⟨0, 9⟩, 0⟩ children
    let use := node "use_declaration" none "use super::helper;"
      [node "scoped_identifier" (some "argument") "super::helper" []]
    let tests := node "mod_item" none ""
      [node "identifier" (some "name") "tests" [], node "declaration_list" (some "body") "" [use]]
    let root := node "source_file" none "" [tests]
    (∃ elements, Yields "" "src/api.rs" "rust" root elements ∧
      elements.map (fun element => (element.kind, element.qualifiedName, element.references)) =
        [(.file, "api", [⟨.dependsOn, "helper", 1⟩]), (.namespaceItem, "api.tests", []),
         (.importItem, "api:import:super::helper", [⟨.imports, "helper", 1⟩])]) ∧
    ModulePath.normalizeColons "super::helper" "api.tests" = "api.helper" := by
  intro node use tests root
  exact ⟨exists_yields_of_recordFile rfl (by decide +kernel), by decide +kernel⟩

end Extract
end CodeAtlas
