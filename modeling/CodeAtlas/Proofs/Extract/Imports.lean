import CodeAtlas.Proofs.Extract.Malformed
import CodeAtlas.Proofs.Outline.Imports

/-!
# Imports of a file

In every language an import is an element below the file's own one, with a single reference to what
it imports, and the file depends on what its imports refer to, in the same order. Rust files depend
on the modules besides that their module items load. An import of something blank stays without a
reference.
-/

namespace CodeAtlas

namespace Outline

/-- The reference of a kind to what a file depends on. -/
def Dependency.reference (kind : ReferenceKind) (dependency : Dependency) : Reference :=
  ⟨kind, dependency.target, dependency.line⟩

/-- A dependency as it is written; one on something blank is not. -/
def Dependency.written? (dependency : Dependency) : Option Dependency :=
  if Text.trim dependency.target = "" then none
  else some { dependency with target := Text.trim dependency.target }

end Outline

namespace Collector

open Outline (Dependency)

theorem writtenFor_eq_map (kind : ReferenceKind) (depended : List Dependency) :
    writtenFor kind depended =
      (depended.filterMap Dependency.written?).map (Dependency.reference kind) := by
  rw [writtenFor, List.map_filterMap, List.filterMap_eq_flatMap_toList]
  apply List.flatMap_congr
  intro dependency _
  unfold written Dependency.written?
  split <;> rfl

/-- Being written does not change who says that a file depends on something. -/
theorem filter_filterMap_written? (wanted : Bool → Bool) (depended : List Dependency) :
    (depended.filterMap Dependency.written?).filter (fun dependency => wanted dependency.imported) =
      (depended.filter fun dependency => wanted dependency.imported).filterMap
        Dependency.written? := by
  rw [List.filter_filterMap, List.filterMap_filter]
  apply List.filterMap_congr
  intro dependency _
  unfold Dependency.written?
  by_cases blank : Text.trim dependency.target = "" <;> simp [blank, Option.filter]

/-! ## Finished elements -/

variable {collector : Collector}

theorem boundReference_of_kind {reference : Reference}
    (isKind : reference.kind = .imports ∨ reference.kind = .dependsOn) :
    collector.boundReference reference = reference := by
  unfold boundReference
  rcases isKind with isKind | isKind <;> rw [isKind]

theorem map_boundReference_written (target : String) (line : Nat) :
    (written .imports target line).map collector.boundReference = written .imports target line := by
  refine (List.map_congr_left fun reference member => ?_).trans (List.map_id _)
  unfold written at member
  split at member
  · exact nomatch member
  · rw [List.mem_singleton.mp member]
    exact boundReference_of_kind (.inl rfl)

theorem filter_dependsOn_finishDraft (collector : Collector) :
    (collector.finishDraft collector.root).references.filter (·.kind = .dependsOn) =
      collector.dependsOn := by
  have kinds : ((fun reference : Reference => decide (reference.kind = .dependsOn)) ∘
      collector.boundReference) = fun reference => decide (reference.kind = .dependsOn) := by
    funext reference
    rw [Function.comp_apply, boundReference_kind]
  rw [finishDraft, List.filter_map, kinds]
  refine (List.map_congr_left fun reference member => ?_).trans (List.map_id _)
  exact boundReference_of_kind (.inr (by simpa using (List.mem_filter.mp member).2))

/-- An import belongs to a file and refers to what it imports, unless that is blank. -/
def Imported (fileId : String) (element : Element) : Prop :=
  element.parentId = some fileId ∧ ∃ target, ("target", .str target) ∈ element.metadata ∧
    element.references = written .imports target element.startLine

theorem IsImport.references_finishDraft {fileId : String} {draft : Draft}
    (isImport : IsImport fileId draft) :
    (collector.finishDraft draft).references = draft.references := by
  obtain ⟨target, -, refers⟩ := isImport.refers
  change draft.references.map collector.boundReference = draft.references
  rw [refers, map_boundReference_written]

theorem IsImport.finishDraft {fileId : String} {draft : Draft} (isImport : IsImport fileId draft) :
    Imported fileId (collector.finishDraft draft) := by
  obtain ⟨target, fact, refers⟩ := isImport.refers
  exact ⟨isImport.parentId_eq, target, fact, isImport.references_finishDraft.trans refers⟩

theorem Records.finish {depended : List Dependency} (records : Records collector depended) :
    let file := collector.finishDraft collector.root
    let others := collector.others.map collector.finishDraft
    (∀ element ∈ others, element.kind = .importItem → Imported file.id element) ∧
      file.references.filter (·.kind = .dependsOn) = writtenFor .dependsOn depended ∧
      (others.filter (·.kind = .importItem)).flatMap (·.references) =
        writtenFor .imports (depended.filter (·.imported)) := by
  intro file others
  refine ⟨fun element member isItem => ?_, ?_, ?_⟩
  · obtain ⟨draft, isDraft, rfl⟩ := List.mem_map.mp member
    have isKind : draft.kind = .importItem := isItem
    have isImport : draft ∈ collector.imports :=
      List.mem_filter.mpr ⟨isDraft, by simpa using isKind⟩
    exact (records.isImport draft isImport).finishDraft
  · rw [← records.dependsOn_eq]
    exact filter_dependsOn_finishDraft collector
  · rw [← records.imported]
    change ((collector.others.map collector.finishDraft).filter _).flatMap _ = _
    rw [List.filter_map, List.flatMap_map]
    exact List.flatMap_congr fun draft member =>
      (records.isImport draft member).references_finishDraft

end Collector

namespace Extract

open Collector (Imported)
open Outline (AllRegular Dependency Grants allDependencies loaded)
open SyntaxTree (Node Place)

namespace Rust

theorem allDependencies_items (file : SourceFile) (scope : String) (place : Place) :
    allDependencies (items file scope place) =
      (itemsOf place).flatMap fun item => allDependencies (itemOutlines file scope item) := by
  have types (item : Place) : (typeItem file item).flatMap Outline.dependencies = [] := by
    rw [← Outline.allDependencies_eq_flatMap]
    exact (allRegular_typeItem file item).allDependencies_eq_nil
  simp only [Outline.allDependencies_eq_flatMap]
  exact flatMap_items file types scope place

/-- What the module items below a container load: each without a body names another file. -/
def loads (file : SourceFile) (place : Place) : List Dependency :=
  (itemsOf place).attach.flatMap fun ⟨item, isItem⟩ =>
    have smaller : item.node.size < place.node.size := size_lt_of_mem_itemsOf isItem
    if item.node.kind = "mod_item" then
      match present? (item.node.fieldText? "name") with
      | none => []
      | some name =>
        match isBody : item.field? "body" with
        | none => [⟨false, loadedModule file name, item.node.startLine⟩]
        | some body =>
          have : body.node.size < place.node.size :=
            Nat.lt_trans (Place.size_lt_of_field? isBody) smaller
          loads file body
    else
      []
termination_by place.node.size

theorem loaded_items (file : SourceFile) (scope : String) (place : Place) :
    loaded (items file scope place) = loads file place := by
  have divided : loaded (items file scope place) =
      (itemsOf place).flatMap fun item => loaded (itemOutlines file scope item) := by
    rw [loaded, allDependencies_items, List.filter_flatMap]
    rfl
  rw [divided, loads,
    List.flatMap_subtype (g := fun item => loaded (itemOutlines file scope item)),
    List.unattach_attach]
  intro item isItem
  have smaller := size_lt_of_mem_itemsOf isItem
  dsimp only
  by_cases isModule : item.node.kind = "mod_item"
  · rw [if_pos isModule]
    unfold itemOutlines
    simp only [isModule]
    cases present? (item.node.fieldText? "name") with
    | none => rfl
    | some name =>
      dsimp only
      generalize isBody : item.field? "body" = found
      cases found with
      | none => rfl
      | some body =>
        have := Nat.lt_trans (Place.size_lt_of_field? isBody) smaller
        simp only [← loaded_items file (scope ++ "." ++ name) body]
        simp [loaded, allDependencies, Outline.dependencies]
  · rw [if_neg isModule]
    by_cases isUse : item.node.kind = "use_declaration"
    · rw [itemOutlines_use file scope isUse]
      exact (allRegular_useOutlines file item.node).loaded_eq_nil.symm
    · have regular : AllRegular (itemGrants true false) (itemOutlines file scope item) :=
        allRegular_itemOutlines file scope isUse isModule
      exact regular.loaded_eq_nil.symm
termination_by place.node.size

end Rust

/-- What the files of a language load besides their imports. -/
def loadedBy (language : String) (file : SourceFile) (root : Node) : List Dependency :=
  if language = "rust" then Rust.loads file (Place.ofRoot root) else []

/-- The reader of a language keeps to regular outlines. -/
def IsRegularReader (language : String) (outline : SourceFile → Node → List Outline) : Prop :=
  ∀ file root, (∃ grants, AllRegular grants (outline file root)) ∧
    loaded (outline file root) = loadedBy language file root

theorem isRegularReader_of_importing {language : String} (notRust : language ≠ "rust")
    {outline : SourceFile → Node → List Outline}
    (regular : ∀ file root, AllRegular .importing (outline file root)) :
    IsRegularReader language outline := by
  intro file root
  refine ⟨⟨_, regular file root⟩, ?_⟩
  rw [(regular file root).loaded_eq_nil, loadedBy, if_neg notRust]

theorem exists_isRegularReader {language : String} (isSupported : language ∈ Language.supported) :
    ∃ outline, outlineOf? language = some outline ∧ IsRegularReader language outline := by
  simp only [Language.supported, List.mem_cons, List.not_mem_nil, or_false] at isSupported
  rcases isSupported with rfl | rfl | rfl | rfl | rfl | rfl | rfl
  · exact ⟨_, rfl, isRegularReader_of_importing (by decide) Script.allRegular_outline⟩
  · exact ⟨_, rfl, isRegularReader_of_importing (by decide) Script.allRegular_outline⟩
  · exact ⟨_, rfl, isRegularReader_of_importing (by decide) Script.allRegular_outline⟩
  · exact ⟨_, rfl, isRegularReader_of_importing (by decide) Python.allRegular_outline⟩
  · exact ⟨_, rfl, isRegularReader_of_importing (by decide) Go.allRegular_outline⟩
  · exact ⟨_, rfl, isRegularReader_of_importing (by decide) Java.allRegular_outline⟩
  · refine ⟨_, rfl, fun file root => ⟨⟨_, Rust.allRegular_outline file root⟩, ?_⟩⟩
    exact Rust.loaded_items file file.moduleName (Place.ofRoot root)

/-- Every import that is extracted belongs to the file and has one reference, to what it imports, or
none if that is blank. The file depends on what its imports refer to, on the same lines and in the
same order; between these stand, in Rust alone, the modules that module items load. -/
theorem extract_imports (source filePath : String) {language : String}
    (isSupported : language ∈ Language.supported) (root : Node) :
    ∃ file others, Yields source filePath language root (file :: others) ∧
      (file.id = filePath ++ "::module" ∧ file.kind = .file) ∧
      (∀ element ∈ others, element.kind = .importItem → Imported file.id element) ∧
      ∃ depended : List Dependency,
        file.references.filter (·.kind = .dependsOn) =
          depended.map (Dependency.reference .dependsOn) ∧
        (others.filter (·.kind = .importItem)).flatMap (·.references) =
          (depended.filter (·.imported)).map (Dependency.reference .imports) ∧
        depended.filter (!·.imported) =
          (loadedBy language ⟨filePath, language, ModulePath.nameOf filePath language⟩
            root).filterMap Dependency.written? := by
  obtain ⟨outline, isReader, regularReader⟩ := exists_isRegularReader isSupported
  let file : SourceFile := ⟨filePath, language, ModulePath.nameOf filePath language⟩
  obtain ⟨⟨grants, regular⟩, isLoaded⟩ := regularReader file root
  let start := Collector.start file.path file.language file.moduleName (lineCount source)
  have starts : start.Records [] := ⟨List.nodup_singleton _, nofun, rfl, rfl⟩
  obtain ⟨last, isLast, yields⟩ :=
    exists_yields_of_allPlaced source filePath isReader regular.allPlaced
  have records := starts.recordAll starts.ordinary_root regular isLast
  obtain ⟨added, grows, -⟩ := Collector.exists_brings_recordAll isLast
  obtain ⟨areImports, dependsOn, imports⟩ := records.finish
  rw [List.nil_append] at dependsOn imports
  let depended := (allDependencies (outline file root)).filterMap Dependency.written?
  refine ⟨last.finishDraft last.root, last.others.map last.finishDraft, yields,
    ⟨grows.root_id, grows.root_kind⟩, areImports, depended, ?_, ?_, ?_⟩
  · rw [dependsOn, Collector.writtenFor_eq_map]
  · rw [imports, Collector.writtenFor_eq_map]
    exact congrArg _ (Collector.filter_filterMap_written? id _).symm
  · rw [← isLoaded]
    exact Collector.filter_filterMap_written? (!·) _

/-- A module item between two `use` declarations: the file depends on three modules, in the order of
the items, and the two imports refer to the first and the last of them. -/
theorem extract_imports_module_between :
    let node (kind : String) (role : Option String) (text : String) (row : Nat)
        (children : List Node) : Node :=
      .mk ⟨kind, true, false, role, text, ⟨row, 0⟩, ⟨row, 9⟩, 0⟩ children
    let use (path : String) (row : Nat) : Node :=
      node "use_declaration" none ("use " ++ path ++ ";") row
        [node "identifier" (some "argument") path row []]
    let load (name : String) (row : Nat) : Node :=
      node "mod_item" none ("mod " ++ name ++ ";") row [node "identifier" (some "name") name row []]
    let root := node "source_file" none "" 0 [use "serde" 0, load "shop" 1, use "tokio" 2]
    "rust" ∈ Language.supported ∧
    (∃ file others, Yields "" "lib.rs" "rust" root (file :: others) ∧
      ∀ element ∈ others, element.kind = .importItem → Imported file.id element) ∧
    ∃ elements, Yields "" "lib.rs" "rust" root elements ∧
      elements.map (fun element => (element.kind, element.references)) =
        [(.file,
          [⟨.dependsOn, "serde", 1⟩, ⟨.dependsOn, "shop", 2⟩, ⟨.dependsOn, "tokio", 3⟩]),
         (.importItem, [⟨.imports, "serde", 1⟩]), (.importItem, [⟨.imports, "tokio", 3⟩])] := by
  intro node use load root
  obtain ⟨file, others, yields, -, areImports, -⟩ :=
    extract_imports "" "lib.rs" (by decide : "rust" ∈ Language.supported) root
  exact ⟨by decide, ⟨file, others, yields, areImports⟩,
    exists_yields_of_recordFile rfl (by decide +kernel)⟩

/-- In a file at the root, the module that `from . import helper` names has a blank name: the import
has no reference and the file no dependency. -/
theorem extract_imports_own_directory :
    let node (kind : String) (role : Option String) (text : String) (children : List Node) : Node :=
      .mk ⟨kind, true, false, role, text, ⟨0, 0⟩, ⟨0, 20⟩, 0⟩ children
    let statement := node "import_from_statement" none "from . import helper"
      [node "relative_import" (some "module_name") "." [node "import_prefix" none "." []],
       node "dotted_name" (some "name") "helper" []]
    ∃ elements, Yields "" "a.py" "python" (node "module" none "" [statement]) elements ∧
      elements.map (fun element => (element.kind, element.references)) =
        [(.file, []), (.importItem, [])] := by
  intro node statement
  apply exists_yields_of_recordFile rfl
  have isOutline (file : SourceFile) :
      Python.outline file (node "module" none "" [statement]) =
        Python.importOutlines file statement := by
    change [statement].flatMap (Python.statement file .module []) = _
    rw [List.flatMap_singleton, Python.statement]
    rfl
  dsimp only
  rw [isOutline]
  decide +kernel

end Extract
end CodeAtlas
