import CodeAtlas.Proofs.Extract.Imports
import CodeAtlas.Proofs.ModulePath
import CodeAtlas.Proofs.Text.Blank

/-!
# Modules that Rust files load

A module item without a body loads the file of its name from the folder that belongs to the file
with the item: the folder that an index file stands for, or else the folder named like the file. The
file depends on the module of the loaded one, but not in an index file that lies one folder below
the root of the crate, which is taken for that root, nor in a file `src.rs` outside of all folders,
whose own folder is taken for the root of the sources.
-/

namespace CodeAtlas
namespace ModulePath

open Text (join)

/-! ## Names of Rust modules -/

/-- The folders of a file from the root of its crate on. -/
def crateFolders (folders : List String) : List String :=
  if folders.head? = some "src" then folders.tail else folders

/-- The folder from which a file loads modules. -/
def ownFolder (folders : List String) (stem : String) : List String :=
  if stem ∈ indexStems "rust" then folders else folders ++ [stem]

theorem dropSourceRoot_append (folders : List String) (last : String) :
    dropSourceRoot (folders ++ [last]) = crateFolders folders ++ [last] := by
  match folders with
  | [] => rfl
  | [first] => by_cases isSource : first = "src" <;> simp [dropSourceRoot, crateFolders, isSource]
  | first :: second :: rest =>
    by_cases isSource : first = "src" <;> simp [dropSourceRoot, crateFolders, isSource]

theorem crateFolders_append {folders : List String} (present : folders ≠ []) (last : String) :
    crateFolders (folders ++ [last]) = crateFolders folders ++ [last] := by
  obtain ⟨first, rest, rfl⟩ := List.exists_cons_of_ne_nil present
  by_cases isSource : first = "src" <;> simp [crateFolders, isSource]

theorem mem_of_mem_crateFolders {folders : List String} {segment : String}
    (member : segment ∈ crateFolders folders) : segment ∈ folders := by
  unfold crateFolders at member
  split at member
  · exact List.mem_of_mem_tail member
  · exact member

variable {folders : List String} {stem name : String}

theorem nameOf_rust (segments : ∀ segment ∈ folders ++ [stem], IsSegment segment) :
    nameOf (join "/" (folders ++ [stem ++ ".rs"])) "rust" =
      join "." (if crateFolders folders ≠ [] ∧ stem ∈ indexStems "rust" then crateFolders folders
        else crateFolders folders ++ [stem]) := by
  rw [show ".rs" = "." ++ "rs" from rfl, ← String.append_assoc,
    nameOf_file segments (by decide), named, if_pos rfl, dropSourceRoot_append, dropIndex_append]

theorem isIndex_rust (segments : ∀ segment ∈ folders ++ [stem], IsSegment segment) :
    isIndex (join "/" (folders ++ [stem ++ ".rs"])) "rust" = decide (stem ∈ indexStems "rust") := by
  rw [show ".rs" = "." ++ "rs" from rfl, ← String.append_assoc, isIndex_file segments (by decide)]
  exact List.contains_eq_mem stem _

theorem ownFolder_segments (segments : ∀ segment ∈ folders ++ [stem], IsSegment segment) :
    ∀ segment ∈ ownFolder folders stem, IsSegment segment := by
  unfold ownFolder
  split_ifs
  · exact (List.forall_mem_append.mp segments).1
  · exact segments

/-- The module that a file loads is named after the folder that belongs to the file. -/
theorem nameOf_loaded (segments : ∀ segment ∈ folders ++ [stem], IsSegment segment)
    (isName : IsSegment name) (noIndex : name ∉ indexStems "rust") :
    nameOf (join "/" (ownFolder folders stem ++ [name ++ ".rs"])) "rust" =
      join "." (crateFolders (ownFolder folders stem) ++ [name]) := by
  rw [nameOf_rust, if_neg fun index => noIndex index.2]
  exact List.forall_mem_append.mpr ⟨ownFolder_segments segments, by simpa using isName⟩

end ModulePath

namespace Extract
namespace Rust

open ModulePath (IsSegment crateFolders indexStems isIndex nameOf ownFolder)
open Outline (Dependency allDependencies)
open SyntaxTree (Node Place)
open Text (join split)

/-! ## What a module item loads -/

section

variable {folders : List String} {stem name : String}

theorem loadedModule_eq (path language moduleName name : String) :
    loadedModule ⟨path, language, moduleName⟩ name =
      if isIndex path language = true ∧ (split '.' moduleName).length ≤ 1 then name
      else moduleName ++ "." ++ name := by
  simp [loadedModule]

/-- An index file loads from its own folder, which is taken for the root up to one folder deep. -/
theorem loadedModule_index (segments : ∀ segment ∈ folders ++ [stem], IsSegment segment)
    (index : stem ∈ indexStems "rust") (name : String) :
    let path := join "/" (folders ++ [stem ++ ".rs"])
    loadedModule ⟨path, "rust", nameOf path "rust"⟩ name =
      if (crateFolders folders).length ≤ 1 then name
      else join "." (crateFolders folders ++ [name]) := by
  intro path
  have isIndex : isIndex path "rust" = true := by
    rw [ModulePath.isIndex_rust segments, decide_eq_true index]
  have isModule := ModulePath.nameOf_rust segments
  rw [loadedModule_eq, isModule]
  simp only [isIndex, true_and]
  by_cases atRoot : crateFolders folders = []
  · -- At the root the module has the name of the file, which is one segment as well.
    have piece : split '.' (join "." [stem]) = [stem] :=
      Text.split_join rfl (List.cons_ne_nil _ _) (by simpa using (segments stem (by simp)).noDot)
    rw [if_neg (c := _ ∧ _) (by simp [atRoot]), atRoot, List.nil_append, piece]
    rfl
  · have pieces : split '.' (join "." (crateFolders folders)) = crateFolders folders :=
      Text.split_join rfl atRoot fun segment member =>
        (segments segment (by simp [ModulePath.mem_of_mem_crateFolders member])).noDot
    rw [if_pos (c := _ ∧ _) ⟨atRoot, index⟩, pieces,
      Text.join_append "." atRoot (List.cons_ne_nil name []), join]

theorem loadedModule_ordinary (segments : ∀ segment ∈ folders ++ [stem], IsSegment segment)
    (noIndex : stem ∉ indexStems "rust") (name : String) :
    let path := join "/" (folders ++ [stem ++ ".rs"])
    loadedModule ⟨path, "rust", nameOf path "rust"⟩ name =
      join "." (crateFolders folders ++ [stem] ++ [name]) := by
  intro path
  have isIndex : isIndex path "rust" = false := by
    rw [ModulePath.isIndex_rust segments, decide_eq_false noIndex]
  have isModule : nameOf path "rust" = join "." (crateFolders folders ++ [stem]) := by
    rw [ModulePath.nameOf_rust segments, if_neg fun index => noIndex index.2]
  rw [loadedModule_eq, isModule, if_neg (by simp [isIndex]),
    Text.join_append "." (List.append_ne_nil_of_right_ne_nil _ (by simp))
      (List.cons_ne_nil name []), join]

/-- The module that an item without a body loads is that of the loaded file, but in the two places
that are taken for the root. -/
theorem loadedModule_file (segments : ∀ segment ∈ folders ++ [stem], IsSegment segment)
    (isName : IsSegment name) (noIndex : name ∉ indexStems "rust") :
    let path := join "/" (folders ++ [stem ++ ".rs"])
    loadedModule ⟨path, "rust", nameOf path "rust"⟩ name =
      if stem ∈ indexStems "rust" ∧ (crateFolders folders).length = 1 then name
      else if folders = [] ∧ stem = "src" then "src." ++ name
      else nameOf (join "/" (ownFolder folders stem ++ [name ++ ".rs"])) "rust" := by
  intro path
  rw [ModulePath.nameOf_loaded segments isName noIndex]
  by_cases index : stem ∈ indexStems "rust"
  · have isLoaded := loadedModule_index segments index name
    have notSource : stem ≠ "src" := by
      rintro rfl
      exact absurd index (by decide)
    have isOwn : ownFolder folders stem = folders := if_pos index
    rw [isLoaded, isOwn]
    by_cases oneDeep : (crateFolders folders).length = 1
    · rw [if_pos oneDeep.le, if_pos (c := _ ∧ _) ⟨index, oneDeep⟩]
    · rw [if_neg (c := _ ∧ _) fun both => oneDeep both.2,
        if_neg (c := _ ∧ _) fun both => notSource both.2]
      by_cases atRoot : crateFolders folders = []
      · rw [atRoot]
        rfl
      · have := List.length_pos_iff.mpr atRoot
        rw [if_neg (by omega)]
  · have isLoaded := loadedModule_ordinary segments index name
    have isOwn : ownFolder folders stem = folders ++ [stem] := if_neg index
    rw [isLoaded, isOwn, if_neg (c := _ ∧ _) fun both => index both.1]
    by_cases outermost : folders = []
    · subst outermost
      by_cases isSource : stem = "src"
      · rw [if_pos ⟨rfl, isSource⟩, isSource]
        rfl
      · rw [if_neg (c := _ ∧ _) fun both => isSource both.2]
        simp [crateFolders, isSource]
    · rw [if_neg (c := _ ∧ _) fun both => outermost both.1,
        ModulePath.crateFolders_append outermost]

/-- A module item without a body loads the file of a name. The names of index files are left out. -/
structure Loads (item : Place) (name : String) : Prop where
  /-- It is a module item. -/
  isModule : item.node.kind = "mod_item"
  /-- It has the name. -/
  isNamed : item.node.fieldText? "name" = some name
  /-- It has no body. -/
  hasNoBody : item.field? "body" = none
  /-- The name is one segment of a path. -/
  isSegment : IsSegment name
  /-- The name has no blanks. -/
  unblank : Text.Unblank name
  /-- It is not that of an index file. -/
  noIndex : name ∉ indexStems "rust"

variable {item : Place}

theorem Loads.allDependencies_eq (loads : Loads item name) (file : SourceFile) (scope : String) :
    allDependencies (itemOutlines file scope item) =
      [⟨false, loadedModule file name, item.node.startLine⟩] := by
  have isPresent : present? (item.node.fieldText? "name") = some name := by
    rw [loads.isNamed, present?, if_neg loads.isSegment.notEmpty]
  unfold itemOutlines
  simp only [loads.isModule, isPresent, loads.hasNoBody]
  rfl

theorem Loads.written_eq (loads : Loads item name) (file : SourceFile) (line : Nat) :
    Collector.written .dependsOn (loadedModule file name) line =
      [⟨.dependsOn, Text.trim (loadedModule file name), line⟩] := by
  obtain ⟨char, isChar⟩ : ∃ char, char ∈ name.toList :=
    List.exists_mem_of_ne_nil _ fun none =>
      loads.isSegment.notEmpty (String.toList_eq_nil_iff.mp none)
  have isThere : char ∈ (loadedModule file name).toList := by
    unfold loadedModule
    split_ifs
    · exact isChar
    · rw [String.toList_append]
      exact List.mem_append_right _ isChar
  have kept := Text.mem_trim (loads.unblank char isChar) isThere
  refine if_neg fun blank => ?_
  rw [blank] at kept
  exact absurd kept List.not_mem_nil

end

end Rust

open ModulePath (IsSegment crateFolders indexStems nameOf ownFolder)
open Rust (Loads itemsOf)
open SyntaxTree (Node Place)
open Text (join)

/-- The modules that a Rust file depends on divide along its items. A module item without a body
contributes the module of the file that it loads, but its mere name in an index file one folder
below the root of the crate, and the name behind `src` in a file `src.rs` outside of all folders. -/
theorem extract_loads (source : String) {folders : List String} {stem : String}
    (segments : ∀ segment ∈ folders ++ [stem], IsSegment segment) (root : Node) :
    let path := join "/" (folders ++ [stem ++ ".rs"])
    ∃ file others, Yields source path "rust" root (file :: others) ∧
      (file.id = path ++ "::module" ∧ file.kind = .file) ∧
      Divided (fun item part => ∀ name, Loads item name →
          let meant := nameOf (join "/" (ownFolder folders stem ++ [name ++ ".rs"])) "rust"
          let target :=
            if stem ∈ indexStems "rust" ∧ (crateFolders folders).length = 1 then name
            else if folders = [] ∧ stem = "src" then "src." ++ name
            else Text.trim meant
          part = [⟨.dependsOn, target, item.node.startLine⟩])
        (itemsOf (Place.ofRoot root)) (file.references.filter (·.kind = .dependsOn)) := by
  intro path
  let file : SourceFile := ⟨path, "rust", nameOf path "rust"⟩
  have regular := Rust.allRegular_outline file root
  obtain ⟨last, isLast, yields⟩ := exists_yields_of_allPlaced source path
    (show outlineOf? "rust" = some Rust.outline from rfl) regular.allPlaced
  have starts := Collector.Records.start path "rust" file.moduleName (lineCount source)
  have records := starts.recordAll starts.ordinary_root regular isLast
  obtain ⟨added, grows, -⟩ := Collector.exists_brings_recordAll isLast
  obtain ⟨-, dependsOn, -⟩ := records.finish
  refine ⟨last.finishDraft last.root, last.others.map last.finishDraft, yields,
    ⟨grows.root_id, grows.root_kind⟩, ?_⟩
  rw [dependsOn, List.nil_append, Rust.outline, Rust.allDependencies_items,
    Collector.writtenFor_flatMap]
  refine (Divided.of_flatMap _ _).imp fun item _ part isPart name loads => ?_
  have behindSource : Text.Unblank ("src." ++ name) :=
    Text.Unblank.append (by decide) loads.unblank
  rw [isPart, loads.allDependencies_eq, Collector.writtenFor_singleton, loads.written_eq,
    Rust.loadedModule_file segments loads.isSegment loads.noIndex, apply_ite Text.trim,
    apply_ite Text.trim, loads.unblank.trim_eq, behindSource.trim_eq]

/-- In an index file two folders below the root of the crate a module item loads from the inner
folder. -/
theorem extract_loads_two_deep :
    let node (kind : String) (role : Option String) (text : String) (children : List Node) : Node :=
      .mk ⟨kind, true, false, role, text, ⟨0, 0⟩, ⟨0, 11⟩, 0⟩ children
    let item := node "mod_item" none "mod client;" [node "identifier" (some "name") "client" []]
    let root := node "source_file" none "" [item]
    (∀ segment ∈ ["src", "net", "http"] ++ ["mod"], IsSegment segment) ∧
    Loads ⟨item, 0, []⟩ "client" ∧
    nameOf "src/net/http/client.rs" "rust" = "net.http.client" ∧
    ∃ file others, Yields "" "src/net/http/mod.rs" "rust" root (file :: others) ∧
      file.references.filter (·.kind = .dependsOn) = [⟨.dependsOn, "net.http.client", 1⟩] := by
  intro node item root
  have segments : ∀ segment ∈ ["src", "net", "http"] ++ ["mod"], IsSegment segment := by decide
  have loads : Loads ⟨item, 0, []⟩ "client" :=
    ⟨rfl, rfl, rfl, by decide, by decide, by decide⟩
  refine ⟨segments, loads, by decide +kernel, ?_⟩
  obtain ⟨file, others, yields, -, stretches, isWhole, along⟩ := extract_loads "" segments root
  have isItem : itemsOf (Place.ofRoot root) = [⟨item, 0, []⟩] := rfl
  rw [isItem] at along
  cases along with
  | cons isPart rest =>
    cases rest
    refine ⟨file, others, yields, ?_⟩
    rw [isWhole, isPart "client" loads]
    decide +kernel

/-- In an index file one folder below the root of the crate the file depends on the mere name. -/
theorem extract_loads_one_deep :
    let node (kind : String) (role : Option String) (text : String) (children : List Node) : Node :=
      .mk ⟨kind, true, false, role, text, ⟨0, 0⟩, ⟨0, 9⟩, 0⟩ children
    let item := node "mod_item" none "mod disk;" [node "identifier" (some "name") "disk" []]
    let root := node "source_file" none "" [item]
    (∃ elements, Yields "" "src/store/mod.rs" "rust" root elements ∧
      elements.map (fun element => (element.kind, element.references)) =
        [(.file, [⟨.dependsOn, "disk", 1⟩])]) ∧
    nameOf "src/store/disk.rs" "rust" = "store.disk" := by
  intro node item root
  exact ⟨exists_yields_of_recordFile rfl (by decide +kernel), by decide +kernel⟩

end Extract
end CodeAtlas
