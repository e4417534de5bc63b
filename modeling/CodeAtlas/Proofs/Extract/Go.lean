import CodeAtlas.Extract.Go
import CodeAtlas.Proofs.Extract.Names

/-!
# Regular outlines of Go files

The outline of a Go file is regular, whatever the syntax tree. Only import declarations import, and
nothing else says what the file depends on.
-/

namespace CodeAtlas
namespace Extract
namespace Go

open Outline (AllRegular Grants Regular)
open SyntaxTree (Node Place)

variable {grants : Grants}

theorem allRegular_referenceAt (found : Array Outline) (node : Node)
    (kept : AllRegular grants found.toList) :
    AllRegular grants (referenceAt found node).1.toList := by
  unfold referenceAt
  dsimp only
  split
  · split
    · exact kept
    · split
      · simp [kept]
      · split
        · split <;> simp [kept]
        · exact kept
  · split
    · split
      · split <;> simp [kept]
      · exact kept
    · exact kept

@[simp]
theorem allRegular_references (node : Node) : AllRegular grants (references node) :=
  Outline.allRegular_visitDescendants allRegular_referenceAt node

@[simp]
theorem allRegular_referencesIn (node : Option Node) : AllRegular grants (referencesIn node) := by
  cases node <;> simp [referencesIn]

theorem allRegular_imports (file : SourceFile) (node : Node) :
    AllRegular .importing (imports file node) := by
  rw [imports, Outline.allRegular_flatMap]
  intro spec _
  split
  · exact Outline.allRegular_nil
  · rw [Outline.allRegular_cons]
    refine ⟨by simp, ?_⟩
    split
    · split <;> simp
    · exact Outline.allRegular_nil

theorem allRegular_structFields (node : Node) : AllRegular .importing (structFields node) := by
  unfold structFields
  split
  · exact Outline.allRegular_nil
  · rw [Outline.allRegular_flatMap]
    intro declaration _
    split
    · exact Outline.allRegular_nil
    · dsimp only
      split_ifs <;> simp

theorem allRegular_typeDeclaration (place : Place) :
    AllRegular .importing (typeDeclaration place) := by
  rw [typeDeclaration, Outline.allRegular_flatMap]
  intro spec _
  split
  · dsimp only
    split_ifs <;> simp [allRegular_structFields]
  · exact Outline.allRegular_nil

theorem regular_functionOutline (place : Place) : Regular .importing (functionOutline place) := by
  simp [functionOutline]

theorem regular_method (package : String) (place : Place) :
    Regular .importing (method package place) := by
  unfold method
  dsimp only
  split <;> simp

theorem allRegular_values (node : Node) : AllRegular .importing (values node) := by
  simp [values]

theorem allRegular_topLevel (file : SourceFile) (package : String) (place : Place) :
    AllRegular .importing (topLevel file package place) := by
  unfold topLevel
  split
  · exact allRegular_imports file place.node
  · simp [regular_functionOutline]
  · simp [regular_method]
  · exact allRegular_values place.node
  · exact allRegular_values place.node
  · exact allRegular_references place.node
  · exact Outline.allRegular_nil

theorem one_le_of_packageClause? {root : Node} {clause : String × Nat}
    (found : packageClause? root = some clause) : 1 ≤ clause.2 := by
  obtain ⟨node, -, named⟩ := Option.bind_eq_some_iff.mp found
  obtain ⟨name, -, same⟩ := Option.bind_eq_some_iff.mp named
  obtain rfl := Option.some.inj same
  exact Node.one_le_startLine node

theorem allRegular_outline (file : SourceFile) (root : Node) :
    AllRegular .importing (outline file root) := by
  unfold outline
  dsimp only
  rw [Outline.allRegular_append, Outline.allRegular_append, Outline.allRegular_map,
    Outline.allRegular_flatMap, Outline.allRegular_flatMap]
  refine ⟨⟨fun clause found => ?_, fun place _ => allRegular_typeDeclaration place⟩,
    fun place _ => allRegular_topLevel file _ place⟩
  exact ⟨one_le_of_packageClause? (Option.mem_toList.mp found), List.not_mem_nil⟩

theorem allPlaced_outline (file : SourceFile) (root : Node) :
    Outline.AllPlaced (outline file root) :=
  (allRegular_outline file root).allPlaced

end Go
end Extract
end CodeAtlas
