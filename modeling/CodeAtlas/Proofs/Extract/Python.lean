import CodeAtlas.Extract.Python
import CodeAtlas.Proofs.Extract.Names

/-!
# Regular outlines of Python files

The outline of a Python file is regular, whatever the syntax tree. Import statements import wherever
they stand; nothing else says what the file depends on.
-/

namespace CodeAtlas
namespace Extract
namespace Python

open Outline (AllRegular Regular)
open SyntaxTree (Node)

theorem regular_importOf (file : SourceFile) (target : String) (node : Node) :
    Regular .importing (importOf file target node) := by
  simp [importOf]

theorem allRegular_importOutlines (file : SourceFile) (node : Node) :
    AllRegular .importing (importOutlines file node) := by
  unfold importOutlines
  split
  · rw [Outline.allRegular_flatMap]
    intro item _
    split <;> simp [regular_importOf]
  · split
    · exact Outline.allRegular_nil
    · rw [Outline.allRegular_cons, Outline.allRegular_flatMap]
      refine ⟨regular_importOf .., fun item _ => ?_⟩
      split <;> simp

theorem allRegular_referenceAt (file : SourceFile) (found : Array Outline) (node : Node)
    (kept : AllRegular .importing found.toList) :
    AllRegular .importing (referenceAt file found node).1.toList := by
  fun_cases referenceAt file found node <;> simp [kept, allRegular_importOutlines]

@[simp]
theorem allRegular_references (file : SourceFile) (node : Node) :
    AllRegular .importing (references file node) :=
  Outline.allRegular_visitTree (allRegular_referenceAt file) node

@[simp]
theorem allRegular_referencesIn (file : SourceFile) (node : Option Node) :
    AllRegular .importing (referencesIn file node) := by
  cases node <;> simp [referencesIn]

theorem allRegular_functionOutline (file : SourceFile) (scope : Scope) (decorators : List String)
    (node : Node) : AllRegular .importing (functionOutline file scope decorators node) := by
  unfold functionOutline
  extract_lets name isInit modifiers typed declared
  have regularTypes : AllRegular .importing typed := by
    dsimp only [typed]
    split
    · exact Outline.allRegular_nil
    · rw [Outline.allRegular_flatMap]
      intro parameter _
      split
      · exact Outline.allRegular_nil
      · split_ifs <;> simp
  have regular : Regular .importing declared := by
    dsimp only [declared]
    rw [Outline.Regular, Outline.allRegular_append]
    refine ⟨Node.one_le_startLine node, by dsimp only; split_ifs <;> simp, ?_,
      allRegular_referencesIn ..⟩
    split
    · exact Outline.allRegular_nil
    · exact regularTypes
  rw [Outline.allRegular_cons]
  refine ⟨regular, ?_⟩
  split
  · exact regularTypes
  · exact Outline.allRegular_nil

theorem allRegular_assignment (file : SourceFile) (scope : Scope) (node : Node) :
    AllRegular .importing (assignment file scope node) := by
  unfold assignment
  dsimp only
  rw [Outline.allRegular_append, Outline.allRegular_append]
  refine ⟨⟨?_, ?_⟩, allRegular_referencesIn ..⟩
  · split
    · split <;> simp
    · exact Outline.allRegular_nil
  · split
    · split <;> simp
    · exact Outline.allRegular_nil

theorem allRegular_bases (node : Node) : AllRegular .importing (bases node) := by
  unfold bases
  split
  · exact Outline.allRegular_nil
  · rw [Outline.allRegular_flatMap]
    intro base _
    split_ifs <;> simp

mutual

theorem allRegular_statement (file : SourceFile) (scope : Scope) (decorators : List String)
    (node : Node) : AllRegular .importing (statement file scope decorators node) := by
  unfold statement
  split
  · exact allRegular_importOutlines file node
  · exact allRegular_importOutlines file node
  · exact allRegular_classOutline file decorators node
  · exact allRegular_functionOutline file scope decorators node
  · split
    case h_1 definition isDefinition =>
      have := Node.size_lt_of_field? isDefinition
      exact allRegular_statement file scope _ definition
    case h_2 => exact Outline.allRegular_nil
  · split
    · split
      · exact allRegular_assignment ..
      · exact allRegular_references file node
    · exact allRegular_references file node
  · rw [Outline.allRegular_flatMap]
    rintro ⟨child, isChild⟩ _
    have := Node.size_lt_of_mem_named isChild
    exact allRegular_statement file scope [] child
  · exact Outline.allRegular_nil
  · exact allRegular_references file node
termination_by (node.size, 1)

theorem allRegular_classOutline (file : SourceFile) (decorators : List String) (node : Node) :
    AllRegular .importing (classOutline file decorators node) := by
  unfold classOutline
  dsimp only
  rw [Outline.allRegular_cons, Outline.Regular, Outline.allRegular_append]
  refine ⟨⟨Node.one_le_startLine node, by simp, allRegular_bases node, ?_⟩,
    Outline.allRegular_nil⟩
  split
  · exact Outline.allRegular_nil
  case h_2 body isBody =>
    rw [Outline.allRegular_flatMap]
    rintro ⟨child, isChild⟩ _
    have := Nat.lt_trans (Node.size_lt_of_mem_named isChild) (Node.size_lt_of_field? isBody)
    exact allRegular_statement file .classBody [] child
termination_by (node.size, 0)

end

theorem allRegular_outline (file : SourceFile) (root : Node) :
    AllRegular .importing (outline file root) := by
  rw [outline, Outline.allRegular_flatMap]
  intro node _
  exact allRegular_statement file .module [] node

theorem allPlaced_outline (file : SourceFile) (root : Node) :
    Outline.AllPlaced (outline file root) :=
  (allRegular_outline file root).allPlaced

end Python
end Extract
end CodeAtlas
