import CodeAtlas.Extract.Java
import CodeAtlas.Proofs.Extract.Names

/-!
# Regular outlines of Java files

The outline of a Java file is regular, whatever the syntax tree. Only import declarations import,
and nothing else says what the file depends on.
-/

namespace CodeAtlas
namespace Extract
namespace Java

open Outline (AllRegular Regular)
open SyntaxTree (Node Place)

theorem allRegular_importOutlines (file : SourceFile) (node : Node) :
    AllRegular .importing (importOutlines file node) := by
  unfold importOutlines
  split
  · exact Outline.allRegular_nil
  · rw [Outline.allRegular_cons]
    refine ⟨by simp, ?_⟩
    split <;> simp

theorem allRegular_referenceAt (found : Array Outline) (node : Node)
    (kept : AllRegular .importing found.toList) :
    AllRegular .importing (referenceAt found node).1.toList := by
  unfold referenceAt
  dsimp only
  split
  · split <;> simp [kept]
  · split
    · split <;> simp [kept]
    · exact kept

@[simp]
theorem allRegular_references (node : Node) : AllRegular .importing (references node) :=
  Outline.allRegular_visitTree allRegular_referenceAt node

@[simp]
theorem allRegular_referencesIn (node : Option Node) :
    AllRegular .importing (referencesIn node) := by
  cases node <;> simp [referencesIn]

theorem allRegular_method (owner : String) (isInterface : Bool) (place : Place) :
    AllRegular .importing (method owner isInterface place) := by
  unfold method
  dsimp only
  rw [Outline.allRegular_cons]
  refine ⟨by simp, ?_⟩
  split
  · split <;> simp
  · exact Outline.allRegular_nil

theorem allRegular_fieldOutlines (isInterface : Bool) (node : Node) :
    AllRegular .importing (fieldOutlines isInterface node) := by
  unfold fieldOutlines
  dsimp only
  rw [Outline.allRegular_append]
  refine ⟨by simp, ?_⟩
  split <;> simp

theorem allRegular_supertypes (node : Node) : AllRegular .importing (supertypes node) := by
  unfold supertypes
  dsimp only
  rw [Outline.allRegular_append, Outline.allRegular_append]
  refine ⟨⟨?_, ?_⟩, ?_⟩
  all_goals split <;> simp

theorem kindOf_ne_importItem (node : Node) : kindOf node ≠ .importItem := by
  unfold kindOf
  split_ifs <;> simp

mutual

theorem regular_typeOutline (place : Place) : Regular .importing (typeOutline place) := by
  unfold typeOutline
  dsimp only
  rw [Outline.Regular, Outline.allRegular_append]
  refine ⟨Node.one_le_startLine place.node, by simp [kindOf_ne_importItem],
    allRegular_supertypes place.node, ?_⟩
  split
  case h_1 found isFound =>
    have := Place.size_lt_of_field? isFound
    exact allRegular_body _ _ found
  case h_2 => exact Outline.allRegular_nil
termination_by place.node.size

theorem allRegular_body (owner : String) (isInterface : Bool) (place : Place) :
    AllRegular .importing (body owner isInterface place) := by
  unfold body
  rw [Outline.allRegular_flatMap]
  rintro ⟨member, isMember⟩ _
  have := Place.size_lt_of_mem_named isMember
  dsimp only
  split
  · exact allRegular_method owner isInterface member
  · exact allRegular_method owner isInterface member
  · exact allRegular_method owner isInterface member
  · exact allRegular_fieldOutlines isInterface member.node
  · exact allRegular_fieldOutlines isInterface member.node
  · exact allRegular_body owner isInterface member
  · split
    · rw [Outline.allRegular_cons]
      exact ⟨regular_typeOutline member, Outline.allRegular_nil⟩
    · exact allRegular_references member.node
termination_by place.node.size

end

theorem allRegular_topLevel (file : SourceFile) (place : Place) :
    AllRegular .importing (topLevel file place) := by
  unfold topLevel
  split_ifs
  · exact allRegular_importOutlines file place.node
  · simp [regular_typeOutline]
  · rw [Outline.allRegular_flatMap]
    rintro ⟨child, isChild⟩ _
    have := Place.size_lt_of_mem_named isChild
    exact allRegular_topLevel file child
  · exact Outline.allRegular_nil
termination_by place.node.size

theorem one_le_of_packageDeclaration? {root : Node} {package : String × Nat}
    (found : packageDeclaration? root = some package) : 1 ≤ package.2 := by
  obtain ⟨declaration, -, named⟩ := Option.bind_eq_some_iff.mp found
  obtain ⟨name, -, same⟩ := Option.bind_eq_some_iff.mp named
  obtain rfl := Option.some.inj same
  exact Node.one_le_startLine declaration

theorem allRegular_outline (file : SourceFile) (root : Node) :
    AllRegular .importing (outline file root) := by
  rw [outline, Outline.allRegular_append, Outline.allRegular_map, Outline.allRegular_flatMap]
  refine ⟨fun package found => ?_, fun place _ => allRegular_topLevel file place⟩
  exact ⟨one_le_of_packageDeclaration? (Option.mem_toList.mp found), List.not_mem_nil⟩

theorem allPlaced_outline (file : SourceFile) (root : Node) :
    Outline.AllPlaced (outline file root) :=
  (allRegular_outline file root).allPlaced

end Java
end Extract
end CodeAtlas
