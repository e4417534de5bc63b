import CodeAtlas.Extract.Script
import CodeAtlas.Proofs.Extract.Names

/-!
# Regular outlines of script files

The outline of a TypeScript or JavaScript file is regular, whatever the syntax tree. Statements and
expressions may import; nothing else says what the file depends on.
-/

namespace CodeAtlas
namespace Extract
namespace Script

open Outline (AllRegular Grants Regular)
open SyntaxTree (Node Place)

variable {bars : List ElementKind}

theorem regular_importOf (file : SourceFile) (specifier : String) (node : Node) :
    Regular ⟨true, false, bars⟩ (importOf file specifier node) := by
  simp [importOf]

/-! ## References -/

theorem allRegular_referenceAt (file : SourceFile) {make : Reference → Outline}
    (regular : ∀ reference, reference.kind = .calls ∨ reference.kind = .uses →
      Regular ⟨true, false, bars⟩ (make reference)) (found : Array Outline) (node : Node)
    (kept : AllRegular ⟨true, false, bars⟩ found.toList) :
    AllRegular ⟨true, false, bars⟩ (referenceAt file make found node).1.toList := by
  fun_cases referenceAt file make found node <;> simp [kept, regular, regular_importOf]

theorem allRegular_referencesWith (file : SourceFile) {make : Reference → Outline}
    (regular : ∀ reference, reference.kind = .calls ∨ reference.kind = .uses →
      Regular ⟨true, false, bars⟩ (make reference)) (node : Node) :
    AllRegular ⟨true, false, bars⟩ (referencesWith file make node) :=
  Outline.allRegular_visitTree (allRegular_referenceAt file regular) node

@[simp]
theorem allRegular_references (file : SourceFile) (node : Node) :
    AllRegular ⟨true, false, bars⟩ (references file node) := by
  apply allRegular_referencesWith file
  rintro ⟨kind, target, line⟩ (rfl | rfl) <;> simp

@[simp]
theorem allRegular_referencesIn (file : SourceFile) (node : Option Node) :
    AllRegular ⟨true, false, bars⟩ (referencesIn file node) := by
  cases node <;> simp [referencesIn]

/-! ## Imports -/

theorem allRegular_importStatement (file : SourceFile) (node : Node) :
    AllRegular .importing (importStatement file node) := by
  unfold importStatement
  split
  · exact Outline.allRegular_nil
  · rw [Outline.allRegular_cons]
    refine ⟨regular_importOf .., ?_⟩
    split
    · exact Outline.allRegular_nil
    · rw [Outline.allRegular_flatMap]
      intro part _
      split_ifs
      · simp
      · simp
      · rw [Outline.allRegular_flatMap]
        intro specifier _
        split_ifs <;> simp
      · simp

theorem allRegular_reexport (file : SourceFile) (node source : Node) :
    AllRegular .importing (reexport file node source) := by
  simp [reexport, regular_importOf]

/-! ## Classes -/

/-- Inside a class there are no classes. -/
abbrev inClass : Grants := ⟨true, false, [.classType]⟩

theorem allRegular_method (file : SourceFile) (decorators : List String) (place : Place) :
    AllRegular inClass (method file decorators place) := by
  unfold method
  dsimp only
  rw [Outline.allRegular_cons]
  refine ⟨by simp, ?_⟩
  split
  · split_ifs <;> simp
  · exact Outline.allRegular_nil

theorem allRegular_classField (file : SourceFile) (decorators : List String) (place : Place) :
    AllRegular inClass (classField file decorators place) := by
  unfold classField
  dsimp only
  split
  · split
    · simp
    · split <;> simp
  · split <;> simp

theorem allRegular_member (file : SourceFile) (pending : List String) (place : Place) :
    AllRegular inClass (member file pending place) := by
  unfold member
  dsimp only
  split_ifs
  · exact allRegular_method ..
  · exact allRegular_classField ..
  · exact Outline.allRegular_nil
  · exact allRegular_references ..

theorem allRegular_members (file : SourceFile) (pending : List String) (places : List Place) :
    AllRegular inClass (members file pending places) := by
  fun_induction members file pending places with
  | case1 => exact Outline.allRegular_nil
  | case2 _ _ _ _ induction => exact induction
  | case3 pending place _ _ induction =>
    rw [Outline.allRegular_append]
    exact ⟨allRegular_member file pending place, induction⟩

theorem allRegular_heritage (node : Node) : AllRegular inClass (heritage node) := by
  unfold heritage
  split
  · exact Outline.allRegular_nil
  · rw [Outline.allRegular_flatMap]
    intro clause _
    dsimp only
    split_ifs <;> simp

theorem regular_classOutline (file : SourceFile) (surroundings : Surroundings)
    (name : Option String) (place : Place) :
    Regular .importing (classOutline file surroundings name place) := by
  unfold classOutline
  rw [Outline.Regular, Outline.allRegular_append]
  refine ⟨Node.one_le_startLine _, by simp, (allRegular_heritage _).unbar, ?_⟩
  cases place.field? "body" with
  | none => exact Outline.allRegular_nil
  | some body => exact (allRegular_members file [] body.named).unbar

/-! ## Other declarations -/

theorem regular_functionOutline (file : SourceFile) (surroundings : Surroundings)
    (name : Option String) (place : Place) :
    Regular .importing (functionOutline file surroundings name place) := by
  simp [functionOutline]

theorem regular_interfaceOutline (surroundings : Surroundings) (place : Place) :
    Regular .importing (interfaceOutline surroundings place) := by
  simp [interfaceOutline]

theorem regular_enumOutline (surroundings : Surroundings) (node : Node) :
    Regular .importing (enumOutline surroundings node) := by
  simp [enumOutline]

theorem allRegular_declarator (file : SourceFile) (surroundings : Surroundings) (isConst : Bool)
    (place : Place) : AllRegular .importing (declarator file surroundings isConst place) := by
  unfold declarator
  dsimp only
  split
  · exact allRegular_referencesIn ..
  · split
    · simp
    · split
      · simp [regular_functionOutline]
      · split
        · simp [regular_classOutline]
        · split <;> simp [regular_importOf]

theorem allRegular_variableOutlines (file : SourceFile) (surroundings : Surroundings)
    (place : Place) : AllRegular .importing (variableOutlines file surroundings place) := by
  rw [variableOutlines, Outline.allRegular_flatMap]
  intro child _
  exact allRegular_declarator ..

/-! ## Statements -/

mutual

theorem allRegular_statement (file : SourceFile) (surroundings : Surroundings) (place : Place) :
    AllRegular .importing (statement file surroundings place) := by
  unfold statement
  dsimp only
  split
  · exact allRegular_exportStatement file place
  · exact allRegular_importStatement file place.node
  · simp [regular_classOutline]
  · simp [regular_classOutline]
  · simp [regular_functionOutline]
  · simp [regular_functionOutline]
  · simp [regular_interfaceOutline]
  · simp [regular_enumOutline]
  · exact allRegular_variableOutlines file surroundings place
  · exact allRegular_variableOutlines file surroundings place
  · exact allRegular_namespaceOutline file surroundings place
  · exact allRegular_namespaceOutline file surroundings place
  · split
    case h_1 inner isInner =>
      have := Place.size_lt_of_mem_named (List.mem_of_head? isInner)
      split_ifs
      · exact allRegular_namespaceOutline file surroundings inner
      · exact allRegular_references file place.node
    case h_2 => exact allRegular_references file place.node
  · rw [Outline.allRegular_flatMap]
    rintro ⟨child, isChild⟩ _
    have := Place.size_lt_of_mem_named isChild
    exact allRegular_statement file surroundings child
  · rw [Outline.allRegular_flatMap]
    rintro ⟨child, isChild⟩ _
    have := Place.size_lt_of_mem_named isChild
    exact allRegular_statement file surroundings child
  · exact Outline.allRegular_nil
  · exact Outline.allRegular_nil
  · exact allRegular_references file place.node
termination_by (place.node.size, 1)

theorem allRegular_exportStatement (file : SourceFile) (place : Place) :
    AllRegular .importing (exportStatement file place) := by
  unfold exportStatement
  dsimp only
  split
  · exact allRegular_reexport ..
  · split
    case h_1 => exact Outline.allRegular_nil
    case h_2 declaration isExported =>
      have := size_lt_of_exported? isExported
      split_ifs
      · exact Outline.allRegular_nil
      · exact allRegular_statement file _ declaration
      · apply allRegular_referencesWith file
        rintro ⟨kind, target, line⟩ (rfl | rfl) <;> simp
termination_by (place.node.size, 0)

theorem allRegular_namespaceOutline (file : SourceFile) (surroundings : Surroundings)
    (place : Place) : AllRegular .importing (namespaceOutline file surroundings place) := by
  unfold namespaceOutline
  dsimp only
  split
  · exact Outline.allRegular_nil
  · split_ifs
    · exact Outline.allRegular_nil
    · rw [Outline.allRegular_cons, Outline.Regular]
      refine ⟨⟨Node.one_le_startLine _, by simp, ?_⟩, Outline.allRegular_nil⟩
      split
      · exact Outline.allRegular_nil
      case h_2 body isBody =>
        rw [Outline.allRegular_flatMap]
        rintro ⟨child, isChild⟩ _
        have := Nat.lt_trans (Place.size_lt_of_mem_named isChild) (Place.size_lt_of_field? isBody)
        exact allRegular_statement file {} child
termination_by (place.node.size, 0)

end

theorem allRegular_outline (file : SourceFile) (root : Node) :
    AllRegular .importing (outline file root) := by
  rw [outline, Outline.allRegular_flatMap]
  intro place _
  exact allRegular_statement file {} place

theorem allPlaced_outline (file : SourceFile) (root : Node) :
    Outline.AllPlaced (outline file root) :=
  (allRegular_outline file root).allPlaced

end Script
end Extract
end CodeAtlas
