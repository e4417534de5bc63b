import CodeAtlas.Proofs.Outline

/-!
# Regular outlines

What the readers of all languages keep to: elements start on lines counted from one, an element is
an import if and only if an import made it, an import records what it imports and where, and other
references never say that a file imports something. A file depends on others through imports and
through references of the file as a whole. Which of the two an outline may use is granted to it, and
so are the kinds of elements it may declare; what is said about an element that has to be looked up
first may not depend on other files.
-/

namespace CodeAtlas
namespace Outline

/-- What an outline may do. -/
structure Grants where
  /-- Whether it may import. -/
  imports : Bool
  /-- Whether the file as a whole may refer to what it depends on. -/
  loads : Bool
  /-- The kinds of elements that it may not bring. -/
  bars : List ElementKind

namespace Grants

/-- To bring elements of all kinds and to import. -/
abbrev importing : Grants := ⟨true, false, []⟩

/-- To bring the same elements and to depend on nothing. -/
abbrev independent (grants : Grants) : Grants := ⟨false, false, grants.bars⟩

end Grants

mutual

/-- An outline as readers make it under grants. -/
def Regular : Grants → Outline → Prop
  | grants, .declare declaration body =>
    1 ≤ declaration.startLine ∧ declaration.kind ∉ .importItem :: grants.bars ∧
      AllRegular grants body
  | _, .refer reference => reference.kind ≠ .imports ∧ reference.kind ≠ .dependsOn
  | grants, .referFile reference =>
    reference.kind ≠ .imports ∧ (reference.kind = .dependsOn → grants.loads)
  | grants, .importModule declaration target line =>
    grants.imports ∧ 1 ≤ declaration.startLine ∧ declaration.startLine = line ∧
      declaration.kind = .importItem ∧ ("target", .str target) ∈ declaration.metadata
  | _, .bind _ _ => True
  | grants, .package _ line => 1 ≤ line ∧ .package ∉ grants.bars
  | grants, .about _ kinds known unknown =>
    .importItem ∉ kinds ∧ AllRegular grants.independent known ∧
      AllRegular grants.independent unknown

/-- Outlines as readers make them under grants. -/
def AllRegular : Grants → List Outline → Prop
  | _, [] => True
  | grants, outline :: rest => Regular grants outline ∧ AllRegular grants rest

end

attribute [simp] Regular

variable {grants : Grants}

theorem allRegular_iff {outlines : List Outline} :
    AllRegular grants outlines ↔ ∀ outline ∈ outlines, Regular grants outline := by
  induction outlines with
  | nil => simp [AllRegular]
  | cons outline rest induction => simp [AllRegular, induction]

@[simp]
theorem allRegular_nil : AllRegular grants [] := trivial

@[simp]
theorem allRegular_cons {outline : Outline} {rest : List Outline} :
    AllRegular grants (outline :: rest) ↔ Regular grants outline ∧ AllRegular grants rest := by
  rw [AllRegular]

@[simp]
theorem allRegular_append {left right : List Outline} :
    AllRegular grants (left ++ right) ↔ AllRegular grants left ∧ AllRegular grants right := by
  simp only [allRegular_iff, List.forall_mem_append]

@[simp]
theorem allRegular_flatMap {α : Type} {values : List α} {outlines : α → List Outline} :
    AllRegular grants (values.flatMap outlines) ↔
      ∀ value ∈ values, AllRegular grants (outlines value) := by
  simp only [allRegular_iff, List.forall_mem_flatMap]

@[simp]
theorem allRegular_map {α : Type} {values : List α} {outline : α → Outline} :
    AllRegular grants (values.map outline) ↔
      ∀ value ∈ values, Regular grants (outline value) := by
  simp only [allRegular_iff, List.forall_mem_map]

mutual

theorem Regular.placed : ∀ {grants : Grants} {outline : Outline}, Regular grants outline →
    outline.Placed
  | _, .declare _ _, regular => ⟨regular.1, regular.2.2.allPlaced⟩
  | _, .refer _, _ => trivial
  | _, .referFile _, _ => trivial
  | _, .importModule _ _ _, regular => regular.2.1
  | _, .bind _ _, _ => trivial
  | _, .package _ _, regular => regular.1
  | _, .about _ _ _ _, regular => ⟨regular.2.1.allPlaced, regular.2.2.allPlaced⟩

theorem AllRegular.allPlaced : ∀ {grants : Grants} {outlines : List Outline},
    AllRegular grants outlines → AllPlaced outlines
  | _, [], _ => trivial
  | _, _ :: _, regular => ⟨regular.1.placed, regular.2.allPlaced⟩

end

mutual

/-- An outline that may not bring some kinds is regular where all may be brought. -/
theorem Regular.unbar : ∀ {grants : Grants} {outline : Outline}, Regular grants outline →
    Regular { grants with bars := [] } outline
  | _, .declare _ _, regular =>
    ⟨regular.1, fun member => regular.2.1 (List.mem_singleton.mp member ▸ List.mem_cons_self),
      regular.2.2.unbar⟩
  | _, .refer _, regular => regular
  | _, .referFile _, regular => regular
  | _, .importModule _ _ _, regular => regular
  | _, .bind _ _, _ => trivial
  | _, .package _ _, regular => ⟨regular.1, List.not_mem_nil⟩
  | _, .about _ _ _ _, regular => ⟨regular.1, regular.2.1.unbar, regular.2.2.unbar⟩

theorem AllRegular.unbar : ∀ {grants : Grants} {outlines : List Outline},
    AllRegular grants outlines → AllRegular { grants with bars := [] } outlines
  | _, [], _ => trivial
  | _, _ :: _, regular => ⟨regular.1.unbar, regular.2.unbar⟩

end

/-! ## What a file depends on -/

/-- Something that a file depends on. -/
structure Dependency where
  /-- Whether an import says so. -/
  imported : Bool
  /-- The name as it is written. -/
  target : String
  /-- The line. -/
  line : Nat

/-- Whether a file may depend on something in its way. -/
def Grants.allow (grants : Grants) (dependency : Dependency) : Bool :=
  if dependency.imported then grants.imports else grants.loads

theorem Grants.not_allow_independent (grants : Grants) (dependency : Dependency) :
    ¬ grants.independent.allow dependency := by
  simp [Grants.allow]

mutual

/-- What an outline makes the file depend on, in order. -/
def dependencies : Outline → List Dependency
  | .declare _ body => allDependencies body
  | .refer _ => []
  | .referFile reference =>
    if reference.kind = .dependsOn then [⟨false, reference.target, reference.line⟩] else []
  | .importModule _ target line => [⟨true, target, line⟩]
  | .bind _ _ => []
  | .package _ _ => []
  | .about _ _ _ unknown => allDependencies unknown

/-- What outlines make the file depend on, in order. -/
def allDependencies : List Outline → List Dependency
  | [] => []
  | outline :: rest => dependencies outline ++ allDependencies rest

end

theorem allDependencies_eq_flatMap (outlines : List Outline) :
    allDependencies outlines = outlines.flatMap dependencies := by
  induction outlines with
  | nil => rfl
  | cons outline rest induction => rw [allDependencies, induction, List.flatMap_cons]

mutual

/-- An outline makes the file depend on others only in the ways that are granted to it. -/
theorem Regular.granted : ∀ {grants : Grants} {outline : Outline}, Regular grants outline →
    ∀ dependency ∈ dependencies outline, grants.allow dependency
  | _, .declare _ _, regular => regular.2.2.granted
  | _, .refer _, _ => nofun
  | grants, .referFile reference, regular => by
    intro dependency member
    rw [dependencies] at member
    split at member
    case isTrue loads =>
      obtain rfl := List.mem_singleton.mp member
      exact regular.2 loads
    case isFalse => exact nomatch member
  | _, .importModule _ _ _, regular => by
    intro dependency member
    obtain rfl := List.mem_singleton.mp member
    exact regular.1
  | _, .bind _ _, _ => nofun
  | _, .package _ _, _ => nofun
  | grants, .about _ _ _ _, regular => by
    intro dependency member
    exact absurd (regular.2.2.granted dependency member)
      (grants.not_allow_independent dependency)

theorem AllRegular.granted : ∀ {grants : Grants} {outlines : List Outline},
    AllRegular grants outlines → ∀ dependency ∈ allDependencies outlines, grants.allow dependency
  | _, [], _ => nofun
  | _, _ :: _, regular => by
    intro dependency member
    rcases List.mem_append.mp member with here | later
    · exact regular.1.granted dependency here
    · exact regular.2.granted dependency later

end

theorem AllRegular.allDependencies_eq_nil {bars : List ElementKind} {outlines : List Outline}
    (regular : AllRegular ⟨false, false, bars⟩ outlines) : allDependencies outlines = [] := by
  apply List.eq_nil_iff_forall_not_mem.mpr
  intro dependency member
  exact Grants.not_allow_independent ⟨false, false, bars⟩ dependency
    (regular.granted dependency member)

/-- What outlines make the file depend on without importing it. -/
def loaded (outlines : List Outline) : List Dependency :=
  (allDependencies outlines).filter (!·.imported)

theorem AllRegular.loaded_eq_nil {imports : Bool} {bars : List ElementKind}
    {outlines : List Outline} (regular : AllRegular ⟨imports, false, bars⟩ outlines) :
    loaded outlines = [] := by
  rw [loaded, List.filter_eq_nil_iff]
  intro dependency member notImported
  have granted := regular.granted dependency member
  rw [Bool.not_eq_true'] at notImported
  rw [Grants.allow, notImported] at granted
  exact nomatch granted

end Outline
end CodeAtlas
