import CodeAtlas.Proofs.Outline.Regular
import CodeAtlas.Proofs.Outline.Sketch

/-!
# Declarations in outlines

Recording regular outlines makes one element of each import that they declare, in order. Any other
declaration becomes an element with a qualified name, which starts with the scope of the element
that it stands in; only a package changes the scope of a file.
-/

namespace CodeAtlas
namespace Outline

/-! ## Imports -/

mutual

/-- The imports that an outline declares, in order. -/
def imports : Outline → List Declaration
  | .declare _ body => allImports body
  | .importModule declaration _ _ => [declaration]
  | .about _ _ _ unknown => allImports unknown
  | .refer _ | .referFile _ | .bind _ _ | .package _ _ => []

/-- The imports that outlines declare, in order. -/
def allImports : List Outline → List Declaration
  | [] => []
  | outline :: rest => imports outline ++ allImports rest

end

theorem allImports_eq_flatMap (outlines : List Outline) :
    allImports outlines = outlines.flatMap imports := by
  induction outlines with
  | nil => rfl
  | cons outline rest induction => rw [allImports, induction, List.flatMap_cons]

theorem allImports_flatMap {α : Type} (values : List α) (outlines : α → List Outline) :
    allImports (values.flatMap outlines) =
      values.flatMap fun value => allImports (outlines value) := by
  simp only [allImports_eq_flatMap, List.flatMap_assoc]

mutual

theorem Regular.imports_eq_nil : ∀ {bars : List ElementKind} {outline : Outline},
    Regular ⟨false, false, bars⟩ outline → imports outline = []
  | _, .declare _ _, regular => regular.2.2.allImports_eq_nil
  | _, .refer _, _ => rfl
  | _, .referFile _, _ => rfl
  | _, .importModule _ _ _, regular => absurd regular.1 Bool.false_ne_true
  | _, .bind _ _, _ => rfl
  | _, .package _ _, _ => rfl
  | _, .about _ _ _ _, regular => regular.2.2.allImports_eq_nil

theorem AllRegular.allImports_eq_nil : ∀ {bars : List ElementKind} {outlines : List Outline},
    AllRegular ⟨false, false, bars⟩ outlines → allImports outlines = []
  | _, [], _ => rfl
  | _, _ :: _, regular => by
    rw [allImports, regular.1.imports_eq_nil, regular.2.allImports_eq_nil, List.append_nil]

end

mutual

/-- A regular outline brings one import for each that it declares. -/
theorem Brings.forall₂_imports {file : String} : ∀ {grants : Grants} {outline : Outline}
    {id : String} {added : List Draft}, Regular grants outline → Brings file id outline added →
    List.Forall₂ (fun declaration draft => declaration.Makes file draft) (imports outline)
      (added.filter (·.kind = .importItem))
  | _, .declare _ _, _, _, regular, brings => by
    obtain ⟨draft, below, rfl, makes, isBelow⟩ := brings
    have kind_ne : draft.kind ≠ .importItem :=
      makes.kind_eq ▸ List.ne_of_not_mem_cons regular.2.1
    rw [List.filter_cons_of_neg (by simpa using kind_ne)]
    exact isBelow.forall₂_allImports regular.2.2
  | _, .importModule declaration _ _, _, _, regular, brings => by
    obtain ⟨draft, rfl, makes⟩ := brings
    have isItem : draft.kind = .importItem := makes.kind_eq.trans regular.2.2.2.1
    rw [List.filter_cons_of_pos (by simpa using isItem)]
    exact .cons makes .nil
  | _, .package _ _, _, _, _, brings => by
    obtain ⟨draft, rfl, isPackage⟩ := brings
    rw [List.filter_cons_of_neg (by simp [isPackage])]
    exact .nil
  | _, .about _ _ known unknown, _, _, regular, brings => by
    rw [imports]
    rcases brings with ⟨other, isKnown⟩ | isUnknown
    · have along := isKnown.forall₂_allImports regular.2.1
      rwa [regular.2.1.allImports_eq_nil, ← regular.2.2.allImports_eq_nil] at along
    · exact isUnknown.forall₂_allImports regular.2.2
  | _, .refer _, _, _, _, rfl => .nil
  | _, .referFile _, _, _, _, rfl => .nil
  | _, .bind _ _, _, _, _, rfl => .nil

theorem BringsAll.forall₂_allImports {file : String} : ∀ {grants : Grants}
    {outlines : List Outline} {id : String} {added : List Draft}, AllRegular grants outlines →
    BringsAll file id outlines added →
    List.Forall₂ (fun declaration draft => declaration.Makes file draft) (allImports outlines)
      (added.filter (·.kind = .importItem))
  | _, [], _, _, _, rfl => .nil
  | _, _ :: _, _, _, regular, brings => by
    obtain ⟨first, later, rfl, isFirst, isLater⟩ := brings
    rw [allImports, List.filter_append]
    exact List.rel_append (isFirst.forall₂_imports regular.1)
      (isLater.forall₂_allImports regular.2)

end

/-! ## Kinds that are barred -/

mutual

/-- A regular outline brings no element of a kind that is barred, imports apart. -/
theorem Regular.notMem_kinds {kind : ElementKind} (noImport : kind ≠ .importItem) :
    ∀ {grants : Grants} {outline : Outline}, Regular grants outline → kind ∈ grants.bars →
      kind ∉ kinds outline
  | _, .declare _ _, regular, barred => by
    rw [kinds, List.mem_cons, not_or]
    refine ⟨fun same => regular.2.1 (List.mem_cons_of_mem _ (same ▸ barred)), ?_⟩
    exact regular.2.2.notMem_allKinds noImport barred
  | _, .importModule _ _ _, regular, _ => by
    rw [kinds, List.mem_singleton, regular.2.2.2.1]
    exact noImport
  | _, .package _ _, regular, barred => by
    rw [kinds, List.mem_singleton]
    exact fun same => regular.2 (same ▸ barred)
  | _, .about _ _ _ _, regular, barred => by
    rw [kinds, List.mem_append, not_or]
    exact ⟨regular.2.1.notMem_allKinds noImport barred,
      regular.2.2.notMem_allKinds noImport barred⟩
  | _, .refer _, _, _ => List.not_mem_nil
  | _, .referFile _, _, _ => List.not_mem_nil
  | _, .bind _ _, _, _ => List.not_mem_nil

theorem AllRegular.notMem_allKinds {kind : ElementKind} (noImport : kind ≠ .importItem) :
    ∀ {grants : Grants} {outlines : List Outline}, AllRegular grants outlines →
      kind ∈ grants.bars → kind ∉ allKinds outlines
  | _, [], _, _ => List.not_mem_nil
  | _, _ :: _, regular, barred => by
    rw [allKinds, List.mem_append, not_or]
    exact ⟨regular.1.notMem_kinds noImport barred, regular.2.notMem_allKinds noImport barred⟩

end

/-! ## Qualified names -/

end Outline

/-- The qualified name of what is declared in a scope. -/
def Declaration.nameIn (declaration : Declaration) (scope : String) : String :=
  declaration.qualifiedName.getD (scope ++ "." ++ declaration.name)

/-- An element stands for a declaration under a qualified name. -/
structure Declaration.Names (declaration : Declaration) (qualifiedName : String) (draft : Draft) :
    Prop where
  /-- It has the declared name. -/
  name_eq : draft.name = declaration.name
  /-- It has the declared kind. -/
  kind_eq : draft.kind = declaration.kind
  /-- It starts where the declaration starts. -/
  startLine_eq : draft.startLine = declaration.startLine
  /-- It has the qualified name. -/
  qualifiedName_eq : draft.qualifiedName = qualifiedName

namespace Outline

mutual

/-- The declarations of an outline with their qualified names, given the scope around it. What is
said about an element that has to be looked up is left out. -/
def declared (scope : String) : Outline → List (Declaration × String)
  | .declare declaration body =>
    (declaration, declaration.nameIn scope) :: allDeclared (declaration.nameIn scope) body
  | .refer _ | .referFile _ | .importModule _ _ _ | .bind _ _ | .package _ _ | .about _ _ _ _ => []

/-- The declarations of outlines with their qualified names, given the scope around them. -/
def allDeclared (scope : String) : List Outline → List (Declaration × String)
  | [] => []
  | outline :: rest => declared scope outline ++ allDeclared scope rest

end

theorem allDeclared_eq_flatMap (scope : String) (outlines : List Outline) :
    allDeclared scope outlines = outlines.flatMap (declared scope) := by
  induction outlines with
  | nil => rfl
  | cons outline rest induction => rw [allDeclared, induction, List.flatMap_cons]

theorem allDeclared_append (scope : String) (left right : List Outline) :
    allDeclared scope (left ++ right) = allDeclared scope left ++ allDeclared scope right := by
  simp only [allDeclared_eq_flatMap, List.flatMap_append]

theorem allDeclared_flatMap {α : Type} (scope : String) (values : List α)
    (outlines : α → List Outline) : allDeclared scope (values.flatMap outlines) =
      values.flatMap fun value => allDeclared scope (outlines value) := by
  simp only [allDeclared_eq_flatMap, List.flatMap_assoc]

end Outline

namespace Collector

open Outline (allDeclared allKinds declared kinds)

variable {collector next : Collector} {id : String}

theorem bare_root_reference {kind : ReferenceKind} {target : String} {line : Nat}
    (done : collector.reference id kind target line = .ok next) :
    next.root.bare = collector.root.bare := by
  unfold reference modify at done
  dsimp only at done
  split_ifs at done <;> cases done <;> rfl

mutual

/-- The file's own element changes its references only, unless it enters a package. -/
theorem bare_root_record {id : String} : ∀ {outline : Outline} {collector next : Collector},
    .package ∉ kinds outline → collector.record id outline = .ok next →
    next.root.bare = collector.root.bare
  | .declare declaration body, collector, next => by
    intro noPackage done
    rw [record] at done
    obtain ⟨parent, -, done⟩ := exists_of_bind_eq_ok done
    obtain ⟨draft, isAdded, -⟩ := exists_add collector parent declaration
    rw [isAdded] at done
    have below := bare_root_recordAll (fun member => noPackage (.tail _ member)) done
    exact below
  | .refer reference, collector, next => by
    intro _ done
    rw [record] at done
    exact bare_root_reference done
  | .referFile reference, collector, next => by
    intro _ done
    rw [record] at done
    exact bare_root_reference done
  | .importModule declaration target line, collector, next => by
    intro _ done
    rw [record] at done
    obtain ⟨draft, isAdded, -⟩ := exists_add collector collector.rootHandle declaration
    rw [isAdded] at done
    obtain ⟨middle, isMiddle, done⟩ := exists_of_bind_eq_ok done
    have first := bare_root_reference isMiddle
    exact (bare_root_reference done).trans first
  | .bind name target, collector, next => by
    intro _ done
    rw [record] at done
    cases done
    unfold Collector.bind
    split <;> rfl
  | .package name line, collector, next => by
    intro noPackage _
    exact absurd (List.mem_singleton_self _) noPackage
  | .about qualifiedName kinds known unknown, collector, next => by
    intro noPackage done
    rw [record] at done
    split at done
    · exact bare_root_recordAll (fun member => noPackage (List.mem_append_left _ member)) done
    · exact bare_root_recordAll (fun member => noPackage (List.mem_append_right _ member)) done

theorem bare_root_recordAll {id : String} : ∀ {outlines : List Outline}
    {collector next : Collector}, .package ∉ allKinds outlines →
    collector.recordAll id outlines = .ok next → next.root.bare = collector.root.bare
  | [], collector, next => by
    intro _ done
    rw [recordAll] at done
    cases done
    rfl
  | outline :: rest, collector, next => by
    intro noPackage done
    rw [recordAll] at done
    obtain ⟨middle, isMiddle, done⟩ := exists_of_bind_eq_ok done
    have first := bare_root_record (fun here => noPackage (List.mem_append_left _ here)) isMiddle
    have later := bare_root_recordAll (fun below => noPackage (List.mem_append_right _ below)) done
    exact later.trans first

end

theorem handle_eq_ok_iff {handle : Handle} :
    collector.handle id = .ok handle ↔
      ((collector.root.bare :: collector.bares).find? (·.id = id)).map (·.toHandle) =
        some handle := by
  have bares : collector.root.bare :: collector.bares = collector.drafts.map Draft.bare := rfl
  rw [bares, List.find?_map, Option.map_map, Collector.handle, draft?]
  change _ ↔ (collector.drafts.find? fun draft => decide (draft.id = id)).map _ = _
  cases collector.drafts.find? fun draft => decide (draft.id = id) with
  | none => simp
  | some draft => simp [Draft.bare, Draft.refer]

theorem Grows.handle_eq {added : List Draft} (grows : Grows next collector added)
    (sameRoot : next.root.bare = collector.root.bare) {handle : Handle}
    (found : collector.handle id = .ok handle) : next.handle id = .ok handle := by
  rw [handle_eq_ok_iff] at found ⊢
  obtain ⟨draft, isDraft, isHandle⟩ := Option.map_eq_some_iff.mp found
  rw [sameRoot, grows.bares_eq, ← List.cons_append, List.find?_append, isDraft]
  exact congrArg some isHandle

theorem handle_root (collector : Collector) :
    collector.handle collector.root.id = .ok collector.root.toHandle := by
  simp [Collector.handle, draft?, drafts]

theorem handle_last {draft : Draft} (isNew : draft.id ∉ collector.ids) :
    (collector.push draft).handle draft.id = .ok draft.toHandle := by
  have noOther : collector.drafts.find? (fun other => other.id = draft.id) = none := by
    rw [List.find?_eq_none]
    intro other isOther same
    exact isNew (List.mem_map.mpr ⟨other, isOther, by simpa using same⟩)
  have isLast : (collector.push draft).drafts = collector.drafts ++ [draft] := rfl
  simp [Collector.handle, draft?, isLast, noOther]

/-- A new element has the name that is declared in the scope of its parent, and this as its own
scope. -/
theorem names_of_add {parent : Handle} {declaration : Declaration} {draft : Draft}
    (isAdded : collector.add parent declaration = (collector.push draft, draft.toHandle))
    (makes : declaration.Makes parent.id draft) :
    draft.scope = declaration.nameIn parent.scope ∧
      declaration.Names (declaration.nameIn parent.scope) draft.bare := by
  have sameHandle : (collector.add parent declaration).2 = draft.toHandle :=
    congrArg Prod.snd isAdded
  refine ⟨?_, makes.name_eq, makes.kind_eq, makes.startLine_eq, ?_⟩
  · rw [← sameHandle]
    rfl
  · change draft.toHandle.qualifiedName = _
    rw [← sameHandle]
    rfl

-- The induction follows the outline. Its invariant is that the element which the outline is about
-- has the scope in which names are declared; elements keep their handles, since only a package
-- changes one.
mutual

/-- What an outline declares becomes elements under the qualified names. -/
theorem exists_names_record {id : String} : ∀ {outline : Outline} {collector next : Collector}
    {handle : Handle}, .package ∉ kinds outline → collector.handle id = .ok handle →
    collector.record id outline = .ok next → ∀ named ∈ declared handle.scope outline,
      ∃ draft ∈ next.bares, named.1.Names named.2 draft
  | .declare declaration body, collector, next, handle => by
    intro noPackage found done named member
    rw [record] at done
    obtain ⟨parent, isParent, done⟩ := exists_of_bind_eq_ok done
    obtain rfl : parent = handle := Except.ok.inj (isParent.symm.trans found)
    obtain ⟨draft, isAdded, isNew, -, makes⟩ := exists_add collector parent declaration
    obtain ⟨isScope, names⟩ := names_of_add isAdded makes
    rw [isAdded] at done
    rcases List.mem_cons.mp member with rfl | below
    · obtain ⟨added, grows, -⟩ := exists_brings_recordAll done
      refine ⟨draft.bare, ?_, names⟩
      rw [(grows.trans (grows_push collector draft)).bares_eq]
      exact List.mem_append_right _ List.mem_cons_self
    · rw [← isScope] at below
      exact exists_names_recordAll (fun member => noPackage (.tail _ member)) (handle_last isNew)
        done named below
  | .refer _, _, _, _ => by simp [declared]
  | .referFile _, _, _, _ => by simp [declared]
  | .importModule _ _ _, _, _, _ => by simp [declared]
  | .bind _ _, _, _, _ => by simp [declared]
  | .package _ _, _, _, _ => by simp [declared]
  | .about _ _ _ _, _, _, _ => by simp [declared]

theorem exists_names_recordAll {id : String} : ∀ {outlines : List Outline}
    {collector next : Collector} {handle : Handle}, .package ∉ allKinds outlines →
    collector.handle id = .ok handle → collector.recordAll id outlines = .ok next →
    ∀ named ∈ allDeclared handle.scope outlines, ∃ draft ∈ next.bares, named.1.Names named.2 draft
  | [], _, _, _ => by simp [allDeclared]
  | outline :: rest, collector, next, handle => by
    intro noPackage found done named member
    rw [recordAll] at done
    obtain ⟨middle, isMiddle, done⟩ := exists_of_bind_eq_ok done
    have noPackageFirst : .package ∉ kinds outline :=
      fun member => noPackage (List.mem_append_left _ member)
    obtain ⟨added, grows, -⟩ := exists_brings_record isMiddle
    obtain ⟨later, growsLater, -⟩ := exists_brings_recordAll done
    rcases List.mem_append.mp member with first | other
    · obtain ⟨draft, isDraft, names⟩ :=
        exists_names_record noPackageFirst found isMiddle named first
      refine ⟨draft, ?_, names⟩
      rw [growsLater.bares_eq]
      exact List.mem_append_left _ isDraft
    · have kept := grows.handle_eq (bare_root_record noPackageFirst isMiddle) found
      exact exists_names_recordAll (fun member => noPackage (List.mem_append_right _ member)) kept
        done named other

end

end Collector
end CodeAtlas
