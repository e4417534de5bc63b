import CodeAtlas.Proofs.Extract.Malformed
import CodeAtlas.Proofs.Outline.Declarations
import CodeAtlas.Proofs.Text.Order

/-!
# Exported classes of a script

Statements stand at the top level of a script, in namespaces, in ambient declarations and in
malformed nodes. The elements of a script divide into stretches along these positions. An export
statement that exports a class declaration adds the class, usable by everyone and marked as
exported, with an element for each method that its body defines. A class expression is lost: a
statement that exports one adds no class at all.
-/

namespace CodeAtlas

/-- An element without its references. -/
def Element.bare (element : Element) : Element := { element with references := [] }

namespace Extract
namespace Script

open Outline (AllRegular BringsAll)
open SyntaxTree (Node Place)

/-! ## Positions of statements -/

/-- Whether an export statement hands on a node of a kind as a statement. -/
def isHandedOn (kind : String) : Bool :=
  classKinds.contains kind || Text.endsWith kind "declaration" || kind == "internal_module"

/-- The declaration that an export statement hands on as a statement. -/
def handedOn? (place : Place) : Option Place :=
  if (place.node.field? "source").isSome then none
  else (exported? place).filter fun declaration => isHandedOn declaration.node.kind

/-- The namespace that an expression statement consists of. -/
def innerModule? (place : Place) : Option Place :=
  place.named.head?.filter fun inner => inner.node.kind = "internal_module"

/-- The declaration that a statement makes: an export statement the one that it exports, an
expression the namespace that it consists of, any other statement itself. -/
def declared (place : Place) : Place :=
  if place.node.kind = "export_statement" then (handedOn? place).getD place
  else if place.node.kind = "expression_statement" then (innerModule? place).getD place
  else place

/-- The statements directly inside a declaration. A namespace that is named by a string has none. -/
def within (place : Place) : List Place :=
  if place.node.kind = "internal_module" ∨ place.node.kind = "module" then
    match place.node.field? "name" with
    | none => []
    | some name =>
      if name.kind = "string" then [] else ((place.field? "body").map Place.named).getD []
  else if place.node.kind = "ambient_declaration" ∨ place.node.kind = "ERROR" then
    place.named
  else
    []

theorem within_eq_nil {place : Place} (isLeaf : place.node.kind ∉
    ["internal_module", "module", "ambient_declaration", "ERROR"]) : within place = [] := by
  simp only [List.mem_cons, List.not_mem_nil, or_false, not_or] at isLeaf
  simp [within, isLeaf]

theorem within_of_class {place : Place} (isClass : place.node.kind ∈ classKinds) :
    within place = [] := by
  apply within_eq_nil
  simp only [classKinds, List.mem_cons, List.not_mem_nil, or_false] at isClass
  rcases isClass with isKind | isKind | isKind <;> rw [isKind] <;> decide

theorem handedOn?_eq_some_iff {place declaration : Place} :
    handedOn? place = some declaration ↔ place.node.field? "source" = none ∧
      exported? place = some declaration ∧ isHandedOn declaration.node.kind := by
  unfold handedOn?
  split_ifs with hasSource
  · simp [Option.isSome_iff_ne_none.mp hasSource]
  · rw [Option.filter_eq_some_iff]
    simp [Option.not_isSome_iff_eq_none.mp hasSource]

theorem innerModule?_eq_some_iff {place inner : Place} :
    innerModule? place = some inner ↔
      place.named.head? = some inner ∧ inner.node.kind = "internal_module" := by
  simp [innerModule?, Option.filter_eq_some_iff]

theorem size_declared_le (place : Place) : (declared place).node.size ≤ place.node.size := by
  unfold declared
  split_ifs
  · cases isHanded : handedOn? place with
    | none => exact le_rfl
    | some declaration =>
      exact (size_lt_of_exported? (handedOn?_eq_some_iff.mp isHanded).2.1).le
  · cases isNamespace : innerModule? place with
    | none => exact le_rfl
    | some inner =>
      obtain ⟨isInner, -⟩ := innerModule?_eq_some_iff.mp isNamespace
      exact (Place.size_lt_of_mem_named (List.mem_of_head? isInner)).le
  · exact le_rfl

theorem size_lt_of_mem_within {place child : Place} (isWithin : child ∈ within place) :
    child.node.size < place.node.size := by
  unfold within at isWithin
  split_ifs at isWithin
  · split at isWithin
    · exact absurd isWithin List.not_mem_nil
    · split_ifs at isWithin
      · exact absurd isWithin List.not_mem_nil
      · cases isBody : place.field? "body" with
        | none => rw [isBody] at isWithin; exact absurd isWithin List.not_mem_nil
        | some body =>
          rw [isBody] at isWithin
          exact Nat.lt_trans (Place.size_lt_of_mem_named isWithin) (Place.size_lt_of_field? isBody)
  · exact Place.size_lt_of_mem_named isWithin
  · exact absurd isWithin List.not_mem_nil

theorem size_lt_of_mem_within_declared {place child : Place}
    (isWithin : child ∈ within (declared place)) : child.node.size < place.node.size :=
  Nat.lt_of_lt_of_le (size_lt_of_mem_within isWithin) (size_declared_le place)

/-- A statement and all statements inside it, in the order of the source. -/
def positions (place : Place) : List Place :=
  place :: (within (declared place)).attach.flatMap fun ⟨child, isWithin⟩ =>
    have : child.node.size < place.node.size := size_lt_of_mem_within_declared isWithin
    positions child
termination_by place.node.size

theorem positions_eq (place : Place) :
    positions place = place :: (within (declared place)).flatMap positions := by
  rw [positions, List.flatMap_subtype, List.unattach_attach]
  intro child isWithin
  rfl

/-- All positions of statements in a script. -/
def allPositions (root : Node) : List Place :=
  (Place.ofRoot root).named.flatMap positions

/-! ## Statements by kind -/

section

variable (file : SourceFile) (surroundings : Surroundings) {place : Place}

theorem statement_of_export (isKind : place.node.kind = "export_statement") :
    statement file surroundings place = exportStatement file place := by
  rw [statement]
  simp only [isKind]

theorem statement_of_namespace
    (isKind : place.node.kind = "internal_module" ∨ place.node.kind = "module") :
    statement file surroundings place = namespaceOutline file surroundings place := by
  rw [statement]
  rcases isKind with isKind | isKind <;> simp only [isKind]

theorem statement_of_block
    (isKind : place.node.kind = "ambient_declaration" ∨ place.node.kind = "ERROR") :
    statement file surroundings place = place.named.flatMap (statement file surroundings) := by
  rw [statement]
  rcases isKind with isKind | isKind <;>
    simp only [isKind, List.flatMap_subtype, List.unattach_attach]

theorem statement_of_class (isKind : place.node.kind ∈ classKinds) :
    statement file surroundings place =
      if place.node.kind = "class" then references file place.node
      else [classOutline file surroundings none place] := by
  rw [statement]
  simp only [classKinds, List.mem_cons, List.not_mem_nil, or_false] at isKind
  rcases isKind with isKind | isKind | isKind <;> simp [isKind]

theorem statement_of_expression (isKind : place.node.kind = "expression_statement")
    {inner : Place} (isInner : innerModule? place = some inner) :
    statement file surroundings place = namespaceOutline file surroundings inner := by
  obtain ⟨isHead, isNamespace⟩ := innerModule?_eq_some_iff.mp isInner
  rw [statement]
  simp only [isKind]
  split
  case h_1 other isOther =>
    obtain rfl := Option.some.inj (isHead.symm.trans isOther)
    exact if_pos isNamespace
  case h_2 noHead =>
    rw [isHead] at noHead
    cases noHead

theorem exportStatement_of_handedOn? {declaration : Place}
    (isHanded : handedOn? place = some declaration) :
    exportStatement file place =
      statement file { exported := true, decorators := decoratorsOf place.node } declaration := by
  obtain ⟨noSource, isExported, handedOn⟩ := handedOn?_eq_some_iff.mp isHanded
  have notLeftOut : ¬ (declaration.node.kind = "identifier" ∨
      declaration.node.kind = "export_clause") := by
    rintro (isKind | isKind) <;> rw [isKind] at handedOn <;> exact absurd handedOn (by decide)
  rw [exportStatement, noSource]
  dsimp only
  split
  case h_1 notExported =>
    rw [isExported] at notExported
    cases notExported
  case h_2 other isOther =>
    obtain rfl := Option.some.inj (isExported.symm.trans isOther)
    exact (if_neg notLeftOut).trans (if_pos handedOn)

end

/-! ## What an exported class adds -/

/-- A statement exports a class. -/
structure ExportsClass (place declaration : Place) : Prop where
  /-- It is an export statement. -/
  isExport : place.node.kind = "export_statement"
  /-- It does not export from another module. -/
  hasNoSource : place.node.field? "source" = none
  /-- It exports the declaration. -/
  isExported : exported? place = some declaration
  /-- The declaration is a class. -/
  isClass : declaration.node.kind ∈ classKinds

theorem ExportsClass.handedOn?_eq {place declaration : Place}
    (exports : ExportsClass place declaration) : handedOn? place = some declaration := by
  refine handedOn?_eq_some_iff.mpr ⟨exports.hasNoSource, exports.isExported, ?_⟩
  simp [isHandedOn, exports.isClass]

/-- The methods that the body of a class defines. -/
def methodDefinitions (declaration : Place) : List Place :=
  (((declaration.field? "body").map Place.named).getD []).filter fun place =>
    place.node.kind = "method_definition"

/-- An element of a class stands for a method definition. -/
structure IsMethod (classId : String) (definition : Place) (element : Element) : Prop where
  /-- It is a method. -/
  kind_eq : element.kind = .method
  /-- It belongs to the class. -/
  parentId_eq : element.parentId = some classId
  /-- It has the name of the definition. -/
  name_eq : element.name = ((definition.node.field? "name").map Node.text).getD "anonymous"
  /-- It starts where the definition starts. -/
  startLine_eq : element.startLine = definition.node.startLine
  /-- It ends where the definition ends. -/
  endLine_eq : element.endLine = max definition.node.startLine definition.node.endLine

/-- Elements are those of an exported class: the class and, behind it, no other class and every
method that its body defines. -/
def IsExportedClass (declaration : Place) (elements : List Element) : Prop :=
  ∃ head rest, elements = head :: rest ∧
    (head.kind = .classType ∧ head.startLine = declaration.node.startLine) ∧
    (head.visibility = .everyone ∧ "export" ∈ head.modifiers) ∧
    (∀ element ∈ rest, element.kind ≠ .classType) ∧
    ∃ methods, methods.Sublist rest ∧
      List.Forall₂ (IsMethod head.id) (methodDefinitions declaration) methods

/-- The elements that a statement adds, as far as it exports a class. -/
def AddsExport (place : Place) (elements : List Element) : Prop :=
  ∀ declaration, ExportsClass place declaration →
    if declaration.node.kind = "class" then ∀ element ∈ elements, element.kind ≠ .classType
    else IsExportedClass declaration elements

/-- What a statement adds does not depend on what the elements refer to. -/
theorem AddsExport.of_map_bare {place : Place} {elements : List Element}
    (adds : AddsExport place (elements.map Element.bare)) : AddsExport place elements := by
  intro declaration exports
  have added := adds declaration exports
  split_ifs at added ⊢
  · exact fun element member => added element.bare (List.mem_map_of_mem member)
  · obtain ⟨_, _, isElements, isClass, isPublic, noOther, _, areBare, along⟩ := added
    obtain ⟨head, rest, rfl, rfl, rfl⟩ := List.map_eq_cons_iff.mp isElements
    obtain ⟨methods, areIn, rfl⟩ := List.sublist_map_iff.mp areBare
    refine ⟨head, rest, rfl, isClass, isPublic,
      fun element member => noOther element.bare (List.mem_map_of_mem member), methods, areIn, ?_⟩
    rw [List.forall₂_map_right_iff] at along
    exact along.imp fun _ _ isMethod => ⟨isMethod.1, isMethod.2, isMethod.3, isMethod.4, isMethod.5⟩

/-! ## What statements bring -/

section

variable {collector : Collector} {fileId id : String} {added : List Draft}

theorem exists_method_of_bringsAll {file : SourceFile} {decorators : List String} {place : Place}
    (brings : BringsAll fileId id (method file decorators place) added) :
    ∃ draft rest, added = draft :: rest ∧ IsMethod id place (collector.finishDraft draft) := by
  obtain ⟨_, later, rfl, ⟨draft, below, rfl, makes, -⟩, -⟩ := brings
  exact ⟨draft, below ++ later, rfl, makes.kind_eq, makes.parentId_eq, makes.name_eq,
    makes.startLine_eq, makes.endLine_eq⟩

theorem exists_methods_of_bringsAll {file : SourceFile} {pending : List String}
    {places : List Place} (brings : BringsAll fileId id (members file pending places) added) :
    ∃ methods, methods.Sublist (added.map collector.finishDraft) ∧
      List.Forall₂ (IsMethod id)
        (places.filter fun place => place.node.kind = "method_definition") methods := by
  fun_induction members file pending places generalizing added with
  | case1 => exact ⟨[], List.nil_sublist _, .nil⟩
  | case2 _ place _ isDecorator induction =>
    rw [List.filter_cons_of_neg (by rw [isDecorator]; decide)]
    exact induction brings
  | case3 pending place _ _ induction =>
    obtain ⟨first, later, rfl, isFirst, isLater⟩ := Outline.exists_of_bringsAll_append brings
    obtain ⟨methods, areIn, along⟩ := induction isLater
    rw [List.map_append]
    by_cases isMethod : place.node.kind = "method_definition"
    · rw [List.filter_cons_of_pos (by simpa using isMethod)]
      rw [member, isMethod, if_pos (by decide)] at isFirst
      obtain ⟨draft, rest, rfl, isDraft⟩ := exists_method_of_bringsAll isFirst
      exact ⟨_ :: methods, (areIn.trans (List.sublist_append_right _ _)).cons_cons _,
        .cons isDraft along⟩
    · rw [List.filter_cons_of_neg (by simpa using isMethod)]
      exact ⟨methods, areIn.trans (List.sublist_append_right _ _), along⟩

theorem isExportedClass_of_bringsAll {file : SourceFile} {surroundings : Surroundings}
    (exported : surroundings.exported) {name : Option String} {place : Place}
    (brings : BringsAll fileId id [classOutline file surroundings name place] added) :
    IsExportedClass place (added.map collector.finishDraft) := by
  obtain ⟨draft, below, rfl, makes, isBelow⟩ := Outline.brings_of_bringsAll_singleton brings
  refine ⟨collector.finishDraft draft, below.map collector.finishDraft, rfl,
    ⟨makes.kind_eq, makes.startLine_eq⟩, ⟨?_, ?_⟩, ?_, ?_⟩
  · exact makes.visibility_eq.trans (if_pos exported)
  · have marked : "export" ∈ surroundings.exportMark := by
      rw [Surroundings.exportMark, if_pos exported]
      exact List.mem_singleton_self _
    exact Text.mem_sort.mpr ((makes.mem_modifiers _).mpr (by simp [marked]))
  · intro element member isClass
    obtain ⟨other, isOther, rfl⟩ := List.mem_map.mp member
    have isKind := isBelow.kind_mem other isOther
    rw [show other.kind = .classType from isClass, Outline.allKinds_append,
      List.mem_append] at isKind
    rcases isKind with isKind | isKind
    · exact (allRegular_heritage _).notMem_allKinds (by decide) List.mem_cons_self isKind
    · cases isBody : place.field? "body" with
      | none => rw [isBody] at isKind; exact List.not_mem_nil isKind
      | some body =>
        rw [isBody] at isKind
        exact (allRegular_members file [] body.named).notMem_allKinds (by decide)
          List.mem_cons_self isKind
  · obtain ⟨_, later, rfl, -, isLater⟩ := Outline.exists_of_bringsAll_append isBelow
    rw [List.map_append]
    unfold methodDefinitions
    cases isBody : place.field? "body" with
    | none => exact ⟨[], List.nil_sublist _, .nil⟩
    | some body =>
      rw [isBody] at isLater
      obtain ⟨methods, areIn, along⟩ := exists_methods_of_bringsAll isLater
      exact ⟨methods, areIn.trans (List.sublist_append_right _ _), along⟩

theorem adds_of_statement {file : SourceFile} {surroundings : Surroundings}
    (exported : surroundings.exported) {place declaration : Place}
    (isHanded : handedOn? place = some declaration) (isClass : declaration.node.kind ∈ classKinds)
    (brings : BringsAll fileId id (statement file surroundings declaration) added) :
    AddsExport place (added.map collector.finishDraft) := by
  intro other exports
  obtain rfl := Option.some.inj (isHanded.symm.trans exports.handedOn?_eq)
  rw [statement_of_class file surroundings isClass] at brings
  split_ifs at brings ⊢
  · intro element member isClass
    obtain ⟨draft, isDraft, rfl⟩ := List.mem_map.mp member
    have isKind := brings.kind_mem draft isDraft
    rw [show draft.kind = .classType from isClass] at isKind
    have regular : AllRegular inClass (references file declaration.node) := by simp
    exact regular.notMem_allKinds (by decide) List.mem_cons_self isKind
  · exact isExportedClass_of_bringsAll exported brings

/-- Elements that a statement may bring wherever it stands. -/
def MayBring (fileId : String) (file : SourceFile) (place : Place) (added : List Draft) : Prop :=
  ∃ id surroundings, BringsAll fileId id (statement file surroundings place) added

theorem exists_within_of_namespaceOutline {file : SourceFile} {surroundings : Surroundings}
    {place : Place} (isKind : place.node.kind = "internal_module" ∨ place.node.kind = "module")
    (brings : BringsAll fileId id (namespaceOutline file surroundings place) added) :
    ∃ own rest, added = own ++ rest ∧ Divided (MayBring fileId file) (within place) rest := by
  rw [within, if_pos isKind]
  rw [namespaceOutline] at brings
  dsimp only at brings
  cases isName : place.node.field? "name" with
  | none => exact ⟨added, [], (List.append_nil _).symm, .nil⟩
  | some nameNode =>
    rw [isName] at brings
    dsimp only at brings ⊢
    split_ifs with isString
    · exact ⟨added, [], (List.append_nil _).symm, .nil⟩
    · rw [if_neg isString] at brings
      obtain ⟨draft, below, rfl, -, isBelow⟩ := Outline.brings_of_bringsAll_singleton brings
      refine ⟨[draft], below, rfl, ?_⟩
      split at isBelow
      case h_1 noBody =>
        obtain rfl : below = [] := isBelow
        rw [noBody]
        exact .nil
      case h_2 body isBody =>
        rw [isBody]
        rw [List.flatMap_subtype (g := statement file {}) (fun _ _ => rfl),
          List.unattach_attach] at isBelow
        exact (Outline.divided_of_bringsAll_flatMap isBelow).imp
          fun child _ part isPart => ⟨draft.id, {}, isPart⟩

theorem exists_within_of_statement {file : SourceFile} {surroundings : Surroundings}
    {place : Place} (brings : BringsAll fileId id (statement file surroundings place) added) :
    ∃ own rest, added = own ++ rest ∧ Divided (MayBring fileId file) (within place) rest := by
  by_cases isNamespace : place.node.kind = "internal_module" ∨ place.node.kind = "module"
  · rw [statement_of_namespace file surroundings isNamespace] at brings
    exact exists_within_of_namespaceOutline isNamespace brings
  · rw [within, if_neg isNamespace]
    split_ifs with isBlock
    · rw [statement_of_block file surroundings isBlock] at brings
      refine ⟨[], added, rfl, (Outline.divided_of_bringsAll_flatMap brings).imp ?_⟩
      exact fun child _ part isPart => ⟨id, surroundings, isPart⟩
    · exact ⟨added, [], (List.append_nil _).symm, .nil⟩

/-- A statement brings elements of its own, those of an exported class among them, and what the
statements inside it bring. -/
theorem exists_own_of_mayBring (collector : Collector) {file : SourceFile} {place : Place}
    (brings : MayBring fileId file place added) :
    ∃ own rest, added = own ++ rest ∧ AddsExport place (own.map collector.finishDraft) ∧
      Divided (MayBring fileId file) (within (declared place)) rest := by
  obtain ⟨id, surroundings, brings⟩ := brings
  unfold declared
  split_ifs with isExport isExpression
  · rw [statement_of_export file surroundings isExport] at brings
    cases isHanded : handedOn? place with
    | none =>
      -- A class is always handed on, so this statement exports none.
      rw [Option.getD_none, within_eq_nil (by rw [isExport]; decide)]
      refine ⟨added, [], (List.append_nil _).symm, fun declaration exports => ?_, .nil⟩
      rw [exports.handedOn?_eq] at isHanded
      cases isHanded
    | some declaration =>
      rw [exportStatement_of_handedOn? file isHanded] at brings
      rw [Option.getD_some]
      by_cases isClass : declaration.node.kind ∈ classKinds
      · rw [within_of_class isClass]
        refine ⟨added, [], (List.append_nil _).symm, ?_, .nil⟩
        exact adds_of_statement rfl isHanded isClass brings
      · obtain ⟨own, rest, isAdded, divided⟩ := exists_within_of_statement brings
        refine ⟨own, rest, isAdded, fun other exports => ?_, divided⟩
        obtain rfl := Option.some.inj (isHanded.symm.trans exports.handedOn?_eq)
        exact absurd exports.isClass isClass
  · have vacuous (own : List Element) : AddsExport place own :=
      fun _ exports => absurd exports.isExport isExport
    cases isInner : innerModule? place with
    | none =>
      rw [Option.getD_none, within_eq_nil (by rw [isExpression]; decide)]
      exact ⟨added, [], (List.append_nil _).symm, vacuous _, .nil⟩
    | some inner =>
      rw [statement_of_expression file surroundings isExpression isInner] at brings
      obtain ⟨-, isNamespace⟩ := innerModule?_eq_some_iff.mp isInner
      obtain ⟨own, rest, isAdded, divided⟩ :=
        exists_within_of_namespaceOutline (.inl isNamespace) brings
      exact ⟨own, rest, isAdded, vacuous _, divided⟩
  · obtain ⟨own, rest, isAdded, divided⟩ := exists_within_of_statement brings
    exact ⟨own, rest, isAdded, fun _ exports => absurd exports.isExport isExport, divided⟩

theorem divided_of_mayBring (collector : Collector) {file : SourceFile} {place : Place}
    {added : List Draft} (brings : MayBring fileId file place added) :
    Divided (fun position part => AddsExport position (part.map collector.finishDraft))
      (positions place) added := by
  -- The induction is on the size of the statement, as in the reader and in `positions`.
  obtain ⟨own, rest, rfl, adds, divided⟩ := exists_own_of_mayBring collector brings
  rw [positions_eq]
  refine .cons adds (.flatMap (divided.imp fun child isWithin part isPart => ?_))
  have := size_lt_of_mem_within_declared isWithin
  exact divided_of_mayBring collector isPart
termination_by place.node.size

end

end Script

open Script (AddsExport ExportsClass IsExportedClass allPositions)
open SyntaxTree (Node Place)

/-- The elements of a script behind the file's own one divide along the positions of its statements.
An export statement that exports a class declaration adds the class, usable by everyone and marked
as exported, no other class, and an element of the class for each method that its body defines. One
that exports a class expression adds no class. -/
theorem extract_exported_classes (source filePath : String) {language : String}
    (isScript : language ∈ ["typescript", "tsx", "javascript"]) (root : Node) :
    ∃ file others, Yields source filePath language root (file :: others) ∧
      Divided AddsExport (allPositions root) others := by
  have isReader : outlineOf? language = some Script.outline := by
    simp only [List.mem_cons, List.not_mem_nil, or_false] at isScript
    rcases isScript with rfl | rfl | rfl <;> rfl
  obtain ⟨last, isLast, yields⟩ := exists_yields_of_allPlaced source filePath isReader
    (Script.allPlaced_outline ⟨filePath, language, _⟩ root)
  obtain ⟨added, grows, brings⟩ := Collector.exists_brings_recordAll isLast
  have isAdded : last.others.map Draft.bare = added := grows.bares_eq
  have divided : Divided (fun place part => AddsExport place (part.map last.finishDraft))
      (allPositions root) added :=
    .flatMap ((Outline.divided_of_bringsAll_flatMap brings).imp fun place _ part isPart =>
      Script.divided_of_mayBring last ⟨_, {}, isPart⟩)
  refine ⟨_, _, yields, ?_⟩
  rw [← isAdded, Divided.map_iff] at divided
  rw [Divided.map_iff]
  refine divided.imp fun place _ part adds => .of_map_bare ?_
  rw [List.map_map] at adds ⊢
  exact adds

/-- A script of one exported class with a method: behind the file's own element stand those of the
class. -/
theorem extract_exported_classes_single :
    let node (kind : String) (role : Option String) (text : String) (children : List Node) : Node :=
      .mk ⟨kind, true, false, role, text, ⟨0, 0⟩, ⟨0, 30⟩, 0⟩ children
    let method := node "method_definition" none "run() {}"
      [node "property_identifier" (some "name") "run" []]
    let declaration := node "class_declaration" (some "declaration") "class Job { run() {} }"
      [node "type_identifier" (some "name") "Job" [],
       node "class_body" (some "body") "{ run() {} }" [method]]
    let statement := node "export_statement" none "" [declaration]
    let root := node "program" none "" [statement]
    "typescript" ∈ ["typescript", "tsx", "javascript"] ∧
    ∃ file others, Yields "" "a.ts" "typescript" root (file :: others) ∧
      IsExportedClass ⟨declaration, 0, []⟩ others ∧
      Script.methodDefinitions ⟨declaration, 0, []⟩ = [⟨method, 0, []⟩] := by
  intro node method declaration statement root
  refine ⟨by decide, ?_⟩
  obtain ⟨file, others, yields, stretches, rfl, along⟩ :=
    extract_exported_classes "" "a.ts" (by decide : "typescript" ∈ _) root
  have isPlace : allPositions root = [⟨statement, 0, []⟩] := by
    change List.flatMap Script.positions [⟨statement, 0, []⟩] = _
    rw [List.flatMap_singleton, Script.positions_eq]
    rfl
  rw [isPlace] at along
  cases along with
  | cons adds rest =>
    cases rest
    rw [List.flatten_singleton] at yields
    exact ⟨file, _, yields, adds ⟨declaration, 0, []⟩ ⟨rfl, rfl, rfl, by decide⟩, rfl⟩

/-- The class of `export default class { run() {} }` is an expression: the file has no other
element. -/
theorem extract_exported_classes_unnamed :
    let node (kind : String) (role : Option String) (text : String) (children : List Node) : Node :=
      .mk ⟨kind, true, false, role, text, ⟨0, 0⟩, ⟨0, 33⟩, 0⟩ children
    let method := node "method_definition" none "run() {}"
      [node "property_identifier" (some "name") "run" []]
    let declaration := node "class" (some "value") "class { run() {} }"
      [node "class_body" (some "body") "{ run() {} }" [method]]
    let statement := node "export_statement" none "" [declaration]
    let root := node "program" none "" [statement]
    (∃ place ∈ (Place.ofRoot root).named, ExportsClass place ⟨declaration, 0, []⟩) ∧
    ∃ elements, Yields "" "a.ts" "typescript" root elements ∧
      elements.map (fun element => element.kind) = [.file] := by
  intro node method declaration statement root
  refine ⟨⟨⟨statement, 0, []⟩, .head _, rfl, rfl, rfl, by decide⟩, ?_⟩
  apply exists_yields_of_recordFile rfl
  have isOutline (file : SourceFile) :
      Script.outline file root = Script.references file declaration := by
    change [_].flatMap (Script.statement file {}) = _
    rw [List.flatMap_singleton, Script.statement_of_export file {} rfl,
      Script.exportStatement_of_handedOn? file rfl, Script.statement_of_class _ _ (by decide)]
    rfl
  dsimp only
  rw [isOutline]
  decide +kernel

end Extract
end CodeAtlas
