import CodeAtlas.Proofs.Extract.File
import CodeAtlas.Proofs.SyntaxTree.Place

/-!
# Malformed stretches of script and Python files

Where the parser cannot go on, it puts what it has read under a node for a malformed stretch. The
readers of scripts and of Python look through such nodes to any depth: a run of top-level nodes is
read in the same way inside them as outside, as long as no comment is cut off from what it
documents.
-/

namespace CodeAtlas
namespace SyntaxTree

/-- A named node for a stretch that the parser could not read. -/
def Label.IsMalformed (label : Label) : Prop := label.kind = "ERROR" ∧ label.isNamed = true

namespace Node

/-- Nodes put below nodes that have the given labels, the outermost first. -/
def enclose : List Label → List Node → List Node
  | [], nodes => nodes
  | label :: labels, nodes => [mk label (enclose labels nodes)]

end Node

namespace Place

theorem isNoComment_of_isMalformed {label : Label} (malformed : label.IsMalformed)
    (children : List Node) : (Node.mk label children).isComment = false := by
  change Text.contains label.kind "comment" = false
  rw [malformed.1]
  decide

theorem bare_malformed {label : Label} (malformed : label.IsMalformed) (children : List Node) :
    Bare [.mk label children] := by
  have isNamed : (Node.mk label children).isNamed = true := malformed.2
  intro node isLast
  rw [List.filter_singleton, isNamed] at isLast
  cases isLast
  exact isNoComment_of_isMalformed malformed children

theorem bare_enclose {labels : List Label} (malformed : ∀ label ∈ labels, label.IsMalformed)
    {run : List Node} (bare : Bare run) : Bare (Node.enclose labels run) := by
  cases labels with
  | nil => exact bare
  | cons label labels => exact bare_malformed (malformed label List.mem_cons_self) _

theorem named_malformed {place : Place} (malformed : place.node.kind = "ERROR") :
    place.named = (siblings [] place.node.children).filter fun child => child.node.isNamed := by
  rw [named, children, malformed]
  rfl

theorem named_ofRoot {label : Label} (ordinary : label.kind ∉ wrappers) (children : List Node) :
    (ofRoot (.mk label children)).named =
      (siblings [] children).filter fun child => child.node.isNamed := by
  have noWrapper : wrappers.contains (Node.mk label children).kind = false := by
    simpa [Node.kind, Node.label] using ordinary
  rw [named, Place.children, ofRoot, noWrapper]
  rfl

variable {α : Type} {read : Place → List α}

theorem readSiblings_malformed {label : Label} (malformed : label.IsMalformed)
    (children above : List Node) : readSiblings read above [.mk label children] =
      read ⟨.mk label children, label.start.row, above⟩ := by
  have isNamed : (Node.mk label children).isNamed = true := malformed.2
  rw [readSiblings_cons, if_pos isNamed, readSiblings_nil, List.append_nil]
  rfl

/-- A reader that reads what is inside a malformed stretch, and that alone. -/
def LooksThrough (read : Place → List α) : Prop :=
  ∀ place : Place, place.node.kind = "ERROR" → read place = place.named.flatMap read

theorem LooksThrough.enclose (looksThrough : LooksThrough read) {labels : List Label}
    (malformed : ∀ label ∈ labels, label.IsMalformed) (run : List Node) :
    readSiblings read [] (Node.enclose labels run) = readSiblings read [] run := by
  induction labels with
  | nil => rfl
  | cons label labels induction =>
    obtain ⟨malformedHere, malformedBelow⟩ := List.forall_mem_cons.mp malformed
    let place : Place := ⟨.mk label (Node.enclose labels run), label.start.row, []⟩
    have isMalformed : place.node.kind = "ERROR" := malformedHere.1
    rw [Node.enclose, readSiblings_malformed malformedHere]
    change read place = _
    rw [looksThrough place isMalformed, named_malformed isMalformed]
    exact induction malformedBelow

/-- A run of siblings is read in the same way under malformed nodes by a reader that looks through
them. -/
theorem LooksThrough.replace (looksThrough : LooksThrough read) (respects : Respects read)
    {labels : List Label} (malformed : ∀ label ∈ labels, label.IsMalformed)
    {before run : List Node} (bareBefore : Bare before) (bareRun : Bare run) (after : List Node) :
    readSiblings read [] (before ++ Node.enclose labels run ++ after) =
      readSiblings read [] (before ++ run ++ after) :=
  respects.replace bareBefore (bare_enclose malformed bareRun) bareRun
    (looksThrough.enclose malformed run) after

end Place
end SyntaxTree

namespace Extract

open SyntaxTree (Label Node Place)
open SyntaxTree.Place (Alike Bare LooksThrough Respects flatMap_eq_of_alike forall₂_alike_filter
  rel_alike_find? rel_alike_head?)

/-! ## Scripts -/

namespace Script

theorem respects_method (file : SourceFile) (decorators : List String) :
    Respects (method file decorators) := by
  intro left right alike
  simp only [method, alike.node_eq, alike.documentation?_eq]

theorem respects_classField (file : SourceFile) (decorators : List String) :
    Respects (classField file decorators) := by
  intro left right alike
  simp only [classField, alike.node_eq, alike.documentation?_eq]

theorem respects_member (file : SourceFile) (pending : List String) :
    Respects (member file pending) := by
  intro left right alike
  unfold member
  dsimp only
  rw [alike.node_eq, respects_method file _ alike, respects_classField file _ alike]

theorem members_eq_of_alike (file : SourceFile) {lefts rights : List Place}
    (alike : List.Forall₂ Alike lefts rights) (pending : List String) :
    members file pending lefts = members file pending rights := by
  induction alike generalizing pending with
  | nil => rfl
  | cons first _ induction =>
    rw [members, members, first.node_eq, induction, induction, respects_member file _ first]

theorem respects_classOutline (file : SourceFile) (surroundings : Surroundings)
    (name : Option String) : Respects (classOutline file surroundings name) := by
  intro left right alike
  have membersRespect : Respects fun body => members file [] body.named :=
    fun _ _ bodies => members_eq_of_alike file bodies.named []
  simp only [classOutline, alike.node_eq, alike.documentation?_eq,
    membersRespect.option_map (alike.field? "body")]

theorem respects_functionOutline (file : SourceFile) (surroundings : Surroundings)
    (name : Option String) : Respects (functionOutline file surroundings name) := by
  intro left right alike
  simp only [functionOutline, alike.node_eq, alike.documentation?_eq]

theorem respects_interfaceOutline (surroundings : Surroundings) :
    Respects (interfaceOutline surroundings) := by
  intro left right alike
  simp only [interfaceOutline, alike.node_eq, alike.documentation?_eq]

theorem respects_declarator (file : SourceFile) (surroundings : Surroundings) (isConst : Bool) :
    Respects (declarator file surroundings isConst) := by
  intro left right alike
  unfold declarator
  dsimp only
  rw [alike.node_eq]
  have values := alike.field? "value"
  generalize left.field? "value" = leftValue, right.field? "value" = rightValue at values ⊢
  cases values with
  | none => rfl
  | some values =>
    simp only [Option.map_some, values.node_eq, respects_functionOutline file _ _ values,
      respects_classOutline file _ _ values]

theorem respects_variableOutlines (file : SourceFile) (surroundings : Surroundings) :
    Respects (variableOutlines file surroundings) := by
  intro left right alike
  unfold variableOutlines
  dsimp only
  rw [alike.node_eq]
  exact (respects_declarator file surroundings _).flatMap (forall₂_alike_filter
    alike.named fun node => node.kind = "variable_declarator")

theorem rel_exported? {left right : Place} (alike : Alike left right) :
    Option.Rel Alike (exported? left) (exported? right) := by
  unfold exported?
  have declarations := alike.field? "declaration"
  generalize left.field? "declaration" = leftDeclaration,
    right.field? "declaration" = rightDeclaration at declarations ⊢
  cases declarations with
  | none => exact rel_alike_find? alike.named fun node =>
      node.kind ≠ "decorator" && node.kind ≠ "comment"
  | some declarations => exact .some declarations

-- The induction is on the size of the node, as in the reader itself. Below a wrapper the places of
-- the children are alike again, and below any other node they are the same.
mutual

theorem statement_eq_of_alike (file : SourceFile) (surroundings : Surroundings)
    {left right : Place} (alike : Alike left right) :
    statement file surroundings left = statement file surroundings right := by
  have inside : left.named.flatMap (statement file surroundings) =
      right.named.flatMap (statement file surroundings) := by
    refine flatMap_eq_of_alike alike.named fun leftChild child alikeChild isChild => ?_
    have := Place.size_lt_of_mem_named isChild
    exact statement_eq_of_alike file surroundings alikeChild
  rw [statement, statement]
  simp only [List.flatMap_subtype, List.unattach_attach, alike.node_eq, inside,
    exportStatement_eq_of_alike file alike, respects_classOutline file _ _ alike,
    respects_functionOutline file _ _ alike, respects_interfaceOutline _ alike,
    respects_variableOutlines file _ alike, namespaceOutline_eq_of_alike file _ alike]
  congr 1
  funext _
  have inners := rel_alike_head? alike.named
  generalize left.named.head? = leftInner at inners ⊢
  generalize isInner : right.named.head? = rightInner at inners ⊢
  cases inners with
  | none => rfl
  | some inners =>
    have := Place.size_lt_of_mem_named (List.mem_of_head? isInner)
    simp only [inners.node_eq, namespaceOutline_eq_of_alike file _ inners]
termination_by (right.node.size, 1)

theorem exportStatement_eq_of_alike (file : SourceFile) {left right : Place}
    (alike : Alike left right) : exportStatement file left = exportStatement file right := by
  rw [exportStatement, exportStatement]
  simp only [alike.node_eq]
  congr 1
  funext _
  have exporteds := rel_exported? alike
  generalize exported? left = leftExported at exporteds ⊢
  generalize isExported : exported? right = rightExported at exporteds ⊢
  cases exporteds with
  | none => rfl
  | some exporteds =>
    have := size_lt_of_exported? isExported
    simp only [exporteds.node_eq, statement_eq_of_alike file _ exporteds]
termination_by (right.node.size, 0)

theorem namespaceOutline_eq_of_alike (file : SourceFile) (surroundings : Surroundings)
    {left right : Place} (alike : Alike left right) :
    namespaceOutline file surroundings left = namespaceOutline file surroundings right := by
  rw [namespaceOutline, namespaceOutline]
  simp only [List.flatMap_subtype, List.unattach_attach, alike.node_eq]
  congr 1
  funext nameNode
  have bodies := alike.field? "body"
  generalize left.field? "body" = leftBody at bodies ⊢
  generalize isBody : right.field? "body" = rightBody at bodies ⊢
  cases bodies with
  | none => rfl
  | some bodies =>
    have inside := flatMap_eq_of_alike bodies.named fun leftChild child alikeChild isChild => by
      have := Nat.lt_trans (Place.size_lt_of_mem_named isChild) (Place.size_lt_of_field? isBody)
      exact statement_eq_of_alike file {} alikeChild
    simp only [inside]
termination_by (right.node.size, 0)

end

theorem looksThrough_statement (file : SourceFile) (surroundings : Surroundings) :
    LooksThrough (statement file surroundings) := by
  intro place malformed
  rw [statement]
  simp [malformed]

theorem outline_enclose (file : SourceFile) {label : Label} (ordinary : label.kind ∉ Place.wrappers)
    {labels : List Label} (malformed : ∀ label ∈ labels, label.IsMalformed)
    {before run : List Node} (bareBefore : Bare before) (bareRun : Bare run) (after : List Node) :
    outline file (.mk label (before ++ Node.enclose labels run ++ after)) =
      outline file (.mk label (before ++ run ++ after)) := by
  rw [outline, outline, Place.named_ofRoot ordinary, Place.named_ofRoot ordinary]
  exact (looksThrough_statement file {}).replace
    (fun _ _ alike => statement_eq_of_alike file {} alike) malformed bareBefore bareRun after

end Script

/-! ## Python -/

namespace Python

theorem looksThrough_statement (file : SourceFile) (scope : Scope) :
    LooksThrough fun place => statement file scope [] place.node := by
  intro place malformed
  dsimp only
  rw [Place.named_malformed malformed, statement]
  simp only [malformed, List.flatMap_subtype, List.unattach_attach]
  exact (Place.readSiblings_node (statement file scope []) [] place.node.children).symm

theorem outline_enclose (file : SourceFile) (label : Label)
    {labels : List Label} (malformed : ∀ label ∈ labels, label.IsMalformed)
    {before run : List Node} (bareBefore : Bare before) (bareRun : Bare run) (after : List Node) :
    outline file (.mk label (before ++ Node.enclose labels run ++ after)) =
      outline file (.mk label (before ++ run ++ after)) := by
  have respects : Respects fun place => statement file .module [] place.node :=
    fun _ _ alike => congrArg _ alike.node_eq
  have same := (looksThrough_statement file .module).replace respects malformed bareBefore bareRun
    after
  rwa [Place.readSiblings_node, Place.readSiblings_node] at same

end Python

/-! ## Extraction -/

/-- Extraction of a syntax tree gives the elements. -/
def Yields (source filePath language : String) (root : Node) (elements : List Element) : Prop :=
  ∃ extraction, extract source filePath language (.ok root) = .ok extraction ∧
    extraction.elements = elements

theorem yields_of_elementsOf {source filePath language : String}
    {outline : SourceFile → Node → List Outline} (isReader : outlineOf? language = some outline)
    {root : Node} {elements : List Element}
    (isRead : elementsOf outline ⟨filePath, language, ModulePath.nameOf filePath language⟩
      (lineCount source) root = .ok elements) : Yields source filePath language root elements := by
  refine ⟨⟨filePath, language, contentHash source, elements, root.issues⟩, ?_, rfl⟩
  rw [extract, isReader]
  dsimp only
  rw [isRead]

/-- The elements are those that a collector holds once it has recorded the outline. -/
theorem exists_yields_of_allPlaced (source filePath : String) {language : String}
    {outline : SourceFile → Node → List Outline} (isReader : outlineOf? language = some outline)
    {root : Node} (placed : Outline.AllPlaced
      (outline ⟨filePath, language, ModulePath.nameOf filePath language⟩ root)) :
    let file : SourceFile := ⟨filePath, language, ModulePath.nameOf filePath language⟩
    let start := Collector.start filePath language file.moduleName (lineCount source)
    ∃ last, start.recordAll start.root.id (outline file root) = .ok last ∧
      Yields source filePath language root
        (last.finishDraft last.root :: last.others.map last.finishDraft) := by
  intro file start
  have sound : start.Sound := Collector.sound_start ..
  obtain ⟨last, isLast, -, -⟩ := sound.recordAll (Collector.root_mem_ids start) _ placed
  refine ⟨last, isLast, yields_of_elementsOf isReader ?_⟩
  rw [elementsOf, Collector.recordFile, show Collector.recordAll _ _ _ = _ from isLast]
  rfl

/-- What is computed from the recorded outline of a file holds of its elements. -/
theorem exists_yields_of_recordFile {source filePath language : String}
    {outline : SourceFile → Node → List Outline} (isReader : outlineOf? language = some outline)
    {root : Node} {β : Type} {view : Element → β} {seen : List β}
    (computed :
      let file : SourceFile := ⟨filePath, language, ModulePath.nameOf filePath language⟩
      ((Collector.start filePath language file.moduleName (lineCount source)).recordFile
        (outline file root)).toOption.map (·.finish.map view) = some seen) :
    ∃ elements, Yields source filePath language root elements ∧ elements.map view = seen := by
  obtain ⟨last, isLast, isSeen⟩ := Option.map_eq_some_iff.mp computed
  refine ⟨last.finish, yields_of_elementsOf isReader ?_, isSeen⟩
  cases recorded : (Collector.start filePath language (ModulePath.nameOf filePath language)
      (lineCount source)).recordFile (outline ⟨filePath, language, _⟩ root) with
  | error => rw [recorded] at isLast; exact nomatch isLast
  | ok other =>
    rw [recorded] at isLast
    cases isLast
    rw [elementsOf, recorded]
    rfl

theorem exists_yields_of_outline_eq (source filePath : String) {language : String}
    {outline : SourceFile → Node → List Outline} (isReader : outlineOf? language = some outline)
    (placed : ∀ file root, Outline.AllPlaced (outline file root)) {left right : Node}
    (same : ∀ file, outline file left = outline file right) :
    ∃ elements, Yields source filePath language left elements ∧
      Yields source filePath language right elements := by
  obtain ⟨elements, isRead, -⟩ := exists_elementsOf placed
    ⟨filePath, language, ModulePath.nameOf filePath language⟩ (lineCount source) left
  have isReadRight := isRead
  rw [elementsOf, same] at isReadRight
  exact ⟨elements, yields_of_elementsOf isReader isRead, yields_of_elementsOf isReader isReadRight⟩

/-- In scripts and in Python a run of top-level nodes that stands under malformed nodes, at any
depth, gives the same elements as without them, if no comment stands directly before the run or ends
it. -/
theorem extract_enclose (source filePath : String) {language : String}
    (isLanguage : language ∈ ["typescript", "tsx", "javascript", "python"]) {label : Label}
    (ordinary : label.kind = "program" ∨ label.kind = "module") {labels : List Label}
    (malformed : ∀ label ∈ labels, label.IsMalformed) {before run : List Node}
    (bareBefore : Bare before) (bareRun : Bare run) (after : List Node) :
    ∃ elements,
      Yields source filePath language (.mk label (before ++ run ++ after)) elements ∧
      Yields source filePath language
        (.mk label (before ++ Node.enclose labels run ++ after)) elements := by
  have noWrapper : label.kind ∉ Place.wrappers := by
    rcases ordinary with isKind | isKind <;> rw [isKind] <;> decide
  have sameScript (file : SourceFile) :=
    (Script.outline_enclose file noWrapper malformed bareBefore bareRun after).symm
  simp only [List.mem_cons, List.not_mem_nil, or_false] at isLanguage
  rcases isLanguage with rfl | rfl | rfl | rfl
  · exact exists_yields_of_outline_eq source filePath rfl Script.allPlaced_outline sameScript
  · exact exists_yields_of_outline_eq source filePath rfl Script.allPlaced_outline sameScript
  · exact exists_yields_of_outline_eq source filePath rfl Script.allPlaced_outline sameScript
  · exact exists_yields_of_outline_eq source filePath rfl Python.allPlaced_outline fun file =>
      (Python.outline_enclose file label malformed bareBefore bareRun after).symm

/-- An exported class with a comment above it, two malformed nodes deep between other statements. -/
theorem extract_enclose_documented :
    let node (kind : String) (role : Option String) (text : String) (row : Nat)
        (children : List Node) : Node :=
      .mk ⟨kind, true, false, role, text, ⟨row, 0⟩, ⟨row, 9⟩, 0⟩ children
    let malformed : Label := ⟨"ERROR", true, false, none, "", ⟨1, 0⟩, ⟨2, 9⟩, 0⟩
    let label : Label := ⟨"program", true, false, none, "", ⟨0, 0⟩, ⟨3, 9⟩, 0⟩
    let before := [node "import_statement" none "import 'fs'" 0 []]
    let run :=
      [node "comment" none "/** A store. */" 1 [],
       node "export_statement" none "export class Store" 2
         [node "class_declaration" (some "declaration") "class Store" 2
           [node "identifier" (some "name") "Store" 2 []]]]
    let after := [node "function_declaration" none "function f() \x7b\x7d" 3
      [node "identifier" (some "name") "f" 3 []]]
    Bare before ∧ Bare run ∧
    ∃ elements,
      Yields "" "a.ts" "typescript" (.mk label (before ++ run ++ after)) elements ∧
      Yields "" "a.ts" "typescript"
        (.mk label (before ++ Node.enclose [malformed, malformed] run ++ after)) elements := by
  intro node malformed label before run after
  have bareBefore : Bare before := by decide +kernel
  have bareRun : Bare run := by decide +kernel
  refine ⟨bareBefore, bareRun, extract_enclose "" "a.ts" (by decide) (.inl rfl) ?_ bareBefore
    bareRun after⟩
  intro inner isInner
  simp only [List.mem_cons, List.not_mem_nil, or_false, or_self] at isInner
  rw [isInner]
  exact ⟨rfl, rfl⟩

end Extract
end CodeAtlas
