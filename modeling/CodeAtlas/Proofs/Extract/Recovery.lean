import CodeAtlas.Proofs.Extract.Malformed
import CodeAtlas.Proofs.Outline.References

/-!
# Malformed stretches of Go, Java and Rust files

The readers of Go, Java and Rust each have their own way with a stretch that the parser could not
read. Java looks through it to any depth, but not for the package of the file. Rust looks through
one such node and no further. Go reads nothing inside it except references, which it takes to be
made by the file.
-/

namespace CodeAtlas
namespace SyntaxTree

/-- A named node of a kind gives way to an empty node with another label. -/
def Node.blank (label : Label) (kind : String) (node : Node) : Node :=
  if node.isNamed ∧ node.kind = kind then .mk label [] else node

namespace Place

/-! ## Blank nodes -/

section

variable {label : Label} (malformed : label.IsMalformed) {kind : String}
include malformed

theorem isNamed_blank (node : Node) : (node.blank label kind).isNamed = node.isNamed := by
  unfold Node.blank
  split
  case isTrue isKind => exact malformed.2.trans isKind.1.symm
  case isFalse => rfl

theorem filter_map_blank (nodes : List Node) :
    (nodes.map (Node.blank label kind)).filter Node.isNamed =
      (nodes.filter Node.isNamed).map (Node.blank label kind) := by
  rw [List.filter_map]
  congr 2
  funext node
  exact isNamed_blank malformed node

theorem isComment_blank (noComment : Text.contains kind "comment" = false) (node : Node) :
    (node.blank label kind).isComment = node.isComment := by
  unfold Node.blank
  split
  case isTrue isKind =>
    rw [isNoComment_of_isMalformed malformed, Node.isComment, isKind.2, noComment]
  case isFalse => rfl

theorem kind_blank_ne (isOther : kind ≠ "ERROR") {node : Node}
    (isNamed : (node.blank label kind).isNamed) : (node.blank label kind).kind ≠ kind := by
  unfold Node.blank at isNamed ⊢
  split_ifs at isNamed ⊢ with isKind
  · exact fun same => isOther (same.symm.trans malformed.1)
  · exact fun same => isKind ⟨isNamed, same⟩

theorem bare_blank (noComment : Text.contains kind "comment" = false) {nodes : List Node}
    (bare : Bare nodes) : Bare (nodes.map (Node.blank label kind)) := by
  intro blanked isLast
  rw [filter_map_blank malformed, List.getLast?_map] at isLast
  obtain ⟨node, isNode, rfl⟩ := Option.map_eq_some_iff.mp isLast
  rw [isComment_blank malformed noComment]
  exact bare node isNode

variable {α : Type} {read other : Place → List α}

/-- Nodes from which nothing is read may give way to empty ones from which another reader reads
nothing, if the readers agree on all other nodes. -/
theorem readSiblings_blank (noComment : Text.contains kind "comment" = false)
    (respects : Respects read)
    (silent : ∀ place : Place, place.node.kind = kind → read place = [])
    (silentOther : ∀ place : Place, place.node = .mk label [] → other place = [])
    (same : ∀ place : Place, place.node.kind ≠ kind → read place = other place)
    {left right : List Node} (sameAbove : SameAbove left right) (nodes : List Node) :
    readSiblings read left nodes =
      readSiblings other right (nodes.map (Node.blank label kind)) := by
  induction nodes generalizing left right with
  | nil => rfl
  | cons node rest induction =>
    rw [List.map_cons, readSiblings_cons, readSiblings_cons, isNamed_blank malformed]
    split
    case isFalse => exact induction sameAbove
    case isTrue isNamed =>
      by_cases isKind : node.kind = kind
      case pos =>
        have isBlank : node.blank label kind = .mk label [] := if_pos ⟨isNamed, isKind⟩
        have nothingAbove : SameAbove (node :: left) (.mk label [] :: right) := by
          have noneLeft : node.isComment = false := by rw [Node.isComment, isKind, noComment]
          intro mark row lines
          rw [sameAbove_nil noneLeft, sameAbove_nil (isNoComment_of_isMalformed malformed [])]
        rw [isBlank, silent _ isKind, silentOther _ rfl, induction nothingAbove]
      case neg =>
        have isSame : node.blank label kind = node := if_neg fun isBoth => isKind isBoth.2
        have alike : Alike ⟨node, node.label.start.row, left⟩ ⟨node, node.label.start.row, right⟩ :=
          ⟨rfl, fun mark => sameAbove mark.toList _ _⟩
        rw [isSame, respects alike, same _ isKind, induction (sameAbove.cons node)]

end

/-- Places that are read one by one, those that are not wanted as nothing. -/
theorem flatMap_filter {α : Type} (read : Place → List α) (isWanted : Node → Bool)
    (places : List Place) : (places.filter fun place => isWanted place.node).flatMap read =
      places.flatMap fun place => if isWanted place.node then read place else [] := by
  induction places with
  | nil => rfl
  | cons place rest induction =>
    rw [List.filter_cons, List.flatMap_cons, ← induction]
    split
    · exact List.flatMap_cons
    · rfl

theorem Respects.wanted {α : Type} {read : Place → List α} (respects : Respects read)
    (isWanted : Node → Bool) :
    Respects fun place => if isWanted place.node then read place else [] := by
  intro left right alike
  dsimp only
  rw [alike.node_eq, respects alike]

theorem find?_between {label : Label} {before run after : List Node} {wanted : Node → Bool}
    (isNotInside : ∀ node ∈ run, node.isNamed → wanted node = false) :
    (Node.mk label (before ++ run ++ after)).named.find? wanted =
      (Node.mk label (before ++ after)).named.find? wanted := by
  have noneInside : (run.filter Node.isNamed).find? wanted = none := by
    rw [List.find?_eq_none]
    intro node isThere
    rw [List.mem_filter] at isThere
    simp [isNotInside node isThere.1 isThere.2]
  change ((before ++ run ++ after).filter Node.isNamed).find? wanted =
    ((before ++ after).filter Node.isNamed).find? wanted
  rw [List.filter_append, List.filter_append, List.filter_append, List.find?_append,
    List.find?_append, List.find?_append, noneInside, Option.or_none]

end Place
end SyntaxTree

namespace Extract

open SyntaxTree (Label Node Place)
open SyntaxTree.Place (Alike Bare LooksThrough Respects SameAbove flatMap_eq_of_alike
  forall₂_alike_filter readSiblings)

/-! ## Java -/

namespace Java

theorem respects_method (owner : String) (isInterface : Bool) :
    Respects (method owner isInterface) := by
  intro left right alike
  simp only [method, alike.node_eq, alike.documentation?_eq]

-- The induction is on the size of the node, as in the reader itself.
mutual

theorem typeOutline_eq_of_alike {left right : Place} (alike : Alike left right) :
    typeOutline left = typeOutline right := by
  rw [typeOutline, typeOutline]
  simp only [alike.node_eq, alike.documentation?_eq]
  have bodies := alike.field? "body"
  generalize left.field? "body" = leftBody at bodies ⊢
  generalize isBody : right.field? "body" = rightBody at bodies ⊢
  cases bodies with
  | none => rfl
  | some bodies =>
    have := Place.size_lt_of_field? isBody
    simp only [body_eq_of_alike _ _ bodies]
termination_by right.node.size

theorem body_eq_of_alike (owner : String) (isInterface : Bool) {left right : Place}
    (alike : Alike left right) : body owner isInterface left = body owner isInterface right := by
  rw [body, body]
  simp only [List.flatMap_subtype, List.unattach_attach]
  refine flatMap_eq_of_alike alike.named fun leftMember member alikeMember isMember => ?_
  have := Place.size_lt_of_mem_named isMember
  simp only [alikeMember.node_eq, respects_method owner isInterface alikeMember,
    body_eq_of_alike owner isInterface alikeMember, typeOutline_eq_of_alike alikeMember]
termination_by right.node.size

end

theorem topLevel_eq_of_alike (file : SourceFile) {left right : Place} (alike : Alike left right) :
    topLevel file left = topLevel file right := by
  have inside : left.named.flatMap (topLevel file) = right.named.flatMap (topLevel file) := by
    refine flatMap_eq_of_alike alike.named fun leftChild child alikeChild isChild => ?_
    have := Place.size_lt_of_mem_named isChild
    exact topLevel_eq_of_alike file alikeChild
  rw [topLevel, topLevel]
  simp only [List.flatMap_subtype, List.unattach_attach, alike.node_eq, inside,
    typeOutline_eq_of_alike alike]
termination_by right.node.size

theorem looksThrough_topLevel (file : SourceFile) : LooksThrough (topLevel file) := by
  intro place malformed
  rw [topLevel]
  simp [malformed, typeDeclarations]

theorem packageDeclaration?_between {label : Label} {before run after : List Node}
    (isNotInside : ∀ node ∈ run, node.isNamed → node.kind ≠ "package_declaration") :
    packageDeclaration? (.mk label (before ++ run ++ after)) =
      packageDeclaration? (.mk label (before ++ after)) := by
  unfold packageDeclaration?
  rw [Place.find?_between fun node isThere isNamed =>
    decide_eq_false (isNotInside node isThere isNamed)]

/-- The package of a file is not looked for inside malformed nodes, and all else is. -/
theorem outline_enclose (file : SourceFile) {label : Label} (ordinary : label.kind ∉ Place.wrappers)
    {outer : Label} {inner : List Label} (malformed : ∀ label ∈ outer :: inner, label.IsMalformed)
    {before run : List Node} (bareBefore : Bare before) (bareRun : Bare run) (after : List Node) :
    outline file (.mk label (before ++ Node.enclose (outer :: inner) run ++ after)) =
      outline file (.mk label
        (before ++ run.map (Node.blank outer "package_declaration") ++ after)) := by
  have malformedOuter := malformed outer List.mem_cons_self
  have respects : Respects (topLevel file) := fun _ _ alike => topLevel_eq_of_alike file alike
  have silent (place : Place) (isPackage : place.node.kind = "package_declaration") :
      topLevel file place = [] := by
    rw [topLevel]
    simp [isPackage, typeDeclarations]
  have silentOuter (place : Place) (isOuter : place.node = .mk outer []) :
      topLevel file place = [] := by
    have isMalformed : place.node.kind = "ERROR" := by
      rw [isOuter]
      exact malformedOuter.1
    rw [looksThrough_topLevel file place isMalformed, Place.named_malformed isMalformed, isOuter]
    rfl
  have blanked := Place.readSiblings_blank malformedOuter rfl respects silent silentOuter
    (fun _ _ => rfl) (.refl []) run
  have same := respects.replace bareBefore (Place.bare_enclose malformed bareRun)
    (Place.bare_blank malformedOuter rfl bareRun)
    (((looksThrough_topLevel file).enclose malformed run).trans blanked) after
  rw [outline, outline, Place.named_ofRoot ordinary, Place.named_ofRoot ordinary]
  rw [packageDeclaration?_between, packageDeclaration?_between]
  · exact congrArg _ same
  · intro node isThere isNamed
    obtain ⟨origin, -, rfl⟩ := List.mem_map.mp isThere
    exact Place.kind_blank_ne malformedOuter (by decide) isNamed
  · intro node isThere _
    rw [List.mem_singleton.mp isThere]
    exact fun isPackage => absurd (malformedOuter.1.symm.trans isPackage) (by decide)

end Java

/-! ## Rust -/

namespace Rust

/-- Reads an item, or the items inside one malformed node. -/
def readThrough {α : Type} (read : Place → List α) (place : Place) : List α :=
  if place.node.kind = "ERROR" then place.named.flatMap read else read place

theorem flatMap_itemsOf {α : Type} (read : Place → List α) (place : Place) :
    (itemsOf place).flatMap read = place.named.flatMap (readThrough read) := by
  rw [itemsOf, List.flatMap_assoc]
  congr 1
  funext item
  unfold readThrough
  split <;> simp

theorem forall₂_itemsOf {left right : Place} (alike : Alike left right) :
    List.Forall₂ Alike (itemsOf left) (itemsOf right) := by
  unfold itemsOf
  have named := alike.named
  generalize left.named = lefts, right.named = rights at named ⊢
  induction named with
  | nil => exact .nil
  | cons first _ induction =>
    rw [List.flatMap_cons, List.flatMap_cons, first.node_eq]
    refine List.rel_append ?_ induction
    split
    · exact first.named
    · exact .cons first .nil

theorem respects_functionOutline (file : SourceFile) (kind : ElementKind) :
    Respects (functionOutline file kind) := by
  intro left right alike
  simp only [functionOutline, functionFacts, alike.node_eq, alike.documentation?_eq]

theorem respects_foreignMethod (file : SourceFile) (scope typeName : String) :
    Respects (foreignMethod file scope typeName) := by
  intro left right alike
  simp only [foreignMethod, functionFacts, alike.node_eq, alike.documentation?_eq]

theorem respects_typeItem (file : SourceFile) : Respects (typeItem file) := by
  intro left right alike
  unfold typeItem
  dsimp only
  rw [alike.node_eq]
  simp only [alike.documentation?_eq]
  have bodies := alike.field? "body"
  generalize left.field? "body" = leftBody, right.field? "body" = rightBody at bodies ⊢
  cases bodies with
  | none => rfl
  | some bodies =>
    have methods := (respects_functionOutline file .method).map (forall₂_alike_filter bodies.named
      fun node => node.kind = "function_item" || node.kind = "function_signature_item")
    simp only [bodies.node_eq, methods]

theorem respects_implOutlines (file : SourceFile) (scope : String) :
    Respects (implOutlines file scope) := by
  intro left right alike
  unfold implOutlines
  rw [alike.node_eq]
  have bodies := alike.field? "body"
  generalize left.field? "body" = leftBody, right.field? "body" = rightBody at bodies ⊢
  cases bodies with
  | none => rfl
  | some bodies =>
    have methods := forall₂_alike_filter bodies.named fun node => node.kind = "function_item"
    simp only [(respects_functionOutline file .method).map methods,
      (respects_foreignMethod file scope _).map methods]

/-- The items of a module are read one by one, types first. An item does not tell alike places apart
if the module inside it does not. -/
theorem exists_readItem (file : SourceFile) (scope : String) : ∃ readItem : Place → List Outline,
    (∀ place, items file scope place =
      ((itemsOf place).filter fun item => typeItems.contains item.node.kind).flatMap (typeItem file)
        ++ (itemsOf place).flatMap readItem) ∧
    (∀ place : Place, place.node.kind = "ERROR" → readItem place = []) ∧
    ∀ left right, Alike left right →
      (∀ scope leftBody body, Alike leftBody body → right.field? "body" = some body →
        items file scope leftBody = items file scope body) → readItem left = readItem right := by
  constructor
  refine ⟨fun place => ?_, ?_, ?_⟩
  · rw [items]
    simp only [List.flatMap_subtype, List.unattach_attach]
    rfl
  · intro place malformed
    simp [malformed]
  · intro left right alike inside
    simp only [alike.node_eq, respects_functionOutline file _ alike,
      respects_implOutlines file _ alike]
    have bodies := alike.field? "body"
    generalize left.field? "body" = leftBody at bodies ⊢
    generalize isBody : right.field? "body" = rightBody at bodies inside ⊢
    cases bodies with
    | none => rfl
    | some bodies => simp only [inside _ _ _ bodies rfl]

theorem items_eq_of_alike (file : SourceFile) (scope : String) {left right : Place}
    (alike : Alike left right) : items file scope left = items file scope right := by
  obtain ⟨readItem, isRead, -, same⟩ := exists_readItem file scope
  rw [isRead, isRead]
  congr 1
  · exact (respects_typeItem file).flatMap (forall₂_alike_filter (forall₂_itemsOf alike)
      fun node => typeItems.contains node.kind)
  · refine flatMap_eq_of_alike (forall₂_itemsOf alike) fun leftItem item alikeItem isItem => ?_
    refine same _ _ alikeItem fun scope leftBody body alikeBody isBody => ?_
    have := Nat.lt_trans (Place.size_lt_of_field? isBody) (size_lt_of_mem_itemsOf isItem)
    exact items_eq_of_alike file scope alikeBody
termination_by right.node.size

/-- The nodes that stand for a run inside malformed nodes: those of one malformed node are its own,
without malformed nodes among them, and further inside there is nothing. -/
def recovered (outer : Label) : List Label → List Node → List Node
  | [], run => run.map (Node.blank outer "ERROR")
  | _ :: _, _ => [.mk outer []]

section

variable {outer : Label} {inner : List Label}
  (malformed : ∀ label ∈ outer :: inner, label.IsMalformed)
include malformed

theorem bare_recovered {run : List Node} (bare : Bare run) :
    Bare (recovered outer inner run) := by
  have malformedOuter := malformed outer List.mem_cons_self
  cases inner with
  | nil => exact Place.bare_blank malformedOuter rfl bare
  | cons => exact Place.bare_malformed malformedOuter []

variable {α : Type} {read : Place → List α}

theorem readThrough_malformed (children above : List Node) :
    readSiblings (readThrough read) above [.mk outer children] = readSiblings read [] children := by
  have malformedOuter := malformed outer List.mem_cons_self
  let place : Place := ⟨.mk outer children, outer.start.row, above⟩
  have isMalformed : place.node.kind = "ERROR" := malformedOuter.1
  rw [Place.readSiblings_malformed malformedOuter]
  change readThrough read place = _
  rw [readThrough, if_pos isMalformed, Place.named_malformed isMalformed]
  rfl

/-- A reader to which malformed nodes say nothing reads what is recovered from a run. -/
theorem readSiblings_recovered (respects : Respects read)
    (silent : ∀ place : Place, place.node.kind = "ERROR" → read place = []) (run : List Node) :
    readSiblings (readThrough read) [] (Node.enclose (outer :: inner) run) =
      readSiblings (readThrough read) [] (recovered outer inner run) := by
  have malformedOuter := malformed outer List.mem_cons_self
  rw [Node.enclose, readThrough_malformed malformed]
  cases inner with
  | nil =>
    refine Place.readSiblings_blank malformedOuter rfl respects silent ?_ ?_ (.refl []) run
    · intro place isOuter
      have isMalformed : place.node.kind = "ERROR" := by
        rw [isOuter]
        exact malformedOuter.1
      rw [readThrough, if_pos isMalformed, Place.named_malformed isMalformed, isOuter]
      rfl
    · intro place isItem
      rw [readThrough, if_neg isItem]
  | cons next inner =>
    have malformedNext := malformed next (by simp)
    rw [Node.enclose, Place.readSiblings_malformed malformedNext, recovered,
      readThrough_malformed malformed, Place.readSiblings_nil]
    exact silent _ malformedNext.1

end

theorem Respects.readThrough {α : Type} {read : Place → List α} (respects : Respects read) :
    Respects (readThrough read) := by
  intro left right alike
  unfold Rust.readThrough
  rw [alike.node_eq, respects alike, respects.flatMap alike.named]

/-- One malformed node around items makes no difference, and all is lost inside more. -/
theorem outline_enclose (file : SourceFile) {label : Label} (ordinary : label.kind ∉ Place.wrappers)
    {outer : Label} {inner : List Label} (malformed : ∀ label ∈ outer :: inner, label.IsMalformed)
    {before run : List Node} (bareBefore : Bare before) (bareRun : Bare run) (after : List Node) :
    outline file (.mk label (before ++ Node.enclose (outer :: inner) run ++ after)) =
      outline file (.mk label (before ++ recovered outer inner run ++ after)) := by
  obtain ⟨readItem, isRead, silent, same⟩ := exists_readItem file file.moduleName
  have readAll {read : Place → List Outline} (respects : Respects read)
      (silent : ∀ place : Place, place.node.kind = "ERROR" → read place = []) :
      (itemsOf (.ofRoot (.mk label (before ++ Node.enclose (outer :: inner) run ++ after)))).flatMap
          read =
        (itemsOf (.ofRoot (.mk label (before ++ recovered outer inner run ++ after)))).flatMap
          read := by
    rw [flatMap_itemsOf, flatMap_itemsOf, Place.named_ofRoot ordinary, Place.named_ofRoot ordinary]
    exact (Respects.readThrough respects).replace bareBefore
      (Place.bare_enclose malformed bareRun) (bare_recovered malformed bareRun)
      (readSiblings_recovered malformed respects silent run) after
  rw [outline, outline, isRead, isRead]
  congr 1
  · simp only [Place.flatMap_filter _ fun node => typeItems.contains node.kind]
    refine readAll ((respects_typeItem file).wanted fun node => typeItems.contains node.kind) ?_
    intro place malformed
    simp [malformed, typeItems]
  · refine readAll (fun left right alike => same left right alike ?_) silent
    exact fun scope _ _ alikeBody _ => items_eq_of_alike file scope alikeBody

end Rust

/-! ## Go -/

namespace Go

theorem respects_functionOutline : Respects functionOutline := by
  intro left right alike
  simp only [functionOutline, functionFacts, alike.node_eq, alike.documentation?_eq]

theorem respects_method (package : String) : Respects (method package) := by
  intro left right alike
  simp only [method, functionFacts, alike.node_eq, alike.documentation?_eq]

theorem respects_typeDeclaration : Respects typeDeclaration := by
  intro left right alike
  simp only [typeDeclaration, alike.documentation?_eq]
  refine flatMap_eq_of_alike (forall₂_alike_filter alike.named fun node => node.kind = "type_spec")
    fun leftSpec spec alikeSpec _ => ?_
  simp only [alikeSpec.node_eq, alikeSpec.documentation?_eq]

theorem respects_topLevel (file : SourceFile) (package : String) :
    Respects (topLevel file package) := by
  intro left right alike
  simp only [topLevel, alike.node_eq, respects_functionOutline alike, respects_method package alike]

/-- A call or a use. -/
def IsCallOrUse (kind : ReferenceKind) : Prop := kind = .calls ∨ kind = .uses

theorem references_refer (node : Node) : ∀ outline ∈ references node, ∃ reference,
    outline = .refer reference ∧ IsCallOrUse reference.kind := by
  refine Node.visitStack_keeps (fun found : Array Outline => ∀ outline ∈ found.toList,
    ∃ reference, outline = .refer reference ∧ IsCallOrUse reference.kind)
    (fun found node kept => ?_) (by simp) node.named
  have more {reference : Reference} (isKind : IsCallOrUse reference.kind) :
      ∀ outline ∈ (found.push (.refer reference)).toList,
        ∃ reference, outline = .refer reference ∧ IsCallOrUse reference.kind := by
    simpa [or_imp, forall_and] using And.intro kept isKind
  unfold referenceAt
  dsimp only
  split
  · split
    · exact kept
    · split
      · exact more (.inl rfl)
      · split
        · split
          · exact kept
          · exact more (.inl rfl)
        · exact kept
  · split
    · split
      · split
        · exact more (.inr rfl)
        · exact kept
      · exact kept
    · exact kept

/-- The types of a top-level node. -/
def declaredTypes (place : Place) : List Outline :=
  if place.node.kind = "type_declaration" then typeDeclaration place else []

theorem respects_declaredTypes : Respects declaredTypes := by
  intro left right alike
  rw [declaredTypes, declaredTypes, alike.node_eq, respects_typeDeclaration alike]

theorem outline_eq_readSiblings (file : SourceFile) {label : Label}
    (ordinary : label.kind ∉ Place.wrappers) (children : List Node) :
    outline file (.mk label children) =
      let clause := packageClause? (.mk label children)
      let package := (clause.map (·.1)).getD file.moduleName
      clause.toList.map (fun (name, line) => .package name line)
        ++ readSiblings declaredTypes [] children
        ++ readSiblings (topLevel file package) [] children := by
  rw [outline, Place.named_ofRoot ordinary]
  dsimp only
  rw [Place.flatMap_filter _ fun node => node.kind = "type_declaration"]
  simp only [decide_eq_true_eq]
  rfl

/-- A malformed node says what the nodes inside it refer to, and what is said around it does not
depend on them. -/
theorem exists_outline_malformed (file : SourceFile) {label : Label}
    (ordinary : label.kind ∉ Place.wrappers) {outer : Label} (malformed : outer.IsMalformed)
    {before : List Node} (bareBefore : Bare before) (after : List Node) :
    ∃ first last, ∀ children, outline file (.mk label (before ++ [.mk outer children] ++ after)) =
      first ++ references (.mk outer children) ++ last := by
  have isNoClause (children : List Node) : ∀ node ∈ [Node.mk outer children], node.isNamed →
      decide (node.kind = "package_clause") = false := by
    intro node isThere _
    rw [List.mem_singleton.mp isThere]
    exact decide_eq_false fun isClause => absurd (malformed.1.symm.trans isClause) (by decide)
  have apart {read : Place → List Outline} (respects : Respects read) (children : List Node) :=
    respects.readSiblings_between bareBefore (Place.bare_malformed malformed children) after
  let clause := packageClause? (.mk label (before ++ after))
  let package := (clause.map (·.1)).getD file.moduleName
  refine ⟨clause.toList.map (fun (name, line) => .package name line)
    ++ (readSiblings declaredTypes [] before ++ readSiblings declaredTypes [] after)
    ++ readSiblings (topLevel file package) [] before,
    readSiblings (topLevel file package) [] after, fun children => ?_⟩
  have sameClause :
      packageClause? (.mk label (before ++ [.mk outer children] ++ after)) = clause := by
    unfold packageClause?
    rw [Place.find?_between (isNoClause children)]
    rfl
  have noTypes : readSiblings declaredTypes [] [.mk outer children] = [] := by
    rw [Place.readSiblings_malformed malformed]
    exact if_neg fun isTypes => absurd (malformed.1.symm.trans isTypes) (by decide)
  have inside : readSiblings (topLevel file package) [] [.mk outer children] =
      references (.mk outer children) := by
    have isMalformed : (Node.mk outer children).kind = "ERROR" := malformed.1
    rw [Place.readSiblings_malformed malformed, topLevel]
    simp only [isMalformed]
  rw [outline_eq_readSiblings file ordinary, sameClause]
  dsimp only
  rw [apart respects_declaredTypes, apart (respects_topLevel file package), noTypes, inside]
  simp only [List.nil_append, List.append_assoc]

theorem references_empty (label : Label) : references (.mk label []) = [] := by
  simp [references, Node.visitDescendants, Node.visitStack, Node.named, Node.children]

end Go

/-! ## Extraction -/

/-- What is left of a run of top-level nodes inside malformed nodes, if no comment stands directly
before the run or ends it. In Java the elements are those of the run without its package; in Rust
those of the run without its malformed nodes for one malformed node, and none for more; in Go none,
but the file makes calls and uses of the run's. -/
theorem extract_malformed (source filePath : String) {label : Label}
    (ordinary : label.kind ∉ Place.wrappers) {outer : Label} {inner : List Label}
    (malformed : ∀ label ∈ outer :: inner, label.IsMalformed) {before run : List Node}
    (bareBefore : Bare before) (bareRun : Bare run) (after : List Node) :
    let enclosed := Node.mk label (before ++ Node.enclose (outer :: inner) run ++ after)
    let instead (nodes : List Node) := Node.mk label (before ++ nodes ++ after)
    (∃ elements,
      Yields source filePath "java" (instead (run.map (Node.blank outer "package_declaration")))
        elements ∧
      Yields source filePath "java" enclosed elements) ∧
    (∃ elements,
      Yields source filePath "rust" (instead (Rust.recovered outer inner run)) elements ∧
      Yields source filePath "rust" enclosed elements) ∧
    ∃ (file : Element) (first found last : List Reference) (others : List Element),
      Yields source filePath "go" (instead [.mk outer []])
        ({ file with references := first ++ last } :: others) ∧
      Yields source filePath "go" enclosed
        ({ file with references := first ++ found ++ last } :: others) ∧
      ∀ reference ∈ found, Go.IsCallOrUse reference.kind := by
  refine ⟨?_, ?_, ?_⟩
  · exact exists_yields_of_outline_eq source filePath rfl Java.allPlaced_outline fun file =>
      (Java.outline_enclose file ordinary malformed bareBefore bareRun after).symm
  · exact exists_yields_of_outline_eq source filePath rfl Rust.allPlaced_outline fun file =>
      (Rust.outline_enclose file ordinary malformed bareBefore bareRun after).symm
  · let file : SourceFile := ⟨filePath, "go", ModulePath.nameOf filePath "go"⟩
    obtain ⟨first, last, isOutline⟩ := Go.exists_outline_malformed file ordinary
      (malformed outer List.mem_cons_self) bareBefore after
    have isHollow : Go.outline file (.mk label (before ++ [.mk outer []] ++ after)) =
        first ++ last := by
      rw [isOutline, Go.references_empty, List.append_nil]
    have placed := Go.allPlaced_outline file (.mk label (before ++ [.mk outer []] ++ after))
    rw [isHollow, Outline.allPlaced_append] at placed
    have sound := Collector.sound_start file.path file.language file.moduleName (lineCount source)
    obtain ⟨without, full, root, early, found, late, others, isWithout, elementsWithout, isFull,
      elementsFull, areFound⟩ := sound.exists_finish_refer placed.1 placed.2 Go.IsCallOrUse
        (Go.references_refer (.mk outer (Node.enclose inner run)))
    refine ⟨root, early, found, late, others, yields_of_elementsOf rfl ?_,
      yields_of_elementsOf rfl ?_, areFound⟩
    · rw [elementsOf, isHollow, isWithout, ← elementsWithout]
      rfl
    · rw [elementsOf, Node.enclose, isOutline, isFull, ← elementsFull]
      rfl

/-- A package and a class in a malformed node, below an import and above another class. -/
theorem extract_malformed_package :
    let node (kind : String) (role : Option String) (text : String) (row : Nat)
        (children : List Node) : Node :=
      .mk ⟨kind, true, false, role, text, ⟨row, 0⟩, ⟨row, 9⟩, 0⟩ children
    let label : Label := ⟨"program", true, false, none, "", ⟨0, 0⟩, ⟨3, 9⟩, 0⟩
    let outer : Label := ⟨"ERROR", true, false, none, "", ⟨1, 0⟩, ⟨2, 9⟩, 0⟩
    let classNode (name : String) (row : Nat) : Node :=
      node "class_declaration" none ("class " ++ name) row
        [node "identifier" (some "name") name row []]
    let before := [node "import_declaration" none "import java.util.List;" 0
      [node "scoped_identifier" none "java.util.List" 0 []]]
    let package := node "package_declaration" none "package shop;" 1
      [node "identifier" none "shop" 1 []]
    let run := [package, classNode "Store" 2]
    let after := [classNode "Cart" 3]
    Bare before ∧ Bare run ∧
    let enclosed := Node.mk label (before ++ Node.enclose [outer] run ++ after)
    let instead (nodes : List Node) := Node.mk label (before ++ nodes ++ after)
    (∃ elements,
      Yields "" "A.java" "java" (instead [.mk outer [], classNode "Store" 2]) elements ∧
      Yields "" "A.java" "java" enclosed elements) ∧
    (∃ elements,
      Yields "" "A.java" "rust" (instead run) elements ∧
      Yields "" "A.java" "rust" enclosed elements) ∧
    ∃ (file : Element) (first found last : List Reference) (others : List Element),
      Yields "" "A.java" "go" (instead [.mk outer []])
        ({ file with references := first ++ last } :: others) ∧
      Yields "" "A.java" "go" enclosed
        ({ file with references := first ++ found ++ last } :: others) ∧
      ∀ reference ∈ found, Go.IsCallOrUse reference.kind := by
  intro node label outer classNode before package run after
  have bareBefore : Bare before := by decide +kernel
  have bareRun : Bare run := by decide +kernel
  refine ⟨bareBefore, bareRun, extract_malformed "" "A.java" (by decide +kernel) ?_ bareBefore
    bareRun after⟩
  intro malformed isThere
  rw [List.mem_singleton.mp isThere]
  exact ⟨rfl, rfl⟩

theorem Yields.length_eq {source filePath language : String} {root : Node}
    {elements : List Element} (yields : Yields source filePath language root elements) :
    (extract source filePath language (.ok root)).toOption.map (·.elements.length) =
      some elements.length := by
  obtain ⟨extraction, isExtraction, rfl⟩ := yields
  rw [isExtraction]
  rfl

/-- A function of a Go file and the package of a Java file are lost in one malformed node, and a
structure of a Rust file in two. -/
theorem extract_malformed_lost :
    let node (kind : String) (children : List Node) : Node :=
      .mk ⟨kind, true, false, some "name", "shop", ⟨0, 0⟩, ⟨0, 9⟩, 0⟩ children
    let label : Label := ⟨"program", true, false, none, "", ⟨0, 0⟩, ⟨0, 9⟩, 0⟩
    let outer : Label := ⟨"ERROR", true, false, none, "", ⟨0, 0⟩, ⟨0, 9⟩, 0⟩
    let changes (language : String) (labels : List Label) (run : List Node) : Prop :=
      Bare run ∧ ¬ ∃ elements, Yields "" "a" language (.mk label run) elements ∧
        Yields "" "a" language (.mk label (Node.enclose labels run)) elements
    outer.IsMalformed ∧
    changes "go" [outer] [node "function_declaration" [node "identifier" []]] ∧
    changes "java" [outer] [node "package_declaration" [node "identifier" []]] ∧
    changes "rust" [outer, outer] [node "struct_item" [node "type_identifier" []]] := by
  have differ {language : String} {left right : Node}
      (lengths : (extract "" "a" language (.ok left)).toOption.map (·.elements.length) ≠
        (extract "" "a" language (.ok right)).toOption.map (·.elements.length)) :
      ¬ ∃ elements, Yields "" "a" language left elements ∧
        Yields "" "a" language right elements := by
    rintro ⟨elements, isLeft, isRight⟩
    exact lengths (isLeft.length_eq.trans isRight.length_eq.symm)
  refine ⟨⟨rfl, rfl⟩, ⟨?_, differ ?_⟩, ⟨?_, differ ?_⟩, ?_, differ ?_⟩ <;> decide +kernel

end Extract
end CodeAtlas
