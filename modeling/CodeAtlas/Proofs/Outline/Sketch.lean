import CodeAtlas.Proofs.Outline
import Mathlib.Data.List.Forall2

/-!
# What recording adds

References apart, recording outlines adds elements and changes none: an element for each
declaration, below the element that the declaration is about and followed by what its body adds, and
an element for each import, below the file. What several outlines add divides into stretches, one
for each of them in order.
-/

namespace CodeAtlas

/-! ## Lists in stretches -/

/-- A list is made of stretches, one for each of some values in order. -/
def Divided {α β : Type} (stretch : α → List β → Prop) (values : List α) (whole : List β) : Prop :=
  ∃ stretches, whole = stretches.flatten ∧ List.Forall₂ stretch values stretches

namespace Divided

variable {α β γ : Type} {stretch : α → List β → Prop}

theorem nil : Divided stretch [] [] := ⟨[], rfl, .nil⟩

theorem cons {value : α} {values : List α} {first later : List β} (isFirst : stretch value first)
    (isLater : Divided stretch values later) :
    Divided stretch (value :: values) (first ++ later) := by
  obtain ⟨stretches, rfl, along⟩ := isLater
  exact ⟨first :: stretches, rfl, .cons isFirst along⟩

theorem append {left right : List α} {first later : List β}
    (isFirst : Divided stretch left first) (isLater : Divided stretch right later) :
    Divided stretch (left ++ right) (first ++ later) := by
  obtain ⟨firsts, rfl, alongFirst⟩ := isFirst
  obtain ⟨laters, rfl, alongLater⟩ := isLater
  exact ⟨firsts ++ laters, List.flatten_append.symm, List.rel_append alongFirst alongLater⟩

theorem flatMap {inner : γ → List α} {values : List γ} {whole : List β}
    (divided : Divided (fun value => Divided stretch (inner value)) values whole) :
    Divided stretch (values.flatMap inner) whole := by
  obtain ⟨stretches, rfl, along⟩ := divided
  induction along with
  | nil => exact nil
  | cons isFirst _ induction => exact isFirst.append induction

/-- What is read from values one after the other is divided along them. -/
theorem of_flatMap (read : α → List β) (values : List α) :
    Divided (fun value part => part = read value) values (values.flatMap read) := by
  induction values with
  | nil => exact nil
  | cons value values induction =>
    rw [List.flatMap_cons]
    exact cons rfl induction

theorem imp {other : α → List β → Prop} {values : List α} {whole : List β}
    (divided : Divided stretch values whole)
    (implies : ∀ value ∈ values, ∀ part, stretch value part → other value part) :
    Divided other values whole := by
  obtain ⟨stretches, rfl, along⟩ := divided
  refine ⟨stretches, rfl, ?_⟩
  induction along with
  | nil => exact .nil
  | cons isFirst _ induction =>
    exact .cons (implies _ List.mem_cons_self _ isFirst)
      (induction fun value member => implies value (.tail _ member))

theorem map_iff {f : γ → β} {values : List α} {whole : List γ} :
    Divided stretch values (whole.map f) ↔
      Divided (fun value part => stretch value (part.map f)) values whole := by
  constructor
  · rintro ⟨stretches, isWhole, along⟩
    induction along generalizing whole with
    | nil =>
      obtain rfl := List.map_eq_nil_iff.mp isWhole
      exact nil
    | cons isFirst _ induction =>
      obtain ⟨first, later, rfl, rfl, isLater⟩ := List.map_eq_append_iff.mp isWhole
      exact cons isFirst (induction isLater)
  · rintro ⟨stretches, rfl, along⟩
    refine ⟨stretches.map (List.map f), List.map_flatten, ?_⟩
    rwa [List.forall₂_map_right_iff]

end Divided

/-! ## Elements that declarations make -/

/-- An element with the given references instead. -/
def Draft.refer (draft : Draft) (references : List Reference) : Draft :=
  { draft with references := references }

theorem Draft.references_refer (draft : Draft) (references : List Reference) :
    (draft.refer references).references = references := rfl

/-- An element without its references. -/
def Draft.bare (draft : Draft) : Draft := draft.refer []

/-- An element is made by a declaration below a parent. -/
structure Declaration.Makes (declaration : Declaration) (parentId : String) (draft : Draft) :
    Prop where
  /-- It has the declared name. -/
  name_eq : draft.name = declaration.name
  /-- It has the declared kind. -/
  kind_eq : draft.kind = declaration.kind
  /-- It starts where the declaration starts. -/
  startLine_eq : draft.startLine = declaration.startLine
  /-- It ends where the declaration ends. -/
  endLine_eq : draft.endLine = max declaration.startLine declaration.endLine
  /-- It can be used as declared. -/
  visibility_eq : draft.visibility = declaration.visibility
  /-- It has the declared words. -/
  mem_modifiers : ∀ modifier, modifier ∈ draft.modifiers ↔ modifier ∈ declaration.modifiers
  /-- It belongs to the parent. -/
  parentId_eq : draft.parentId = some parentId
  /-- It carries the declared facts. -/
  metadata_eq : draft.metadata = declaration.metadata

/-- Whatever an element refers to, the same declaration makes it. -/
theorem Declaration.Makes.refer {declaration : Declaration} {parentId : String} {draft : Draft}
    (makes : declaration.Makes parentId draft) (references : List Reference) :
    declaration.Makes parentId (draft.refer references) :=
  ⟨makes.1, makes.2, makes.3, makes.4, makes.5, makes.6, makes.7, makes.8⟩

namespace Collector

theorem exists_of_bind_eq_ok {ε α β : Type} {first : Except ε α} {second : α → Except ε β}
    {last : β} (done : first >>= second = .ok last) :
    ∃ middle, first = .ok middle ∧ second middle = .ok last := by
  cases isFirst : first with
  | error => rw [isFirst] at done; exact nomatch done
  | ok middle => rw [isFirst] at done; exact ⟨middle, rfl, done⟩

/-- A collector with one more element behind the others. -/
def push (collector : Collector) (draft : Draft) : Collector :=
  { collector with others := collector.others ++ [draft] }

theorem exists_add (collector : Collector) (parent : Handle) (declaration : Declaration) :
    ∃ draft, collector.add parent declaration = (collector.push draft, draft.toHandle) ∧
      draft.id ∉ collector.ids ∧ draft.references = [] ∧ declaration.Makes parent.id draft :=
  ⟨_, rfl, freeId_notMem collector _, rfl,
    ⟨rfl, rfl, rfl, rfl, rfl, fun _ => List.mem_eraseDups, rfl, rfl⟩⟩

/-- A file that belongs to a package. -/
def enter (collector : Collector) (name : String) : Collector :=
  { collector with
    currentModule := name
    root := { collector.root with moduleName := name, scope := name } }

theorem exists_enterPackage (collector : Collector) (name : String) (line : Nat) :
    ∃ draft, (collector.enterPackage name line).1 = (collector.enter name).push draft ∧
      draft.id ∉ collector.ids ∧ draft.references = [] ∧ draft.kind = .package := by
  obtain ⟨draft, isAdded, isNew, silent, makes⟩ :=
    exists_add (collector.enter name) (collector.enter name).rootHandle
      { name := Text.lastPiece '.' name
        kind := .package
        startLine := line
        endLine := line
        qualifiedName := some name }
  exact ⟨draft, congrArg Prod.fst isAdded, isNew, silent, makes.kind_eq⟩

theorem id_of_handle {collector : Collector} {id : String} {handle : Handle}
    (found : collector.handle id = .ok handle) : handle.id = id := by
  unfold Collector.handle at found
  split at found
  case h_1 draft isDraft =>
    cases found
    simpa using List.find?_some isDraft
  case h_2 => exact nomatch found

/-- The other elements without their references. -/
def bares (collector : Collector) : List Draft := collector.others.map Draft.bare

/-- One collector differs from another in references and elements behind the others. -/
structure Grows (next collector : Collector) (added : List Draft) : Prop where
  /-- The file's own element stays the same one. -/
  root_id : next.root.id = collector.root.id
  /-- It stays a file. -/
  root_kind : next.root.kind = collector.root.kind
  /-- The other elements stay and some are added. -/
  bares_eq : next.bares = collector.bares ++ added

namespace Grows

theorem refl (collector : Collector) : Grows collector collector [] :=
  ⟨rfl, rfl, (List.append_nil _).symm⟩

theorem trans {first second third : Collector} {early late : List Draft}
    (later : Grows third second late) (earlier : Grows second first early) :
    Grows third first (early ++ late) where
  root_id := later.root_id.trans earlier.root_id
  root_kind := later.root_kind.trans earlier.root_kind
  bares_eq := by rw [later.bares_eq, earlier.bares_eq, List.append_assoc]

end Grows

theorem grows_push (collector : Collector) (draft : Draft) :
    Grows (collector.push draft) collector [draft.bare] :=
  ⟨rfl, rfl, List.map_append⟩

theorem grows_reference {collector next : Collector} {id : String} {kind : ReferenceKind}
    {target : String} {line : Nat} (done : collector.reference id kind target line = .ok next) :
    Grows next collector [] := by
  unfold reference modify at done
  dsimp only at done
  split_ifs at done
  · cases done
    exact .refl collector
  · cases done
    exact ⟨rfl, rfl, (List.append_nil _).symm⟩
  · cases done
    refine ⟨rfl, rfl, ?_⟩
    rw [List.append_nil, bares, bares, List.map_map]
    refine List.map_congr_left fun draft _ => ?_
    rw [Function.comp_apply]
    split <;> rfl

theorem grows_bind (collector : Collector) (name target : String) :
    Grows (collector.bind name target) collector [] := by
  unfold Collector.bind
  split
  · exact .refl collector
  · exact ⟨rfl, rfl, (List.append_nil _).symm⟩

end Collector

namespace Outline

mutual

/-- An outline about an element of a file brings elements. -/
def Brings (file : String) : String → Outline → List Draft → Prop
  | id, .declare declaration body, added => ∃ draft below, added = draft :: below ∧
    declaration.Makes id draft ∧ BringsAll file draft.id body below
  | _, .importModule declaration _ _, added => ∃ draft, added = [draft] ∧
    declaration.Makes file draft
  | _, .package _ _, added => ∃ draft, added = [draft] ∧ draft.kind = .package
  | id, .about _ _ known unknown, added =>
    (∃ other, BringsAll file other known added) ∨ BringsAll file id unknown added
  | _, .refer _, added => added = []
  | _, .referFile _, added => added = []
  | _, .bind _ _, added => added = []

/-- Outlines about an element of a file bring elements. -/
def BringsAll (file : String) : String → List Outline → List Draft → Prop
  | _, [], added => added = []
  | id, outline :: rest, added => ∃ first later, added = first ++ later ∧
    Brings file id outline first ∧ BringsAll file id rest later

end

variable {file id : String} {added : List Draft}

theorem brings_of_bringsAll_singleton {outline : Outline}
    (brings : BringsAll file id [outline] added) : Brings file id outline added := by
  obtain ⟨first, _, rfl, isFirst, rfl⟩ := brings
  rwa [List.append_nil]

theorem exists_of_bringsAll_append {left right : List Outline}
    (brings : BringsAll file id (left ++ right) added) :
    ∃ first later, added = first ++ later ∧ BringsAll file id left first ∧
      BringsAll file id right later := by
  induction left generalizing added with
  | nil => exact ⟨[], added, rfl, rfl, brings⟩
  | cons outline rest induction =>
    obtain ⟨here, below, rfl, isHere, isBelow⟩ := brings
    obtain ⟨first, later, rfl, isFirst, isLater⟩ := induction isBelow
    exact ⟨here ++ first, later, (List.append_assoc ..).symm, ⟨here, first, rfl, isHere, isFirst⟩,
      isLater⟩

theorem divided_of_bringsAll_flatMap {α : Type} {values : List α} {outlines : α → List Outline}
    (brings : BringsAll file id (values.flatMap outlines) added) :
    Divided (fun value => BringsAll file id (outlines value)) values added := by
  induction values generalizing added with
  | nil =>
    obtain rfl : added = [] := brings
    exact .nil
  | cons value rest induction =>
    rw [List.flatMap_cons] at brings
    obtain ⟨first, later, rfl, isFirst, isLater⟩ := exists_of_bringsAll_append brings
    exact .cons isFirst (induction isLater)

/-! ## Kinds of elements -/

mutual

/-- The kinds of elements that an outline may bring. -/
def kinds : Outline → List ElementKind
  | .declare declaration body => declaration.kind :: allKinds body
  | .importModule declaration _ _ => [declaration.kind]
  | .package _ _ => [.package]
  | .about _ _ known unknown => allKinds known ++ allKinds unknown
  | .refer _ | .referFile _ | .bind _ _ => []

/-- The kinds of elements that outlines may bring. -/
def allKinds : List Outline → List ElementKind
  | [] => []
  | outline :: rest => kinds outline ++ allKinds rest

end

attribute [simp] kinds allKinds

theorem allKinds_eq_flatMap (outlines : List Outline) :
    allKinds outlines = outlines.flatMap kinds := by
  induction outlines with
  | nil => rfl
  | cons outline rest induction => rw [allKinds, induction, List.flatMap_cons]

@[simp]
theorem allKinds_append (left right : List Outline) :
    allKinds (left ++ right) = allKinds left ++ allKinds right := by
  simp only [allKinds_eq_flatMap, List.flatMap_append]

mutual

theorem Brings.kind_mem {file : String} : ∀ {outline : Outline} {id : String} {added : List Draft},
    Brings file id outline added → ∀ draft ∈ added, draft.kind ∈ kinds outline
  | .declare _ _, _, _, brings, draft, member => by
    obtain ⟨first, below, rfl, makes, isBelow⟩ := brings
    rcases List.mem_cons.mp member with rfl | member
    · rw [makes.kind_eq]
      exact List.mem_cons_self
    · exact .tail _ (isBelow.kind_mem draft member)
  | .importModule _ _ _, _, _, brings, draft, member => by
    obtain ⟨only, rfl, makes⟩ := brings
    obtain rfl := List.mem_singleton.mp member
    rw [makes.kind_eq]
    exact List.mem_singleton_self _
  | .package _ _, _, _, brings, draft, member => by
    obtain ⟨only, rfl, isPackage⟩ := brings
    obtain rfl := List.mem_singleton.mp member
    rw [isPackage]
    exact List.mem_singleton_self _
  | .about _ _ _ _, _, _, brings, draft, member => by
    rcases brings with ⟨other, known⟩ | unknown
    · exact List.mem_append_left _ (known.kind_mem draft member)
    · exact List.mem_append_right _ (unknown.kind_mem draft member)
  | .refer _, _, _, rfl, _, member => nomatch member
  | .referFile _, _, _, rfl, _, member => nomatch member
  | .bind _ _, _, _, rfl, _, member => nomatch member

theorem BringsAll.kind_mem {file : String} : ∀ {outlines : List Outline} {id : String}
    {added : List Draft}, BringsAll file id outlines added →
      ∀ draft ∈ added, draft.kind ∈ allKinds outlines
  | [], _, _, rfl, _, member => nomatch member
  | _ :: _, _, _, brings, draft, member => by
    obtain ⟨first, later, rfl, isFirst, isLater⟩ := brings
    rcases List.mem_append.mp member with member | member
    · exact List.mem_append_left _ (isFirst.kind_mem draft member)
    · exact List.mem_append_right _ (isLater.kind_mem draft member)

end

end Outline

namespace Collector

open Outline (Brings BringsAll)

mutual

theorem exists_brings_record {id : String} : ∀ {outline : Outline} {collector next : Collector},
    collector.record id outline = .ok next →
      ∃ added, Grows next collector added ∧ Brings collector.root.id id outline added
  | .declare declaration body, collector, next => by
    intro done
    rw [record] at done
    obtain ⟨parent, isParent, done⟩ := exists_of_bind_eq_ok done
    obtain ⟨draft, isAdded, -, -, makes⟩ := exists_add collector parent declaration
    rw [isAdded] at done
    obtain ⟨below, grows, brings⟩ := exists_brings_recordAll done
    rw [id_of_handle isParent] at makes
    exact ⟨draft.bare :: below, grows.trans (grows_push collector draft), draft.bare, below, rfl,
      makes.refer [], brings⟩
  | .refer reference, collector, next => by
    intro done
    rw [record] at done
    exact ⟨[], grows_reference done, rfl⟩
  | .referFile reference, collector, next => by
    intro done
    rw [record] at done
    exact ⟨[], grows_reference done, rfl⟩
  | .importModule declaration target line, collector, next => by
    intro done
    rw [record] at done
    obtain ⟨draft, isAdded, -, -, makes⟩ := exists_add collector collector.rootHandle declaration
    rw [isAdded] at done
    obtain ⟨middle, isMiddle, done⟩ := exists_of_bind_eq_ok done
    have grows := (grows_reference done).trans (grows_reference isMiddle)
    exact ⟨[draft.bare], grows.trans (grows_push collector draft), draft.bare, rfl,
      makes.refer []⟩
  | .bind name target, collector, next => by
    intro done
    rw [record] at done
    cases done
    exact ⟨[], grows_bind collector name target, rfl⟩
  | .package name line, collector, next => by
    intro done
    rw [record] at done
    cases done
    obtain ⟨draft, isEntered, -, -, isPackage⟩ := exists_enterPackage collector name line
    refine ⟨[draft.bare], ?_, draft.bare, rfl, isPackage⟩
    rw [isEntered]
    exact ⟨rfl, rfl, (grows_push collector draft).bares_eq⟩
  | .about qualifiedName kinds known unknown, collector, next => by
    intro done
    rw [record] at done
    split at done
    · obtain ⟨added, grows, brings⟩ := exists_brings_recordAll done
      exact ⟨added, grows, .inl ⟨_, brings⟩⟩
    · obtain ⟨added, grows, brings⟩ := exists_brings_recordAll done
      exact ⟨added, grows, .inr brings⟩

theorem exists_brings_recordAll {id : String} : ∀ {outlines : List Outline}
    {collector next : Collector}, collector.recordAll id outlines = .ok next →
      ∃ added, Grows next collector added ∧ BringsAll collector.root.id id outlines added
  | [], collector, next => by
    intro done
    rw [recordAll] at done
    cases done
    exact ⟨[], .refl collector, rfl⟩
  | outline :: rest, collector, next => by
    intro done
    rw [recordAll] at done
    obtain ⟨middle, isMiddle, done⟩ := exists_of_bind_eq_ok done
    obtain ⟨first, grows, brings⟩ := exists_brings_record isMiddle
    obtain ⟨later, growsLater, bringsLater⟩ := exists_brings_recordAll done
    rw [grows.root_id] at bringsLater
    exact ⟨first ++ later, growsLater.trans grows, first, later, rfl, brings, bringsLater⟩

end

end Collector
end CodeAtlas
