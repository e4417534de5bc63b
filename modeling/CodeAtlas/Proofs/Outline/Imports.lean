import CodeAtlas.Proofs.Outline.References
import CodeAtlas.Proofs.Outline.Regular
import CodeAtlas.Proofs.Outline.Sketch

/-!
# Recording imports

Recording regular outlines gives the file's own element a dependency for everything that the
outlines make the file depend on, in order, and each import the one reference to what it imports.
What is blank is passed over by both.
-/

namespace CodeAtlas
namespace Collector

open Outline (AllRegular Dependency Grants Regular allDependencies dependencies)

/-- The reference that is written for a target: none if the target is blank. -/
def written (kind : ReferenceKind) (target : String) (line : Nat) : List Reference :=
  if Text.trim target = "" then [] else [⟨kind, Text.trim target, line⟩]

theorem reference_root (collector : Collector) (kind : ReferenceKind) (target : String)
    (line : Nat) : collector.reference collector.root.id kind target line =
      .ok (collector.mention (collector.root.references ++ written kind target line)) := by
  unfold reference written
  dsimp only
  split
  · rw [List.append_nil, mention_self]
  · rw [modify, if_pos rfl]
    rfl

theorem reference_last (collector : Collector) {draft : Draft} (isNew : draft.id ∉ collector.ids)
    (silent : draft.references = []) (kind : ReferenceKind) (target : String) (line : Nat) :
    (collector.push draft).reference draft.id kind target line =
      .ok (collector.push (draft.refer (written kind target line))) := by
  unfold reference written
  dsimp only
  split
  · rw [← silent]
    rfl
  · have others : ∀ other ∈ collector.drafts, other.id ≠ draft.id := fun other member same =>
      isNew (List.mem_map.mpr ⟨other, member, same⟩)
    have isRoot : collector.root.id ≠ draft.id := others collector.root List.mem_cons_self
    have present : (collector.push draft).hasId draft.id := by
      simp [hasId, drafts, push]
    rw [modify, if_neg (show (collector.push draft).root.id ≠ draft.id from isRoot),
      if_pos present]
    unfold push Draft.refer
    congr 2
    rw [List.map_append, List.map_singleton, if_pos rfl, silent, List.nil_append]
    congr 1
    refine (List.map_congr_left fun other member => if_neg ?_).trans (List.map_id _)
    exact others other (List.mem_cons_of_mem _ member)

/-- An import adds one element, with the reference to what it imports, and one dependency. -/
theorem exists_record_importModule (collector : Collector) (id : String)
    (declaration : Declaration) (target : String) (line : Nat) :
    ∃ draft, collector.record id (.importModule declaration target line) =
        .ok ((collector.push draft).mention
          (collector.root.references ++ written .dependsOn target line)) ∧
      draft.id ∉ collector.ids ∧ draft.references = written .imports target line ∧
      declaration.Makes collector.root.id draft := by
  obtain ⟨draft, isAdded, isNew, silent, makes⟩ :=
    exists_add collector collector.rootHandle declaration
  refine ⟨draft.refer (written .imports target line), ?_, isNew, draft.references_refer _,
    makes.refer _⟩
  rw [record, isAdded]
  dsimp only
  rw [reference_last collector isNew silent]
  dsimp only [Bind.bind, Except.bind]
  exact reference_root (collector.push (draft.refer (written .imports target line))) .dependsOn
    target line

/-! ## Elements that are no imports -/

theorem ids_eq_cons (collector : Collector) :
    collector.ids = collector.root.id :: collector.bares.map (·.id) := by
  rw [ids, drafts, List.map_cons, bares, List.map_map]
  rfl

theorem Grows.ids_eq {collector next : Collector} {added : List Draft}
    (grows : Grows next collector added) : next.ids = collector.ids ++ added.map (·.id) := by
  rw [ids_eq_cons, ids_eq_cons, grows.root_id, grows.bares_eq, List.map_append, List.cons_append]

/-- An id is that of an element that is no import. -/
structure Ordinary (collector : Collector) (id : String) : Prop where
  /-- The element is there. -/
  member : id ∈ collector.ids
  /-- It is no import. -/
  kind_ne : ∀ draft ∈ collector.others, draft.id = id → draft.kind ≠ .importItem

theorem Ordinary.grows {collector next : Collector} {id : String} {added : List Draft}
    (ordinary : Ordinary collector id) (grows : Grows next collector added)
    (nodup : next.ids.Nodup) : Ordinary next id := by
  refine ⟨grows.ids_eq ▸ List.mem_append_left _ ordinary.member, fun draft isDraft same => ?_⟩
  have either : draft.bare ∈ collector.bares ++ added := by
    rw [← grows.bares_eq]
    exact List.mem_map_of_mem isDraft
  rcases List.mem_append.mp either with early | late
  · obtain ⟨earlier, isEarlier, sameBare⟩ := List.mem_map.mp early
    have sameId : earlier.id = draft.id := congrArg (·.id) sameBare
    have sameKind : earlier.kind = draft.kind := congrArg (·.kind) sameBare
    rw [← sameKind]
    exact ordinary.kind_ne earlier isEarlier (sameId.trans same)
  · rw [grows.ids_eq] at nodup
    exact absurd (List.mem_map.mpr ⟨_, late, same⟩)
      (fun twice => (List.nodup_append.mp nodup).2.2 id ordinary.member id twice rfl)

theorem ordinary_last {collector : Collector} {draft : Draft} (isNew : draft.id ∉ collector.ids)
    (kind_ne : draft.kind ≠ .importItem) :
    Ordinary (collector.push draft) draft.id := by
  refine ⟨by simp [ids, drafts, push], fun other member same => ?_⟩
  rcases List.mem_append.mp member with early | late
  · have held : other.id ∈ collector.ids := List.mem_map_of_mem (List.mem_cons_of_mem _ early)
    exact absurd (same ▸ held) isNew
  · rwa [List.mem_singleton.mp late]

/-! ## Imports and dependencies -/

/-- An import belongs to the file and refers to what it imports, unless that is blank. -/
structure IsImport (fileId : String) (draft : Draft) : Prop where
  /-- It belongs to the file. -/
  parentId_eq : draft.parentId = some fileId
  /-- It refers to what it imports. -/
  refers : ∃ target, ("target", .str target) ∈ draft.metadata ∧
    draft.references = written .imports target draft.startLine

/-- The references of a kind that are written for dependencies. -/
def writtenFor (kind : ReferenceKind) (depended : List Dependency) : List Reference :=
  depended.flatMap fun dependency => written kind dependency.target dependency.line

theorem writtenFor_append (kind : ReferenceKind) (left right : List Dependency) :
    writtenFor kind (left ++ right) = writtenFor kind left ++ writtenFor kind right :=
  List.flatMap_append

theorem writtenFor_flatMap {α : Type} (kind : ReferenceKind) (values : List α)
    (depended : α → List Dependency) :
    writtenFor kind (values.flatMap depended) =
      values.flatMap fun value => writtenFor kind (depended value) :=
  List.flatMap_assoc

theorem writtenFor_singleton (kind : ReferenceKind) (dependency : Dependency) :
    writtenFor kind [dependency] = written kind dependency.target dependency.line := by
  simp [writtenFor]

/-- The imports among the elements. -/
def imports (collector : Collector) : List Draft :=
  collector.others.filter (·.kind = .importItem)

/-- The dependencies of the file's own element. -/
def dependsOn (collector : Collector) : List Reference :=
  collector.root.references.filter (·.kind = .dependsOn)

/-- A collector has recorded what the file depends on. -/
structure Records (collector : Collector) (depended : List Dependency) : Prop where
  /-- Ids are distinct. -/
  nodup : collector.ids.Nodup
  /-- Imports are as they should be. -/
  isImport : ∀ draft ∈ collector.imports, IsImport collector.root.id draft
  /-- They refer to what was imported, in order. -/
  imported : collector.imports.flatMap (·.references) =
    writtenFor .imports (depended.filter (·.imported))
  /-- The file depends on everything, in order. -/
  dependsOn_eq : collector.dependsOn = writtenFor .dependsOn depended

namespace Records

variable {collector next : Collector} {depended : List Dependency} {id : String}

/-- What is recorded depends on nothing but ids, imports and dependencies. -/
theorem congr (records : Records collector depended) (rootId : next.root.id = collector.root.id)
    (nodup : next.ids.Nodup) (imports : next.imports = collector.imports)
    (dependsOn : next.dependsOn = collector.dependsOn) : Records next depended where
  nodup := nodup
  isImport := by
    rw [imports, rootId]
    exact records.isImport
  imported := imports ▸ records.imported
  dependsOn_eq := dependsOn ▸ records.dependsOn_eq

theorem start (filePath language moduleName : String) (lineCount : Nat) :
    (Collector.start filePath language moduleName lineCount).Records [] where
  nodup := List.nodup_singleton _
  isImport _ member := absurd member List.not_mem_nil
  imported := rfl
  dependsOn_eq := rfl

theorem nodup_add (records : Records collector depended) {draft : Draft}
    (isNew : draft.id ∉ collector.ids) :
    (collector.push draft).ids.Nodup := by
  rw [(grows_push collector draft).ids_eq]
  exact records.nodup.append (List.nodup_singleton _) (List.disjoint_singleton.mpr isNew)

theorem add (records : Records collector depended) {draft : Draft}
    (isNew : draft.id ∉ collector.ids) (kind_ne : draft.kind ≠ .importItem) :
    Records (collector.push draft) depended := by
  refine records.congr rfl (records.nodup_add isNew) ?_ rfl
  simp [Collector.imports, push, kind_ne]

theorem imports_map (ordinary : Ordinary collector id) (change : Draft → Draft)
    (sameKind : ∀ draft, (change draft).kind = draft.kind) :
    imports { collector with
        others := collector.others.map (fun draft =>
          if draft.id = id then change draft else draft) } =
      collector.imports := by
  have kinds : ((fun draft : Draft => decide (draft.kind = .importItem)) ∘
      fun draft => if draft.id = id then change draft else draft) =
        fun draft => decide (draft.kind = .importItem) := by
    funext draft
    rw [Function.comp_apply]
    split
    · rw [sameKind]
    · rfl
  rw [Collector.imports, List.filter_map, kinds]
  refine (List.map_congr_left fun draft member => if_neg fun same => ?_).trans (List.map_id _)
  obtain ⟨isOther, isImport⟩ := List.mem_filter.mp member
  exact ordinary.kind_ne draft isOther same (by simpa using isImport)

/-- A reference that is neither that of an import nor a dependency. -/
theorem reference (records : Records collector depended) (ordinary : Ordinary collector id)
    {kind : ReferenceKind} (noDependency : kind ≠ .dependsOn) {target : String} {line : Nat}
    (done : collector.reference id kind target line = .ok next) : Records next depended := by
  have nodup : next.ids.Nodup := by
    rw [(grows_reference done).ids_eq, List.map_nil, List.append_nil]
    exact records.nodup
  unfold Collector.reference modify at done
  dsimp only at done
  split_ifs at done with blank isRoot isHeld
  · cases done
    exact records
  · cases done
    refine records.congr rfl nodup rfl ?_
    simp [Collector.dependsOn, noDependency]
  · cases done
    exact records.congr rfl nodup (imports_map ordinary _ fun _ => rfl) rfl

theorem dependsOn_mention (records : Records collector depended) (imported : Bool)
    (target : String) (line : Nat) :
    (collector.mention (collector.root.references ++ written .dependsOn target line)).dependsOn =
      writtenFor .dependsOn (depended ++ [⟨imported, target, line⟩]) := by
  have all : (written .dependsOn target line).filter (·.kind = .dependsOn) =
      written .dependsOn target line := by
    unfold written
    split <;> simp
  rw [Collector.dependsOn, mention, List.filter_append, all, writtenFor_append,
    writtenFor_singleton, ← records.dependsOn_eq]
  rfl

theorem load (records : Records collector depended) (target : String) (line : Nat) :
    Records (collector.mention (collector.root.references ++ written .dependsOn target line))
      (depended ++ [⟨false, target, line⟩]) where
  nodup := records.nodup
  isImport := records.isImport
  imported := by
    rw [List.filter_append, List.filter_singleton]
    exact records.imported.trans (congrArg _ (List.append_nil _).symm)
  dependsOn_eq := records.dependsOn_mention false target line

theorem importModule (records : Records collector depended) {draft : Draft}
    {declaration : Declaration} {target : String} (isNew : draft.id ∉ collector.ids)
    (makes : declaration.Makes collector.root.id draft)
    (isItem : declaration.kind = .importItem)
    (fact : ("target", .str target) ∈ declaration.metadata)
    (refers : draft.references = written .imports target declaration.startLine) :
    Records ((collector.push draft).mention
      (collector.root.references ++ written .dependsOn target declaration.startLine))
      (depended ++ [⟨true, target, declaration.startLine⟩]) := by
  have imports : (collector.push draft).imports = collector.imports ++ [draft] := by
    simp [Collector.imports, push, makes.kind_eq, isItem]
  refine ⟨records.nodup_add isNew, fun other member => ?_, ?_,
    records.dependsOn_mention true target declaration.startLine⟩
  · rcases List.mem_append.mp (imports ▸ member) with early | late
    · exact records.isImport other early
    · rw [List.mem_singleton.mp late]
      refine ⟨makes.parentId_eq, target, makes.metadata_eq ▸ fact, ?_⟩
      rw [refers, makes.startLine_eq]
  · change (collector.push draft).imports.flatMap (·.references) = _
    rw [imports, List.flatMap_append, List.filter_append, writtenFor_append, records.imported]
    simp [refers, writtenFor_singleton]

theorem enterPackage (records : Records collector depended) (name : String) (line : Nat) :
    Records (collector.enterPackage name line).1 depended := by
  obtain ⟨draft, isEntered, isNew, -, isPackage⟩ := exists_enterPackage collector name line
  have entered : Records (collector.enter name) depended :=
    records.congr rfl records.nodup rfl rfl
  rw [isEntered]
  exact entered.add isNew (by simp [isPackage])

/-! ## Outlines -/

theorem ordinary_root (records : Records collector depended) :
    Ordinary collector collector.root.id := by
  refine ⟨root_mem_ids collector, fun draft member same => ?_⟩
  exact absurd (List.mem_map.mpr ⟨draft, member, same⟩) (List.nodup_cons.mp records.nodup).1

theorem ordinary_of_find? (records : Records collector depended) {qualifiedName : String}
    {kinds : List ElementKind} (noImport : .importItem ∉ kinds) {handle : Handle}
    (found : collector.find? qualifiedName kinds = some handle) :
    Ordinary collector handle.id := by
  refine ⟨mem_ids_of_find? found, fun draft member same isImport => ?_⟩
  obtain ⟨twin, isTwin, rfl⟩ := Option.map_eq_some_iff.mp found
  have isDraft : draft ∈ collector.drafts := List.mem_cons_of_mem _ member
  rw [← List.inj_on_of_nodup_map records.nodup isDraft (List.mem_of_find?_eq_some isTwin) same]
    at isTwin
  have matched := List.find?_some isTwin
  rw [Bool.and_eq_true, List.contains_iff_mem, isImport] at matched
  exact noImport matched.2

end Records

-- The induction follows the outline. Its invariant is that the outline is about an element that is
-- no import, so that references never reach an import but in the step that adds it.
mutual

/-- Recording a regular outline records what it makes the file depend on. -/
theorem Records.record {id : String} : ∀ {grants : Grants} {outline : Outline}
    {collector next : Collector} {depended : List Dependency}, Records collector depended →
    Ordinary collector id → Regular grants outline → collector.record id outline = .ok next →
    Records next (depended ++ dependencies outline)
  | _, .declare declaration body, collector, next, depended => by
    intro records ordinary regular done
    rw [Collector.record] at done
    obtain ⟨parent, isParent, done⟩ := exists_of_bind_eq_ok done
    obtain ⟨draft, isAdded, isNew, -, makes⟩ := exists_add collector parent declaration
    have kind_ne : draft.kind ≠ .importItem :=
      makes.kind_eq ▸ List.ne_of_not_mem_cons regular.2.1
    rw [isAdded] at done
    exact (records.add isNew kind_ne).recordAll (ordinary_last isNew kind_ne) regular.2.2 done
  | _, .refer reference, collector, next, depended => by
    intro records ordinary regular done
    rw [Collector.record] at done
    rw [dependencies, List.append_nil]
    exact records.reference ordinary regular.2 done
  | _, .referFile reference, collector, next, depended => by
    intro records _ regular done
    rw [Collector.record] at done
    rw [dependencies]
    split
    case isTrue loads =>
      rw [loads, reference_root] at done
      cases done
      exact records.load reference.target reference.line
    case isFalse other =>
      rw [List.append_nil]
      exact records.reference records.ordinary_root other done
  | _, .importModule declaration target line, collector, next, depended => by
    intro records _ regular done
    obtain ⟨-, -, rfl, isItem, fact⟩ := regular
    obtain ⟨draft, isRecorded, isNew, refers, makes⟩ :=
      exists_record_importModule collector id declaration target declaration.startLine
    rw [isRecorded] at done
    cases done
    exact records.importModule isNew makes isItem fact refers
  | _, .bind name target, collector, next, depended => by
    intro records _ _ done
    rw [Collector.record] at done
    cases done
    rw [dependencies, List.append_nil]
    unfold Collector.bind
    split
    · exact records
    · exact records.congr rfl records.nodup rfl rfl
  | _, .package name line, collector, next, depended => by
    intro records _ _ done
    rw [Collector.record] at done
    cases done
    rw [dependencies, List.append_nil]
    exact records.enterPackage name line
  | _, .about qualifiedName kinds known unknown, collector, next, depended => by
    intro records ordinary regular done
    rw [Collector.record] at done
    rw [dependencies]
    split at done
    case h_1 handle found =>
      rw [regular.2.2.allDependencies_eq_nil, ← regular.2.1.allDependencies_eq_nil]
      exact records.recordAll (records.ordinary_of_find? regular.1 found) regular.2.1 done
    case h_2 => exact records.recordAll ordinary regular.2.2 done

theorem Records.recordAll {id : String} : ∀ {grants : Grants} {outlines : List Outline}
    {collector next : Collector} {depended : List Dependency}, Records collector depended →
    Ordinary collector id → AllRegular grants outlines →
    collector.recordAll id outlines = .ok next → Records next (depended ++ allDependencies outlines)
  | _, [], collector, next, depended => by
    intro records _ _ done
    rw [Collector.recordAll] at done
    cases done
    rwa [allDependencies, List.append_nil]
  | _, outline :: rest, collector, next, depended => by
    intro records ordinary regular done
    rw [Collector.recordAll] at done
    obtain ⟨middle, isMiddle, done⟩ := exists_of_bind_eq_ok done
    have recordsFirst := records.record ordinary regular.1 isMiddle
    obtain ⟨added, grows, -⟩ := exists_brings_record isMiddle
    rw [allDependencies, ← List.append_assoc]
    exact recordsFirst.recordAll (ordinary.grows grows recordsFirst.nodup) regular.2 done

end

end Collector
end CodeAtlas
