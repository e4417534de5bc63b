import CodeAtlas.Collector
import CodeAtlas.Proofs.Element
import CodeAtlas.Proofs.List
import Mathlib.Data.List.Perm.Subperm

/-!
# Sound collectors

A collector is sound if its elements could be those of a file: the file's own element comes first,
ids are distinct, every other element has a parent that was added before it, lines are in order, and
nothing refers to an empty name. Every step on an element that the collector holds succeeds and
keeps it sound.
-/

namespace CodeAtlas

namespace Collector

/-- The ids of the elements in the order they were added. -/
def ids (collector : Collector) : List String := collector.drafts.map (·.id)

theorem hasId_iff {collector : Collector} {id : String} :
    collector.hasId id ↔ id ∈ collector.ids := by
  simp [hasId, ids]

/-! ## Free ids -/

theorem numbered_injective (base : String) :
    Function.Injective fun number : Nat => s!"{base}~{number}" := by
  intro first second same
  have digits : Nat.toDigits 10 first = Nat.toDigits 10 second := by
    have texts := congrArg String.toList same
    simpa [toString, Nat.toList_repr] using texts
  have numbers := congrArg (fun digits => Nat.ofDigitChars 10 digits 0) digits
  simpa using numbers

/-- A numbered id is the first free one, unless the search has used up its steps. -/
theorem exists_numberedId (collector : Collector) (base : String) (fuel start : Nat) :
    ∃ number, collector.numberedId base fuel start = s!"{base}~{number}" ∧ start ≤ number ∧
      (∀ taken, start ≤ taken → taken < number → s!"{base}~{taken}" ∈ collector.ids) ∧
      (number < start + fuel → s!"{base}~{number}" ∉ collector.ids) ∧ number ≤ start + fuel := by
  induction fuel generalizing start with
  | zero => exact ⟨start, rfl, le_rfl, by omega, by omega, le_rfl⟩
  | succ fuel induction =>
    rw [numberedId]
    split
    case isTrue isTaken =>
      obtain ⟨number, same, above, taken, free, below⟩ := induction (start + 1)
      refine ⟨number, same, by omega, fun other low high => ?_, fun bound => free (by omega),
        by omega⟩
      rcases Nat.eq_or_lt_of_le low with rfl | later
      · exact hasId_iff.mp isTaken
      · exact taken other later high
    case isFalse isFree =>
      refine ⟨start, rfl, le_rfl, by omega, fun _ => ?_, by omega⟩
      rwa [← hasId_iff]

theorem numberedId_notMem (collector : Collector) (base : String) (start : Nat) :
    collector.numberedId base collector.drafts.length start ∉ collector.ids := by
  obtain ⟨number, same, above, taken, free, below⟩ :=
    exists_numberedId collector base collector.drafts.length start
  rw [same]
  rcases Nat.lt_or_ge number (start + collector.drafts.length) with early | last
  · exact free early
  · intro isTaken
    -- All numbers up to the last one are taken then, which are more ids than there are elements.
    let numbers := List.range' start (collector.drafts.length + 1)
    have distinct : (numbers.map fun number => s!"{base}~{number}").Nodup :=
      List.Nodup.map (numbered_injective base) List.nodup_range'
    have held : (numbers.map fun number => s!"{base}~{number}") ⊆ collector.ids := by
      intro id member
      obtain ⟨other, isNumber, rfl⟩ := List.mem_map.mp member
      obtain ⟨low, high⟩ := List.mem_range'_1.mp isNumber
      rcases Nat.lt_or_ge other number with before | atLast
      · exact taken other low before
      · have isLast : other = number := by omega
        rwa [isLast]
    have few : collector.drafts.length + 1 ≤ collector.drafts.length := by
      simpa [numbers, ids] using (distinct.subperm held).length_le
    omega

theorem freeId_notMem (collector : Collector) (base : String) :
    collector.freeId base ∉ collector.ids := by
  unfold freeId
  split
  · exact numberedId_notMem collector base 2
  case isFalse isFree => rwa [← hasId_iff]

/-! ## Links -/

/-- The ids of elements with those of their parents: the element of the file comes first, ids are
distinct and parents come before their children. -/
structure Linked (filePath : String) (links : List (String × Option String)) : Prop where
  /-- The element of the file comes first and has no parent. -/
  first : links.head? = some (filePath ++ "::module", none)
  /-- Ids are distinct. -/
  nodup : (links.map Prod.fst).Nodup
  /-- Every other element has a parent before it. -/
  parent : ∀ earlier link later, links = earlier ++ link :: later → earlier ≠ [] →
    ∃ parent ∈ earlier, link.2 = some parent.1

/-- A new element below one that is there. -/
theorem Linked.append {filePath : String} {links : List (String × Option String)}
    (linked : Linked filePath links) {id parentId : String} (isNew : id ∉ links.map Prod.fst)
    (isThere : parentId ∈ links.map Prod.fst) :
    Linked filePath (links ++ [(id, some parentId)]) where
  first := by
    rw [List.head?_append, linked.first]
    rfl
  nodup := by
    rw [List.map_append]
    exact linked.nodup.append (List.nodup_singleton id) (by simpa using isNew)
  parent earlier link later split some := by
    -- Either the link is the new one, or the new one comes after it.
    rcases List.eq_nil_or_concat later with rfl | ⟨between, last, rfl⟩
    · obtain ⟨rfl, same⟩ := List.append_inj' split rfl
      obtain ⟨parent, isParent, rfl⟩ := List.mem_map.mp isThere
      refine ⟨parent, isParent, ?_⟩
      rw [← List.head_eq_of_cons_eq same]
    · have front : links ++ [(id, Option.some parentId)] =
          (earlier ++ link :: between) ++ [last] := by
        simpa using split
      exact linked.parent earlier link between (List.append_inj' front rfl).1 some

/-! ## Sound collectors -/

/-- The ids of the elements with those of their parents. -/
def links (collector : Collector) : List (String × Option String) :=
  collector.drafts.map fun draft => (draft.id, draft.parentId)

theorem map_fst_links (collector : Collector) : collector.links.map Prod.fst = collector.ids := by
  rw [links, ids, List.map_map]
  rfl

/-- What is recorded of an element by itself is in order. -/
structure Neat (draft : Draft) : Prop where
  /-- Lines are counted from one. -/
  one_le_startLine : 1 ≤ draft.startLine
  /-- The last line is not before the first. -/
  startLine_le_endLine : draft.startLine ≤ draft.endLine
  /-- No word is repeated. -/
  nodup_modifiers : draft.modifiers.Nodup
  /-- Every reference has a target. -/
  target_ne_empty : ∀ reference ∈ draft.references, reference.target ≠ ""

/-- The elements of a collector could be those of its file. -/
structure Sound (collector : Collector) : Prop where
  /-- The elements have parents as they should. -/
  linked : Linked collector.filePath collector.links
  /-- Every element is in order by itself. -/
  neat : ∀ draft ∈ collector.drafts, Neat draft
  /-- No name stands for an empty one. -/
  binding_ne_empty : ∀ binding ∈ collector.bindings, binding.2 ≠ ""

/-- A collector that has come from another one still has the elements of that one. -/
structure Extends (later earlier : Collector) : Prop where
  /-- The file is the same. -/
  filePath_eq : later.filePath = earlier.filePath
  /-- Elements stay. -/
  ids_subset : earlier.ids ⊆ later.ids

theorem Extends.refl (collector : Collector) : collector.Extends collector :=
  ⟨rfl, List.Subset.refl _⟩

theorem Extends.trans {first second third : Collector} (later : third.Extends second)
    (earlier : second.Extends first) : third.Extends first :=
  ⟨later.filePath_eq.trans earlier.filePath_eq,
    List.Subset.trans earlier.ids_subset later.ids_subset⟩

theorem sound_start (filePath language moduleName : String) (lineCount : Nat) :
    (start filePath language moduleName lineCount).Sound where
  linked :=
    { first := rfl
      nodup := List.nodup_singleton _
      parent := by
        intro earlier link later split some
        obtain ⟨head, tail, rfl⟩ := List.exists_cons_of_ne_nil some
        simp [links, drafts, start] at split }
  neat draft member := by
    rw [List.mem_singleton.mp member]
    exact ⟨le_rfl, Nat.le_max_left 1 lineCount, List.nodup_nil, by simp [start]⟩
  binding_ne_empty _ member := by simp [start] at member

variable {collector : Collector}

theorem root_mem_ids (collector : Collector) : collector.root.id ∈ collector.ids :=
  List.mem_cons_self

theorem handle_of_mem {id : String} (member : id ∈ collector.ids) :
    ∃ handle, collector.handle id = .ok handle ∧ handle.id = id := by
  obtain ⟨draft, isDraft, same⟩ := List.mem_map.mp member
  have found : (collector.draft? id).isSome := by
    rw [draft?, List.find?_isSome]
    exact ⟨draft, isDraft, by simpa using same⟩
  obtain ⟨other, isOther⟩ := Option.isSome_iff_exists.mp found
  have matched : other.id = id := by simpa using List.find?_some isOther
  exact ⟨other.toHandle, by rw [handle, isOther], matched⟩

theorem mem_ids_of_find? {qualifiedName : String} {kinds : List ElementKind} {handle : Handle}
    (found : collector.find? qualifiedName kinds = some handle) : handle.id ∈ collector.ids := by
  obtain ⟨draft, isDraft, rfl⟩ := Option.map_eq_some_iff.mp found
  exact List.mem_map.mpr ⟨draft, List.mem_of_find?_eq_some isDraft, rfl⟩

/-! ## New elements -/

theorem links_add (collector : Collector) (parent : Handle) (declaration : Declaration) :
    (collector.add parent declaration).1.links =
      collector.links ++ [((collector.add parent declaration).2.id, some parent.id)] := by
  simp [links, drafts, add]

theorem ids_add (collector : Collector) (parent : Handle) (declaration : Declaration) :
    (collector.add parent declaration).1.ids =
      collector.ids ++ [(collector.add parent declaration).2.id] := by
  rw [← map_fst_links, links_add, List.map_append, map_fst_links]
  rfl

theorem mem_ids_add (collector : Collector) (parent : Handle) (declaration : Declaration) :
    (collector.add parent declaration).2.id ∈ (collector.add parent declaration).1.ids := by
  rw [ids_add]
  exact List.mem_append_right _ (List.mem_singleton_self _)

theorem extends_add (collector : Collector) (parent : Handle) (declaration : Declaration) :
    (collector.add parent declaration).1.Extends collector where
  filePath_eq := rfl
  ids_subset := by
    rw [ids_add]
    exact List.subset_append_left _ _

theorem Sound.add (sound : collector.Sound) {parent : Handle} {declaration : Declaration}
    (isThere : parent.id ∈ collector.ids) (placed : 1 ≤ declaration.startLine) :
    (collector.add parent declaration).1.Sound where
  linked := by
    rw [links_add]
    refine sound.linked.append ?_ ?_
    · rw [map_fst_links]
      exact freeId_notMem collector _
    · rw [map_fst_links]
      exact isThere
  neat draft member := by
    have either : draft ∈ collector.drafts ++ [_] := member
    rcases List.mem_append.mp either with earlier | isNew
    · exact sound.neat draft earlier
    · rw [List.mem_singleton.mp isNew]
      exact ⟨placed, Nat.le_max_left _ _, nodup_eraseDups _, by simp⟩
  binding_ne_empty := sound.binding_ne_empty

theorem Sound.enterPackage (sound : collector.Sound) (name : String) {line : Nat}
    (placed : 1 ≤ line) : (collector.enterPackage name line).1.Sound := by
  have entered : Sound { collector with
      currentModule := name
      root := { collector.root with moduleName := name, scope := name } } := by
    refine ⟨sound.linked, fun draft member => ?_, sound.binding_ne_empty⟩
    rcases List.mem_cons.mp member with rfl | other
    · obtain ⟨first, last, modifiers, targets⟩ := sound.neat collector.root List.mem_cons_self
      exact ⟨first, last, modifiers, targets⟩
    · exact sound.neat draft (List.mem_cons_of_mem _ other)
  unfold Collector.enterPackage
  exact entered.add (root_mem_ids _) placed

theorem extends_enterPackage (collector : Collector) (name : String) (line : Nat) :
    (collector.enterPackage name line).1.Extends collector where
  filePath_eq := rfl
  ids_subset := by
    unfold Collector.enterPackage
    dsimp only
    rw [ids_add]
    exact List.subset_append_left _ _

/-! ## References and bindings -/

/-- Changes that leave ids and parents alone can be made to every element that is there. -/
theorem modify_of_mem {id : String} (member : id ∈ collector.ids) (change : Draft → Draft)
    (sameLink : ∀ draft,
      ((change draft).id, (change draft).parentId) = (draft.id, draft.parentId)) :
    ∃ next, collector.modify id change = .ok next ∧ next.filePath = collector.filePath ∧
      next.bindings = collector.bindings ∧ next.links = collector.links ∧
      ∀ draft ∈ next.drafts, draft ∈ collector.drafts ∨
        ∃ earlier ∈ collector.drafts, draft = change earlier := by
  unfold modify
  split
  · refine ⟨_, rfl, rfl, rfl, ?_, fun draft isDraft => ?_⟩
    · simp only [links, drafts, List.map_cons, sameLink]
    · rcases List.mem_cons.mp isDraft with rfl | other
      · exact .inr ⟨collector.root, List.mem_cons_self, rfl⟩
      · exact .inl (List.mem_cons_of_mem _ other)
  · rw [if_pos (hasId_iff.mpr member)]
    refine ⟨_, rfl, rfl, rfl, ?_, fun draft isDraft => ?_⟩
    · simp only [links, drafts, List.map_cons, List.map_map, List.cons.injEq, true_and]
      refine List.map_congr_left fun draft _ => ?_
      rw [Function.comp_apply]
      split
      · exact sameLink draft
      · rfl
    · rcases List.mem_cons.mp isDraft with rfl | other
      · exact .inl List.mem_cons_self
      · obtain ⟨earlier, isEarlier, rfl⟩ := List.mem_map.mp other
        split
        · exact .inr ⟨earlier, List.mem_cons_of_mem _ isEarlier, rfl⟩
        · exact .inl (List.mem_cons_of_mem _ isEarlier)

theorem Sound.reference (sound : collector.Sound) {id : String} (member : id ∈ collector.ids)
    (kind : ReferenceKind) (target : String) (line : Nat) :
    ∃ next, collector.reference id kind target line = .ok next ∧ next.Sound ∧
      next.Extends collector := by
  unfold Collector.reference
  dsimp only
  split
  · exact ⟨collector, rfl, sound, .refl collector⟩
  case isFalse full =>
    obtain ⟨next, done, filePath, bindings, sameLinks, drafts⟩ := modify_of_mem member
      (fun draft =>
        { draft with references := draft.references ++ [⟨kind, Text.trim target, line⟩] })
      fun _ => rfl
    refine ⟨next, done, ⟨?_, fun draft isDraft => ?_, ?_⟩, filePath, ?_⟩
    · rw [filePath, sameLinks]
      exact sound.linked
    · rcases drafts draft isDraft with earlier | ⟨earlier, isEarlier, rfl⟩
      · exact sound.neat draft earlier
      · obtain ⟨first, last, modifiers, targets⟩ := sound.neat earlier isEarlier
        refine ⟨first, last, modifiers, fun reference isReference => ?_⟩
        rcases List.mem_append.mp isReference with old | new
        · exact targets reference old
        · rw [List.mem_singleton.mp new]
          exact full
    · rw [bindings]
      exact sound.binding_ne_empty
    · rw [← map_fst_links, ← map_fst_links, sameLinks]
      exact List.Subset.refl _

theorem Sound.bind (sound : collector.Sound) (name target : String) :
    (collector.bind name target).Sound := by
  unfold Collector.bind
  split
  · exact sound
  case isFalse named =>
    refine ⟨sound.linked, sound.neat, fun binding member => ?_⟩
    rcases List.mem_cons.mp member with rfl | earlier
    · exact fun empty => named (.inr (.inl empty))
    · exact sound.binding_ne_empty binding earlier

theorem extends_bind (collector : Collector) (name target : String) :
    (collector.bind name target).Extends collector := by
  unfold Collector.bind
  split <;> exact ⟨rfl, List.Subset.refl _⟩

/-! ## Collected elements -/

/-- The elements of a file are in order. -/
structure WellFormed (filePath : String) (elements : List Element) : Prop where
  /-- The element of the file comes first and has no parent. -/
  first : ∃ file others, elements = file :: others ∧ file.id = filePath ++ "::module" ∧
    file.parentId = none
  /-- Ids are distinct. -/
  distinct : DistinctIds elements
  /-- Every other element has a parent before it. -/
  parent : ∀ earlier element later, elements = earlier ++ element :: later → earlier ≠ [] →
    ∃ parent ∈ earlier, element.parentId = some parent.id
  /-- Lines are counted from one. -/
  one_le_startLine : ∀ element ∈ elements, 1 ≤ element.startLine
  /-- The last line is not before the first. -/
  startLine_le_endLine : ∀ element ∈ elements, element.startLine ≤ element.endLine
  /-- The words that qualify an element are sorted and not repeated. -/
  modifiers : ∀ element ∈ elements,
    element.modifiers.Pairwise fun left right => Text.before left right
  /-- Every reference has a target. -/
  target_ne_empty : ∀ element ∈ elements, ∀ reference ∈ element.references, reference.target ≠ ""

theorem Sound.boundTarget_ne_empty (sound : collector.Sound) {target : String}
    (full : target ≠ "") : collector.boundTarget target ≠ "" := by
  unfold boundTarget
  dsimp only
  split
  case h_1 bound isBound =>
    obtain ⟨binding, isBinding, rfl⟩ := Option.map_eq_some_iff.mp isBound
    have named := sound.binding_ne_empty binding (List.mem_of_find?_eq_some isBinding)
    exact fun empty => named (String.append_eq_empty_iff.mp empty).1
  · exact full

theorem Sound.boundReference_ne_empty (sound : collector.Sound) {reference : Reference}
    (full : reference.target ≠ "") : (collector.boundReference reference).target ≠ "" := by
  unfold boundReference
  split
  · exact full
  · exact full
  · exact sound.boundTarget_ne_empty full

theorem Sound.finish (sound : collector.Sound) :
    WellFormed collector.filePath collector.finish where
  first := by
    have first := sound.linked.first
    simp only [links, drafts, List.map_cons, List.head?_cons, Option.some.injEq,
      Prod.mk.injEq] at first
    exact ⟨_, _, rfl, first.1, first.2⟩
  distinct := by
    have nodup := sound.linked.nodup
    rw [map_fst_links] at nodup
    unfold DistinctIds
    rw [Collector.finish, List.map_map]
    exact nodup
  parent earlier element later split some := by
    obtain ⟨before, rest, isDrafts, rfl, isRest⟩ := List.map_eq_append_iff.mp split
    obtain ⟨draft, after, rfl, rfl, -⟩ := List.map_eq_cons_iff.mp isRest
    have linked := sound.linked.parent
      (before.map fun draft => (draft.id, draft.parentId)) (draft.id, draft.parentId)
      (after.map fun draft => (draft.id, draft.parentId)) (by simp [links, isDrafts])
      (by simpa using some)
    obtain ⟨parent, isParent, same⟩ := linked
    obtain ⟨holder, isHolder, rfl⟩ := List.mem_map.mp isParent
    exact ⟨collector.finishDraft holder, List.mem_map_of_mem isHolder, same⟩
  one_le_startLine element member := by
    obtain ⟨draft, isDraft, rfl⟩ := List.mem_map.mp member
    exact (sound.neat draft isDraft).one_le_startLine
  startLine_le_endLine element member := by
    obtain ⟨draft, isDraft, rfl⟩ := List.mem_map.mp member
    exact (sound.neat draft isDraft).startLine_le_endLine
  modifiers element member := by
    obtain ⟨draft, isDraft, rfl⟩ := List.mem_map.mp member
    refine Text.pairwise_before (Text.pairwise_sort _) ?_
    exact (Text.sort_perm _).nodup_iff.mpr (sound.neat draft isDraft).nodup_modifiers
  target_ne_empty element member reference isReference := by
    obtain ⟨draft, isDraft, rfl⟩ := List.mem_map.mp member
    obtain ⟨written, isWritten, rfl⟩ := List.mem_map.mp isReference
    have full := (sound.neat draft isDraft).target_ne_empty written isWritten
    exact sound.boundReference_ne_empty full

end Collector
end CodeAtlas
