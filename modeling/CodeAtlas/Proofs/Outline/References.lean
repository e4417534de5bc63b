import CodeAtlas.Proofs.Outline

/-!
# References of a file

What a collector does next never depends on the references that the file's own element has so far.
So an outline adds the same elements and the same references wherever references of the file stand
before it.
-/

namespace CodeAtlas
namespace Collector

/-- A collector in which the file's own element has the given references instead. -/
def mention (collector : Collector) (references : List Reference) : Collector :=
  { collector with root := { collector.root with references := references } }

section

variable (collector : Collector) (references : List Reference)

theorem mention_self : collector.mention collector.root.references = collector := rfl

theorem freeId_mention (base : String) :
    (collector.mention references).freeId base = collector.freeId base := by
  have numbered (fuel number : Nat) :
      (collector.mention references).numberedId base fuel number =
        collector.numberedId base fuel number := by
    induction fuel generalizing number with
    | zero => rfl
    | succ fuel induction =>
      rw [numberedId, numberedId, induction]
      rfl
  rw [freeId, freeId, numbered]
  rfl

theorem add_mention (parent : Handle) (declaration : Declaration) :
    (collector.mention references).add parent declaration =
      ((collector.add parent declaration).1.mention references,
        (collector.add parent declaration).2) := by
  unfold add
  dsimp only
  rw [freeId_mention]
  rfl

theorem id_mention : (collector.mention references).root.id = collector.root.id := rfl

theorem rootHandle_mention :
    (collector.mention references).rootHandle = collector.rootHandle := rfl

theorem handle_mention (id : String) :
    (collector.mention references).handle id = collector.handle id := by
  unfold handle draft? drafts
  cases isRoot : decide (collector.root.id = id) <;> simp only [mention, List.find?_cons, isRoot]

theorem find?_mention (qualifiedName : String) (kinds : List ElementKind) :
    (collector.mention references).find? qualifiedName kinds =
      collector.find? qualifiedName kinds := by
  unfold find? drafts
  cases isRoot : (decide (collector.root.qualifiedName = qualifiedName)
    && kinds.contains collector.root.kind) <;> simp only [mention, List.find?_cons, isRoot]
  rfl

theorem finish_mention : (collector.mention references).finish =
    { collector.finishDraft collector.root with
      references := references.map collector.boundReference } ::
      collector.others.map collector.finishDraft := rfl

end

/-- A step adds the same, whatever references the file's own element has before it. -/
def Adds (step : Collector → Except Error Collector) (collector : Collector) : Prop :=
  ∀ next, step collector = .ok next → ∃ added,
    next.root.references = collector.root.references ++ added ∧
    ∀ references, step (collector.mention references) = .ok (next.mention (references ++ added))

theorem Adds.bind {collector : Collector} {first second : Collector → Except Error Collector}
    (adds : Adds first collector) (addsNext : ∀ next, Adds second next) :
    Adds (fun collector => first collector >>= second) collector := by
  intro last isLast
  obtain ⟨middle, isMiddle, isEnd⟩ : ∃ middle, first collector = .ok middle ∧
      second middle = .ok last := by
    cases isFirst : first collector with
    | error => simp [isFirst, Bind.bind, Except.bind] at isLast
    | ok middle => exact ⟨middle, rfl, by simpa [isFirst, Bind.bind, Except.bind] using isLast⟩
  obtain ⟨added, isAdded, same⟩ := adds middle isMiddle
  obtain ⟨more, isMore, sameNext⟩ := addsNext middle last isEnd
  refine ⟨added ++ more, by rw [isMore, isAdded, List.append_assoc], fun references => ?_⟩
  dsimp only
  rw [same, ← List.append_assoc]
  exact sameNext _

theorem adds_reference (collector : Collector) (id : String) (kind : ReferenceKind)
    (target : String) (line : Nat) :
    Adds (fun collector => collector.reference id kind target line) collector := by
  intro next isNext
  unfold reference at isNext ⊢
  dsimp only at isNext ⊢
  split at isNext
  case isTrue blank =>
    cases isNext
    exact ⟨[], by simp, fun references => by rw [if_pos blank, List.append_nil]⟩
  case isFalse present =>
    simp only [if_neg present]
    unfold modify at isNext ⊢
    split at isNext
    case isTrue isRoot =>
      cases isNext
      refine ⟨[⟨kind, Text.trim target, line⟩], rfl, fun references => ?_⟩
      rw [if_pos (show (collector.mention references).root.id = id from isRoot)]
      rfl
    case isFalse isOther =>
      split at isNext
      case isTrue isHeld =>
        cases isNext
        refine ⟨[], by simp, fun references => ?_⟩
        rw [if_neg (show ¬ (collector.mention references).root.id = id from isOther),
          if_pos (show (collector.mention references).hasId id = true from isHeld),
          List.append_nil]
        rfl
      case isFalse => cases isNext

/-- A reference of the file's own element, whose identity the references do not change. -/
theorem adds_reference_root (collector : Collector) (kind : ReferenceKind) (target : String)
    (line : Nat) :
    Adds (fun collector => collector.reference collector.root.id kind target line) collector := by
  intro next isNext
  obtain ⟨added, isAdded, same⟩ :=
    adds_reference collector collector.root.id kind target line next isNext
  refine ⟨added, isAdded, fun references => ?_⟩
  dsimp only
  rw [id_mention]
  exact same references

theorem adds_enterPackage (collector : Collector) (name : String) (line : Nat) :
    Adds (fun collector => .ok (collector.enterPackage name line).1) collector := by
  rintro next ⟨⟩
  refine ⟨[], (List.append_nil _).symm, fun references => ?_⟩
  rw [List.append_nil]
  let entered : Collector :=
    { collector with
      currentModule := name
      root := { collector.root with moduleName := name, scope := name } }
  exact congrArg (fun added => Except.ok (Prod.fst added))
    (add_mention entered references entered.rootHandle _)

theorem adds_importModule (collector : Collector) (id : String) (declaration : Declaration)
    (target : String) (line : Nat) : Adds (fun collector => collector.record id
      (.importModule declaration target line)) collector := by
  intro next isNext
  have adds : Adds (fun added => do
      let imported ← added.reference (collector.add collector.rootHandle declaration).2.id .imports
        target line
      imported.reference imported.root.id .dependsOn target line)
      (collector.add collector.rootHandle declaration).1 :=
    (adds_reference _ _ _ target line).bind fun next => adds_reference_root next _ target line
  simp only [record] at isNext ⊢
  obtain ⟨added, isAdded, same⟩ := adds next isNext
  refine ⟨added, isAdded, fun references => ?_⟩
  rw [rootHandle_mention, add_mention]
  exact same references

-- The induction follows the outline. An element or a look-up is the same with other references of
-- the file, so what follows it starts from collectors that again differ in these alone.
mutual

theorem adds_record (id : String) : ∀ (outline : Outline) (collector : Collector),
    Adds (fun collector => collector.record id outline) collector
  | .declare declaration body, collector => by
    intro next isNext
    simp only [record] at isNext ⊢
    cases isParent : collector.handle id with
    | error => simp [isParent, Bind.bind, Except.bind] at isNext
    | ok parent =>
      simp only [isParent, Bind.bind, Except.bind] at isNext
      obtain ⟨added, isAdded, same⟩ := adds_recordAll _ body _ next isNext
      refine ⟨added, isAdded, fun references => ?_⟩
      simp only [handle_mention, isParent, Bind.bind, Except.bind, add_mention]
      exact same references
  | .refer reference, collector => by
    simpa only [record] using
      adds_reference collector id reference.kind reference.target reference.line
  | .referFile reference, collector => by
    simpa only [record] using
      adds_reference_root collector reference.kind reference.target reference.line
  | .importModule declaration target line, collector =>
    adds_importModule collector id declaration target line
  | .bind name target, collector => by
    intro next isNext
    simp only [record, Collector.bind] at isNext ⊢
    cases isNext
    refine ⟨[], ?_, fun references => ?_⟩ <;> split <;> simp [mention]
  | .package name line, collector => by
    simpa only [record] using adds_enterPackage collector name line
  | .about qualifiedName kinds known unknown, collector => by
    intro next isNext
    simp only [record, find?_mention] at isNext ⊢
    cases isFound : collector.find? qualifiedName kinds with
    | none =>
      simp only [isFound] at isNext ⊢
      exact adds_recordAll id unknown collector next isNext
    | some handle =>
      simp only [isFound] at isNext ⊢
      exact adds_recordAll handle.id known collector next isNext

theorem adds_recordAll (id : String) : ∀ (outlines : List Outline) (collector : Collector),
    Adds (fun collector => collector.recordAll id outlines) collector
  | [], collector => by
    rintro next ⟨⟩
    exact ⟨[], (List.append_nil _).symm, fun references => by simp [recordAll]⟩
  | outline :: rest, collector => by
    simpa only [recordAll] using (adds_record id outline collector).bind (adds_recordAll id rest)

end

theorem exists_reference_root (collector : Collector) (kind : ReferenceKind) (target : String)
    (line : Nat) : ∃ found, collector.reference collector.root.id kind target line =
        .ok (collector.mention (collector.root.references ++ found)) ∧
      ∀ reference ∈ found, reference.kind = kind := by
  unfold reference
  dsimp only
  split
  · exact ⟨[], by rw [List.append_nil, mention_self], by simp⟩
  · refine ⟨[⟨kind, Text.trim target, line⟩], ?_, by simp⟩
    rw [modify, if_pos rfl]
    rfl

/-- Outlines that only refer, on behalf of the file's own element, add references of their kinds to
it and nothing else. -/
theorem exists_recordAll_refer (isOfKind : ReferenceKind → Prop) {outlines : List Outline}
    (areReferences : ∀ outline ∈ outlines, ∃ reference, outline = .refer reference ∧
      isOfKind reference.kind) (collector : Collector) :
    ∃ found, collector.recordAll collector.root.id outlines =
        .ok (collector.mention (collector.root.references ++ found)) ∧
      ∀ reference ∈ found, isOfKind reference.kind := by
  induction outlines generalizing collector with
  | nil => exact ⟨[], by rw [recordAll, List.append_nil, mention_self], by simp⟩
  | cons outline rest induction =>
    obtain ⟨⟨reference, rfl, isKind⟩, areRest⟩ := List.forall_mem_cons.mp areReferences
    obtain ⟨first, isFirst, areFirst⟩ :=
      exists_reference_root collector reference.kind reference.target reference.line
    obtain ⟨found, isRecorded, areFound⟩ :=
      induction areRest (collector.mention (collector.root.references ++ first))
    refine ⟨first ++ found, ?_, ?_⟩
    · rw [recordAll, record, isFirst, ← List.append_assoc]
      exact isRecorded
    · intro other isOther
      rcases List.mem_append.mp isOther with isOther | isOther
      · rwa [areFirst other isOther]
      · exact areFound other isOther

theorem recordAll_append (collector : Collector) (id : String) (left right : List Outline) :
    collector.recordAll id (left ++ right) =
      (collector.recordAll id left >>= fun next => next.recordAll id right) := by
  induction left generalizing collector with
  | nil => rfl
  | cons outline rest induction =>
    rw [List.cons_append, recordAll, recordAll, bind_assoc]
    simp only [induction]

theorem boundReference_kind (collector : Collector) (reference : Reference) :
    (collector.boundReference reference).kind = reference.kind := by
  unfold boundReference
  split <;> rfl

theorem Sound.root_id {collector : Collector} (sound : collector.Sound) :
    collector.root.id = collector.filePath ++ "::module" :=
  congrArg Prod.fst (Option.some_inj.mp sound.linked.first)

/-- Where outlines that only refer, on behalf of the file's own element, stand between others, the
elements are the same but for more references of the file's own element, which stand together. -/
theorem Sound.exists_finish_refer {collector : Collector} (sound : collector.Sound)
    {before between after : List Outline} (placedBefore : Outline.AllPlaced before)
    (placedAfter : Outline.AllPlaced after) (isOfKind : ReferenceKind → Prop)
    (areReferences : ∀ outline ∈ between, ∃ reference, outline = .refer reference ∧
      isOfKind reference.kind) :
    ∃ (without full : Collector) (file : Element) (first found more : List Reference)
      (others : List Element),
      collector.recordFile (before ++ after) = .ok without ∧
      without.finish = { file with references := first ++ more } :: others ∧
      collector.recordFile (before ++ between ++ after) = .ok full ∧
      full.finish = { file with references := first ++ found ++ more } :: others ∧
      ∀ reference ∈ found, isOfKind reference.kind := by
  obtain ⟨start, isStart, startSound, startExtends⟩ :=
    sound.recordAll (root_mem_ids collector) before placedBefore
  obtain ⟨last, isLast, -, -⟩ :=
    startSound.recordAll (startExtends.ids_subset (root_mem_ids collector)) after placedAfter
  have sameId : start.root.id = collector.root.id := by
    rw [startSound.root_id, sound.root_id, startExtends.filePath_eq]
  obtain ⟨found, isFound, areFound⟩ := exists_recordAll_refer isOfKind areReferences start
  obtain ⟨added, isAdded, same⟩ := adds_recordAll collector.root.id after start last isLast
  let references := start.root.references
  refine ⟨last, last.mention (references ++ found ++ added), last.finishDraft last.root,
    references.map last.boundReference, found.map last.boundReference,
    added.map last.boundReference, last.others.map last.finishDraft, ?_, ?_, ?_, ?_, ?_⟩
  · rw [recordFile, recordAll_append, isStart]
    exact isLast
  · rw [← mention_self last, finish_mention, isAdded, List.map_append]
    rfl
  · rw [recordFile, List.append_assoc, recordAll_append, isStart]
    change start.recordAll _ _ = _
    rw [recordAll_append, ← sameId, isFound, sameId]
    exact same _
  · rw [finish_mention, List.map_append, List.map_append]
  · intro reference isThere
    obtain ⟨written, isWritten, rfl⟩ := List.mem_map.mp isThere
    rw [boundReference_kind]
    exact areFound written isWritten

end Collector
end CodeAtlas
