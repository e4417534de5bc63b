import CodeAtlas.Proofs.Relationship
import CodeAtlas.Proofs.Resolution.Ends
import CodeAtlas.Proofs.Resolution.Meaning
import CodeAtlas.Proofs.Resolution.Update

/-!
# References that are merged

The relationships of an element are those that its mentions of targets are merged into, one for each
kind and target. A relationship counts its mentions, keeps the text and line of the first and is as
sure as the surest; where several are equally sure, the first of them tells how the target was
found.
-/

namespace CodeAtlas
namespace Resolution

section Mentions

variable {α : Type} [Scalar α]

/-- The id of the relationship that a mention belongs to. -/
def mentionId (source : Element) (entry : Reference × Candidate α) : String :=
  Relationship.idOf source.id (.reference entry.1.kind) entry.2.targetId

/-- What a mention makes of the relationship that is there so far. -/
def mentioned (source : Element) (entry : Reference × Candidate α) :
    Option (Relationship α) → Relationship α
  | some existing => again existing entry.2
  | none => first source entry.1 entry.2

theorem mention_eq_update (source : Element) (found : Table String (Relationship α))
    (entry : Reference × Candidate α) :
    mention source found entry =
      found.update (mentionId source entry) (mentioned source entry) := by
  unfold mention mentioned mentionId
  rfl

theorem get?_foldl_mention (source : Element) (listed : List (Reference × Candidate α))
    (id : String) :
    (listed.foldl (mention source) Table.empty).get? id =
      (listed.filter (mentionId source · = id)).foldl
        (fun found entry => some (mentioned source entry found)) none := by
  rw [funext₂ (mention_eq_update source), Table.get?_foldl_update, Table.get?_empty]

/-- What a first mention gives and further ones keep holds of every relationship with its
mentions. -/
theorem get?_foldl_mention_induction {source : Element}
    {motive : List (Reference × Candidate α) → Relationship α → Prop}
    (atFirst : ∀ entry, motive [entry] (first source entry.1 entry.2))
    (atAgain : ∀ named edge entry, motive named edge →
      motive (named ++ [entry]) (again edge entry.2))
    {listed : List (Reference × Candidate α)} {id : String} {edge : Relationship α}
    (found : (listed.foldl (mention source) Table.empty).get? id = some edge) :
    motive (listed.filter (mentionId source · = id)) edge := by
  rw [get?_foldl_mention] at found
  revert found
  generalize listed.filter (mentionId source · = id) = named
  induction named using List.reverseRecOn generalizing edge with
  | nil => exact fun found => nomatch found
  | append_singleton named last induction =>
    rw [List.foldl_append]
    intro found
    rw [← Option.some.inj found]
    cases earlier : named.foldl (fun found entry => some (mentioned source entry found)) none with
    | some existing => exact atAgain named existing last (induction earlier)
    | none =>
      cases named using List.reverseRecOn with
      | nil => exact atFirst last
      | append_singleton named previous => simp at earlier

/-- A relationship that counts its mentions and has its ends, text and line from the first. -/
structure Merged (source : Element) (named : List (Reference × Candidate α))
    (edge : Relationship α) : Prop where
  /-- It starts from the element that mentions. -/
  source : edge.sourceId = source.id
  /-- It has one direction. -/
  directed : edge.bidirectional = false
  /-- It is about what its first mention is about. -/
  first : ∃ entry ∈ named.head?, edge.kind = .reference entry.1.kind ∧
    edge.targetId = entry.2.targetId ∧ edge.evidence.reference = some entry.1.target ∧
    edge.evidence.line = some entry.1.line
  /-- It counts its mentions. -/
  occurrences : edge.evidence.occurrences = named.length

theorem Merged.again {source : Element} {named : List (Reference × Candidate α)}
    {edge : Relationship α} (merged : Merged source named edge)
    (entry : Reference × Candidate α) :
    Merged source (named ++ [entry]) (Resolution.again edge entry.2) := by
  obtain ⟨start, directed, ⟨foremost, isFirst, facts⟩, occurrences⟩ := merged
  have head : foremost ∈ (named ++ [entry]).head? := by
    rw [List.head?_append, isFirst]
    rfl
  unfold Resolution.again
  dsimp only
  split <;>
    exact ⟨start, directed, ⟨foremost, head, facts⟩, by simp [occurrences]⟩

theorem merged_of_get? {source : Element} {listed : List (Reference × Candidate α)} {id : String}
    {edge : Relationship α}
    (found : (listed.foldl (mention source) Table.empty).get? id = some edge) :
    Merged source (listed.filter (mentionId source · = id)) edge := by
  refine get?_foldl_mention_induction (fun entry => ?_)
    (fun named edge entry merged => merged.again entry) found
  exact ⟨rfl, rfl, ⟨entry, rfl, rfl, rfl, rfl, rfl⟩, rfl⟩

theorem id_of_get? {source : Element} {listed : List (Reference × Candidate α)} {id : String}
    {edge : Relationship α}
    (found : (listed.foldl (mention source) Table.empty).get? id = some edge) : edge.id = id := by
  have merged := merged_of_get? found
  obtain ⟨entry, isFirst, kind, target, -⟩ := merged.first
  have sameId := (List.mem_filter.mp (List.mem_of_mem_head? isFirst)).2
  rw [decide_eq_true_iff] at sameId
  rw [← sameId, Relationship.id, merged.source, kind, target, mentionId]

theorem get?_foldl_mention_eq_none_iff {source : Element}
    {listed : List (Reference × Candidate α)} {id : String} :
    (listed.foldl (mention source) Table.empty).get? id = none ↔
      listed.filter (mentionId source · = id) = [] := by
  rw [get?_foldl_mention]
  generalize listed.filter (mentionId source · = id) = named
  cases named using List.reverseRecOn with
  | nil => simp
  | append_singleton named last => simp

theorem occurrences_again (existing : Relationship α) (candidate : Candidate α) :
    (again existing candidate).evidence.occurrences = existing.evidence.occurrences + 1 := by
  unfold again
  dsimp only
  split <;> rfl

/-- Every mention is counted once. -/
theorem sum_occurrences_foldl_mention (source : Element)
    (listed : List (Reference × Candidate α)) :
    (((listed.foldl (mention source) Table.empty).values).map (·.evidence.occurrences)).sum =
      listed.length := by
  induction listed using List.reverseRecOn with
  | nil => rfl
  | append_singleton listed last induction =>
    rw [List.foldl_append, List.foldl_cons, List.foldl_nil, mention_eq_update, Table.update,
      List.length_append, List.length_singleton, ← induction]
    have distinct := distinct_foldl_mention source listed Table.distinct_empty
    generalize listed.foldl (mention source) Table.empty = found at distinct ⊢
    let id := mentionId source last
    rw [((distinct.values_put_perm id _).map _).sum_nat, List.map_cons, List.sum_cons]
    cases earlier : found.get? id with
    | none =>
      rw [Table.erase_of_get?_eq_none earlier, Nat.add_comm]
      rfl
    | some existing =>
      rw [((distinct.values_perm_of_get? earlier).map _).sum_nat, List.map_cons, List.sum_cons,
        mentioned, occurrences_again]
      omega

theorem nodup_ids_resolveElement (strengths : Strengths α) (symbols : Symbols)
    (source : Element) :
    ((resolveElement strengths symbols source).map Relationship.id).Nodup := by
  let found := (mentions strengths symbols source).foldl (mention source) Table.empty
  have distinct : found.Distinct := distinct_foldl_mention source _ Table.distinct_empty
  have ids : found.values.map Relationship.id = found.keys := by
    rw [Table.values, Table.keys, List.map_map]
    refine List.map_congr_left fun entry member => ?_
    exact id_of_get? (distinct.get?_eq_some_iff.mpr member)
  have perm := (Text.sortBy_perm Relationship.id found.values).map Relationship.id
  exact perm.nodup_iff.mpr (ids ▸ distinct)

theorem mem_resolveElement_iff {strengths : Strengths α} {symbols : Symbols}
    {source : Element} {edge : Relationship α} :
    edge ∈ resolveElement strengths symbols source ↔
      ∃ kind target, ((mentions strengths symbols source).foldl (mention source) Table.empty).get?
        (Relationship.idOf source.id (.reference kind) target) = some edge := by
  rw [resolveElement, Text.mem_sortBy,
    (distinct_foldl_mention source _ Table.distinct_empty).mem_values]
  constructor
  · rintro ⟨id, found⟩
    have merged := merged_of_get? found
    obtain ⟨entry, -, ofKind, -⟩ := merged.first
    have sameId : Relationship.idOf edge.sourceId edge.kind edge.targetId = id := id_of_get? found
    refine ⟨entry.1.kind, edge.targetId, ?_⟩
    rw [← merged.source, ← ofKind, sameId]
    exact found
  · rintro ⟨kind, target, found⟩
    exact ⟨_, found⟩

/-- An element whose only reference finds nothing has one relationship, which leads to a stub. -/
theorem resolveElement_of_unseen (strengths : Strengths α) {elements : List Element}
    {source : Element} (undivided : UndividedModules (source :: elements)) {reference : Reference}
    (only : source.references = [reference])
    (unseen : ∀ earlier ∈ surer .external, foundAt elements source reference earlier = []) :
    resolveElement strengths (.ofElements elements) source =
      [first source reference
        ⟨externalId reference.target, strengths.heuristic, .external, 0⟩] :=
  resolveElement_of_single only (candidates_of_unseen strengths undivided unseen)

end Mentions

/-! ## The surest mention -/

/-- A relationship has its strength, and how its target was found, from the first of its surest
mentions. -/
structure Surest (named : List (Reference × Candidate Rat)) (edge : Relationship Rat) : Prop where
  /-- Those before are less sure, those after are not surer. -/
  best : ∃ before best after, named = before ++ best :: after ∧
    (∀ earlier ∈ before, earlier.2.strength < edge.strength) ∧
    (∀ later ∈ after, later.2.strength ≤ edge.strength) ∧
    edge.strength = best.2.strength ∧ edge.evidence.level = best.2.level ∧
    edge.evidence.candidateCount = best.2.count
  /-- It is ambiguous if it has several candidates. -/
  ambiguous : edge.evidence.ambiguous = decide (1 < edge.evidence.candidateCount)

theorem Surest.again {named : List (Reference × Candidate Rat)} {edge : Relationship Rat}
    (surest : Surest named edge) (entry : Reference × Candidate Rat) :
    Surest (named ++ [entry]) (Resolution.again edge entry.2) := by
  obtain ⟨⟨before, best, after, rfl, weaker, notSurer, strength, found⟩, ambiguous⟩ := surest
  have least : ∀ other ∈ before ++ best :: after, other.2.strength ≤ edge.strength := by
    intro other member
    rcases List.mem_append.mp member with earlier | member
    · exact (weaker other earlier).le
    · rcases List.mem_cons.mp member with rfl | later
      · exact strength.ge
      · exact notSurer other later
  unfold Resolution.again
  dsimp only
  split
  case isTrue surer =>
    have surer : edge.strength < entry.2.strength := of_decide_eq_true surer
    refine ⟨⟨before ++ best :: after, entry, [], rfl, ?_, ?_, rfl, rfl, rfl⟩, rfl⟩
    · exact fun other member => (least other member).trans_lt surer
    · exact fun other member => nomatch member
  case isFalse notSurer' =>
    have notAbove : entry.2.strength ≤ edge.strength :=
      not_lt.mp fun surer => notSurer' (decide_eq_true surer)
    refine ⟨⟨before, best, after ++ [entry], by simp, weaker, ?_, strength, found⟩, ambiguous⟩
    intro later member
    rcases List.mem_append.mp member with member | member
    · exact notSurer later member
    · rw [List.mem_singleton.mp member]
      exact notAbove

theorem surest_of_get? {source : Element} {listed : List (Reference × Candidate Rat)} {id : String}
    {edge : Relationship Rat}
    (found : (listed.foldl (mention source) Table.empty).get? id = some edge) :
    Surest (listed.filter (mentionId source · = id)) edge := by
  refine get?_foldl_mention_induction (fun entry => ?_)
    (fun named edge entry surest => surest.again entry) found
  exact ⟨⟨[], entry, [], rfl, by simp, by simp, rfl, rfl, rfl⟩, rfl⟩

/-! ## The references behind a relationship -/

/-- The references of a kind by which an element means a target, in the order of the source. -/
def naming (elements : List Element) (source : Element) (kind : ReferenceKind) (target : String) :
    List Reference :=
  source.references.filter fun reference =>
    reference.kind = kind ∧ Means elements source reference target

/-- A reference whose candidates have different targets mentions each of them once. -/
theorem map_fst_filter_map {listed : List (Candidate Rat)}
    (nodup : (listed.map Candidate.targetId).Nodup) (reference : Reference) (kind : ReferenceKind)
    (target : String) :
    ((listed.map (reference, ·)).filter fun entry =>
      entry.1.kind = kind ∧ entry.2.targetId = target).map Prod.fst =
      if reference.kind = kind ∧ target ∈ listed.map Candidate.targetId then [reference]
      else [] := by
  rw [List.filter_map, List.map_map]
  by_cases sameKind : reference.kind = kind
  · have count : (listed.filter (·.targetId = target)).length =
        if target ∈ listed.map Candidate.targetId then 1 else 0 := by
      rw [← List.Nodup.count nodup, List.count, List.countP_map, List.countP_eq_length_filter]
      rfl
    simp only [Function.comp_def, sameKind, true_and] at count ⊢
    rw [List.map_const', count]
    split <;> rfl
  · simp [Function.comp_def, sameKind]

/-- With distinct ids each of these references mentions the target once. -/
theorem map_fst_filter_mentions (strengths : Strengths Rat) {elements : List Element}
    (distinct : DistinctIds elements) {source : Element}
    (undivided : UndividedModules (source :: elements)) (kind : ReferenceKind) (target : String) :
    ((mentions strengths (.ofElements elements) source).filter fun entry =>
      mentionId source entry = Relationship.idOf source.id (.reference kind) target).map Prod.fst =
      naming elements source kind target := by
  have sameId (entry : Reference × Candidate Rat) :
      mentionId source entry = Relationship.idOf source.id (.reference kind) target ↔
        entry.1.kind = kind ∧ entry.2.targetId = target := by
    constructor
    · intro same
      obtain ⟨kinds, targets⟩ := Relationship.idOf_inj_right same
      exact ⟨RelationshipKind.reference.inj kinds, targets⟩
    · rintro ⟨rfl, rfl⟩
      rfl
  simp only [sameId]
  unfold mentions naming
  induction source.references with
  | nil => rfl
  | cons reference references induction =>
    have once := map_fst_filter_map
      (nodup_targetIds_candidates strengths distinct undivided reference) reference kind target
    rw [List.flatMap_cons, List.filter_append, List.map_append, induction, List.filter_cons, once]
    simp only [← means_iff strengths undivided, decide_eq_true_iff]
    split <;> rfl

/-- A relationship from an element that stands for its references of a kind to a target. -/
structure StandsFor (strengths : Strengths Rat) (elements : List Element) (source : Element)
    (kind : ReferenceKind) (target : String) (edge : Relationship Rat) : Prop where
  /-- It starts from the element. -/
  sourceId : edge.sourceId = source.id
  /-- It has the kind of the references. -/
  ofKind : edge.kind = .reference kind
  /-- It leads to the target. -/
  targetId : edge.targetId = target
  /-- It has one direction. -/
  directed : edge.bidirectional = false
  /-- It counts the references. -/
  occurrences : edge.evidence.occurrences = (naming elements source kind target).length
  /-- It keeps the text of the first one. -/
  reference : edge.evidence.reference =
    (naming elements source kind target).head?.map Reference.target
  /-- It keeps the line of the first one. -/
  line : edge.evidence.line = (naming elements source kind target).head?.map Reference.line
  /-- It is as sure as the first of the surest, and found as that one is. -/
  best : ∃ before best after, naming elements source kind target = before ++ best :: after ∧
    Resolves elements source best edge.evidence.level edge.evidence.candidateCount target ∧
    edge.strength = strengths.shared edge.evidence.level edge.evidence.candidateCount ∧
    (∀ earlier ∈ before, ∀ level count, Resolves elements source earlier level count target →
      strengths.shared level count < edge.strength) ∧
    ∀ later ∈ after, ∀ level count, Resolves elements source later level count target →
      strengths.shared level count ≤ edge.strength
  /-- It is ambiguous if there were several candidates. -/
  ambiguous : edge.evidence.ambiguous = decide (1 < edge.evidence.candidateCount)

section Naming

variable {strengths : Strengths Rat} {elements : List Element} {source : Element}
  {kind : ReferenceKind} {target : String} (undivided : UndividedModules (source :: elements))

include undivided

theorem of_mem_filter_mentions (entry : Reference × Candidate Rat)
    (member : entry ∈ (mentions strengths (.ofElements elements) source).filter
      (mentionId source · = Relationship.idOf source.id (.reference kind) target)) :
    entry.1.kind = kind ∧ entry.2.targetId = target ∧
      Resolves elements source entry.1 entry.2.level entry.2.count target ∧
      entry.2.strength = strengths.shared entry.2.level entry.2.count := by
  obtain ⟨isMention, sameId⟩ := List.mem_filter.mp member
  obtain ⟨sameKind, rfl⟩ := Relationship.idOf_inj_right (of_decide_eq_true sameId)
  obtain ⟨reference, _, isEntry⟩ := List.mem_flatMap.mp isMention
  obtain ⟨candidate, isCandidate, rfl⟩ := List.mem_map.mp isEntry
  exact ⟨RelationshipKind.reference.inj sameKind, rfl,
    (mem_candidates_iff undivided).mp isCandidate⟩

theorem standsFor_of_get? (distinct : DistinctIds elements) {edge : Relationship Rat}
    (found : ((mentions strengths (.ofElements elements) source).foldl (mention source)
      Table.empty).get? (Relationship.idOf source.id (.reference kind) target) = some edge) :
    StandsFor strengths elements source kind target edge := by
  have merged := merged_of_get? found
  have surest := surest_of_get? found
  have references := map_fst_filter_mentions strengths distinct undivided kind target
  have sureness := @of_mem_filter_mentions strengths elements source kind target undivided
  revert merged surest references sureness
  generalize (mentions strengths (.ofElements elements) source).filter
    (mentionId source · = Relationship.idOf source.id (.reference kind) target) = named
  intro merged surest references sureness
  obtain ⟨entry, isFirst, ofKind, targetId, text, line⟩ := merged.first
  obtain ⟨sameKind, sameTarget, -⟩ := sureness entry (List.mem_of_mem_head? isFirst)
  have head : (naming elements source kind target).head? = some entry.1 := by
    rw [← references, List.head?_map, isFirst]
    rfl
  obtain ⟨⟨before, best, after, rfl, weaker, notSurer, strength, level, count⟩, ambiguous⟩ := surest
  obtain ⟨-, -, resolves, shared⟩ := sureness best (by simp)
  -- A reference is as sure as each of its mentions, since it resolves in one way only.
  have bounded {other : Reference × Candidate Rat} (isNamed : other ∈ before ++ best :: after)
      {level : ResolutionLevel} {count : Nat}
      (resolves : Resolves elements source other.1 level count target) :
      strengths.shared level count = other.2.strength := by
    obtain ⟨-, -, otherwise, shared⟩ := sureness other isNamed
    obtain ⟨rfl, rfl⟩ := resolves.eq otherwise
    exact shared.symm
  refine
    { sourceId := merged.source
      ofKind := ofKind.trans (congrArg _ sameKind)
      targetId := targetId.trans sameTarget
      directed := merged.directed
      occurrences := by rw [merged.occurrences, ← references, List.length_map]
      reference := by rw [text, head]; rfl
      line := by rw [line, head]; rfl
      best := ⟨before.map Prod.fst, best.1, after.map Prod.fst, ?_, ?_, ?_, ?_, ?_⟩
      ambiguous := ambiguous }
  · rw [← references, List.map_append, List.map_cons]
  · rwa [level, count]
  · rw [level, count, strength, shared]
  · intro earlier member level count resolves
    obtain ⟨other, isEarlier, rfl⟩ := List.mem_map.mp member
    rw [bounded (List.mem_append_left _ isEarlier) resolves]
    exact weaker other isEarlier
  · intro later member level count resolves
    obtain ⟨other, isLater, rfl⟩ := List.mem_map.mp member
    rw [bounded (List.mem_append_right _ (List.mem_cons_of_mem _ isLater)) resolves]
    exact notSurer other isLater

theorem exists_get?_iff (strengths : Strengths Rat) (distinct : DistinctIds elements) :
    (∃ edge, ((mentions strengths (.ofElements elements) source).foldl (mention source)
      Table.empty).get? (Relationship.idOf source.id (.reference kind) target) = some edge) ↔
      ∃ reference ∈ source.references, reference.kind = kind ∧
        Means elements source reference target := by
  rw [← Option.ne_none_iff_exists', Ne, get?_foldl_mention_eq_none_iff, ← List.map_eq_nil_iff,
    map_fst_filter_mentions strengths distinct undivided, naming, List.filter_eq_nil_iff]
  simp only [decide_eq_true_iff, not_forall, not_not, exists_prop]

end Naming

/-- An element has one relationship of a kind to a target if one of its references of that kind
means the target, and none otherwise. The relationship stands for all of these references. -/
theorem standsFor_bySource (strengths : Strengths Rat) {elements : List Element}
    (distinct : DistinctIds elements) (undivided : UndividedModules elements) {source : Element}
    (member : source ∈ elements) :
    ∃ edges, (resolve strengths elements).bySource.get? source.id = some edges ∧
      (edges.map fun edge => (edge.kind, edge.targetId)).Nodup ∧
      (∀ edge ∈ edges, ∃ kind, StandsFor strengths elements source kind edge.targetId edge) ∧
      ∀ kind target,
        (∃ edge ∈ edges, StandsFor strengths elements source kind target edge) ↔
          ∃ reference ∈ source.references, reference.kind = kind ∧
            Means elements source reference target := by
  have bothUndivided := undivided.cons member
  refine ⟨_, get?_bySource_resolve strengths distinct member, ?_, ?_, ?_⟩
  · refine .of_map (fun ends => Relationship.idOf source.id ends.1 ends.2) ?_
    rw [List.map_map]
    have ids := nodup_ids_resolveElement strengths (.ofElements elements) source
    refine (List.map_congr_left fun edge isEdge => ?_) ▸ ids
    obtain ⟨kind, target, found⟩ := mem_resolveElement_iff.mp isEdge
    rw [Relationship.id, (merged_of_get? found).source]
    rfl
  · intro edge isEdge
    obtain ⟨kind, target, found⟩ := mem_resolveElement_iff.mp isEdge
    have stands := standsFor_of_get? bothUndivided distinct found
    exact ⟨kind, stands.targetId ▸ stands⟩
  · intro kind target
    rw [← exists_get?_iff bothUndivided strengths distinct]
    constructor
    · rintro ⟨edge, isEdge, stands⟩
      obtain ⟨_, _, found⟩ := mem_resolveElement_iff.mp isEdge
      refine ⟨edge, ?_⟩
      have sameId := id_of_get? found
      rw [Relationship.id, stands.sourceId, stands.ofKind, stands.targetId] at sameId
      exact sameId ▸ found
    · rintro ⟨edge, found⟩
      exact ⟨edge, mem_resolveElement_iff.mpr ⟨kind, target, found⟩,
        standsFor_of_get? bothUndivided distinct found⟩

/-- A function that is called twice, once by a name it shares with another function and once by its
qualified name. -/
theorem standsFor_bySource_called_twice :
    let caller := Element.sketch "run" "a.ts" [⟨.calls, "x.save", 2⟩, ⟨.calls, "save", 5⟩]
    let other := { Element.sketch "b.save" "b.ts" [] with name := "save" }
    let callee := { Element.sketch "c.save" "c.ts" [] with name := "save", qualifiedName := "save" }
    let elements := [caller, other, callee]
    let strengths : Strengths Rat := ⟨1, 4 / 5, 1 / 2⟩
    DistinctIds elements ∧ UndividedModules elements ∧ caller ∈ elements ∧
      (∀ reference ∈ caller.references, Means elements caller reference "c.save") ∧
      ∃ edges, (resolve strengths elements).bySource.get? caller.id = some edges ∧
        (∃ edge ∈ edges, StandsFor strengths elements caller .calls "c.save" edge) ∧
        ¬ ∃ edge ∈ edges, StandsFor strengths elements caller .uses "c.save" edge := by
  intro caller other callee elements strengths
  have distinct : DistinctIds elements := by decide
  have undivided : UndividedModules elements := by decide
  have member : caller ∈ elements := List.mem_cons_self
  have isCallee : callee ∈ elements := by simp [elements]
  have means : ∀ reference ∈ caller.references, Means elements caller reference "c.save" := by
    intro reference isReference
    simp only [caller, Element.sketch, List.mem_cons, List.not_mem_nil, or_false] at isReference
    rcases isReference with rfl | rfl
    · have found : callee ∈ foundAt elements caller ⟨.calls, "x.save", 2⟩ .heuristic :=
        mem_foundAt.mpr ⟨isCallee, by decide⟩
      exact ⟨_, _, .found (by decide) found⟩
    · have found : callee ∈ foundAt elements caller ⟨.calls, "save", 5⟩ .exact :=
        mem_foundAt.mpr ⟨isCallee, by decide⟩
      exact ⟨_, _, .found (by decide) found⟩
  obtain ⟨edges, isEntry, -, -, holds⟩ := standsFor_bySource strengths distinct undivided member
  refine ⟨distinct, undivided, member, means, edges, isEntry, ?_, ?_⟩
  · exact (holds .calls "c.save").mpr ⟨_, List.mem_cons_self, rfl, means _ List.mem_cons_self⟩
  · rw [holds .uses "c.save"]
    rintro ⟨reference, isReference, kind, -⟩
    simp only [caller, Element.sketch, List.mem_cons, List.not_mem_nil, or_false] at isReference
    rcases isReference with rfl | rfl <;> cases kind

end Resolution
end CodeAtlas
