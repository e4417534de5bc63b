import CodeAtlas.Proofs.Graph.Multiplicity
import CodeAtlas.Proofs.Resolution.Unfolded

/-!
# Mutual associations that are folded

Of two opposite associations the one from the smaller id takes up the other, and the other is
dropped. Whatever adds up when two opposite associations are merged has the same total before and
after: the edges between any two nodes, and the references behind the relationships.
-/

namespace CodeAtlas
namespace Resolution

variable {α : Type}

/-- Two opposite associations, the first of them from the smaller id. -/
structure Mutual (forward backward : Relationship α) : Prop where
  /-- The first is an association. -/
  there : forward.kind = .reference .associates
  /-- The second is an association. -/
  back : backward.kind = .reference .associates
  /-- The second starts where the first leads to. -/
  source : backward.sourceId = forward.targetId
  /-- The second leads to where the first starts. -/
  target : backward.targetId = forward.sourceId
  /-- The first starts from the smaller id. -/
  ordered : Text.before forward.sourceId forward.targetId

instance (forward backward : Relationship α) : Decidable (Mutual forward backward) :=
  decidable_of_iff (forward.kind = .reference .associates ∧
      backward.kind = .reference .associates ∧ backward.sourceId = forward.targetId ∧
      backward.targetId = forward.sourceId ∧ Text.before forward.sourceId forward.targetId)
    ⟨fun ⟨there, back, source, target, ordered⟩ => ⟨there, back, source, target, ordered⟩,
      fun isMutual => ⟨isMutual.there, isMutual.back, isMutual.source, isMutual.target,
        isMutual.ordered⟩⟩

/-- The id that the opposite of an association has. -/
def oppositeId (relationship : Relationship α) : String :=
  Relationship.idOf relationship.targetId (.reference .associates) relationship.sourceId

/-- What has the id of the opposite of an association is its opposite. -/
def Opposed (listed : List (Relationship α)) : Prop :=
  ∀ forward ∈ listed, ∀ backward ∈ listed, forward.kind = .reference .associates →
    backward.id = oppositeId forward →
      backward.sourceId = forward.targetId ∧ backward.kind = .reference .associates ∧
        backward.targetId = forward.sourceId

theorem Mutual.source_ne_target {forward backward : Relationship α}
    (isMutual : Mutual forward backward) : forward.sourceId ≠ forward.targetId := by
  intro same
  have ordered := isMutual.ordered
  rw [same] at ordered
  exact Text.not_before_of_before ordered ordered

theorem Mutual.not_mutual {first second third : Relationship α} (isMutual : Mutual first second) :
    ¬ Mutual second third := by
  intro other
  have ordered := other.ordered
  rw [isMutual.source, isMutual.target] at ordered
  exact Text.not_before_of_before isMutual.ordered ordered

/-- An association takes up its opposite, which is in a list. -/
def TakesUp (listed : List (Relationship α)) (forward : Relationship α) : Prop :=
  ∃ backward ∈ listed, Mutual forward backward

/-- An association is taken up by its opposite, which is in a list. -/
def IsTakenUp (listed : List (Relationship α)) (backward : Relationship α) : Prop :=
  ∃ forward ∈ listed, Mutual forward backward

instance (listed : List (Relationship α)) (relationship : Relationship α) :
    Decidable (TakesUp listed relationship) :=
  inferInstanceAs (Decidable (∃ backward ∈ listed, Mutual relationship backward))

instance (listed : List (Relationship α)) (relationship : Relationship α) :
    Decidable (IsTakenUp listed relationship) :=
  inferInstanceAs (Decidable (∃ forward ∈ listed, Mutual forward relationship))

/-! ## What becomes of a relationship -/

section Fold

variable {listed : List (Relationship α)} (nodup : (listed.map Relationship.id).Nodup)
  (opposed : Opposed listed)

include nodup

theorem Mutual.eq_first {first other second : Relationship α} (isFirst : first ∈ listed)
    (isOther : other ∈ listed) (isMutual : Mutual first second)
    (otherMutual : Mutual other second) : first = other := by
  refine List.inj_on_of_nodup_map nodup isFirst isOther ?_
  rw [Relationship.id, Relationship.id, isMutual.there, otherMutual.there, ← isMutual.source,
    ← otherMutual.source, ← isMutual.target, ← otherMutual.target]

theorem Mutual.eq_second {first second other : Relationship α} (isSecond : second ∈ listed)
    (isOther : other ∈ listed) (isMutual : Mutual first second) (otherMutual : Mutual first other) :
    second = other := by
  refine List.inj_on_of_nodup_map nodup isSecond isOther ?_
  rw [Relationship.id, Relationship.id, isMutual.back, otherMutual.back, isMutual.source,
    otherMutual.source, isMutual.target, otherMutual.target]

variable [Scalar α]

theorem fold?_of_forward {forward backward : Relationship α} (isMutual : Mutual forward backward)
    (isBackward : backward ∈ listed) :
    fold? (byId listed) forward = some (merge forward backward) := by
  have folds : ¬ (forward.kind ≠ .reference .associates ∨ forward.sourceId = forward.targetId) :=
    not_or.mpr ⟨not_not.mpr isMutual.there, isMutual.source_ne_target⟩
  have found : (byId listed).get? (oppositeId forward) = some backward := by
    refine (get?_byId_iff nodup).mpr ⟨isBackward, ?_⟩
    rw [Relationship.id, oppositeId, isMutual.source, isMutual.back, isMutual.target]
  unfold oppositeId at found
  rw [fold?, if_neg folds, found]
  exact if_neg (Text.not_before_of_before isMutual.ordered)

theorem fold?_of_backward {forward backward : Relationship α} (isMutual : Mutual forward backward)
    (isForward : forward ∈ listed) : fold? (byId listed) backward = none := by
  have folds : ¬ (backward.kind ≠ .reference .associates ∨
      backward.sourceId = backward.targetId) := by
    rw [isMutual.source, isMutual.target]
    exact not_or.mpr ⟨not_not.mpr isMutual.back, isMutual.source_ne_target.symm⟩
  have found : (byId listed).get? (oppositeId backward) = some forward := by
    refine (get?_byId_iff nodup).mpr ⟨isForward, ?_⟩
    rw [Relationship.id, oppositeId, isMutual.source, isMutual.there, isMutual.target]
  unfold oppositeId at found
  rw [fold?, if_neg folds, found]
  refine if_pos ?_
  rw [isMutual.source, isMutual.target]
  exact isMutual.ordered

include opposed

theorem fold?_of_alone {relationship : Relationship α} (member : relationship ∈ listed)
    (takesNone : ¬ TakesUp listed relationship) (untaken : ¬ IsTakenUp listed relationship) :
    fold? (byId listed) relationship = some relationship := by
  unfold fold?
  split
  · rfl
  case isFalse folds =>
    obtain ⟨kind, different⟩ := not_or.mp folds
    rw [not_not] at kind
    split
    · rfl
    case h_2 opposite isOpposite =>
      obtain ⟨isListed, sameId⟩ := (get?_byId_iff nodup).mp isOpposite
      obtain ⟨source, oppositeKind, target⟩ := opposed _ member _ isListed kind sameId
      by_cases ordered : Text.before relationship.targetId relationship.sourceId
      · refine absurd ⟨opposite, isListed, oppositeKind, kind, target.symm, source.symm, ?_⟩ untaken
        rwa [source, target]
      · refine absurd ⟨opposite, isListed, kind, oppositeKind, source, target, ?_⟩ takesNone
        exact Text.before_of_not_before different ordered

end Fold

/-! ## Totals -/

/-- The association that another one takes up. -/
def partner (listed : List (Relationship α)) (forward : Relationship α) : Relationship α :=
  (listed.find? (Mutual forward ·)).getD forward

theorem TakesUp.partner {listed : List (Relationship α)} {forward : Relationship α}
    (takesUp : TakesUp listed forward) :
    Resolution.partner listed forward ∈ listed ∧
      Mutual forward (Resolution.partner listed forward) := by
  obtain ⟨backward, isBackward, isMutual⟩ := takesUp
  have present : (listed.find? (Mutual forward ·)).isSome :=
    List.find?_isSome.mpr ⟨backward, isBackward, decide_eq_true isMutual⟩
  obtain ⟨found, isFound⟩ := Option.isSome_iff_exists.mp present
  have matched := List.find?_some isFound
  rw [Resolution.partner, isFound]
  exact ⟨List.mem_of_find?_eq_some isFound, of_decide_eq_true matched⟩

section Totals

variable {listed : List (Relationship α)} (nodup : (listed.map Relationship.id).Nodup)

include nodup

/-- The associations that are taken up are the partners of those that take up. -/
theorem isTakenUp_perm :
    (listed.filter (IsTakenUp listed ·)).Perm
      ((listed.filter (TakesUp listed ·)).map (partner listed)) := by
  have distinct : listed.Nodup := nodup.of_map
  refine (List.perm_ext_iff_of_nodup (distinct.filter _) ?_).mpr fun backward => ?_
  · refine List.Nodup.map_on (fun first isFirst other isOther same => ?_) (distinct.filter _)
    obtain ⟨isListed, takesUp⟩ := List.mem_filter.mp isFirst
    obtain ⟨otherListed, otherTakesUp⟩ := List.mem_filter.mp isOther
    have isMutual := (of_decide_eq_true takesUp : TakesUp listed first).partner.2
    have otherMutual := (of_decide_eq_true otherTakesUp : TakesUp listed other).partner.2
    rw [← same] at otherMutual
    exact isMutual.eq_first nodup isListed otherListed otherMutual
  · rw [List.mem_filter, List.mem_map, decide_eq_true_iff]
    constructor
    · rintro ⟨isBackward, forward, isForward, isMutual⟩
      have takesUp : TakesUp listed forward := ⟨backward, isBackward, isMutual⟩
      refine ⟨forward, List.mem_filter.mpr ⟨isForward, decide_eq_true takesUp⟩, ?_⟩
      exact takesUp.partner.2.eq_second nodup takesUp.partner.1 isBackward isMutual
    · rintro ⟨forward, member, rfl⟩
      obtain ⟨isForward, takesUp⟩ := List.mem_filter.mp member
      have partner := (of_decide_eq_true takesUp : TakesUp listed forward).partner
      exact ⟨partner.1, forward, isForward, partner.2⟩

variable [Scalar α] (opposed : Opposed listed)

include opposed

/-- What adds up when two opposite associations are merged has one total before and after. -/
theorem sum_filterMap_fold? {weight : Relationship α → Nat}
    (additive : ∀ forward ∈ listed, ∀ backward ∈ listed, Mutual forward backward →
      weight (merge forward backward) = weight forward + weight backward) :
    ((listed.filterMap (fold? (byId listed))).map weight).sum = (listed.map weight).sum := by
  -- Along the list, what is dropped is missing and what is taken up is added.
  have along (part : List (Relationship α)) (given : part ⊆ listed) :
      ((part.filterMap (fold? (byId listed))).map weight).sum +
          ((part.filter (IsTakenUp listed ·)).map weight).sum =
        (part.map weight).sum +
          ((part.filter (TakesUp listed ·)).map (weight ∘ partner listed)).sum := by
    induction part with
    | nil => rfl
    | cons relationship part induction =>
      have isListed := given List.mem_cons_self
      have rest := induction (List.subset_of_cons_subset given)
      by_cases takesUp : TakesUp listed relationship
      · obtain ⟨isBackward, isMutual⟩ := takesUp.partner
        have untaken : ¬ IsTakenUp listed relationship := fun ⟨_, _, other⟩ =>
          other.not_mutual isMutual
        have folded := fold?_of_forward nodup isMutual isBackward
        have added := additive _ isListed _ isBackward isMutual
        simp only [List.filterMap_cons_some folded, takesUp, untaken, added, decide_true,
          decide_false, Bool.false_eq_true, not_false_eq_true, List.filter_cons_of_pos,
          List.filter_cons_of_neg, List.map_cons, List.sum_cons, Function.comp_apply]
        omega
      · by_cases takenUp : IsTakenUp listed relationship
        · obtain ⟨forward, isForward, isMutual⟩ := id takenUp
          have dropped := fold?_of_backward nodup isMutual isForward
          simp only [List.filterMap_cons_none dropped, takesUp, takenUp, decide_true, decide_false,
            Bool.false_eq_true, not_false_eq_true, List.filter_cons_of_pos,
            List.filter_cons_of_neg, List.map_cons, List.sum_cons]
          omega
        · have stays := fold?_of_alone nodup opposed isListed takesUp takenUp
          simp only [List.filterMap_cons_some stays, takesUp, takenUp, decide_false,
            Bool.false_eq_true, not_false_eq_true, List.filter_cons_of_neg, List.map_cons,
            List.sum_cons]
          omega
  have total := along listed (List.Subset.refl listed)
  rw [((isTakenUp_perm nodup).map weight).sum_nat, List.map_map] at total
  omega

end Totals

/-! ## Folding what has been resolved -/

section Resolved

variable [Scalar α] {strengths : Strengths α} {elements : List Element}

theorem directed_of_mem_unfolded (distinct : DistinctIds elements) {relationship : Relationship α}
    (member : relationship ∈ unfolded strengths elements) : relationship.bidirectional = false := by
  rcases (mem_unfolded distinct).mp member with ⟨source, _, isReference⟩ | isContainment
  · exact (fromReferences_of_mem isReference).directed
  · obtain ⟨_, _, _, _, rfl⟩ := mem_containments.mp isContainment
    rfl

theorem undivided_externalBeginning : Undivided externalBeginning := by
  decide

/-- No containment and no reference out of the code base has the id of an opposite. -/
theorem opposed_unfolded (wellNamed : WellNamed elements) :
    Opposed (unfolded strengths elements) := by
  intro forward isForward backward isBackward isAssociation sameId
  have reference : ∃ source ∈ elements, FromReferences elements source forward := by
    rcases (mem_unfolded wellNamed.distinct).mp isForward with
      ⟨source, isSource, isReference⟩ | isContainment
    · exact ⟨source, isSource, fromReferences_of_mem isReference⟩
    · obtain ⟨_, _, _, _, rfl⟩ := mem_containments.mp isContainment
      cases isAssociation
  obtain ⟨source, isSource, fromSource⟩ := reference
  rw [Relationship.id, oppositeId, fromSource.source] at sameId
  rw [fromSource.source]
  rcases (mem_unfolded wellNamed.distinct).mp isBackward with
    ⟨other, isOther, isReference⟩ | isContainment
  · have fromOther := fromReferences_of_mem isReference
    rw [fromOther.source] at sameId ⊢
    have undivided : Undivided forward.targetId := by
      rcases fromSource.target with isElement | outside
      · obtain ⟨target, isTarget, sameTarget⟩ := List.mem_map.mp isElement
        exact sameTarget ▸ wellNamed.undivided target isTarget
      · -- Otherwise the other would start from an id that looks like one of a stub.
        have alike := Relationship.startsWith_of_idOf_eq undivided_externalBeginning sameId
        rw [wellNamed.inside other isOther, outside] at alike
        cases alike
    obtain ⟨sources, kinds, targets⟩ :=
      Relationship.idOf_inj (wellNamed.undivided other isOther) undivided sameId
    exact ⟨sources, kinds, targets⟩
  · obtain ⟨child, isChild, parent, _, rfl⟩ := mem_containments.mp isContainment
    have kinds := (Relationship.idOf_inj_of_target (wellNamed.undivided child isChild)
      (wellNamed.undivided source isSource) sameId).2.1
    cases kinds

/-- Two opposite associations have together the edges of their merger. -/
theorem countP_edgesOf_merge {forward backward : Relationship α}
    (isMutual : Mutual forward backward) (directed : forward.bidirectional = false)
    (backDirected : backward.bidirectional = false) (kinds : List RelationshipKind)
    (nodes : List Element) (test : RelationshipKind → Nat → Nat → Bool) :
    let count (relationship : Relationship α) : Nat :=
      ((DependencyGraph.edgesOf kinds nodes relationship).toOption.getD []).countP fun edge =>
        test edge.kind edge.source edge.target
    count (merge forward backward) = count forward + count backward := by
  intro count
  have source : (merge forward backward).sourceId = forward.sourceId := rfl
  have target : (merge forward backward).targetId = forward.targetId := rfl
  simp only [count, DependencyGraph.edgesOf, source, target, isMutual.source, isMutual.target]
  cases DependencyGraph.lastIndex? nodes forward.sourceId with
  | none => cases DependencyGraph.lastIndex? nodes forward.targetId <;> rfl
  | some first =>
    cases DependencyGraph.lastIndex? nodes forward.targetId with
    | none => rfl
    | some second =>
      simp only [Except.toOption, Option.getD_some, DependencyGraph.edgesBetween, merge, directed,
        backDirected, if_true, Bool.false_eq_true, if_false, List.countP_cons, List.countP_nil,
        isMutual.there, isMutual.back]
      omega

section Undivided

variable (strengths) (wellNamed : WellNamed elements)
  (parents : ∀ element ∈ elements, ∀ parent, element.parentId = some parent → Undivided parent)

include wellNamed parents

/-- The relationships are those before folding, each as folding leaves it. -/
theorem relationships_perm :
    (resolve strengths elements).relationships.Perm
      ((unfolded strengths elements).filterMap (fold? (byId (unfolded strengths elements)))) := by
  refine (Text.sortBy_perm Relationship.id _).trans (.of_eq ?_)
  have values := values_byId (nodup_ids_unfolded wellNamed strengths parents)
  exact congrArg (List.filterMap _) values

/-- What adds up when two opposite associations are merged has one total over what is resolved and
over what was there before folding. -/
theorem sum_relationships {weight : Relationship α → Nat}
    (additive : ∀ forward ∈ unfolded strengths elements, ∀ backward ∈ unfolded strengths elements,
      Mutual forward backward →
        weight (merge forward backward) = weight forward + weight backward) :
    ((resolve strengths elements).relationships.map weight).sum =
      ((unfolded strengths elements).map weight).sum := by
  rw [((relationships_perm strengths wellNamed parents).map weight).sum_nat]
  exact sum_filterMap_fold? (nodup_ids_unfolded wellNamed strengths parents)
    (opposed_unfolded wellNamed) additive

theorem edgeCount_resolve (options : GraphOptions α) (nodes : List Element)
    (earlier other : Option (DependencyGraph α × List String)) (kind : RelationshipKind)
    (source target : String) :
    (DependencyGraph.build options nodes (resolve strengths elements).relationships
      earlier).edgeCount kind source target =
      (DependencyGraph.build options nodes (unfolded strengths elements) other).edgeCount kind
        source target := by
  let ends := DependencyGraph.idAt (DependencyGraph.build options nodes
    (resolve strengths elements).relationships earlier)
  have sameEnds : DependencyGraph.idAt (DependencyGraph.build options nodes
      (unfolded strengths elements) other) = ends := by
    funext node
    rw [DependencyGraph.idAt, DependencyGraph.nodes_build]
    simp only [ends, DependencyGraph.idAt, DependencyGraph.nodes_build]
  rw [DependencyGraph.edgeCount, DependencyGraph.edgeCount, sameEnds, DependencyGraph.edges_build,
    DependencyGraph.edges_build, List.countP_flatMap, List.countP_flatMap]
  refine sum_relationships strengths wellNamed parents
    fun forward isForward backward isBackward isMutual => ?_
  exact countP_edgesOf_merge isMutual (directed_of_mem_unfolded wellNamed.distinct isForward)
    (directed_of_mem_unfolded wellNamed.distinct isBackward) options.dependencyKinds _
    fun edgeKind first second => edgeKind = kind ∧ ends first = source ∧ ends second = target

end Undivided

/-! ## References -/

omit [Scalar α] in
theorem sum_occurrences_filter (listed : List (Relationship α)) :
    ((listed.filter (·.kind ≠ .contains)).map (·.evidence.occurrences)).sum =
      (listed.map fun relationship =>
        if relationship.kind = .contains then 0 else relationship.evidence.occurrences).sum := by
  induction listed with
  | nil => rfl
  | cons relationship listed induction =>
    rw [List.map_cons, List.sum_cons, ← induction, List.filter_cons]
    by_cases contained : relationship.kind = .contains
    · simp [contained]
    · simp [contained]

/-- Relationships other than containments count the mentions of all elements. -/
theorem sum_occurrences_unfolded (strengths : Strengths α) (distinct : DistinctIds elements) :
    ((unfolded strengths elements).map fun relationship =>
      if relationship.kind = .contains then 0 else relationship.evidence.occurrences).sum =
      (elements.map fun source =>
        (mentions strengths (.ofElements elements) source).length).sum := by
  have ofParents : ((containments elements : List (Relationship α)).map fun relationship =>
      if relationship.kind = .contains then 0 else relationship.evidence.occurrences).sum = 0 := by
    refine List.sum_eq_zero_iff_forall_eq_nat.mpr fun count member => ?_
    obtain ⟨relationship, isContainment, rfl⟩ := List.mem_map.mp member
    obtain ⟨_, _, _, _, rfl⟩ := mem_containments.mp isContainment
    rfl
  have ofSource (source : Element) : ((resolveElement strengths (.ofElements elements) source).map
      fun relationship => if relationship.kind = .contains then 0
        else relationship.evidence.occurrences).sum =
      (mentions strengths (.ofElements elements) source).length := by
    have noneContains : ∀ relationship ∈ resolveElement strengths (.ofElements elements) source,
        relationship.kind ≠ .contains := by
      intro relationship member contained
      obtain ⟨kind, isKind⟩ := (fromReferences_of_mem member).kind
      rw [contained] at isKind
      cases isKind
    rw [List.map_congr_left fun relationship member => if_neg (noneContains relationship member),
      resolveElement, ((Text.sortBy_perm Relationship.id _).map _).sum_nat,
      sum_occurrences_foldl_mention]
  rw [unfolded, values_bySource_resolve strengths distinct, List.map_append, List.sum_append,
    ofParents, Nat.add_zero, List.map_flatten, List.sum_flatten, List.map_map, List.map_map]
  exact congrArg List.sum (List.map_congr_left fun source _ => ofSource source)

/-! ## Folding keeps meaning -/

/-- A relationship that stands for two opposite associations. -/
structure Folds (forward backward folded : Relationship α) : Prop where
  /-- It holds in both directions. -/
  bidirectional : folded.bidirectional = true
  /-- It is an association. -/
  kind : folded.kind = .reference .associates
  /-- It starts where the first starts. -/
  source : folded.sourceId = forward.sourceId
  /-- It leads to where the first leads to. -/
  target : folded.targetId = forward.targetId
  /-- It is as strong as the stronger of the two. -/
  strength : folded.strength = Scalar.max forward.strength backward.strength
  /-- It counts the references of both. -/
  occurrences : folded.evidence.occurrences =
    forward.evidence.occurrences + backward.evidence.occurrences

theorem folds_merge {forward backward : Relationship α} (isMutual : Mutual forward backward) :
    Folds forward backward (merge forward backward) :=
  ⟨rfl, isMutual.there, rfl, rfl, rfl, rfl⟩

theorem distinctIds_nodes (strengths : Strengths α) (wellNamed : WellNamed elements) :
    DistinctIds (elements ++ (resolve strengths elements).externals) := by
  unfold DistinctIds
  rw [List.map_append]
  refine wellNamed.distinct.append (distinctIds_stubs _) fun id isElement isStub => ?_
  obtain ⟨element, member, rfl⟩ := List.mem_map.mp isElement
  have outside := (mem_ids_stubs.mp isStub).1
  rw [wellNamed.inside element member] at outside
  cases outside

end Resolved

/-- Folding mutual associations keeps what relationships say. With the relationships as they are
folded and as they were before, as many edges of each kind lead from one node to another, so that
neighbours, reach and cycles are the same. What is folded are two opposite associations each, and no
mention is lost. -/
theorem resolve_folds_mutual [Scalar α] (strengths : Strengths α) {elements : List Element}
    (wellNamed : WellNamed elements)
    (parents : ∀ element ∈ elements, ∀ parent, element.parentId = some parent →
      Undivided parent) :
    let resolution := resolve strengths elements
    let given := resolution.bySource.values.flatten ++ containments elements
    let nodes := elements ++ resolution.externals
    (∀ options earlier other,
      let folded := DependencyGraph.build options nodes resolution.relationships earlier
      let plain := DependencyGraph.build options nodes given other
      (∀ kind source target,
        folded.edgeCount kind source target = plain.edgeCount kind source target) ∧
      (∀ id, folded.afferent id = plain.afferent id ∧ folded.efferent id = plain.efferent id) ∧
      (∀ source target, folded.Reaches source target ↔ plain.Reaches source target) ∧
      folded.cycles = plain.cycles) ∧
    (∀ relationship ∈ resolution.relationships,
      (relationship ∈ given ∧ relationship.bidirectional = false) ∨
        ∃ forward ∈ given, ∃ backward ∈ given,
          Mutual forward backward ∧ Folds forward backward relationship) ∧
    (∀ forward ∈ given, ∀ backward ∈ given, Mutual forward backward →
      ∃ relationship ∈ resolution.relationships, Folds forward backward relationship) ∧
    ((resolution.relationships.filter (·.kind ≠ .contains)).map (·.evidence.occurrences)).sum =
      (elements.map fun source =>
        (mentions strengths (.ofElements elements) source).length).sum := by
  intro resolution given nodes
  have nodup := nodup_ids_unfolded wellNamed strengths parents
  have opposed : Opposed given := opposed_unfolded wellNamed
  have perm := relationships_perm strengths wellNamed parents
  refine ⟨fun options earlier other => ?_, fun relationship member => ?_,
    fun forward isForward backward isBackward isMutual => ?_, ?_⟩
  · have counts := edgeCount_resolve strengths wellNamed parents options nodes earlier other
    have same := DependencyGraph.sameCounts_build (distinctIds_nodes strengths wellNamed) counts
    exact ⟨counts, fun id => ⟨same.afferent_eq id, same.efferent_eq id⟩, same.reaches_iff,
      same.cycles_eq⟩
  · obtain ⟨origin, isOrigin, folded⟩ := List.mem_filterMap.mp (perm.mem_iff.mp member)
    by_cases takesUp : TakesUp given origin
    · obtain ⟨backward, isBackward, isMutual⟩ := takesUp
      rw [fold?_of_forward nodup isMutual isBackward] at folded
      cases folded
      exact .inr ⟨origin, isOrigin, backward, isBackward, isMutual, folds_merge isMutual⟩
    · by_cases takenUp : IsTakenUp given origin
      · obtain ⟨forward, isForward, isMutual⟩ := takenUp
        rw [fold?_of_backward nodup isMutual isForward] at folded
        cases folded
      · rw [fold?_of_alone nodup opposed isOrigin takesUp takenUp] at folded
        cases folded
        exact .inl ⟨isOrigin, directed_of_mem_unfolded wellNamed.distinct isOrigin⟩
  · refine ⟨merge forward backward, perm.mem_iff.mpr ?_, folds_merge isMutual⟩
    exact List.mem_filterMap.mpr ⟨forward, isForward, fold?_of_forward nodup isMutual isBackward⟩
  · rw [sum_occurrences_filter, ← sum_occurrences_unfolded strengths wellNamed.distinct]
    refine sum_relationships strengths wellNamed parents fun forward _ backward _ isMutual => ?_
    have kind : (merge forward backward).kind = .reference .associates := isMutual.there
    rw [kind, isMutual.there, isMutual.back]
    rfl

/-- Two classes that refer to each other, one of them twice and the other also to itself. -/
theorem resolve_folds_mutual_pair :
    let part (id : String) (references : List Reference) : Element :=
      { Element.sketch id "a.ts" references with kind := .classType, parentId := some "m" }
    let left := part "a" [⟨.associates, "b", 2⟩, ⟨.associates, "a", 3⟩]
    let right := part "b" [⟨.associates, "a", 6⟩, ⟨.associates, "a", 7⟩]
    let elements := [left, right]
    let strengths : Strengths Rat := ⟨1, 4 / 5, 1 / 2⟩
    let resolution := resolve strengths elements
    WellNamed elements ∧
      (∀ element ∈ elements, ∀ parent, element.parentId = some parent → Undivided parent) ∧
      (∃ relationship ∈ resolution.relationships, relationship.bidirectional = true ∧
        relationship.sourceId = "a" ∧ relationship.targetId = "b") ∧
      ((resolution.relationships.filter (·.kind ≠ .contains)).map (·.evidence.occurrences)).sum =
        (elements.map fun source =>
          (mentions strengths (.ofElements elements) source).length).sum := by
  intro part left right elements strengths resolution
  have wellNamed : WellNamed elements := by
    refine ⟨by decide, ?_, ?_⟩ <;>
    · intro element member
      simp only [elements, List.mem_cons, List.not_mem_nil, or_false] at member
      rcases member with rfl | rfl <;> decide
  have parents : ∀ element ∈ elements, ∀ parent, element.parentId = some parent →
      Undivided parent := by
    intro element member parent isParent
    simp only [elements, List.mem_cons, List.not_mem_nil, or_false] at member
    rcases member with rfl | rfl <;> cases isParent <;> decide
  have isLeft : left ∈ elements := List.mem_cons_self
  have isRight : right ∈ elements := by simp [elements]
  have there : Means elements left ⟨.associates, "b", 2⟩ "b" :=
    ⟨.exact, _, .found (by decide) (mem_foundAt.mpr ⟨isRight, by decide⟩)⟩
  have back : Means elements right ⟨.associates, "a", 6⟩ "a" :=
    ⟨.exact, _, .found (by decide) (mem_foundAt.mpr ⟨isLeft, by decide⟩)⟩
  obtain ⟨forward, isForward, forwardSource, forwardKind, forwardTarget⟩ :=
    exists_mem_unfolded strengths wellNamed.distinct (by decide) isLeft List.mem_cons_self there
  obtain ⟨backward, isBackward, backwardSource, backwardKind, backwardTarget⟩ :=
    exists_mem_unfolded strengths wellNamed.distinct (by decide) isRight List.mem_cons_self back
  have isMutual : Mutual forward backward := by
    refine ⟨forwardKind, backwardKind, ?_, ?_, ?_⟩
    · rw [backwardSource, forwardTarget]
      rfl
    · rw [backwardTarget, forwardSource]
      rfl
    · rw [forwardSource, forwardTarget]
      decide
  obtain ⟨-, -, folded, counted⟩ := resolve_folds_mutual strengths wellNamed parents
  obtain ⟨relationship, isRelationship, folds⟩ :=
    folded forward isForward backward isBackward isMutual
  refine ⟨wellNamed, parents, ⟨relationship, isRelationship, folds.bidirectional, ?_, ?_⟩, counted⟩
  · rw [folds.source, forwardSource]
    rfl
  · rw [folds.target, forwardTarget]

/-- The containment of a parent whose id holds separators can take the place of a reference, which
the graph of the relationships then lacks. -/
theorem resolve_folds_mutual_divided_parent :
    let caller (id : String) := Element.sketch id "main.ts" [⟨.calls, "x|contains|c", 1⟩]
    let child := { Element.sketch "c" "main.ts" [] with parentId := some "a|calls|external:x" }
    let elements := [caller "a", caller "b", child]
    let strengths : Strengths Rat := ⟨1, 4 / 5, 1 / 2⟩
    let options : GraphOptions Rat := ⟨RelationshipKind.references, ⟨1, 2, 3⟩⟩
    let resolution := resolve strengths elements
    let nodes := elements ++ resolution.externals
    let folded := DependencyGraph.build options nodes resolution.relationships none
    let plain := DependencyGraph.build options nodes
      (resolution.bySource.values.flatten ++ containments elements) none
    WellNamed elements ∧
      folded.edgeCount (.reference .calls) "a" "external:x|contains|c" = 0 ∧
      plain.edgeCount (.reference .calls) "a" "external:x|contains|c" = 1 ∧
      folded.efferent "a" = 0 ∧ plain.efferent "a" = 1 := by
  intro caller child elements strengths options resolution nodes folded plain
  have wellNamed : WellNamed elements := by
    refine ⟨by decide, ?_, ?_⟩ <;>
    · intro element member
      simp only [elements, List.mem_cons, List.not_mem_nil, or_false] at member
      rcases member with rfl | rfl | rfl <;> decide
  let edge (source : Element) : Relationship Rat :=
    first source ⟨.calls, "x|contains|c", 1⟩ ⟨"external:x|contains|c", 1 / 2, .external, 0⟩
  have ofFirst : resolveElement strengths (.ofElements elements) (caller "a") =
      [edge (caller "a")] :=
    resolveElement_of_unseen strengths (by decide) rfl (by decide)
  have ofSecond : resolveElement strengths (.ofElements elements) (caller "b") =
      [edge (caller "b")] :=
    resolveElement_of_unseen strengths (by decide) rfl (by decide)
  have ofChild : resolveElement strengths (.ofElements elements) child = [] :=
    Text.sortBy_of_sorted List.Pairwise.nil
  let replacing : Relationship Rat := containment "a|calls|external:x" "c"
  let outside := stub "external:x|contains|c" [.reference .calls]
  have given : resolution.bySource.values.flatten ++ containments elements =
      [edge (caller "a"), edge (caller "b"), replacing] := by
    rw [values_bySource_resolve strengths wellNamed.distinct]
    simp only [elements, List.map_cons, List.map_nil, ofFirst, ofSecond, ofChild]
    rfl
  have relationships : resolution.relationships = [replacing, edge (caller "b")] := by
    have assembled : resolution.relationships = Text.sortBy Relationship.id
        ((byId (resolution.bySource.values.flatten ++ containments elements)).values.filterMap
          (fold? (byId (resolution.bySource.values.flatten ++ containments elements)))) := rfl
    have kept : (byId [edge (caller "a"), edge (caller "b"), replacing]).values =
        [replacing, edge (caller "b")] := by
      rfl
    rw [assembled, given, kept]
    exact Text.sortBy_of_sorted (by decide)
  have externals : resolution.externals = [outside] := by
    have assembled : resolution.externals = stubs resolution.relationships := rfl
    have leading : [replacing, edge (caller "b")].filter (fun relationship =>
        Text.startsWith relationship.targetId externalBeginning) = [edge (caller "b")] := by
      rw [List.filter_cons_of_neg (by decide), List.filter_cons_of_pos (by decide)]
      rfl
    rw [assembled, relationships, stubs, leading]
    exact Text.sortBy_of_sorted (List.pairwise_singleton _ _)
  have isNodes : nodes = [caller "a", caller "b", child, outside] := by
    simp only [nodes, externals]
    rfl
  have isFolded : folded = DependencyGraph.ofSorted options
      [caller "a", caller "b", child, outside] [replacing, edge (caller "b")] := by
    simp only [folded, relationships, isNodes]
    exact DependencyGraph.fresh_of_sorted options (by decide) _
  have isPlain : plain = DependencyGraph.ofSorted options
      [caller "a", caller "b", child, outside]
      [edge (caller "a"), edge (caller "b"), replacing] := by
    simp only [plain, given, isNodes]
    exact DependencyGraph.fresh_of_sorted options (by decide) _
  rw [isFolded, isPlain]
  exact ⟨wellNamed, by decide +kernel, by decide +kernel, by decide +kernel, by decide +kernel⟩

end Resolution
end CodeAtlas
