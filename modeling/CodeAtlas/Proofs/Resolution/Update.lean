import CodeAtlas.Proofs.Resolution.Lookup
import CodeAtlas.Resolution.Basic

/-!
# Resolution after changes

A reference that names nothing in a changed file has the candidates it had: on each of the three
levels of look-up, every element that it could find has one of the two names that are checked, as
long as no name of a module divides the key of a name in a module in another way. An element in a
file that has not changed therefore keeps its relationships, and following a list of changes one by
one gives at each of them the resolution of all elements.
-/

namespace CodeAtlas
namespace Resolution

/-- Outside of changed files two lists have the same elements. -/
def SameOutside (changed : List String) (old new : List Element) : Prop :=
  ∀ element : Element, element.filePath ∉ changed → (element ∈ old ↔ element ∈ new)

/-- The elements after a change, and the files that it may have touched. -/
structure Change where
  /-- All elements after the change. -/
  elements : List Element
  /-- The files that may have changed. -/
  files : List String

/-- Each change of a list touches only its files and leaves ids distinct and modules undivided. -/
def Chained : List Element → List Change → Prop
  | _, [] => True
  | old, change :: changes =>
    DistinctIds change.elements ∧ UndividedModules change.elements ∧
      SameOutside change.files old change.elements ∧ Chained change.elements changes

variable {α : Type} [Scalar α]

/-- The resolutions after each change of a list. -/
def follow (strengths : Strengths α) : Resolution α → List Change → List (Resolution α)
  | _, [] => []
  | previous, change :: changes =>
    let next := update strengths previous change.elements change.files
    next :: follow strengths next changes

theorem resolveElement_congr (strengths : Strengths α) {symbols other : Symbols} {source : Element}
    (same : ∀ reference ∈ source.references,
      candidates strengths symbols source reference = candidates strengths other source reference) :
    resolveElement strengths symbols source = resolveElement strengths other source := by
  have mentionsSame : mentions strengths symbols source = mentions strengths other source :=
    List.flatMap_congr fun reference member => by rw [same reference member]
  unfold resolveElement
  rw [mentionsSame]

/-- An element whose only reference has one candidate has one relationship. -/
theorem resolveElement_of_single {strengths : Strengths α} {symbols : Symbols} {source : Element}
    {reference : Reference} {candidate : Candidate α} (only : source.references = [reference])
    (single : candidates strengths symbols source reference = [candidate]) :
    resolveElement strengths symbols source = [first source reference candidate] := by
  have mentioned : mentions strengths symbols source = [(reference, candidate)] := by
    rw [mentions, only, List.flatMap_singleton, single]
    rfl
  rw [resolveElement, mentioned]
  exact Text.sortBy_of_sorted (List.pairwise_singleton _ _)

section Candidates

variable {changed : List String} {old new : List Element}
  (oldDistinct : DistinctIds old) (newDistinct : DistinctIds new)
  (same : SameOutside changed old new)

include oldDistinct newDistinct same

omit [Scalar α] in
/-- Elements that no changed file holds are found in both lists alike. -/
theorem suitable_eq_of_outside (kind : ReferenceKind) (property : Element → Prop)
    [DecidablePred property]
    (outside : ∀ element ∈ old ++ new, property element → element.filePath ∉ changed) :
    suitable old kind property = suitable new kind property := by
  apply (oldDistinct.filter _).sortBy_id_eq
  apply (List.perm_ext_iff_of_nodup (oldDistinct.nodup.filter _)
    (newDistinct.nodup.filter _)).mpr
  intro element
  simp only [List.mem_filter, decide_eq_true_iff]
  constructor
  · rintro ⟨member, suits, holds⟩
    have untouched := outside element (List.mem_append_left new member) holds
    exact ⟨(same element untouched).mp member, suits, holds⟩
  · rintro ⟨member, suits, holds⟩
    have untouched := outside element (List.mem_append_right old member) holds
    exact ⟨(same element untouched).mpr member, suits, holds⟩

/-- A target that is none of the keys of elements in changed files has the candidates it had. -/
theorem candidates_eq_of_untouched (strengths : Strengths α) (source : Element)
    (reference : Reference)
    (untouched : ∀ element ∈ old ++ new, element.filePath ∈ changed →
      element.qualifiedName ≠ reference.target ∧
      moduleKey element.moduleName element.name ≠ moduleKey source.moduleName reference.target ∧
      element.name ≠ lastSegment reference.target) :
    candidates strengths (.ofElements old) source reference =
      candidates strengths (.ofElements new) source reference := by
  have exactSame : exactMatches (.ofElements old) reference =
      exactMatches (.ofElements new) reference := by
    rw [exactMatches_eq, exactMatches_eq]
    exact suitable_eq_of_outside oldDistinct newDistinct same _ _
      fun element member matched touched => (untouched element member touched).1 matched
  have nearSame : sameModuleMatches (.ofElements old) source.moduleName reference =
      sameModuleMatches (.ofElements new) source.moduleName reference := by
    rw [sameModuleMatches_eq_of_key, sameModuleMatches_eq_of_key]
    exact congrArg (ite _ _) (suitable_eq_of_outside oldDistinct newDistinct same _ _
      fun element member matched touched => (untouched element member touched).2.1 matched)
  have namedSame : namedMatches (.ofElements old) reference =
      namedMatches (.ofElements new) reference := by
    rw [namedMatches_eq, namedMatches_eq]
    exact suitable_eq_of_outside oldDistinct newDistinct same _ _
      fun element member matched touched => (untouched element member touched).2.2 matched
  unfold candidates
  rw [exactSame, nearSame, namedSame]

theorem candidates_eq_of_unnamed (strengths : Strengths α) {source : Element}
    (undivided : UndividedModules (old ++ new))
    (sourceUndivided : '\x00' ∉ source.moduleName.toList) (reference : Reference)
    (targetUnnamed : reference.target ∉ changedNames (old ++ new) changed)
    (segmentUnnamed : lastSegment reference.target ∉ changedNames (old ++ new) changed) :
    candidates strengths (.ofElements old) source reference =
      candidates strengths (.ofElements new) source reference := by
  refine candidates_eq_of_untouched oldDistinct newDistinct same strengths source reference
    fun element member touched => ?_
  have kept : element ∈ (old ++ new).filter fun element => changed.contains element.filePath :=
    List.mem_filter.mpr ⟨member, by simpa using touched⟩
  have qualified : element.qualifiedName ∈ changedNames (old ++ new) changed :=
    List.mem_flatMap.mpr ⟨element, kept, by simp⟩
  have named : element.name ∈ changedNames (old ++ new) changed :=
    List.mem_flatMap.mpr ⟨element, kept, by simp⟩
  refine ⟨fun matched => targetUnnamed (matched ▸ qualified), fun matched => ?_,
    fun matched => segmentUnnamed (matched ▸ named)⟩
  obtain ⟨-, sameName⟩ := (moduleKey_inj (undivided element member) sourceUndivided).mp matched
  exact targetUnnamed (sameName ▸ named)

/-- An element none of whose references means a changed name has the relationships it had. -/
theorem resolveElement_eq_of_unnamed (strengths : Strengths α) {source : Element}
    (undivided : UndividedModules (old ++ new))
    (sourceUndivided : '\x00' ∉ source.moduleName.toList)
    (unnamed : mayMean (changedNames (old ++ new) changed) source = false) :
    resolveElement strengths (.ofElements old) source =
      resolveElement strengths (.ofElements new) source := by
  refine resolveElement_congr strengths fun reference member => ?_
  have clear := List.any_eq_false.mp unnamed reference member
  simp only [Bool.or_eq_true, List.contains_iff_mem, not_or] at clear
  exact candidates_eq_of_unnamed oldDistinct newDistinct same strengths undivided sourceUndivided
    reference clear.1 clear.2

end Candidates

theorem get?_bySource_resolve (strengths : Strengths α) {elements : List Element}
    (distinct : DistinctIds elements) {element : Element} (member : element ∈ elements) :
    (resolve strengths elements).bySource.get? element.id =
      some (resolveElement strengths (.ofElements elements) element) := by
  apply Table.get?_ofList_of_mem
  · rw [List.map_map]
    exact distinct
  · exact List.mem_map_of_mem member

/-- One change: what is taken over is what would be found anew. -/
theorem update_resolve (strengths : Strengths α) {changed : List String} {old new : List Element}
    (oldDistinct : DistinctIds old) (newDistinct : DistinctIds new)
    (undivided : UndividedModules (old ++ new)) (same : SameOutside changed old new) :
    update strengths (resolve strengths old) new changed = resolve strengths new := by
  have again (element : Element) (member : element ∈ new) :
      resolveAgain strengths (resolve strengths old) (.ofElements new) changed
        (changedNames (old ++ new) changed) element =
          resolveElement strengths (.ofElements new) element := by
    unfold resolveAgain
    split
    case h_2 => rfl
    case h_1 kept isKept =>
      split
      case isFalse => rfl
      case isTrue reusable =>
        rw [Bool.and_eq_true, Bool.not_eq_true', Bool.not_eq_true'] at reusable
        have untouched : element.filePath ∉ changed := by simpa using reusable.1
        have oldMember : element ∈ old := (same element untouched).mpr member
        rw [get?_bySource_resolve strengths oldDistinct oldMember] at isKept
        rw [← Option.some.inj isKept]
        exact resolveElement_eq_of_unnamed oldDistinct newDistinct same strengths undivided
          (undivided element (List.mem_append_right old member)) reusable.2
  have entriesSame : (new.map fun element => (element.id,
        resolveAgain strengths (resolve strengths old) (.ofElements new) changed
          (changedNames (old ++ new) changed) element)) =
      new.map fun element => (element.id, resolveElement strengths (.ofElements new) element) :=
    List.map_congr_left fun element member => by rw [again element member]
  change assemble new (Table.ofList (new.map fun element => (element.id,
    resolveAgain strengths (resolve strengths old) (.ofElements new) changed
      (changedNames (old ++ new) changed) element))) = resolve strengths new
  rw [entriesSame]
  rfl

/-- A caller in a module whose name holds the character that joins it with another name. -/
def dividedCaller : Element :=
  { Element.sketch "s" "a.ts" [⟨.calls, "t", 1⟩] with moduleName := "m\x00x" }

/-- An element of another module and name that has the key of what the caller calls. -/
def joinedCallee : Element :=
  { Element.sketch "e" "b.ts" [] with
    name := "x\x00t"
    qualifiedName := "q"
    moduleName := "m" }

/-- The call as it is resolved beside the callee. -/
def joinedCall : Relationship Float :=
  first dividedCaller ⟨.calls, "t", 1⟩ ⟨"e", Scalar.div 0.8 (Scalar.ofNat 1), .sameModule, 1⟩

/-- The call as it is resolved without the callee. -/
def externalCall : Relationship Float :=
  first dividedCaller ⟨.calls, "t", 1⟩ ⟨"external:t", 0.5, .external, 0⟩

theorem resolveElement_dividedCaller_beside :
    resolveElement Strengths.standard (.ofElements [dividedCaller, joinedCallee]) dividedCaller =
      [joinedCall] := by
  have exact : exactMatches (.ofElements [dividedCaller, joinedCallee]) ⟨.calls, "t", 1⟩ = [] := by
    rw [exactMatches_eq]
    exact Text.sortBy_of_sorted (by decide)
  have near : sameModuleMatches (.ofElements [dividedCaller, joinedCallee])
      dividedCaller.moduleName ⟨.calls, "t", 1⟩ = [joinedCallee] := by
    rw [sameModuleMatches_eq_of_key, if_neg (by decide)]
    exact Text.sortBy_of_sorted (by decide)
  apply resolveElement_of_single rfl
  rw [candidates, exact, near]
  rfl

theorem resolveElement_dividedCaller_alone :
    resolveElement Strengths.standard (.ofElements [dividedCaller]) dividedCaller =
      [externalCall] := by
  have exact : exactMatches (.ofElements [dividedCaller]) ⟨.calls, "t", 1⟩ = [] := by
    rw [exactMatches_eq]
    exact Text.sortBy_of_sorted (by decide)
  have near : sameModuleMatches (.ofElements [dividedCaller]) dividedCaller.moduleName
      ⟨.calls, "t", 1⟩ = [] := by
    rw [sameModuleMatches_eq_of_key, if_neg (by decide)]
    exact Text.sortBy_of_sorted (by decide)
  have named : namedMatches (.ofElements [dividedCaller]) ⟨.calls, "t", 1⟩ = [] := by
    rw [namedMatches_eq]
    exact Text.sortBy_of_sorted (by decide)
  apply resolveElement_of_single rfl
  rw [candidates, exact, near, named]
  rfl

/-- Where modules are divided, an element of another module and name can have the key of a target,
and its removal goes unnoticed. -/
theorem update_resolve_divided_module :
    DistinctIds [dividedCaller, joinedCallee] ∧
      SameOutside ["b.ts"] [dividedCaller, joinedCallee] [dividedCaller] ∧
      (update Strengths.standard (resolve Strengths.standard [dividedCaller, joinedCallee])
        [dividedCaller] ["b.ts"]).bySource.get? "s" = some [joinedCall] ∧
      (resolve Strengths.standard [dividedCaller]).bySource.get? "s" = some [externalCall] ∧
      joinedCall.targetId ≠ externalCall.targetId := by
  have distinct : DistinctIds [dividedCaller, joinedCallee] := by decide
  have same : SameOutside ["b.ts"] [dividedCaller, joinedCallee] [dividedCaller] := by
    intro element untouched
    have other : element ≠ joinedCallee := by
      rintro rfl
      exact untouched (by decide)
    simp [other]
  have known := get?_bySource_resolve Strengths.standard distinct
    (List.mem_cons_self : dividedCaller ∈ [dividedCaller, joinedCallee])
  have again : resolveAgain Strengths.standard
      (resolve Strengths.standard [dividedCaller, joinedCallee]) (.ofElements [dividedCaller])
      ["b.ts"] (changedNames [dividedCaller, joinedCallee, dividedCaller] ["b.ts"])
        dividedCaller = [joinedCall] := by
    rw [resolveAgain, known, resolveElement_dividedCaller_beside]
    exact if_pos (by decide)
  refine ⟨distinct, same, ?_, ?_, by decide⟩
  · rw [← again]
    rfl
  · rw [← resolveElement_dividedCaller_alone]
    exact get?_bySource_resolve Strengths.standard (by decide) List.mem_cons_self

/-- Following changes one by one gives at each of them the resolution of all elements. -/
theorem follow_resolve (strengths : Strengths α) (start : List Element) (changes : List Change)
    (distinct : DistinctIds start) (undivided : UndividedModules start)
    (chained : Chained start changes) :
    follow strengths (resolve strengths start) changes =
      changes.map fun change => resolve strengths change.elements := by
  induction changes generalizing start with
  | nil => rfl
  | cons change changes induction =>
    obtain ⟨newDistinct, newUndivided, same, rest⟩ := chained
    have bothUndivided : UndividedModules (start ++ change.elements) :=
      List.forall_mem_append.mpr ⟨undivided, newUndivided⟩
    rw [follow, List.map_cons, update_resolve strengths distinct newDistinct bothUndivided same,
      induction change.elements newDistinct newUndivided rest]

/-- A function that is called from elsewhere moves to another file in two changes. -/
theorem follow_resolve_moved_callee :
    let caller := Element.sketch "a.run" "a.ts" [⟨.calls, "b.save", 3⟩, ⟨.calls, "log", 4⟩]
    let callee := Element.sketch "b.save" "b.ts" []
    let moved := Element.sketch "c.save" "c.ts" []
    let changes : List Change := [⟨[caller], ["b.ts"]⟩, ⟨[moved, caller], ["c.ts", "d.ts"]⟩]
    DistinctIds [caller, callee] ∧ UndividedModules [caller, callee] ∧
      Chained [caller, callee] changes ∧
      follow Strengths.standard (resolve Strengths.standard [caller, callee]) changes =
        [resolve Strengths.standard [caller], resolve Strengths.standard [moved, caller]] := by
  intro caller callee moved changes
  have distinct : DistinctIds [caller, callee] := by decide
  have undivided : UndividedModules [caller, callee] := by decide
  have chained : Chained [caller, callee] changes := by
    refine ⟨by decide, by decide, ?_, by decide, by decide, ?_, trivial⟩
    · intro element untouched
      have other : element ≠ callee := by
        rintro rfl
        exact untouched (by decide)
      simp [other]
    · intro element untouched
      have other : element ≠ moved := by
        rintro rfl
        exact untouched (by decide)
      simp [other]
  exact ⟨distinct, undivided, chained,
    follow_resolve Strengths.standard [caller, callee] changes distinct undivided chained⟩

end Resolution
end CodeAtlas
