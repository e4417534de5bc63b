import CodeAtlas.Proofs.Resolution.Lookup
import Mathlib.Data.List.DropRight

/-!
# What a reference means

A reference means the elements of a suitable kind that the first level of look-up finds: by
qualified name, by name in the module of its source, by the last segment of its target. If no level
finds any it means a stub. The candidates of a reference are what it means, each of them once, with
an equal part of the strength of their level.
-/

namespace CodeAtlas
namespace Resolution

/-! ## Last segments -/

/-- The last segment of a target: it comes before dividers only, and after a divider or nothing. A
target without segments counts as its own last segment. -/
inductive IsLastSegment (target : String) : String → Prop
  | segment {before segment after : List Char} (parts : target.toList = before ++ segment ++ after)
    (divided : ∀ last ∈ before.getLast?, isDivider last) (full : segment ≠ [])
    (whole : ∀ char ∈ segment, isDivider char = false) (ended : ∀ char ∈ after, isDivider char) :
    IsLastSegment target (String.ofList segment)
  | undivided (dividers : ∀ char ∈ target.toList, isDivider char) : IsLastSegment target target

theorem segmentsOf_ne_nil (chars : List Char) : segmentsOf chars ≠ [] := by
  cases chars with
  | nil => exact List.cons_ne_nil _ _
  | cons char rest =>
    rw [segmentsOf]
    split
    · exact List.cons_ne_nil _ _
    · split <;> exact List.cons_ne_nil _ _

theorem segmentsOf_append_cons {divider : Char} (divides : isDivider divider)
    (left right : List Char) :
    segmentsOf (left ++ divider :: right) = segmentsOf left ++ segmentsOf right := by
  induction left with
  | nil => simp [segmentsOf, divides]
  | cons char left induction =>
    rw [List.cons_append, segmentsOf, segmentsOf, induction]
    split
    · rfl
    · obtain ⟨segment, segments, isLeft⟩ := List.exists_cons_of_ne_nil (segmentsOf_ne_nil left)
      rw [isLeft]
      rfl

theorem segmentsOf_of_whole {segment : List Char}
    (whole : ∀ char ∈ segment, isDivider char = false) : segmentsOf segment = [segment] := by
  induction segment with
  | nil => rfl
  | cons char segment induction =>
    rw [segmentsOf, whole char List.mem_cons_self,
      induction fun other member => whole other (List.mem_cons_of_mem char member)]
    rfl

theorem segmentsOf_of_dividers {dividers : List Char} (divide : ∀ char ∈ dividers, isDivider char) :
    (segmentsOf dividers).filter (· ≠ []) = [] := by
  induction dividers with
  | nil => rfl
  | cons char dividers induction =>
    rw [segmentsOf, if_pos (divide char List.mem_cons_self)]
    exact induction fun other member => divide other (List.mem_cons_of_mem char member)

/-- Dividers after a segment add no segment. -/
theorem segmentsOf_append_of_dividers {segment after : List Char} (full : segment ≠ [])
    (whole : ∀ char ∈ segment, isDivider char = false) (ended : ∀ char ∈ after, isDivider char) :
    (segmentsOf (segment ++ after)).filter (· ≠ []) = [segment] := by
  cases after with
  | nil => rw [List.append_nil, segmentsOf_of_whole whole, List.filter_singleton,
      decide_eq_true full, cond_true]
  | cons divider after =>
    have rest := segmentsOf_of_dividers fun char member =>
      ended char (List.mem_cons_of_mem _ member)
    rw [segmentsOf_append_cons (ended divider List.mem_cons_self), segmentsOf_of_whole whole,
      List.filter_append, rest, List.append_nil, List.filter_singleton,
      decide_eq_true full, cond_true]

theorem IsLastSegment.lastSegment_eq {target name : String} (isLast : IsLastSegment target name) :
    lastSegment target = name := by
  cases isLast with
  | undivided dividers => rw [lastSegment, segmentsOf_of_dividers dividers]; rfl
  | @segment before segment after parts divided full whole ended =>
    have last : ((segmentsOf target.toList).filter (· ≠ [])).getLast? = some segment := by
      rw [parts, List.append_assoc]
      rcases List.eq_nil_or_concat' before with rfl | ⟨front, divider, rfl⟩
      · rw [List.nil_append, segmentsOf_append_of_dividers full whole ended]
        rfl
      · rw [List.append_assoc, List.singleton_append,
          segmentsOf_append_cons (divided divider (by simp)), List.filter_append,
          segmentsOf_append_of_dividers full whole ended, List.getLast?_append]
        rfl
    rw [lastSegment, last]

/-- What is left when the dividers at its end are dropped ends with the last segment. -/
theorem exists_isLastSegment (target : String) : ∃ name, IsLastSegment target name := by
  let rest := target.toList.rdropWhile isDivider
  by_cases dividers : ∀ char ∈ target.toList, isDivider char
  · exact ⟨target, .undivided dividers⟩
  · have present : rest ≠ [] := fun none => dividers (List.rdropWhile_eq_nil_iff.mp none)
    have last : ¬ isDivider (rest.getLast present) := List.rdropWhile_last_not _ _ present
    have parts : target.toList = rest.rdropWhile (!isDivider ·) ++ rest.rtakeWhile (!isDivider ·) ++
        target.toList.rtakeWhile isDivider := by
      rw [List.rdropWhile_append_rtakeWhile, List.rdropWhile_append_rtakeWhile]
    refine ⟨_, .segment parts ?_ ?_ ?_ ?_⟩
    · intro char isLast
      have full : rest.rdropWhile (!isDivider ·) ≠ [] := by
        rintro none
        rw [none] at isLast
        cases isLast
      rw [List.getLast?_eq_some_getLast full, Option.mem_some_iff] at isLast
      simpa [isLast] using List.rdropWhile_last_not (!isDivider ·) rest full
    · exact fun none => List.rtakeWhile_eq_nil_iff.mp none present (by simpa using last)
    · exact fun char member => by simpa using List.mem_rtakeWhile_imp member
    · exact fun char member => List.mem_rtakeWhile_imp member

theorem isLastSegment_iff {target name : String} :
    IsLastSegment target name ↔ name = lastSegment target := by
  refine ⟨fun isLast => isLast.lastSegment_eq.symm, ?_⟩
  rintro rfl
  obtain ⟨name, isLast⟩ := exists_isLastSegment target
  exact isLast.lastSegment_eq ▸ isLast

instance (target name : String) : Decidable (IsLastSegment target name) :=
  decidable_of_iff _ isLastSegment_iff.symm

/-! ## Levels -/

/-- Whether the name of an element is what a reference of another looks for at a level. -/
def Names (source : Element) (reference : Reference) (element : Element) : ResolutionLevel → Prop
  | .exact => element.qualifiedName = reference.target
  | .sameModule => (∀ char ∈ reference.target.toList, ¬ isDivider char) ∧
      element.moduleName = source.moduleName ∧ element.name = reference.target
  | .heuristic => IsLastSegment reference.target element.name
  | .external | .structural => False

instance (source : Element) (reference : Reference) (element : Element) (level : ResolutionLevel) :
    Decidable (Names source reference element level) :=
  match level with
  | .exact => inferInstanceAs (Decidable (_ = _))
  -- The characters of the target are looked at, not all characters there are.
  | .sameModule => @instDecidableAnd _ _ (List.decidableBAll _ _) inferInstance
  | .heuristic => inferInstanceAs (Decidable (IsLastSegment _ _))
  | .external | .structural => inferInstanceAs (Decidable False)

/-- The elements that a reference of an element finds at a level. -/
def foundAt (elements : List Element) (source : Element) (reference : Reference)
    (level : ResolutionLevel) : List Element :=
  elements.filter fun element =>
    Suits reference.kind element ∧ Names source reference element level

theorem mem_foundAt {elements : List Element} {source element : Element} {reference : Reference}
    {level : ResolutionLevel} :
    element ∈ foundAt elements source reference level ↔
      element ∈ elements ∧ Suits reference.kind element ∧ Names source reference element level := by
  rw [foundAt, List.mem_filter, decide_eq_true_iff]

/-- The levels at which a reference is looked up before a level. -/
def surer : ResolutionLevel → List ResolutionLevel
  | .exact | .structural => []
  | .sameModule => [.exact]
  | .heuristic => [.exact, .sameModule]
  | .external => [.exact, .sameModule, .heuristic]

/-- A reference of an element means a target, which it finds at a level together with others, so
many in all; a stub stands for none. -/
inductive Resolves (elements : List Element) (source : Element) (reference : Reference) :
    ResolutionLevel → Nat → String → Prop
  | found {level : ResolutionLevel} {element : Element}
    (unseen : ∀ earlier ∈ surer level, foundAt elements source reference earlier = [])
    (member : element ∈ foundAt elements source reference level) :
    Resolves elements source reference level (foundAt elements source reference level).length
      element.id
  | stub (unseen : ∀ earlier ∈ surer .external, foundAt elements source reference earlier = []) :
    Resolves elements source reference .external 0 (externalId reference.target)

/-- A reference of an element means a target. -/
def Means (elements : List Element) (source : Element) (reference : Reference) (target : String) :
    Prop :=
  ∃ level count, Resolves elements source reference level count target

variable {α : Type} [Scalar α]

/-- How sure a reference is that finds so many elements at a level. -/
def Strengths.shared (strengths : Strengths α) : ResolutionLevel → Nat → α
  | .exact, count => Scalar.div strengths.exact (Scalar.ofNat count)
  | .sameModule, count => Scalar.div strengths.sameModule (Scalar.ofNat count)
  | .heuristic, count => Scalar.div strengths.heuristic (Scalar.ofNat count)
  | .external, _ => strengths.heuristic
  | .structural, _ => Scalar.zero

/-! ## Candidates -/

variable {elements : List Element} {source : Element} {reference : Reference}

theorem suitable_perm {property : Element → Prop} [DecidablePred property]
    {level : ResolutionLevel}
    (same : ∀ element, property element ↔ Names source reference element level) :
    (suitable elements reference.kind property).Perm
      (foundAt elements source reference level) := by
  refine (Text.sortBy_perm Element.id _).trans (.of_eq (List.filter_congr fun element _ => ?_))
  simp only [same]

theorem exactMatches_perm (elements : List Element) (source : Element) (reference : Reference) :
    (exactMatches (.ofElements elements) reference).Perm
      (foundAt elements source reference .exact) := by
  rw [exactMatches_eq]
  exact suitable_perm fun _ => .rfl

theorem sameModuleMatches_perm (undivided : UndividedModules (source :: elements))
    (reference : Reference) :
    (sameModuleMatches (.ofElements elements) source.moduleName reference).Perm
      (foundAt elements source reference .sameModule) := by
  have divided : isQualified reference.target = false ↔
      ∀ char ∈ reference.target.toList, ¬ isDivider char := List.any_eq_false
  rw [sameModuleMatches_eq reference undivided]
  split
  case isTrue qualified =>
    refine .of_eq (Eq.symm (List.eq_nil_iff_forall_not_mem.mpr fun element member => ?_))
    obtain ⟨-, -, clear, -⟩ := mem_foundAt.mp member
    rw [divided.mpr clear] at qualified
    cases qualified
  case isFalse unqualified =>
    rw [Bool.not_eq_true, divided] at unqualified
    exact suitable_perm fun element => (and_iff_right unqualified).symm

theorem namedMatches_perm (elements : List Element) (source : Element) (reference : Reference) :
    (namedMatches (.ofElements elements) reference).Perm
      (foundAt elements source reference .heuristic) := by
  rw [namedMatches_eq]
  exact suitable_perm fun _ => isLastSegment_iff.symm

theorem foundAt_eq_nil {level : ResolutionLevel}
    (outside : level = .external ∨ level = .structural) :
    foundAt elements source reference level = [] := by
  refine List.eq_nil_iff_forall_not_mem.mpr fun element member => ?_
  obtain ⟨-, -, names⟩ := mem_foundAt.mp member
  rcases outside with rfl | rfl <;> exact names

/-- The level that decides: something is found there and nothing before. -/
def Decides (elements : List Element) (source : Element) (reference : Reference)
    (level : ResolutionLevel) : Prop :=
  foundAt elements source reference level ≠ [] ∧
    ∀ earlier ∈ surer level, foundAt elements source reference earlier = []

theorem Decides.eq {level other : ResolutionLevel}
    (decides : Decides elements source reference level)
    (otherDecides : Decides elements source reference other) : level = other := by
  obtain ⟨found, unseen⟩ := decides
  obtain ⟨otherFound, otherUnseen⟩ := otherDecides
  cases level <;> cases other <;>
    simp_all [surer, foundAt_eq_nil]

theorem not_decides_of_unseen {level : ResolutionLevel}
    (unseen : ∀ earlier ∈ surer .external, foundAt elements source reference earlier = []) :
    ¬ Decides elements source reference level := by
  rintro ⟨found, -⟩
  cases level <;> simp_all [surer, foundAt_eq_nil]

/-- The candidates of a reference: the elements of the level that decides, or a stub. -/
inductive Candidates (strengths : Strengths α) (elements : List Element) (source : Element)
    (reference : Reference) : List (Candidate α) → Prop
  | found {level : ResolutionLevel} {found : List Element}
    (decides : Decides elements source reference level)
    (perm : found.Perm (foundAt elements source reference level)) :
    Candidates strengths elements source reference (found.map fun element =>
      ⟨element.id, strengths.shared level found.length, level, found.length⟩)
  | stub (unseen : ∀ earlier ∈ surer .external, foundAt elements source reference earlier = []) :
    Candidates strengths elements source reference
      [⟨externalId reference.target, strengths.heuristic, .external, 0⟩]

theorem candidates_view (strengths : Strengths α)
    (undivided : UndividedModules (source :: elements)) (reference : Reference) :
    Candidates strengths elements source reference
      (candidates strengths (.ofElements elements) source reference) := by
  have exact := exactMatches_perm elements source reference
  have near := sameModuleMatches_perm undivided reference
  have named := namedMatches_perm elements source reference
  unfold candidates
  simp only [Bool.not_eq_true', List.isEmpty_eq_false_iff]
  split
  case isTrue present =>
    exact .found ⟨fun none => present (none ▸ exact).eq_nil, by simp [surer]⟩ exact
  case isFalse absent =>
    have noExact : foundAt elements source reference .exact = [] :=
      (not_not.mp absent ▸ exact).nil_eq.symm
    split
    case isTrue present =>
      exact .found ⟨fun none => present (none ▸ near).eq_nil, by simpa [surer] using noExact⟩ near
    case isFalse absent =>
      have noNear : foundAt elements source reference .sameModule = [] :=
        (not_not.mp absent ▸ near).nil_eq.symm
      split
      case isTrue present =>
        exact .found ⟨fun none => present (none ▸ named).eq_nil,
          by simpa [surer] using ⟨noExact, noNear⟩⟩ named
      case isFalse absent =>
        have noNamed : foundAt elements source reference .heuristic = [] :=
          (not_not.mp absent ▸ named).nil_eq.symm
        exact .stub (by simpa [surer] using ⟨noExact, noNear, noNamed⟩)

theorem Candidates.mem_iff {strengths : Strengths α} {listed : List (Candidate α)}
    (view : Candidates strengths elements source reference listed) {candidate : Candidate α} :
    candidate ∈ listed ↔
      Resolves elements source reference candidate.level candidate.count candidate.targetId ∧
        candidate.strength = strengths.shared candidate.level candidate.count := by
  obtain ⟨targetId, strength, level, count⟩ := candidate
  dsimp only
  cases view with
  | @found decided found decides perm =>
    rw [perm.length_eq, List.mem_map]
    constructor
    · rintro ⟨element, isFound, same⟩
      cases same
      exact ⟨.found decides.2 (perm.mem_iff.mp isFound), rfl⟩
    · rintro ⟨resolves, rfl⟩
      cases resolves with
      | stub unseen => exact absurd decides (not_decides_of_unseen unseen)
      | @found _ element unseen member =>
        have same := decides.eq ⟨List.ne_nil_of_mem member, unseen⟩
        subst same
        exact ⟨element, perm.mem_iff.mpr member, rfl⟩
  | stub unseen =>
    rw [List.mem_singleton]
    constructor
    · intro same
      cases same
      exact ⟨.stub unseen, rfl⟩
    · rintro ⟨resolves, rfl⟩
      cases resolves with
      | stub => rfl
      | found earlier member =>
        exact absurd ⟨List.ne_nil_of_mem member, earlier⟩ (not_decides_of_unseen unseen)

/-- The candidates of a reference are what it means. -/
theorem mem_candidates_iff (undivided : UndividedModules (source :: elements))
    {strengths : Strengths α} {candidate : Candidate α} :
    candidate ∈ candidates strengths (.ofElements elements) source reference ↔
      Resolves elements source reference candidate.level candidate.count candidate.targetId ∧
        candidate.strength = strengths.shared candidate.level candidate.count :=
  (candidates_view strengths undivided reference).mem_iff

/-- All targets of a reference are found at one level and together. -/
theorem Resolves.eq {level other : ResolutionLevel} {count otherCount : Nat}
    {target otherTarget : String} (resolves : Resolves elements source reference level count target)
    (otherResolves : Resolves elements source reference other otherCount otherTarget) :
    level = other ∧ count = otherCount := by
  cases resolves with
  | found unseen member =>
    have decides : Decides elements source reference level := ⟨List.ne_nil_of_mem member, unseen⟩
    cases otherResolves with
    | found otherUnseen otherMember =>
      have same := decides.eq ⟨List.ne_nil_of_mem otherMember, otherUnseen⟩
      subst same
      exact ⟨rfl, rfl⟩
    | stub otherUnseen => exact absurd decides (not_decides_of_unseen otherUnseen)
  | stub unseen =>
    cases otherResolves with
    | found otherUnseen member =>
      exact absurd ⟨List.ne_nil_of_mem member, otherUnseen⟩ (not_decides_of_unseen unseen)
    | stub => exact ⟨rfl, rfl⟩

theorem means_iff (strengths : Strengths α) (undivided : UndividedModules (source :: elements))
    {target : String} :
    Means elements source reference target ↔ target ∈
      (candidates strengths (.ofElements elements) source reference).map Candidate.targetId := by
  rw [List.mem_map]
  constructor
  · rintro ⟨level, count, resolves⟩
    exact ⟨⟨target, strengths.shared level count, level, count⟩,
      (mem_candidates_iff undivided).mpr ⟨resolves, rfl⟩, rfl⟩
  · rintro ⟨candidate, member, rfl⟩
    exact ⟨candidate.level, candidate.count, ((mem_candidates_iff undivided).mp member).1⟩

/-- What a reference means is found by going through the levels. -/
theorem means_iff_found {target : String} :
    Means elements source reference target ↔
      (∃ level ∈ surer .external,
        (∀ earlier ∈ surer level, foundAt elements source reference earlier = []) ∧
          ∃ element ∈ foundAt elements source reference level, element.id = target) ∨
      ((∀ earlier ∈ surer .external, foundAt elements source reference earlier = []) ∧
        externalId reference.target = target) := by
  constructor
  · rintro ⟨level, count, resolves⟩
    cases resolves with
    | stub unseen => exact .inr ⟨unseen, rfl⟩
    | found unseen member =>
      refine .inl ⟨level, ?_, unseen, _, member, rfl⟩
      cases level <;> simp_all [surer, foundAt_eq_nil]
  · rintro (⟨level, _, unseen, element, member, rfl⟩ | ⟨unseen, rfl⟩)
    · exact ⟨level, _, .found unseen member⟩
    · exact ⟨.external, 0, .stub unseen⟩

instance (elements : List Element) (source : Element) (reference : Reference) (target : String) :
    Decidable (Means elements source reference target) :=
  decidable_of_iff _ means_iff_found.symm

theorem candidates_of_unseen (strengths : Strengths α)
    (undivided : UndividedModules (source :: elements))
    (unseen : ∀ earlier ∈ surer .external, foundAt elements source reference earlier = []) :
    candidates strengths (.ofElements elements) source reference =
      [⟨externalId reference.target, strengths.heuristic, .external, 0⟩] := by
  have view := candidates_view strengths undivided reference
  revert view
  generalize candidates strengths (.ofElements elements) source reference = listed
  rintro (⟨decides, _⟩ | _)
  · exact absurd decides (not_decides_of_unseen unseen)
  · rfl

theorem nodup_targetIds_candidates (strengths : Strengths α) (distinct : DistinctIds elements)
    (undivided : UndividedModules (source :: elements)) (reference : Reference) :
    ((candidates strengths (.ofElements elements) source reference).map
      Candidate.targetId).Nodup := by
  have view := candidates_view strengths undivided reference
  revert view
  generalize candidates strengths (.ofElements elements) source reference = listed
  rintro (⟨decides, perm⟩ | unseen)
  · rw [List.map_map]
    exact (distinct.filter _).of_perm perm.symm
  · exact List.nodup_singleton _

end Resolution
end CodeAtlas
