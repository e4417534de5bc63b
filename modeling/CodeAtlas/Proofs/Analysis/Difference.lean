import CodeAtlas.Analysis.Difference
import CodeAtlas.Graph.Reuse
import CodeAtlas.Proofs.Element
import CodeAtlas.Proofs.Json.Injective
import CodeAtlas.Proofs.Table

/-!
# What differences tell

A difference reports the ids whose texts are looked up differently in two tables. Since texts tell
values, this says of each id whether it is new, gone, changed or kept, and differences behave like
distances: they can be turned round, and what differs at all differs on one of two ways.
-/

namespace CodeAtlas
namespace IdDifference

/-! ## Differences of tables -/

section Tables

variable {before middle after : Table String String} {key : String}

theorem mem_added : key ∈ (between before after).added ↔ key ∈ after.keys ∧ key ∉ before.keys := by
  simp [between, Text.mem_sort, ← Table.has_iff_mem_keys]

theorem mem_removed :
    key ∈ (between before after).removed ↔ key ∈ before.keys ∧ key ∉ after.keys := by
  simp [between, Text.mem_sort, ← Table.has_iff_mem_keys]

theorem mem_changed : key ∈ (between before after).changed ↔
    key ∈ after.keys ∧ key ∈ before.keys ∧ before.get? key ≠ after.get? key := by
  simp [between, Text.mem_sort, ← Table.has_iff_mem_keys]

/-- All ids that a difference reports. -/
def reported (difference : IdDifference) : List String :=
  difference.added ++ difference.removed ++ difference.changed

theorem mem_reported :
    key ∈ (between before after).reported ↔ before.get? key ≠ after.get? key := by
  rw [reported, List.mem_append, List.mem_append, mem_added, mem_removed, mem_changed]
  grind [Table.get?_eq_none_iff]

theorem mem_reported_or (isReported : key ∈ (between before after).reported) :
    key ∈ (between before middle).reported ∨ key ∈ (between middle after).reported := by
  rw [mem_reported] at isReported ⊢
  rw [mem_reported, ← not_and_or]
  exact fun same => isReported (same.1.trans same.2)

/-- The difference the other way round. -/
def swap (difference : IdDifference) : IdDifference :=
  ⟨difference.removed, difference.added, difference.changed⟩

theorem between_swap (beforeDistinct : before.Distinct) (afterDistinct : after.Distinct) :
    between after before = (between before after).swap := by
  have same (key : String) :
      key ∈ (between after before).changed ↔ key ∈ (between before after).changed := by
    rw [mem_changed, mem_changed, and_left_comm, ne_comm]
  have changed : (between after before).changed = (between before after).changed := by
    refine Text.sort_eq_of_perm ((List.perm_ext_iff_of_nodup (beforeDistinct.filter _)
      (afterDistinct.filter _)).mpr fun key => ?_)
    exact Text.mem_sort.symm.trans ((same key).trans Text.mem_sort)
  rw [swap, ← changed]
  rfl

/-- The lists of a difference in their strict order. -/
structure IsSorted (difference : IdDifference) : Prop where
  /-- The new ids. -/
  added : difference.added.Pairwise fun left right => Text.before left right
  /-- The ids that are gone. -/
  removed : difference.removed.Pairwise fun left right => Text.before left right
  /-- The ids with other values. -/
  changed : difference.changed.Pairwise fun left right => Text.before left right

theorem isSorted_between (beforeDistinct : before.Distinct) (afterDistinct : after.Distinct) :
    (between before after).IsSorted := by
  have sorted {keys : List String} (distinct : keys.Nodup) (wanted : String → Bool) :
      (Text.sort (keys.filter wanted)).Pairwise fun left right => Text.before left right :=
    Text.pairwise_before (Text.pairwise_sort _)
      ((Text.sort_perm _).nodup_iff.mpr (distinct.filter wanted))
  exact ⟨sorted afterDistinct _, sorted beforeDistinct _, sorted afterDistinct _⟩

end Tables

/-! ## Differences of values -/

/-- What becomes of an id between two lists. -/
inductive Fate where
  /-- It is new. -/
  | added
  /-- It is gone. -/
  | removed
  /-- It has another value. -/
  | changed
  /-- It has the same value. -/
  | kept
  deriving DecidableEq

/-- How a difference reports what becomes of an id. -/
def Reports (difference : IdDifference) (key : String) : Fate → Prop
  | .added => key ∈ difference.added
  | .removed => key ∈ difference.removed
  | .changed => key ∈ difference.changed
  | .kept => key ∉ difference.reported

/-- What becomes of an id between two tables. -/
def fate (before after : Table String String) (key : String) : Fate :=
  if before.get? key = after.get? key then .kept
  else if key ∉ before.keys then .added
  else if key ∉ after.keys then .removed
  else .changed

theorem reports_iff {before after : Table String String} {key : String} {outcome : Fate} :
    (between before after).Reports key outcome ↔ outcome = fate before after key := by
  cases outcome with
  | added =>
    rw [Reports, mem_added, fate]
    grind [Table.get?_eq_none_iff]
  | removed =>
    rw [Reports, mem_removed, fate]
    grind [Table.get?_eq_none_iff]
  | changed =>
    rw [Reports, mem_changed, fate]
    grind [Table.get?_eq_none_iff]
  | kept =>
    rw [Reports, mem_reported, fate]
    grind [Table.get?_eq_none_iff]

section Values

variable {β : Type} (id : β → String) (toJson : β → Json)

/-- What becomes of an id between two lists, by the values themselves. -/
def Meets (before after : List β) (key : String) : Fate → Prop
  | .added => key ∈ after.map id ∧ key ∉ before.map id
  | .removed => key ∈ before.map id ∧ key ∉ after.map id
  | .changed => ∃ old ∈ before, ∃ new ∈ after, id old = key ∧ id new = key ∧
      ¬ (toJson old).Agree (toJson new)
  | .kept => ∃ old ∈ before, ∃ new ∈ after, id old = key ∧ id new = key ∧
      (toJson old).Agree (toJson new)

/-- A difference that tells what becomes of each id. -/
structure Describes (before after : List β) (difference : IdDifference) : Prop where
  /-- An id is in one of the three lists or in none of them. -/
  fate : ∀ key, ∃! outcome, difference.Reports key outcome
  /-- What is reported of an id that occurs is what becomes of it. -/
  meets : ∀ key, key ∈ before.map id ∨ key ∈ after.map id →
    ∀ outcome, difference.Reports key outcome ↔ Meets id toJson before after key outcome
  /-- No other id is reported. -/
  occurs : ∀ key ∈ difference.reported, key ∈ before.map id ∨ key ∈ after.map id
  /-- The lists are sorted. -/
  sorted : difference.IsSorted

variable {id toJson}

theorem keys_textsById {values : List β} (distinct : (values.map id).Nodup) :
    (textsById id toJson values).keys = values.map id := by
  rw [textsById, Table.keys, Table.ofList_entries_of_nodup] <;> rw [List.map_map]
  · rfl
  · exact distinct

theorem get?_textsById {values : List β} (distinct : (values.map id).Nodup) {value : β}
    (member : value ∈ values) :
    (textsById id toJson values).get? (id value) = some (toJson value).canonical := by
  refine Table.get?_ofList_of_mem ?_ (List.mem_map.mpr ⟨value, member, rfl⟩)
  rw [List.map_map]
  exact distinct

variable {isNumber : Float → Prop} {before after : List β}
  (beforeDistinct : (before.map id).Nodup) (afterDistinct : (after.map id).Nodup)
  (beforeProper : ∀ value ∈ before, (toJson value).Proper isNumber)
  (afterProper : ∀ value ∈ after, (toJson value).Proper isNumber)

include beforeDistinct afterDistinct beforeProper afterProper

theorem get?_textsById_eq_iff {old new : β} (isOld : old ∈ before) (isNew : new ∈ after)
    (same : id old = id new) :
    (textsById id toJson before).get? (id new) = (textsById id toJson after).get? (id new) ↔
      (toJson old).Agree (toJson new) := by
  rw [get?_textsById afterDistinct isNew, ← same, get?_textsById beforeDistinct isOld,
    Option.some.injEq]
  exact Json.canonical_eq_iff (beforeProper old isOld) (afterProper new isNew)

/-- Tables of texts tell what becomes of the values. -/
theorem describes_between : Describes id toJson before after
    (between (textsById id toJson before) (textsById id toJson after)) where
  fate key := ⟨_, reports_iff.mpr rfl, fun _ reports => reports_iff.mp reports⟩
  sorted := isSorted_between (Table.distinct_ofList _) (Table.distinct_ofList _)
  occurs key isReported := by
    rw [mem_reported] at isReported
    by_contra nowhere
    obtain ⟨notBefore, notAfter⟩ := not_or.mp nowhere
    rw [← keys_textsById beforeDistinct, ← Table.get?_eq_none_iff] at notBefore
    rw [← keys_textsById afterDistinct, ← Table.get?_eq_none_iff] at notAfter
    exact isReported (notBefore.trans notAfter.symm)
  meets key occurs outcome := by
    have agree {old new : β} (isOld : old ∈ before) (isNew : new ∈ after)
        (same : id old = id new) := get?_textsById_eq_iff beforeDistinct afterDistinct
      beforeProper afterProper isOld isNew same
    have beforeKeys : (textsById id toJson before).keys = before.map id :=
      keys_textsById beforeDistinct
    have afterKeys : (textsById id toJson after).keys = after.map id :=
      keys_textsById afterDistinct
    cases outcome with
    | added => rw [Reports, mem_added, beforeKeys, afterKeys, Meets]
    | removed => rw [Reports, mem_removed, beforeKeys, afterKeys, Meets]
    | changed =>
      rw [Reports, mem_changed, beforeKeys, afterKeys, Meets]
      constructor
      · rintro ⟨inAfter, inBefore, differ⟩
        obtain ⟨new, isNew, rfl⟩ := List.mem_map.mp inAfter
        obtain ⟨old, isOld, same⟩ := List.mem_map.mp inBefore
        exact ⟨old, isOld, new, isNew, same, rfl, mt (agree isOld isNew same).mpr differ⟩
      · rintro ⟨old, isOld, new, isNew, same, rfl, differ⟩
        exact ⟨List.mem_map_of_mem isNew, same ▸ List.mem_map_of_mem isOld,
          mt (agree isOld isNew same).mp differ⟩
    | kept =>
      rw [Reports, mem_reported, not_not, Meets]
      constructor
      · intro same
        have present : key ∈ before.map id ↔ key ∈ after.map id := by
          rw [← not_iff_not, ← beforeKeys, ← afterKeys, ← Table.get?_eq_none_iff,
            ← Table.get?_eq_none_iff, same]
        have both : key ∈ before.map id ∧ key ∈ after.map id :=
          occurs.elim (fun isBefore => ⟨isBefore, present.mp isBefore⟩)
            fun isAfter => ⟨present.mpr isAfter, isAfter⟩
        obtain ⟨old, isOld, found⟩ := List.mem_map.mp both.1
        obtain ⟨new, isNew, rfl⟩ := List.mem_map.mp both.2
        exact ⟨old, isOld, new, isNew, found, rfl, (agree isOld isNew found).mp same⟩
      · rintro ⟨old, isOld, new, isNew, same, rfl, agreeing⟩
        exact (agree isOld isNew same).mpr agreeing

end Values

end IdDifference

/-! ## Values of the parts of an analysis -/

section Parts

/-- Every number counts as one. -/
abbrev AnyNumber (_ : Float) : Prop := True

theorem Json.proper_texts (values : List String) : (Json.texts values).Proper AnyNumber :=
  .arr (List.forall_mem_map.mpr fun value _ => .str value)

theorem Json.proper_nat (number : Nat) : (Json.nat number).Proper AnyNumber := .num trivial

theorem Json.proper_record {members : List (String × Option Json)}
    (distinct : (members.map (·.1)).Nodup)
    (proper : ∀ member ∈ members, ∀ value ∈ member.2, value.Proper AnyNumber) :
    (Json.record members).Proper AnyNumber := by
  have present (members : List (String × Option Json)) :
      ((members.filterMap fun member => member.2.map (member.1, ·)).map (·.1)).Sublist
        (members.map (·.1)) := by
    induction members with
    | nil => exact .slnil
    | cons member members induction =>
      obtain ⟨name, _ | value⟩ := member
      · exact induction.cons name
      · exact induction.cons_cons name
  refine .obj ((present members).nodup distinct) fun entry isEntry => ?_
  obtain ⟨member, isMember, made⟩ := List.mem_filterMap.mp isEntry
  obtain ⟨value, isValue, rfl⟩ := Option.map_eq_some_iff.mp made
  exact proper member isMember value isValue

theorem Reference.proper_toJson (reference : Reference) : reference.toJson.Proper AnyNumber :=
  .obj (by simp) (by simpa using ⟨.str _, .str _, Json.proper_nat _⟩)

theorem Element.proper_toJson {element : Element}
    (metadata : (Json.obj element.metadata).Proper AnyNumber) :
    element.toJson.Proper AnyNumber := by
  have references : (Json.arr (element.references.map Reference.toJson)).Proper AnyNumber :=
    .arr (List.forall_mem_map.mpr fun reference _ => reference.proper_toJson)
  have parent : ∀ value ∈ element.parentId.map Json.str, value.Proper AnyNumber :=
    Option.forall_mem_map.mpr fun id _ => .str id
  refine Json.proper_record (by simp) ?_
  simp only [List.forall_mem_cons, Option.mem_def, Option.some.injEq, forall_eq', List.not_mem_nil]
  exact ⟨.str _, .str _, .str _, .str _, .str _, .str _, Json.proper_nat _, Json.proper_nat _,
    .str _, .str _, Json.proper_texts _, parent, references, metadata, nofun⟩

theorem Evidence.proper_toJson (evidence : Evidence) : evidence.toJson.Proper AnyNumber := by
  have reference : ∀ value ∈ evidence.reference.map Json.str, value.Proper AnyNumber :=
    Option.forall_mem_map.mpr fun text _ => .str text
  have line : ∀ value ∈ evidence.line.map Json.nat, value.Proper AnyNumber :=
    Option.forall_mem_map.mpr fun number _ => Json.proper_nat number
  refine Json.proper_record (by simp) ?_
  simp only [List.forall_mem_cons, Option.mem_def, Option.some.injEq, forall_eq', List.not_mem_nil]
  exact ⟨.str _, .bool _, Json.proper_nat _, reference, line, Json.proper_nat _, nofun⟩

theorem Relationship.proper_toJson (relationship : Relationship Float) :
    relationship.toJson.Proper AnyNumber := by
  refine .obj (by simp) ?_
  simp only [List.forall_mem_cons, List.not_mem_nil]
  exact ⟨.str _, .str _, .str _, .str _, .num trivial, .bool _, relationship.evidence.proper_toJson,
    nofun⟩

theorem Boundary.proper_toJson (boundary : Boundary Float) :
    boundary.toJson.Proper AnyNumber := by
  refine .obj (by simp) ?_
  simp only [List.forall_mem_cons, List.not_mem_nil]
  exact ⟨.str _, .str _, .str _, Json.proper_texts _, Json.proper_texts _, .num trivial,
    .num trivial, .num trivial, nofun⟩

end Parts

/-- An analysis whose values are told by their ids and by their names: no part holds two values of
one id, and no object among the facts about an element holds two members of one name. -/
structure Analysis.IsKeyed (analysis : Analysis) : Prop where
  /-- Elements have different ids. -/
  elements : DistinctIds analysis.elements
  /-- Relationships have different ids. -/
  relationships : (analysis.relationships.map Relationship.id).Nodup
  /-- Boundaries have different ids. -/
  boundaries : (analysis.boundaries.map Boundary.id).Nodup
  /-- Members of objects have different names. -/
  metadata : ∀ element ∈ analysis.elements, (Json.obj element.metadata).Proper AnyNumber

namespace Difference

open IdDifference

/-- The differences between analyses tell what becomes of each id, in sorted lists. Two analyses
differ the same the other way round, but that what is new is gone then, and what two analyses differ
in is reported on one of two ways over a third one. -/
theorem between_describes {first second : Analysis} (isFirst : first.IsKeyed)
    (isSecond : second.IsKeyed) (third : Analysis) :
    let difference := between (some first) second
    let back := between (some second) first
    let further := between (some second) third
    let whole := between (some first) third
    (difference.elements.Describes Element.id Element.toJson first.elements second.elements ∧
      difference.relationships.Describes Relationship.id Relationship.toJson first.relationships
        second.relationships ∧
      difference.boundaries.Describes Boundary.id Boundary.toJson first.boundaries
        second.boundaries) ∧
    (back.elements = difference.elements.swap ∧
      back.relationships = difference.relationships.swap ∧
      back.boundaries = difference.boundaries.swap) ∧
    (∀ key ∈ whole.elements.reported,
      key ∈ difference.elements.reported ∨ key ∈ further.elements.reported) ∧
    (∀ key ∈ whole.relationships.reported,
      key ∈ difference.relationships.reported ∨ key ∈ further.relationships.reported) ∧
    ∀ key ∈ whole.boundaries.reported,
      key ∈ difference.boundaries.reported ∨ key ∈ further.boundaries.reported := by
  intro difference back further whole
  have firstElements (element : Element) (member : element ∈ first.elements) :=
    Element.proper_toJson (isFirst.metadata element member)
  have secondElements (element : Element) (member : element ∈ second.elements) :=
    Element.proper_toJson (isSecond.metadata element member)
  refine ⟨⟨?_, ?_, ?_⟩, ⟨?_, ?_, ?_⟩, ?_, ?_, ?_⟩
  · exact describes_between isFirst.elements isSecond.elements firstElements secondElements
  · exact describes_between isFirst.relationships isSecond.relationships
      (fun relationship _ => relationship.proper_toJson)
      fun relationship _ => relationship.proper_toJson
  · exact describes_between isFirst.boundaries isSecond.boundaries
      (fun boundary _ => boundary.proper_toJson) fun boundary _ => boundary.proper_toJson
  · exact between_swap (Table.distinct_ofList _) (Table.distinct_ofList _)
  · exact between_swap (Table.distinct_ofList _) (Table.distinct_ofList _)
  · exact between_swap (Table.distinct_ofList _) (Table.distinct_ofList _)
  · exact fun key => mem_reported_or
  · exact fun key => mem_reported_or
  · exact fun key => mem_reported_or

/-! ## Single analyses -/

/-- An analysis of elements that nothing relates. -/
def analysisOf (elements : List Element) : Analysis :=
  let graph := DependencyGraph.build .standard elements [] none
  { version := 1
    rootPath := "/"
    mode := .full
    createdAt := ⟨0⟩
    elements := elements
    relationships := []
    boundaries := []
    unassigned := elements.map Element.id
    layers := ⟨[], []⟩
    antiPatterns := []
    languageCounts := .empty
    metrics := Metrics.report .standard 0 graph []
    diagnostics := []
    graph := graph }

/-- A function with facts about it. -/
def functionOf (id : String) (endLine : Nat) (metadata : List (String × Json)) : Element :=
  { id := id
    name := id
    qualifiedName := id
    kind := .function
    language := "typescript"
    filePath := "a.ts"
    startLine := 1
    endLine := endLine
    moduleName := "a"
    visibility := .everyone
    modifiers := []
    parentId := none
    references := []
    metadata := metadata }

theorem isKeyed_analysisOf {elements : List Element} (distinct : DistinctIds elements)
    (metadata : ∀ element ∈ elements, (Json.obj element.metadata).Proper AnyNumber) :
    (analysisOf elements).IsKeyed :=
  ⟨distinct, List.nodup_nil, List.nodup_nil, metadata⟩

theorem proper_singleton (name : String) {value : Json} (proper : value.Proper AnyNumber) :
    (Json.obj [(name, value)]).Proper AnyNumber :=
  .obj (List.nodup_singleton name) (List.forall_mem_singleton.mpr proper)

/-- An element with another last line, one that is gone and one that is new. -/
theorem between_describes_moved_end :
    let before := functionOf "a.f" 1 []
    let after := functionOf "a.f" 2 []
    let gone := functionOf "a.g" 3 []
    let new := functionOf "a.h" 5 [("limit", .null)]
    let first := analysisOf [before, gone]
    let second := analysisOf [new, after]
    let third := analysisOf []
    first.IsKeyed ∧ second.IsKeyed ∧
      "a.f" ∈ (between (some first) second).elements.changed ∧
      "a.g" ∈ (between (some first) second).elements.removed ∧
      "a.h" ∈ (between (some first) second).elements.added ∧
      "a.h" ∈ (between (some second) first).elements.removed ∧
      ∀ key ∈ (between (some first) third).elements.reported,
        key ∈ (between (some first) second).elements.reported ∨
          key ∈ (between (some second) third).elements.reported := by
  intro before after gone new first second third
  have noFacts : (Json.obj []).Proper AnyNumber := .obj List.nodup_nil nofun
  have firstKeyed : first.IsKeyed := isKeyed_analysisOf (by decide)
    (List.forall_mem_cons.mpr ⟨noFacts, List.forall_mem_singleton.mpr noFacts⟩)
  have secondKeyed : second.IsKeyed := isKeyed_analysisOf (by decide)
    (List.forall_mem_cons.mpr
      ⟨proper_singleton "limit" .null, List.forall_mem_singleton.mpr noFacts⟩)
  have differ : ¬ before.toJson.Agree after.toJson := by
    intro agree
    have line : before.toJson.member? "endLine" = some (.nat 1) := rfl
    obtain ⟨_, isLine, agreeing⟩ :=
      agree.member? (Element.proper_toJson noFacts) (Element.proper_toJson noFacts) line
    cases isLine
    have alike : (Json.nat 1).expressible.Alike (Json.nat 2).expressible := agreeing
    simp only [Json.nat, Json.expressible] at alike
    rw [if_neg (by decide), if_neg (by decide)] at alike
    cases alike with
    | num same =>
      obtain same | same := same
      · exact absurd (congrArg Float.toBits same) (by decide)
      · exact absurd same.1 (by decide)
  obtain ⟨⟨described, -, -⟩, ⟨turned, -, -⟩, ways, -, -⟩ :=
    between_describes firstKeyed secondKeyed third
  have isAdded : "a.h" ∈ (between (some first) second).elements.added :=
    (described.meets "a.h" (.inr (by decide)) .added).mpr ⟨by decide, by decide⟩
  refine ⟨firstKeyed, secondKeyed, ?_, ?_, isAdded, turned ▸ isAdded, ways⟩
  · exact (described.meets "a.f" (.inl (by decide)) .changed).mpr
      ⟨before, List.mem_cons_self, after, List.mem_cons_of_mem new List.mem_cons_self, rfl, rfl,
        differ⟩
  · exact (described.meets "a.g" (.inl (by decide)) .removed).mpr ⟨by decide, by decide⟩

/-- The text of an infinite number is that of the absent value, so that an element whose facts
differ in that only is not reported. -/
theorem between_infinite_number :
    let infinite := functionOf "a.f" 1 [("limit", .num (1 / 0))]
    let absent := functionOf "a.f" 1 [("limit", .null)]
    (analysisOf [infinite]).IsKeyed ∧ (analysisOf [absent]).IsKeyed ∧
      infinite.id = absent.id ∧ ¬ infinite.toJson.Alike absent.toJson ∧
      infinite.id ∉
        (between (some (analysisOf [infinite])) (analysisOf [absent])).elements.changed := by
  intro infinite absent
  have infiniteFacts : (Json.obj infinite.metadata).Proper AnyNumber :=
    proper_singleton "limit" (.num trivial)
  have absentFacts : (Json.obj absent.metadata).Proper AnyNumber := proper_singleton "limit" .null
  have infiniteProper := Element.proper_toJson infiniteFacts
  have absentProper := Element.proper_toJson absentFacts
  refine ⟨?_, ?_, rfl, ?_, ?_⟩
  · exact isKeyed_analysisOf (by decide) (List.forall_mem_singleton.mpr infiniteFacts)
  · exact isKeyed_analysisOf (by decide) (List.forall_mem_singleton.mpr absentFacts)
  · intro alike
    have facts : infinite.toJson.member? "metadata" = some (.obj infinite.metadata) := rfl
    obtain ⟨_, isFacts, alikeFacts⟩ := alike.member? infiniteProper absentProper facts
    cases isFacts
    have limit : (Json.obj infinite.metadata).member? "limit" = some (.num (1 / 0)) := rfl
    obtain ⟨_, isLimit, alikeLimit⟩ := alikeFacts.member? infiniteFacts absentFacts limit
    cases isLimit
    cases alikeLimit
  · have special : ((1 / 0 : Float).isNaN || (1 / 0 : Float).isInf) = true := by decide
    have same : infinite.toJson.canonical = absent.toJson.canonical := by
      rw [← Json.canonical_expressible, ← Json.canonical_expressible absent.toJson]
      have limit : (Json.num (1 / 0)).expressible = Json.null.expressible := by
        simp only [Json.expressible, special, if_true]
      simp only [infinite, absent, functionOf, Element.toJson, Json.record, List.filterMap_cons,
        List.filterMap_nil, Option.map_some, Option.map_none, Json.expressible_obj, List.map_cons,
        List.map_nil, Prod.map, limit]
    have tables : textsById Element.id Element.toJson [infinite] =
        textsById Element.id Element.toJson [absent] :=
      congrArg (fun text => Table.ofList [("a.f", text)]) same
    change _ ∉ (IdDifference.between (textsById Element.id Element.toJson [infinite])
      (textsById Element.id Element.toJson [absent])).changed
    rw [tables, mem_changed]
    exact fun differs => differs.2.2 rfl

end Difference
end CodeAtlas
