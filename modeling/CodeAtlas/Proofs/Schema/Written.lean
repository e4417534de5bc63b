import CodeAtlas.Proofs.List
import CodeAtlas.Proofs.Number.Order
import CodeAtlas.Proofs.Schema
import Mathlib.Data.List.Forall2
import Mathlib.Data.List.Nodup

/-!
# Values that are written and read again

Some readers read a value from its written form and from nothing else. Others supply what is absent
and pass over what they do not know. Of these it is still true that they read again what they have
read once it is written, and that all they were given stands unchanged in what is written.
-/

namespace CodeAtlas
namespace Schema

/-! ## What is given -/

/-- The parts of a value that a reader knows. -/
inductive Shape where
  /-- A value that is read as a whole. -/
  | value
  /-- Members of any names. -/
  | entries
  /-- The items of a list. -/
  | items (item : Shape)
  /-- Members with known names. -/
  | object (fields : List (String × Shape))

mutual

/-- Everything known in a given value stands unchanged in the result. Of members of any names those
named `__proto__` are left out. -/
def Shape.Keeps : Shape → Json → Json → Prop
  | .value, given, result => result = given
  | .entries, given, result => ∃ members, given = .obj members ∧
      result = .obj (members.filter (·.1 ≠ "__proto__"))
  | .items item, given, result => ∃ items results, given = .arr items ∧ result = .arr results ∧
      List.Forall₂ item.Keeps items results
  | .object fields, given, result =>
      Shape.KeepsFields fields (fun name => given.member? name) fun name => result.member? name

/-- Everything known in given members stands unchanged in the members of the result. -/
def Shape.KeepsFields : List (String × Shape) → (String → Option Json) → (String → Option Json) →
    Prop
  | [], _, _ => True
  | (name, shape) :: fields, given, result =>
      (∀ value, given name = some value → ∃ written, result name = some written ∧
        shape.Keeps value written) ∧ Shape.KeepsFields fields given result

end

/-- What is given, if anything is, is known and stands unchanged in what is written. -/
def Shape.Kept (shape : Shape) (given written : Option Json) : Prop :=
  ∀ value, given = some value → ∃ result, written = some result ∧ shape.Keeps value result

variable {α : Type}

/-! ## Readers of one written form -/

/-- A reader reads a value from its written form and from nothing else, if the value is allowed. -/
def ReadsExactly (reader : Reader α) (write : α → Json) (allowed : α → Prop) : Prop :=
  ∀ input value, reader input = .accept value ↔ input = some (write value) ∧ allowed value

theorem readsExactly_text : ReadsExactly text Json.str fun _ => True := by
  intro input value
  unfold text
  split
  · simp
  case h_2 isOther =>
    simp only [unexpected_ne_accept, and_true, false_iff]
    exact isOther value

theorem readsExactly_flag : ReadsExactly flag Json.bool fun _ => True := by
  intro input value
  unfold flag
  split
  · simp
  case h_2 isOther =>
    simp only [unexpected_ne_accept, and_true, false_iff]
    exact isOther value

theorem readsExactly_someText : ReadsExactly someText Json.str (· ≠ "") := by
  intro input value
  unfold someText
  split
  case h_1 =>
    rw [Reading.check_eq_accept, Reading.accept_inj]
    constructor
    · rintro ⟨rfl, isSome⟩
      exact ⟨rfl, by simpa using isSome⟩
    · rintro ⟨same, isSome⟩
      cases same
      exact ⟨rfl, by simpa using isSome⟩
  case h_2 => simp [Reading.accept, unexpected, Reading.refuse]
  case h_3 isOther _ =>
    simp only [unexpected_ne_accept, false_iff, not_and]
    exact fun same => absurd same (isOther value)

theorem readsExactly_number : ReadsExactly number Json.num Number.IsFinite := by
  intro input value
  unfold number
  split
  case h_1 found =>
    split
    case isTrue infinite =>
      simp only [unexpected_ne_accept, false_iff, not_and]
      rintro ⟨⟩ finite
      exact absurd (infinite.symm.trans finite) (by decide)
    case isFalse finite =>
      rw [Reading.accept_inj]
      constructor
      · rintro rfl
        exact ⟨rfl, by simpa using finite⟩
      · rintro ⟨same, -⟩
        cases same
        rfl
  case h_2 isOther =>
    simp only [unexpected_ne_accept, false_iff, not_and]
    exact fun same => absurd same (isOther value)

theorem ReadsExactly.check {reader : Reader α} {write : α → Json} {allowed : α → Prop}
    (exactly : ReadsExactly reader write allowed) (passes : α → Bool) (message : String) :
    ReadsExactly (fun input => (reader input).check passes message) write
      fun value => allowed value ∧ passes value = true := by
  intro input value
  rw [Reading.check_eq_accept, exactly, and_assoc]

/-- An integer that is not too large to be exact. -/
abbrev IsInteger (value : Float) : Prop :=
  Number.IsFinite value ∧ Number.isWhole value = true ∧ value ≤ greatestWhole ∧
    -greatestWhole ≤ value

theorem readsExactly_whole : ReadsExactly whole Json.num IsInteger := by
  intro input value
  -- The number that is tested is the one that is read.
  have isFound {found : Float} (isRead : number input = .accept value)
      (isSome : (number input).value? = some found) : found = value := by
    rw [isRead] at isSome
    exact (Option.some_inj.mp isSome).symm
  unfold whole
  dsimp only
  split
  case h_1 found isSome =>
    split
    case isTrue isWhole =>
      simp only [Reading.check_eq_accept, decide_eq_true_eq]
      constructor
      · rintro ⟨⟨isRead, upper⟩, lower⟩
        have finite := (readsExactly_number input value).mp isRead
        exact ⟨finite.1, finite.2, isFound isRead isSome ▸ isWhole, upper, lower⟩
      · rintro ⟨same, finite, -, upper, lower⟩
        exact ⟨⟨(readsExactly_number input value).mpr ⟨same, finite⟩, upper⟩, lower⟩
    case isFalse isBroken =>
      simp only [unexpected_ne_accept, false_iff]
      rintro ⟨same, finite, isWhole, -⟩
      have isRead := (readsExactly_number input value).mpr ⟨same, finite⟩
      exact isBroken (isFound isRead isSome ▸ isWhole)
  case h_2 isNone =>
    rw [readsExactly_number]
    constructor
    · intro isRead
      rw [(readsExactly_number input value).mpr isRead] at isNone
      cases isNone
    · rintro ⟨same, finite, -⟩
      exact ⟨same, finite⟩

section

variable {reader : Reader Float} {write : Float → Json} {allowed : Float → Prop}
  (exactly : ReadsExactly reader write allowed)
include exactly

theorem ReadsExactly.atLeast (bound : Float) :
    ReadsExactly (atLeast bound reader) write fun value => allowed value ∧ bound ≤ value := by
  intro input value
  rw [Schema.atLeast, Reading.check_eq_accept, exactly, and_assoc, decide_eq_true_eq]

theorem ReadsExactly.above (bound : Float) :
    ReadsExactly (above bound reader) write fun value => allowed value ∧ bound < value := by
  intro input value
  rw [Schema.above, Reading.check_eq_accept, exactly, and_assoc, decide_eq_true_eq]

theorem ReadsExactly.atMost (bound : Float) :
    ReadsExactly (atMost bound reader) write fun value => allowed value ∧ value ≤ bound := by
  intro input value
  rw [Schema.atMost, Reading.check_eq_accept, exactly, and_assoc, decide_eq_true_eq]

end

/-- A value is read from its word alone if all values have different words. -/
theorem readsExactly_choice {values : List α} {word : α → String}
    (distinct : (values.map word).Nodup) :
    ReadsExactly (choice (values.map fun value => (word value, value)))
      (fun value => .str (word value)) (· ∈ values) := by
  intro input value
  unfold choice
  split
  case h_1 entry isFound =>
    obtain ⟨text, isText, isEntry⟩ := Option.bind_eq_some_iff.mp isFound
    obtain ⟨found, isIn, rfl⟩ := List.mem_map.mp (List.mem_of_find?_eq_some isEntry)
    have isWord : word found = text := by simpa using List.find?_some isEntry
    have isInput : input = some (.str (word found)) := by
      obtain ⟨json, rfl, isText⟩ := Option.bind_eq_some_iff.mp isText
      cases json <;> cases isText
      rw [isWord]
    rw [Reading.accept_inj, isInput]
    constructor
    · rintro rfl
      exact ⟨rfl, isIn⟩
    · rintro ⟨same, isValue⟩
      have sameWord : word found = word value := by simpa using same
      exact List.inj_on_of_nodup_map distinct isIn isValue sameWord
  case h_2 isNone =>
    simp only [Reading.refuse_ne_accept, false_iff]
    rintro ⟨rfl, isIn⟩
    have noWord := List.find?_eq_none.mp isNone _ (List.mem_map_of_mem isIn)
    simp at noWord

/-! ## Lists -/

theorem all_eq_accept {readings : List (Reading α)} {values : List α} :
    Reading.all readings = .accept values ↔
      List.Forall₂ (fun reading value => reading = .accept value) readings values := by
  induction readings generalizing values with
  | nil =>
    rw [Reading.all, Reading.accept_inj, List.forall₂_nil_left_iff, eq_comm]
  | cons reading rest induction =>
    have isBoth : Reading.all (reading :: rest) = List.cons <$> reading <*> Reading.all rest := rfl
    rw [isBoth, Reading.seq_eq_accept, List.forall₂_cons_left_iff]
    simp only [Reading.map_eq_accept, induction]
    constructor
    · rintro ⟨_, ⟨first, isFirst, rfl⟩, others, areOthers, rfl⟩
      exact ⟨first, others, isFirst, areOthers, rfl⟩
    · rintro ⟨first, others, isFirst, areOthers, rfl⟩
      exact ⟨_, ⟨first, isFirst, rfl⟩, others, areOthers, rfl⟩

theorem list_eq_accept {item : Reader α} {input : Option Json} {values : List α} :
    list item input = .accept values ↔ ∃ items, input = some (.arr items) ∧
      List.Forall₂ (fun given value => item (some given) = .accept value) items values := by
  unfold list
  split
  case h_1 items =>
    rw [all_eq_accept, List.forall₂_map_left_iff]
    simp only [Reading.under_eq_accept, Option.some.injEq, Json.arr.injEq, exists_eq_left']
    conv_rhs => rw [← List.zipIdx_map_fst 0 items, List.forall₂_map_left_iff]
  case h_2 isOther =>
    simp only [unexpected_ne_accept, false_iff]
    rintro ⟨items, isList, -⟩
    exact isOther items isList

theorem ReadsExactly.list {item : Reader α} {write : α → Json} {allowed : α → Prop}
    (exactly : ReadsExactly item write allowed) :
    ReadsExactly (list item) (fun values => .arr (values.map write))
      fun values => ∀ value ∈ values, allowed value := by
  intro input values
  rw [list_eq_accept]
  constructor
  · rintro ⟨items, rfl, areRead⟩
    simp only [exactly _ _, Option.some.injEq] at areRead
    exact ⟨congrArg (some ∘ Json.arr) (eq_map_of_forall₂ (areRead.imp fun _ _ => And.left)),
      forall_mem_of_forall₂ (areRead.imp fun _ _ => And.right)⟩
  · rintro ⟨rfl, areAllowed⟩
    refine ⟨_, rfl, ?_⟩
    rw [List.forall₂_map_left_iff, List.forall₂_same]
    exact fun value isIn => (exactly _ _).mpr ⟨rfl, areAllowed value isIn⟩

/-! ## Readers that supply what is absent -/

/-- A reader reads again what it has read once it is written, and what it was given is kept. -/
def Faithful (shape : Shape) (reader : Reader α) (write : α → Option Json) : Prop :=
  ∀ input value, reader input = .accept value →
    reader (write value) = .accept value ∧ shape.Kept input (write value)

theorem ReadsExactly.faithful {reader : Reader α} {write : α → Json} {allowed : α → Prop}
    (exactly : ReadsExactly reader write allowed) :
    Faithful .value reader fun value => some (write value) := by
  intro input value isRead
  obtain ⟨rfl, -⟩ := (exactly _ _).mp isRead
  refine ⟨isRead, ?_⟩
  rintro _ ⟨⟩
  exact ⟨_, rfl, rfl⟩

/-- A value that is not given is not written either. -/
theorem ReadsExactly.optional {reader : Reader α} {write : α → Json} {allowed : α → Prop}
    (exactly : ReadsExactly reader write allowed) :
    Faithful .value (optional reader) fun value => value.map write := by
  intro input value isRead
  cases input with
  | none =>
    rw [Schema.optional, Reading.accept_inj] at isRead
    cases isRead
    exact ⟨rfl, fun _ isGiven => nomatch isGiven⟩
  | some given =>
    obtain ⟨found, isFound, rfl⟩ :=
      (Reading.map_eq_accept some (reader (some given)) value).mp isRead
    obtain ⟨isGiven, -⟩ := (exactly _ _).mp isFound
    cases isGiven
    refine ⟨isRead, ?_⟩
    rintro _ ⟨⟩
    exact ⟨_, rfl, rfl⟩

theorem Faithful.orElse {shape : Shape} {reader : Reader α} {write : α → Option Json}
    (faithful : Faithful shape reader write) {otherwise : α}
    (standard : reader (write otherwise) = .accept otherwise) :
    Faithful shape (orElse otherwise reader) write := by
  -- Reading something written is the same with and without a standard value.
  have again {value : α} (isRead : reader (write value) = .accept value)
      (isWritten : write value = none → value = otherwise) :
      Schema.orElse otherwise reader (write value) = .accept value := by
    cases written : write value with
    | none => rw [Schema.orElse, isWritten written]
    | some result =>
      rw [written] at isRead
      exact isRead
  intro input value isRead
  cases input with
  | none =>
    rw [Schema.orElse, Reading.accept_inj] at isRead
    cases isRead
    exact ⟨again standard fun _ => rfl, fun _ isGiven => nomatch isGiven⟩
  | some given =>
    obtain ⟨isReadAgain, kept⟩ := faithful (some given) value isRead
    refine ⟨again isReadAgain fun isNone => ?_, kept⟩
    obtain ⟨result, isResult, -⟩ := kept given rfl
    rw [isNone] at isResult
    cases isResult

theorem Faithful.list {shape : Shape} {item : Reader α} {write : α → Json}
    (faithful : Faithful shape item fun value => some (write value)) :
    Faithful (.items shape) (list item) fun values => some (.arr (values.map write)) := by
  intro input values isRead
  obtain ⟨items, rfl, areRead⟩ := list_eq_accept.mp isRead
  have again := areRead.imp fun given value isRead => faithful (some given) value isRead
  refine ⟨list_eq_accept.mpr ⟨_, rfl, ?_⟩, ?_⟩
  · rw [List.forall₂_map_left_iff, List.forall₂_same]
    exact forall_mem_of_forall₂ (again.imp fun _ _ => And.left)
  · rintro _ ⟨⟩
    refine ⟨_, rfl, ?_⟩
    rw [Shape.Keeps]
    refine ⟨_, _, rfl, rfl, ?_⟩
    rw [List.forall₂_map_right_iff]
    refine again.imp fun given value both => ?_
    obtain ⟨result, isResult, keeps⟩ := both.2 given rfl
    cases isResult
    exact keeps

/-! ## Members -/

theorem entries_eq_accept {item : Reader α} {input : Option Json} {found : List (String × α)} :
    entries item input = .accept found ↔ ∃ members, input = some (.obj members) ∧
      (∀ member ∈ members, member.1 ≠ "constructor") ∧
      List.Forall₂ (fun member entry => entry.1 = member.1 ∧ item (some member.2) = .accept entry.2)
        (members.filter (·.1 ≠ "__proto__")) found := by
  have isEntry (member : String × Json) (entry : String × α) :
      ((item (some member.2)).under member.1).map (member.1, ·) = .accept entry ↔
        entry.1 = member.1 ∧ item (some member.2) = .accept entry.2 := by
    refine (Reading.map_eq_accept _ _ _).trans ?_
    simp only [Reading.under_eq_accept]
    constructor
    · rintro ⟨value, isRead, rfl⟩
      exact ⟨rfl, isRead⟩
    · rintro ⟨sameName, isRead⟩
      exact ⟨entry.2, isRead, by rw [← sameName]⟩
  unfold entries
  split
  case h_1 members =>
    simp only [Option.some.injEq, Json.obj.injEq, exists_eq_left']
    split
    case isTrue isThere =>
      simp only [unexpected_ne_accept, false_iff]
      rintro ⟨isNowhere, -⟩
      obtain ⟨member, isMember, isNamed⟩ := List.any_eq_true.mp isThere
      exact isNowhere member isMember (of_decide_eq_true isNamed)
    case isFalse isNowhere =>
      have noConstructor : ∀ member ∈ members, member.1 ≠ "constructor" :=
        fun member isMember isNamed => isNowhere (List.any_eq_true.mpr
          ⟨member, isMember, decide_eq_true isNamed⟩)
      rw [all_eq_accept, List.forall₂_map_left_iff]
      constructor
      · intro areRead
        exact ⟨noConstructor, areRead.imp fun member entry => (isEntry member entry).mp⟩
      · rintro ⟨-, areRead⟩
        exact areRead.imp fun member entry => (isEntry member entry).mpr
  case h_2 isOther =>
    simp only [unexpected_ne_accept, false_iff]
    rintro ⟨members, isObject, -⟩
    exact isOther members isObject

/-- A record without the two names that are not read is read as it is written. -/
theorem ReadsExactly.entries_eq_accept {item : Reader α} {write : α → Json} {allowed : α → Prop}
    (exactly : ReadsExactly item write allowed) {found : List (String × α)}
    (names : ∀ entry ∈ found, entry.1 ≠ "constructor" ∧ entry.1 ≠ "__proto__")
    (areAllowed : ∀ entry ∈ found, allowed entry.2) :
    entries item (some (.obj (found.map fun (name, value) => (name, write value)))) =
      .accept found := by
  have isWhole : (found.map fun (name, value) => (name, write value)).filter
      (·.1 ≠ "__proto__") = found.map fun (name, value) => (name, write value) := by
    rw [List.filter_eq_self, List.forall_mem_map]
    exact fun entry isThere => decide_eq_true (names entry isThere).2
  refine Schema.entries_eq_accept.mpr ⟨_, rfl, ?_, ?_⟩
  · rw [List.forall_mem_map]
    exact fun entry isThere => (names entry isThere).1
  · rw [isWhole, List.forall₂_map_left_iff, List.forall₂_same]
    exact fun entry isThere => ⟨rfl, (exactly _ _).mpr ⟨rfl, areAllowed entry isThere⟩⟩

theorem ReadsExactly.entries {item : Reader α} {write : α → Json} {allowed : α → Prop}
    (exactly : ReadsExactly item write allowed) :
    Faithful .entries (entries item)
      fun found => some (.obj (found.map fun (name, value) => (name, write value))) := by
  intro input found isRead
  obtain ⟨members, rfl, noConstructor, areRead⟩ := Schema.entries_eq_accept.mp isRead
  have isWritten : members.filter (·.1 ≠ "__proto__") =
      found.map fun (name, value) => (name, write value) := by
    refine eq_map_of_forall₂ (areRead.imp ?_)
    rintro ⟨name, given⟩ ⟨_, value⟩ ⟨rfl, isRead⟩
    obtain ⟨isGiven, -⟩ := (exactly _ _).mp isRead
    cases isGiven
    rfl
  dsimp only
  rw [← isWritten]
  refine ⟨Schema.entries_eq_accept.mpr ⟨_, rfl, ?_, ?_⟩, ?_⟩
  · exact fun member isThere => noConstructor member (List.mem_of_mem_filter isThere)
  · rw [List.filter_filter]
    simpa using areRead
  · rintro _ ⟨⟩
    refine ⟨_, rfl, ?_⟩
    rw [Shape.Keeps]
    exact ⟨members, rfl, rfl⟩

/-- An object whose members are read again and kept is read again and kept. -/
theorem faithful_object {fields : List (String × Shape)}
    {read : (String → Option Json) → Reading α} {write : α → List (String × Json)}
    (again : ∀ members value, read members = .accept value →
      read (fun name => (Json.obj (write value)).member? name) = .accept value ∧
        Shape.KeepsFields fields members fun name => (Json.obj (write value)).member? name) :
    Faithful (.object fields) (object read) fun value => some (.obj (write value)) := by
  intro input value isRead
  unfold object at isRead
  split at isRead
  case h_1 members =>
    obtain ⟨isReadAgain, keeps⟩ := again _ value isRead
    refine ⟨isReadAgain, ?_⟩
    rintro _ ⟨⟩
    refine ⟨_, rfl, ?_⟩
    rw [Shape.Keeps]
    exact keeps
  case h_2 => simp at isRead

theorem faithful_objectOrEmpty {fields : List (String × Shape)}
    {read : (String → Option Json) → Reading α} {write : α → List (String × Json)}
    (again : ∀ members value, read members = .accept value →
      read (fun name => (Json.obj (write value)).member? name) = .accept value ∧
        Shape.KeepsFields fields members fun name => (Json.obj (write value)).member? name) :
    Faithful (.object fields) (objectOrEmpty read) fun value => some (.obj (write value)) := by
  intro input value isRead
  cases input with
  | none => exact ⟨(again _ value isRead).1, fun _ isGiven => nomatch isGiven⟩
  | some given => exact faithful_object again (some given) value isRead

end Schema
end CodeAtlas
