import CodeAtlas.Schema
import Mathlib.Logic.Basic

/-!
# Values that are read without issues

A reading without issues has its parts read without issues, and its value passes all checks made of
it. What a reader promises of the values that it reads without issues is put together from what the
readers of the parts promise.
-/

namespace CodeAtlas
namespace Schema
namespace Reading

variable {α β : Type}

/-- A reading has a result exactly when it is without issues. -/
@[simp] theorem result_eq_ok (reading : Reading α) (value : α) :
    reading.result = .ok value ↔ reading = accept value := by
  obtain ⟨value?, issues⟩ := reading
  unfold result accept
  cases value? <;> cases issues <;> simp

@[simp] theorem accept_inj (first second : α) : accept first = accept second ↔ first = second := by
  simp [accept]

@[simp] theorem refuse_ne_accept (message : String) (value : α) :
    refuse message ≠ accept value := by
  simp [refuse, accept]

@[simp] theorem map_eq_accept (change : α → β) (reading : Reading α) (value : β) :
    change <$> reading = accept value ↔ ∃ part, reading = accept part ∧ change part = value := by
  obtain ⟨value?, issues⟩ := reading
  change Reading.map change _ = _ ↔ _
  cases value? with
  | none => simp [Reading.map, accept]
  | some part =>
    simp only [Reading.map, accept, Option.map_some, mk.injEq, Option.some.injEq]
    constructor
    · rintro ⟨same, clean⟩
      exact ⟨part, ⟨rfl, clean⟩, same⟩
    · rintro ⟨_, ⟨rfl, clean⟩, same⟩
      exact ⟨same, clean⟩

@[simp] theorem seq_eq_accept (first : Reading (α → β)) (second : Reading α) (value : β) :
    first <*> second = accept value ↔
      ∃ change, first = accept change ∧ ∃ part, second = accept part ∧ change part = value := by
  obtain ⟨change?, issues⟩ := first
  obtain ⟨part?, otherIssues⟩ := second
  change Reading.both _ _ = _ ↔ _
  cases change? with
  | none => simp [both, accept]
  | some change =>
    cases part? with
    | none => simp [both, accept]
    | some part =>
      simp only [both, accept, Option.bind_some, Option.map_some, mk.injEq, Option.some.injEq,
        List.append_eq_nil_iff]
      constructor
      · rintro ⟨same, clean, otherClean⟩
        exact ⟨change, ⟨rfl, clean⟩, part, ⟨rfl, otherClean⟩, same⟩
      · rintro ⟨_, ⟨rfl, clean⟩, _, ⟨rfl, otherClean⟩, same⟩
        exact ⟨same, clean, otherClean⟩

@[simp] theorem under_eq_accept (step : String) (reading : Reading α) (value : α) :
    reading.under step = accept value ↔ reading = accept value := by
  obtain ⟨value?, issues⟩ := reading
  simp [under, accept]

@[simp] theorem check_eq_accept (reading : Reading α) (passes : α → Bool) (message : String)
    (value : α) : reading.check passes message = accept value ↔
      reading = accept value ∧ passes value = true := by
  obtain ⟨value?, issues⟩ := reading
  cases value? with
  | none => simp [check, accept]
  | some found =>
    simp only [check, accept]
    split
    case isTrue isPassed =>
      refine ⟨fun same => ⟨same, ?_⟩, And.left⟩
      cases same
      exact isPassed
    case isFalse isFailed =>
      simp only [mk.injEq, Option.some.injEq, List.append_eq_nil_iff, reduceCtorEq, and_false,
        false_iff, not_and, Bool.not_eq_true]
      rintro ⟨rfl, -⟩
      exact Bool.eq_false_iff.mpr isFailed

end Reading

/-- A reader reads only values of a given kind without issues. -/
def Ensures {α : Type} (reader : Reader α) (condition : α → Prop) : Prop :=
  ∀ ⦃input : Option Json⦄ ⦃value : α⦄, reader input = .accept value → condition value

variable {α : Type} {reader : Reader α} {condition : α → Prop}

@[simp] theorem unexpected_ne_accept (expected : String) (input : Option Json) (value : α) :
    unexpected expected input ≠ Reading.accept value :=
  Reading.refuse_ne_accept _ _

theorem ensures_number : Ensures number fun value => value.isNaN = false := by
  intro input value isRead
  unfold number at isRead
  split at isRead
  case h_1 found =>
    split at isRead
    case isTrue => simp at isRead
    case isFalse finite =>
      rw [Reading.accept_inj] at isRead
      rw [Bool.or_eq_true, not_or, Bool.not_eq_true] at finite
      exact isRead ▸ finite.1
  case h_2 => simp at isRead

theorem ensures_whole : Ensures whole fun value => value.isNaN = false := by
  intro input value isRead
  unfold whole at isRead
  dsimp only at isRead
  split at isRead
  case h_1 =>
    split at isRead
    case isTrue =>
      rw [Reading.check_eq_accept, Reading.check_eq_accept] at isRead
      exact ensures_number isRead.1.1
    case isFalse => simp at isRead
  case h_2 => exact ensures_number isRead

/-- A value that is read without issues has passed the check made of it. -/
theorem Ensures.check (ensures : Ensures reader condition) (passes : α → Bool)
    (message : String) : Ensures (fun input => (reader input).check passes message)
      fun value => condition value ∧ passes value = true := by
  intro input value isRead
  obtain ⟨isPart, isPassed⟩ := (Reading.check_eq_accept _ _ _ _).mp isRead
  exact ⟨ensures isPart, isPassed⟩

section Bounds

variable {reader : Reader Float} {condition : Float → Prop} (ensures : Ensures reader condition)

include ensures

theorem Ensures.atLeast (bound : Float) :
    Ensures (atLeast bound reader) fun value => condition value ∧ bound ≤ value :=
  fun _ _ isRead => (ensures.check _ _ isRead).imp_right of_decide_eq_true

theorem Ensures.above (bound : Float) :
    Ensures (above bound reader) fun value => condition value ∧ bound < value :=
  fun _ _ isRead => (ensures.check _ _ isRead).imp_right of_decide_eq_true

theorem Ensures.atMost (bound : Float) :
    Ensures (atMost bound reader) fun value => condition value ∧ value ≤ bound :=
  fun _ _ isRead => (ensures.check _ _ isRead).imp_right of_decide_eq_true

end Bounds

/-- A value that stands for an absent one is to be of the same kind. -/
theorem Ensures.orElse (ensures : Ensures reader condition) {otherwise : α}
    (standard : condition otherwise) : Ensures (orElse otherwise reader) condition := by
  intro input value isRead
  cases input with
  | none => exact (Reading.accept_inj _ _).mp isRead ▸ standard
  | some input => exact ensures isRead

theorem ensures_object {read : (String → Option Json) → Reading α}
    (ensures : ∀ members value, read members = .accept value → condition value) :
    Ensures (object read) condition := by
  intro input value isRead
  unfold object at isRead
  split at isRead
  · exact ensures _ _ isRead
  · simp at isRead

theorem ensures_objectOrEmpty {read : (String → Option Json) → Reading α}
    (ensures : ∀ members value, read members = .accept value → condition value) :
    Ensures (objectOrEmpty read) condition := by
  intro input value isRead
  cases input with
  | none => exact ensures _ _ isRead
  | some input => exact ensures_object ensures isRead

@[simp] theorem member_eq_accept (members : String → Option Json) (name : String)
    (reader : Reader α) (value : α) :
    member members name reader = .accept value ↔ reader (members name) = .accept value :=
  Reading.under_eq_accept _ _ _

end Schema
end CodeAtlas
