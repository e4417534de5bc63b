import CodeAtlas.Proofs.Text.Split
import CodeAtlas.Relationship

/-!
# What the id of a relationship tells

An id joins a source, a kind and a target with separators that are not escaped. The words for kinds
hold no separator, so that an id tells kind and target to whoever knows the source, and all three if
the source or the target holds no separator.
-/

namespace CodeAtlas

/-- An id without the separator that ids of relationships are put together with. -/
abbrev Undivided (id : String) : Prop := '|' ∉ id.toList

namespace RelationshipKind

theorem ofName?_name (kind : RelationshipKind) : ofName? kind.name = some kind := by
  cases kind with
  | reference kind => cases kind <;> decide
  | contains => decide

theorem name_injective : Function.Injective name := by
  intro left right same
  have read := ofName?_name left
  rw [same, ofName?_name] at read
  exact (Option.some.inj read).symm

theorem undivided_name (kind : RelationshipKind) : Undivided kind.name := by
  cases kind with
  | reference kind => cases kind <;> decide
  | contains => decide

end RelationshipKind

namespace Relationship

variable {source source' target target' : String} {kind kind' : RelationshipKind}

theorem idOf_eq_append (source : String) (kind : RelationshipKind) (target : String) :
    idOf source kind target = "rel:" ++ (source ++ "|" ++ (kind.name ++ "|" ++ target)) := by
  simp only [idOf, String.append_assoc]

/-- For one source, kind and target can be told from the id. -/
theorem idOf_inj_right (same : idOf source kind target = idOf source kind' target') :
    kind = kind' ∧ target = target' := by
  rw [idOf_eq_append, idOf_eq_append, String.append_right_inj, String.append_right_inj] at same
  obtain ⟨names, targets⟩ :=
    Text.append_separator_inj rfl kind.undivided_name kind'.undivided_name same
  exact ⟨RelationshipKind.name_injective names, targets⟩

theorem idOf_inj (clear : Undivided source) (clear' : Undivided source')
    (same : idOf source kind target = idOf source' kind' target') :
    source = source' ∧ kind = kind' ∧ target = target' := by
  have parts := same
  rw [idOf_eq_append, idOf_eq_append, String.append_right_inj] at parts
  obtain ⟨rfl, -⟩ := Text.append_separator_inj rfl clear clear' parts
  exact ⟨rfl, idOf_inj_right same⟩

/-- Targets without the separator can be told from ids, and what comes before them too. -/
theorem idOf_inj_of_target (clear : Undivided target) (clear' : Undivided target')
    (same : idOf source kind target = idOf source' kind' target') :
    source = source' ∧ kind = kind' ∧ target = target' := by
  obtain ⟨fronts, targets⟩ := Text.append_separator_inj_right rfl clear clear' same
  obtain ⟨sources, names⟩ :=
    Text.append_separator_inj_right rfl kind.undivided_name kind'.undivided_name fronts
  exact ⟨String.append_right_inj _ |>.mp sources, RelationshipKind.name_injective names, targets⟩

theorem startsWith_of_idOf_eq {beginning : String} (clear : Undivided beginning)
    (same : idOf source kind target = idOf source' kind' target') :
    Text.startsWith source beginning = Text.startsWith source' beginning := by
  rw [idOf_eq_append, idOf_eq_append, String.append_right_inj] at same
  have starts (front rest : String) :
      Text.startsWith (front ++ "|" ++ rest) beginning = Text.startsWith front beginning :=
    Text.startsWith_append_separator rfl clear front rest
  rw [← starts source, same, starts]

end Relationship
end CodeAtlas
