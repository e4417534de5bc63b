import CodeAtlas.Text.Blank

/-!
# Trimmed texts

Trimming leaves a text without blanks as it is, and leaves something of every text that is not all
blank.
-/

namespace CodeAtlas
namespace Text

/-- No character of a text is blank. -/
def Unblank (text : String) : Prop :=
  ∀ char ∈ text.toList, isBlank char = false

instance (text : String) : Decidable (Unblank text) :=
  List.decidableBAll (fun char => isBlank char = false) text.toList

theorem Unblank.append {left right : String} (leftUnblank : Unblank left)
    (rightUnblank : Unblank right) : Unblank (left ++ right) := by
  rw [Unblank, String.toList_append, List.forall_mem_append]
  exact ⟨leftUnblank, rightUnblank⟩

theorem dropWhile_isBlank_of_unblank {chars : List Char}
    (unblank : ∀ char ∈ chars, isBlank char = false) : chars.dropWhile isBlank = chars := by
  cases chars with
  | nil => rfl
  | cons char chars =>
    exact List.dropWhile_cons_of_neg (by simp [unblank char List.mem_cons_self])

theorem Unblank.trim_eq {text : String} (unblank : Unblank text) : trim text = text := by
  have reversed : ∀ char ∈ text.toList.reverse, isBlank char = false :=
    fun char member => unblank char (List.mem_reverse.mp member)
  rw [trim, trimChars, dropWhile_isBlank_of_unblank unblank, trimEndChars,
    dropWhile_isBlank_of_unblank reversed, List.reverse_reverse, String.ofList_toList]

theorem mem_dropWhile_isBlank {char : Char} {chars : List Char} (isOther : isBlank char = false)
    (member : char ∈ chars) : char ∈ chars.dropWhile isBlank := by
  induction chars with
  | nil => exact member
  | cons first rest induction =>
    rw [List.dropWhile_cons]
    split
    case isTrue blank =>
      rcases List.mem_cons.mp member with rfl | later
      · rw [isOther] at blank
        cases blank
      · exact induction later
    case isFalse => exact member

theorem mem_trim {text : String} {char : Char} (isOther : isBlank char = false)
    (member : char ∈ text.toList) : char ∈ (trim text).toList := by
  rw [trim, String.toList_ofList, trimChars, trimEndChars, List.mem_reverse]
  refine mem_dropWhile_isBlank isOther (List.mem_reverse.mpr ?_)
  exact mem_dropWhile_isBlank isOther member

end Text
end CodeAtlas
