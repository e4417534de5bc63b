import CodeAtlas.Text.Split
import Mathlib.Data.List.Basic

/-!
# Pieces of texts

Pieces without the separator can be read back from the text they are joined to, so that two lists of
such pieces with one text are the same.
-/

namespace CodeAtlas
namespace Text

theorem dropBeginning?_append (beginning rest : List Char) :
    dropBeginning? beginning (beginning ++ rest) = some rest := by
  induction beginning with
  | nil => rfl
  | cons char chars induction => simp [dropBeginning?, induction]

theorem dropBeginning?_eq_some_iff {beginning chars rest : List Char} :
    dropBeginning? beginning chars = some rest ↔ chars = beginning ++ rest := by
  constructor
  · intro begins
    fun_induction dropBeginning? beginning chars with
    | case1 => simpa using begins
    | case2 => cases begins
    | case3 beginning char chars induction => rw [induction begins, List.cons_append]
    | case4 => cases begins
  · rintro rfl
    exact dropBeginning?_append beginning rest

theorem endsWith_iff {text ending : String} :
    endsWith text ending = true ↔ ∃ stem, text = stem ++ ending := by
  rw [endsWith, Option.isSome_iff_exists]
  constructor
  · rintro ⟨rest, begins⟩
    rw [dropBeginning?_eq_some_iff, List.reverse_eq_iff] at begins
    refine ⟨String.ofList rest.reverse, String.toList_injective ?_⟩
    simpa using begins
  · rintro ⟨stem, rfl⟩
    refine ⟨stem.toList.reverse, dropBeginning?_eq_some_iff.mpr ?_⟩
    rw [String.toList_append, List.reverse_append]

@[simp]
theorem startsWith_append (beginning rest : String) :
    startsWith (beginning ++ rest) beginning = true := by
  simp [startsWith, dropBeginning?_append]

/-- What comes after a character that a beginning does not hold cannot belong to that beginning. -/
theorem isSome_dropBeginning?_append_cons {char : Char} {beginning : List Char}
    (clear : char ∉ beginning) (left rest : List Char) :
    (dropBeginning? beginning (left ++ char :: rest)).isSome =
      (dropBeginning? beginning left).isSome := by
  induction beginning generalizing left with
  | nil => simp [dropBeginning?]
  | cons expected beginning induction =>
    rw [List.mem_cons, not_or] at clear
    cases left with
    | nil => simp [dropBeginning?, Ne.symm clear.1]
    | cons first left =>
      rw [List.cons_append, dropBeginning?, dropBeginning?]
      split
      · exact induction clear.2 left
      · rfl

theorem startsWith_append_separator {separator beginning : String} {char : Char}
    (single : separator.toList = [char]) (clear : char ∉ beginning.toList) (left rest : String) :
    startsWith (left ++ separator ++ rest) beginning = startsWith left beginning := by
  rw [startsWith, startsWith, String.toList_append, String.toList_append, single, List.append_assoc,
    List.singleton_append]
  exact isSome_dropBeginning?_append_cons clear left.toList rest.toList

/-- What comes before a character that an ending does not hold cannot belong to that ending. -/
theorem endsWith_append_separator {separator ending : String} {char : Char}
    (single : separator.toList = [char]) (clear : char ∉ ending.toList) (left right : String) :
    endsWith (left ++ separator ++ right) ending = endsWith right ending := by
  rw [endsWith, endsWith, String.toList_append, String.toList_append, single, List.append_assoc,
    List.reverse_append, List.reverse_append, List.reverse_singleton, List.append_assoc,
    List.singleton_append]
  exact isSome_dropBeginning?_append_cons (by simpa using clear) right.toList.reverse
    left.toList.reverse

theorem splitChars_of_notMem {separator : Char} {piece : List Char}
    (clear : separator ∉ piece) : splitChars separator piece = [piece] := by
  induction piece with
  | nil => rfl
  | cons char chars induction =>
    rw [List.mem_cons, not_or] at clear
    rw [splitChars, if_neg (Ne.symm clear.1), induction clear.2]

theorem splitChars_append_cons {separator : Char} {piece : List Char} (clear : separator ∉ piece)
    (rest : List Char) :
    splitChars separator (piece ++ separator :: rest) = piece :: splitChars separator rest := by
  induction piece with
  | nil => rw [List.nil_append, splitChars, if_pos rfl]
  | cons char chars induction =>
    rw [List.mem_cons, not_or] at clear
    rw [List.cons_append, splitChars, if_neg (Ne.symm clear.1), induction clear.2]

theorem toList_join_cons_cons {separator : String} {char : Char}
    (single : separator.toList = [char])
    (first second : String) (texts : List String) :
    (join separator (first :: second :: texts)).toList =
      first.toList ++ char :: (join separator (second :: texts)).toList := by
  rw [join, String.toList_append, String.toList_append, single, List.append_assoc,
    List.singleton_append]
  exact List.cons_ne_nil second texts

theorem join_cons (separator first : String) {texts : List String} (present : texts ≠ []) :
    join separator (first :: texts) = first ++ separator ++ join separator texts := by
  rw [join]
  exact present

theorem join_append (separator : String) {left right : List String} (leftPresent : left ≠ [])
    (rightPresent : right ≠ []) :
    join separator (left ++ right) = join separator left ++ separator ++ join separator right := by
  induction left with
  | nil => exact absurd rfl leftPresent
  | cons first left induction =>
    by_cases single : left = []
    · rw [single, List.singleton_append, join_cons separator first rightPresent]
      rfl
    · rw [List.cons_append, join_cons separator first (by simp [single]), induction single,
        join_cons separator first single]
      simp only [String.append_assoc]

theorem join_append_last (separator : String) (texts : List String) (last ending : String) :
    join separator (texts ++ [last ++ ending]) = join separator (texts ++ [last]) ++ ending := by
  by_cases present : texts = []
  · rw [present]
    rfl
  · rw [join_append separator present (List.cons_ne_nil _ _),
      join_append separator present (List.cons_ne_nil _ _), join, join, ← String.append_assoc]

theorem endsWith_join {separator ending : String} {char : Char} (single : separator.toList = [char])
    (clear : char ∉ ending.toList) (texts : List String) (last : String) :
    endsWith (join separator (texts ++ [last])) ending = endsWith last ending := by
  by_cases present : texts = []
  · rw [present]
    rfl
  · rw [join_append separator present (List.cons_ne_nil _ _)]
    exact endsWith_append_separator single clear _ _

theorem split_join {separator : String} {char : Char} (single : separator.toList = [char])
    {texts : List String} (present : texts ≠ []) (clear : ∀ text ∈ texts, char ∉ text.toList) :
    split char (join separator texts) = texts := by
  induction texts with
  | nil => exact absurd rfl present
  | cons first texts induction =>
    have firstClear := clear first List.mem_cons_self
    cases texts with
    | nil =>
      rw [join, split, splitChars_of_notMem firstClear, List.map_singleton, String.ofList_toList]
    | cons second texts =>
      have rest := induction (List.cons_ne_nil second texts) fun text member =>
        clear text (List.mem_cons_of_mem first member)
      rw [split] at rest ⊢
      rw [toList_join_cons_cons single, splitChars_append_cons firstClear, List.map_cons, rest,
        String.ofList_toList]

theorem eq_nil_of_join_eq_empty {separator : String} {char : Char}
    (single : separator.toList = [char]) {texts : List String} (full : ∀ text ∈ texts, text ≠ "")
    (empty : join separator texts = "") : texts = [] := by
  match texts with
  | [] => rfl
  | [text] => exact absurd empty (full text List.mem_cons_self)
  | first :: second :: texts =>
    have none := congrArg String.toList empty
    rw [toList_join_cons_cons single] at none
    simp at none

theorem join_ne_empty {separator : String} {char : Char} (single : separator.toList = [char])
    {texts : List String} (present : texts ≠ []) (full : "" ∉ texts) :
    join separator texts ≠ "" := fun none =>
  present (eq_nil_of_join_eq_empty single (fun _ member => ne_of_mem_of_not_mem member full) none)

theorem length_join_lt {separator : String} {char : Char} (single : separator.toList = [char])
    (left right : List String) {between : List String} (present : between ≠ [])
    (full : "" ∉ between) :
    (join separator (left ++ right)).length <
      (join separator (left ++ between ++ right)).length := by
  have positive : 0 < (join separator between).length := by
    rw [Nat.pos_iff_ne_zero, Ne, String.length_eq_zero_iff]
    exact join_ne_empty single present full
  by_cases leftNone : left = []
  · by_cases rightNone : right = []
    · simpa [leftNone, rightNone, join] using positive
    · rw [leftNone, List.nil_append, List.nil_append, join_append separator present rightNone,
        String.length_append, String.length_append]
      omega
  · by_cases rightNone : right = []
    · rw [rightNone, List.append_nil, List.append_nil, join_append separator leftNone present,
        String.length_append, String.length_append]
      omega
    · rw [join_append separator leftNone rightNone,
        join_append separator (List.append_ne_nil_of_left_ne_nil leftNone between) rightNone,
        join_append separator leftNone present]
      simp only [String.length_append]
      omega

/-- Lists of pieces that are not empty have different texts. -/
theorem join_injective {separator : String} {char : Char} (single : separator.toList = [char])
    {left right : List String} (leftClear : ∀ text ∈ left, text ≠ "" ∧ char ∉ text.toList)
    (rightClear : ∀ text ∈ right, text ≠ "" ∧ char ∉ text.toList)
    (same : join separator left = join separator right) : left = right := by
  by_cases leftEmpty : left = []
  · subst leftEmpty
    exact (eq_nil_of_join_eq_empty single (fun text member => (rightClear text member).1)
      same.symm).symm
  by_cases rightEmpty : right = []
  · subst rightEmpty
    exact eq_nil_of_join_eq_empty single (fun text member => (leftClear text member).1) same
  rw [← split_join single leftEmpty fun text member => (leftClear text member).2, same,
    split_join single rightEmpty fun text member => (rightClear text member).2]

theorem notMem_toList_join {separator : String} {char : Char}
    (separatorClear : char ∉ separator.toList) {texts : List String}
    (clear : ∀ text ∈ texts, char ∉ text.toList) : char ∉ (join separator texts).toList := by
  induction texts with
  | nil => simp [join]
  | cons first texts induction =>
    have firstClear := clear first List.mem_cons_self
    have rest := induction fun text member => clear text (List.mem_cons_of_mem first member)
    cases texts with
    | nil => exact firstClear
    | cons second texts =>
      rw [join, String.toList_append, String.toList_append]
      · simp [firstClear, separatorClear, rest]
      · exact List.cons_ne_nil second texts

/-- A separator that the first part does not hold divides a text in one way only. -/
theorem append_separator_inj {separator : String} {char : Char} (single : separator.toList = [char])
    {left left' right right' : String} (clear : char ∉ left.toList) (clear' : char ∉ left'.toList)
    (same : left ++ separator ++ right = left' ++ separator ++ right') :
    left = left' ∧ right = right' := by
  have chars := congrArg String.toList same
  simp only [String.toList_append, single, List.append_assoc, List.singleton_append] at chars
  have pieces := congrArg (splitChars char) chars
  rw [splitChars_append_cons clear, splitChars_append_cons clear'] at pieces
  have lefts : left.toList = left'.toList := List.head_eq_of_cons_eq pieces
  rw [lefts, List.append_cancel_left_eq] at chars
  exact ⟨String.toList_injective lefts, String.toList_injective (List.tail_eq_of_cons_eq chars)⟩

/-- A separator that the last part does not hold divides a text in one way only. -/
theorem append_separator_inj_right {separator : String} {char : Char}
    (single : separator.toList = [char]) {left left' right right' : String}
    (clear : char ∉ right.toList) (clear' : char ∉ right'.toList)
    (same : left ++ separator ++ right = left' ++ separator ++ right') :
    left = left' ∧ right = right' := by
  have chars := congrArg (List.reverse ∘ String.toList) same
  simp only [Function.comp_apply, String.toList_append, single, List.append_assoc,
    List.singleton_append, List.reverse_append, List.reverse_cons] at chars
  have pieces := congrArg (splitChars char) chars
  rw [splitChars_append_cons (by simpa using clear),
    splitChars_append_cons (by simpa using clear')] at pieces
  have rights : right.toList.reverse = right'.toList.reverse := List.head_eq_of_cons_eq pieces
  rw [rights, List.append_cancel_left_eq] at chars
  exact ⟨String.toList_injective (List.reverse_injective (List.tail_eq_of_cons_eq chars)),
    String.toList_injective (List.reverse_injective rights)⟩

end Text
end CodeAtlas
