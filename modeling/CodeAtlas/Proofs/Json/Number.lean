import CodeAtlas.Proofs.Json.Parser
import CodeAtlas.Proofs.Number.Bits
import CodeAtlas.Proofs.Number.Shortest

/-!
# Texts of numbers

Before it is rounded, the text of a finite number stands for the shortest decimal of the number.
Hence numbers with the same text are the same but for the signs of zeros.
-/

namespace CodeAtlas
namespace Json

/-! ## Digits -/

theorem digitsValue_eq (digits : List Char) :
    digitsValue digits = Nat.ofDigitChars 10 digits 0 := by
  simp only [digitsValue, Nat.ofDigitChars_eq_foldl, Nat.mul_comm]
  rfl

theorem digitsValue_toDigits (number : Nat) : digitsValue (Nat.toDigits 10 number) = number := by
  rw [digitsValue_eq, Nat.ofDigitChars_ten_toDigits]

theorem digitsValue_append_zeros (digits : List Char) (count : Nat) :
    digitsValue (digits ++ List.replicate count '0') = digitsValue digits * 10 ^ count := by
  rw [digitsValue_eq, digitsValue_eq, Nat.ofDigitChars_append, Nat.ofDigitChars_replicate_zero,
    Nat.mul_comm]

theorem digitsValue_zeros_append (digits : List Char) (count : Nat) :
    digitsValue (List.replicate count '0' ++ digits) = digitsValue digits := by
  rw [digitsValue_eq, digitsValue_eq, Nat.ofDigitChars_append, Nat.ofDigitChars_replicate_zero,
    Nat.mul_zero]

theorem isDigit_toDigits (number : Nat) : ∀ char ∈ Nat.toDigits 10 number, char.isDigit :=
  fun _ => Nat.isDigit_of_mem_toDigits (by decide) (by decide)

theorem exists_toDigits_eq_cons {number : Nat} (positive : 0 < number) :
    ∃ first rest, Nat.toDigits 10 number = first :: rest ∧ first ≠ '0' := by
  induction number using Nat.strongRecOn with
  | ind number induction =>
    rw [Nat.toDigits_eq_if (by decide)]
    split
    case isTrue small =>
      refine ⟨_, _, rfl, ?_⟩
      have : ∀ digit < 10, 0 < digit → digit.digitChar ≠ '0' := by decide
      exact this number small positive
    case isFalse large =>
      obtain ⟨first, rest, same, other⟩ := induction (number / 10) (by omega) (by omega)
      exact ⟨first, rest ++ [(number % 10).digitChar], by rw [same, List.cons_append], other⟩

/-- Digits that are read as the digits before a point: zero stands alone. -/
structure IsWhole (chars : List Char) : Prop where
  /-- There are only digits. -/
  isDigit : ∀ char ∈ chars, char.isDigit
  /-- The only zero at the beginning is zero. -/
  start : chars = ['0'] ∨ ∃ first rest, chars = first :: rest ∧ first ≠ '0'

/-- What does not start with a digit. -/
def NoDigit (chars : List Char) : Prop := ∀ char ∈ chars.head?, char.isDigit = false

theorem readDigits_append_of_noDigit {digits rest : List Char}
    (isDigits : ∀ char ∈ digits, char.isDigit) (noDigit : NoDigit rest) :
    readDigits (digits ++ rest) = (digits, rest) := by
  have stop : rest.takeWhile Char.isDigit = [] ∧ rest.dropWhile Char.isDigit = rest := by
    cases rest with
    | nil => exact ⟨rfl, rfl⟩
    | cons char rest => simp [noDigit char rfl]
  rw [readDigits, List.takeWhile_append_of_pos isDigits, List.dropWhile_append_of_pos isDigits,
    stop.1, stop.2, List.append_nil]

theorem readWhole_append {digits rest : List Char} (whole : IsWhole digits)
    (noDigit : NoDigit rest) : readWhole (digits ++ rest) = some (digits, rest) := by
  obtain ⟨isDigit, rfl | ⟨first, others, rfl, notZero⟩⟩ := whole
  · rfl
  · have read := readDigits_append_of_noDigit isDigit noDigit
    rw [List.cons_append] at read ⊢
    unfold readWhole
    split
    case h_1 zero => exact absurd (List.cons.inj zero).1 notZero
    case h_2 => simp [read]

/-- Digits after a point; without digits there is no point. -/
def fractionText : List Char → List Char
  | [] => []
  | digits => '.' :: digits

theorem readFraction_append {digits rest : List Char}
    (isDigits : ∀ char ∈ digits, char.isDigit) (noDigit : NoDigit rest)
    (noPoint : rest.head? ≠ some '.') :
    readFraction (fractionText digits ++ rest) = some (digits, rest) := by
  cases digits with
  | nil =>
    cases rest with
    | nil => rfl
    | cons char rest => exact readFraction_of_ne (fun same => noPoint (same ▸ rfl)) rest
  | cons digit digits =>
    change readFraction ('.' :: (digit :: digits ++ rest)) = _
    rw [readFraction, readDigits_append_of_noDigit isDigits noDigit]
    rfl

/-- An exponent with its sign. -/
def exponentText (power : ℤ) : List Char :=
  'e' :: (if power < 0 then '-' else '+') :: Nat.toDigits 10 power.natAbs

theorem readExponent_exponentText (power : ℤ) :
    readExponent (exponentText power) = some (power, []) := by
  have noDigit : NoDigit [] := nofun
  have read := readDigits_append_of_noDigit (isDigit_toDigits power.natAbs) noDigit
  rw [List.append_nil] at read
  have full : (Nat.toDigits 10 power.natAbs).isEmpty = false :=
    List.isEmpty_eq_false_iff.mpr Nat.toDigits_ne_nil
  unfold exponentText
  split
  case isTrue negative =>
    simp [readExponent, read, full, digitsValue_toDigits, abs_of_neg negative]
  case isFalse nonneg =>
    simp [readExponent, read, full, digitsValue_toDigits, abs_of_nonneg (not_lt.mp nonneg)]

/-! ## Decimals -/

theorem readMagnitude_append {whole fraction tail : List Char} {power : ℤ}
    (isWhole : IsWhole whole) (isDigits : ∀ char ∈ fraction, char.isDigit)
    (noDigit : NoDigit tail) (noPoint : tail.head? ≠ some '.')
    (read : readExponent tail = some (power, [])) :
    readMagnitude (whole ++ (fractionText fraction ++ tail)) =
      some (⟨digitsValue (whole ++ fraction), power - fraction.length⟩, []) := by
  have afterWhole : NoDigit (fractionText fraction ++ tail) := by
    cases fraction with
    | nil => exact noDigit
    | cons digit digits =>
      rintro char ⟨⟩
      rfl
  simp [readMagnitude, readWhole_append isWhole afterWhole,
    readFraction_append isDigits noDigit noPoint, read]

theorem readMagnitude_positional {whole : List Char} (isWhole : IsWhole whole)
    (fraction : List Char) (isDigits : ∀ char ∈ fraction, char.isDigit) :
    readMagnitude (whole ++ fractionText fraction) =
      some (⟨digitsValue (whole ++ fraction), -fraction.length⟩, []) := by
  have noDigit : NoDigit [] := nofun
  have read := readMagnitude_append isWhole isDigits noDigit nofun rfl
  rwa [List.append_nil, zero_sub] at read

theorem readMagnitude_scientific {whole fraction : List Char} (isWhole : IsWhole whole)
    (isDigits : ∀ char ∈ fraction, char.isDigit) (power : ℤ) :
    readMagnitude (whole ++ (fractionText fraction ++ exponentText power)) =
      some (⟨digitsValue (whole ++ fraction), power - fraction.length⟩, []) := by
  refine readMagnitude_append isWhole isDigits ?_ ?_ (readExponent_exponentText power)
  · rintro char ⟨⟩
    rfl
  · simp [exponentText]

theorem isDigit_zeros (count : Nat) : ∀ char ∈ List.replicate count '0', char.isDigit :=
  fun _ isZero => List.eq_of_mem_replicate isZero ▸ rfl

section Layouts

variable {first : Char} {rest : List Char} (isDigits : ∀ char ∈ first :: rest, char.isDigit)
  (notZero : first ≠ '0')

include isDigits notZero

theorem isWhole_cons {left right : List Char} (same : rest = left ++ right) :
    IsWhole (first :: left) := by
  refine ⟨fun char isChar => isDigits char ?_, .inr ⟨first, left, rfl, notZero⟩⟩
  rw [same, ← List.cons_append]
  exact List.mem_append_left right isChar

theorem readMagnitude_integer (count : Nat) :
    readMagnitude (first :: rest ++ List.replicate count '0') =
      some (⟨digitsValue (first :: rest) * 10 ^ count, 0⟩, []) := by
  have whole : IsWhole (first :: rest ++ List.replicate count '0') :=
    ⟨List.forall_mem_append.mpr ⟨isDigits, isDigit_zeros count⟩,
      .inr ⟨first, rest ++ List.replicate count '0', rfl, notZero⟩⟩
  have read := readMagnitude_positional whole [] nofun
  rwa [fractionText, List.append_nil, digitsValue_append_zeros] at read

theorem readMagnitude_mixed {left right : List Char} (same : rest = left ++ right) :
    readMagnitude (first :: left ++ fractionText right) =
      some (⟨digitsValue (first :: rest), -right.length⟩, []) := by
  have fraction : ∀ char ∈ right, char.isDigit := fun char isChar =>
    isDigits char (by simp [same, isChar])
  rw [same, ← List.cons_append]
  exact readMagnitude_positional (isWhole_cons isDigits notZero same) right fraction

omit notZero in
theorem readMagnitude_small (count : Nat) :
    readMagnitude ('0' :: '.' :: (List.replicate count '0' ++ first :: rest)) =
      some (⟨digitsValue (first :: rest), -(count + (first :: rest).length : Nat)⟩, []) := by
  have fraction : ∀ char ∈ List.replicate count '0' ++ first :: rest, char.isDigit :=
    List.forall_mem_append.mpr ⟨isDigit_zeros count, isDigits⟩
  have zero : IsWhole ['0'] := ⟨by simp, .inl rfl⟩
  have read := readMagnitude_positional zero _ fraction
  have text : fractionText (List.replicate count '0' ++ first :: rest) =
      '.' :: (List.replicate count '0' ++ first :: rest) := by
    cases count <;> rfl
  have value : digitsValue (['0'] ++ (List.replicate count '0' ++ first :: rest)) =
      digitsValue (first :: rest) := digitsValue_zeros_append (first :: rest) (count + 1)
  rw [text, value, List.length_append, List.length_replicate] at read
  exact read

theorem readMagnitude_exponent (power : ℤ) :
    readMagnitude ([first] ++ (fractionText rest ++ exponentText power)) =
      some (⟨digitsValue (first :: rest), power - rest.length⟩, []) :=
  readMagnitude_scientific (isWhole_cons isDigits notZero rest.nil_append.symm)
    (fun char isChar => isDigits char (List.mem_cons_of_mem first isChar)) power

end Layouts

theorem toList_toString (number : Nat) :
    (toString number).toList = Nat.toDigits 10 number := Nat.toList_repr

theorem toList_scientific (first : Char) (rest : List Char) (power : ℤ) :
    (String.ofList ((first :: rest).take 1) ++
        (if (first :: rest).length = 1 then ""
          else "." ++ String.ofList ((first :: rest).drop 1)) ++
        "e" ++ (if power < 0 then "-" else "+") ++ toString power.natAbs).toList =
      [first] ++ (fractionText rest ++ exponentText power) := by
  have sign : (if power < 0 then "-" else "+").toList = [if power < 0 then '-' else '+'] := by
    split <;> rfl
  cases rest with
  | nil => simp [fractionText, exponentText, sign]
  | cons second rest => simp [fractionText, exponentText, sign]

/-- The text of a positive decimal is read as the same number. -/
theorem readMagnitude_render {decimal : Decimal} (positive : 0 < decimal.digits) :
    ∃ read, readMagnitude (Number.layout.render decimal).toList = some (read, []) ∧
      read.value = decimal.value := by
  obtain ⟨digits, exponent⟩ := decimal
  obtain ⟨first, rest, same, notZero⟩ := exists_toDigits_eq_cons positive
  have isDigits := isDigit_toDigits digits
  have number := digitsValue_toDigits digits
  unfold Number.Layout.render
  dsimp only
  rw [toList_toString]
  rw [same] at isDigits number ⊢
  have length : (first :: rest).length = rest.length + 1 := rfl
  by_cases integer : ((first :: rest).length : ℤ) ≤ (first :: rest).length + exponent ∧
      (first :: rest).length + exponent ≤ Number.layout.greatest
  · obtain ⟨zeros, rfl⟩ : ∃ zeros : Nat, exponent = zeros := ⟨exponent.toNat, by omega⟩
    have text : (String.ofList (first :: rest) ++ Text.replicate zeros '0').toList =
        first :: rest ++ List.replicate zeros '0' := by simp [Text.replicate]
    rw [if_pos integer, add_sub_cancel_left, Int.toNat_natCast, text,
      readMagnitude_integer isDigits notZero, number]
    refine ⟨_, rfl, ?_⟩
    simp [Decimal.value]
  rw [if_neg integer]
  by_cases mixed : (0 : ℤ) < (first :: rest).length + exponent ∧
      (first :: rest).length + exponent ≤ Number.layout.greatest
  · obtain ⟨places, more⟩ :
        ∃ places : Nat, (first :: rest).length + exponent = (places + 1 : Nat) :=
      ⟨((first :: rest).length + exponent - 1).toNat, by omega⟩
    have text : (String.ofList ((first :: rest).take (places + 1)) ++ "." ++
          String.ofList ((first :: rest).drop (places + 1))).toList =
        first :: rest.take places ++ fractionText (rest.drop places) := by
      cases left : rest.drop places with
      | nil => exact absurd (List.drop_eq_nil_iff.mp left) (by omega)
      | cons digit digits => simp [fractionText, left]
    rw [if_pos mixed, more, Int.toNat_natCast, text,
      readMagnitude_mixed isDigits notZero (rest.take_append_drop places).symm, number]
    refine ⟨⟨digits, exponent⟩, ?_, rfl⟩
    congr 3
    rw [List.length_drop]
    omega
  rw [if_neg mixed]
  refine ⟨⟨digits, exponent⟩, ?_, rfl⟩
  by_cases small : Number.layout.smallest ≤ (first :: rest).length + exponent ∧
      (first :: rest).length + exponent ≤ 0
  · obtain ⟨zeros, more⟩ : ∃ zeros : Nat, (first :: rest).length + exponent = -zeros :=
      ⟨(-((first :: rest).length + exponent)).toNat, by omega⟩
    have text : ("0." ++ Text.replicate zeros '0' ++ String.ofList (first :: rest)).toList =
        '0' :: '.' :: (List.replicate zeros '0' ++ first :: rest) := by simp [Text.replicate]
    rw [if_pos small, more, neg_neg, Int.toNat_natCast, text, readMagnitude_small isDigits, number]
    congr 3
    omega
  · rw [if_neg small, toList_scientific, readMagnitude_exponent isDigits notZero, number]
    congr 3
    omega

/-! ## Numbers -/

/-- The sign and the exact magnitude that the text of a number stands for. -/
def spelled (value : Float) : Bool × ℚ :=
  if value == 0 then (false, 0)
  else (decide (value < 0), (Decimal.shortest (Dyadic.ofFloat value)).value)

theorem readSigned_of_readMagnitude {chars : List Char} {result : Decimal × List Char}
    (read : readMagnitude chars = some result) :
    readSigned chars = some ((false, result.1), result.2) := by
  cases chars with
  | nil => cases read
  | cons char chars =>
    have noSign : char ≠ '-' := by
      rintro rfl
      cases read
    rw [readSigned_of_ne noSign, read, Option.map_some]

/-- The text of a finite number is read as what it stands for. -/
theorem exists_readSigned_text {value : Float} (finite : Number.IsFinite value) :
    ∃ negative decimal, readSigned (Number.text value).toList = some ((negative, decimal), []) ∧
      spelled value = (negative, decimal.value) := by
  obtain ⟨number, bounded⟩ := Bool.or_eq_false_iff.mp finite
  unfold Number.text spelled
  rw [number, bounded]
  by_cases isZero : (value == 0) = true
  · rw [isZero]
    have read : readSigned ['0'] = some ((false, ⟨0, 0⟩), []) := rfl
    exact ⟨false, ⟨0, 0⟩, by simpa using read, by simp [Decimal.value]⟩
  have notZero := Bool.eq_false_iff.mpr isZero
  have isDouble := Number.isDouble_ofFloat finite notZero
  have positive : 0 < (Decimal.shortest (Dyadic.ofFloat value)).digits := by
    have positive := Decimal.value_shortest_pos isDouble
    unfold Decimal.value at positive
    exact_mod_cast pos_of_mul_pos_left positive (by positivity)
  obtain ⟨decimal, read, same⟩ := readMagnitude_render positive
  simp only [notZero, Bool.false_eq_true, if_false]
  refine ⟨decide (value < 0), decimal, ?_, by rw [same]⟩
  by_cases negative : value < 0
  · simp [negative, readSigned, read]
  · simpa [negative] using readSigned_of_readMagnitude read

/-- Finite numbers whose texts stand for the same are the same but for the sign of zero. -/
theorem plain_eq_of_spelled_eq {left right : Float} (leftFinite : Number.IsFinite left)
    (rightFinite : Number.IsFinite right) (same : spelled left = spelled right) :
    Number.plain left = Number.plain right := by
  have other {zero number : Float} (finite : Number.IsFinite number) (isZero : (zero == 0) = true)
      (notZero : (number == 0) = false) : spelled zero ≠ spelled number := by
    have positive := Decimal.value_shortest_pos (Number.isDouble_ofFloat finite notZero)
    simp only [spelled, isZero, notZero, if_true, Bool.false_eq_true, if_false]
    exact fun same => positive.ne (Prod.ext_iff.mp same).2
  rw [Number.plain_eq_plain_iff]
  cases leftZero : left == 0 <;> cases rightZero : right == 0
  · have leftDouble := Number.isDouble_ofFloat leftFinite leftZero
    have rightDouble := Number.isDouble_ofFloat rightFinite rightZero
    simp only [spelled, leftZero, rightZero, Bool.false_eq_true, if_false, Prod.mk.injEq,
      decide_eq_decide] at same
    obtain ⟨negative, magnitude⟩ := same
    rw [Number.lt_zero_iff leftFinite leftZero,
      Number.lt_zero_iff rightFinite rightZero] at negative
    have signs : Number.sign left = Number.sign right := by
      cases leftSign : Number.sign left <;> cases rightSign : Number.sign right <;> simp_all
    exact .inl (Number.eq_of_ofFloat_eq signs
      (Decimal.eq_of_value_shortest_eq leftDouble rightDouble magnitude))
  · exact absurd same.symm (other leftFinite rightZero leftZero)
  · exact absurd same (other rightFinite leftZero rightZero)
  · exact .inr ⟨rfl, rfl⟩

/-- What follows a number tells where it ends, so that numbers with the same text are the same but
for the sign of zero. -/
theorem plain_eq_of_text_append {left right : Float} (leftFinite : Number.IsFinite left)
    (rightFinite : Number.IsFinite right) {leftRest rightRest : List Char}
    (leftEnds : Ends leftRest) (rightEnds : Ends rightRest)
    (same : (Number.text left).toList ++ leftRest = (Number.text right).toList ++ rightRest) :
    Number.plain left = Number.plain right ∧ leftRest = rightRest := by
  obtain ⟨leftNegative, leftDecimal, leftRead, leftSpelled⟩ := exists_readSigned_text leftFinite
  obtain ⟨rightNegative, rightDecimal, rightRead, rightSpelled⟩ :=
    exists_readSigned_text rightFinite
  have read := steady_readSigned leftRead leftEnds
  rw [same, steady_readSigned rightRead rightEnds] at read
  cases read
  exact ⟨plain_eq_of_spelled_eq leftFinite rightFinite (leftSpelled.trans rightSpelled.symm), rfl⟩

end Json
end CodeAtlas
