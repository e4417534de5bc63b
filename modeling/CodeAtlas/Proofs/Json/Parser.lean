import CodeAtlas.Json.Parser
import CodeAtlas.Proofs.Json.Alike

/-!
# Reading what is written

A value without two members of one name is read back from its text, with zeros without their sign,
if every number in it is read back from its text.
-/

namespace CodeAtlas

/-! ## Texts -/

namespace Text

theorem ofUnits_charUnits_append (char : Char) (rest : List Nat) :
    ofUnits (charUnits char ++ rest) = char :: ofUnits rest := by
  have valid : char.toNat < 0xD800 ∨ 0xDFFF < char.toNat ∧ char.toNat < 0x110000 := char.valid
  have ofCode {code : Nat} (same : code = char.toNat) : Char.ofNat code = char := by
    rw [same, Char.ofNat_toNat]
  by_cases oneUnit : char.toNat < 0x10000
  · rw [charUnits, if_pos oneUnit, List.cons_append, List.nil_append, ofUnits.eq_def]
    simp only
    rw [if_neg (by omega), if_neg (by omega), ofCode rfl]
  · rw [charUnits, if_neg oneUnit, List.cons_append, List.cons_append, List.nil_append, ofUnits,
      if_pos (by omega), if_pos (by omega), ofCode (by omega)]

theorem ofUnits_flatMap_charUnits (chars : List Char) :
    ofUnits (chars.flatMap charUnits) = chars := by
  induction chars with
  | nil => rw [List.flatMap_nil, ofUnits]
  | cons char rest induction => rw [List.flatMap_cons, ofUnits_charUnits_append, induction]

end Text

namespace Json

theorem hexUnit?_hexDigit : ∀ code < 32,
    hexUnit? '0' '0' (hexDigit (code / 16)) (hexDigit (code % 16)) = some code := by
  decide

theorem readUnits_escapeChar (char : Char) (units : List Nat) (rest : List Char) :
    readUnits units (escapeChar char ++ rest) =
      readUnits ((Text.charUnits char).reverse ++ units) rest := by
  have oneUnit (small : char.toNat < 32) : Text.charUnits char = [char.toNat] := by
    rw [Text.charUnits, if_pos (by omega)]
  unfold escapeChar
  split_ifs with isQuote isBackslash isNewline isReturn isTab isBackspace isFeed isControl
  · subst char
    rfl
  · subst char
    rfl
  · subst char
    rfl
  · subst char
    rfl
  · subst char
    rfl
  · rw [oneUnit (by omega), isBackspace]
    rfl
  · rw [oneUnit (by omega), isFeed]
    rfl
  · rw [oneUnit isControl]
    simp only [List.cons_append, List.nil_append, readUnits, hexUnit?_hexDigit _ isControl,
      List.reverse_singleton]
  · rw [List.cons_append, List.nil_append, readUnits.eq_def]
    split <;> simp_all

theorem readUnits_text (chars : List Char) (units : List Nat) (rest : List Char) :
    readUnits units (chars.flatMap escapeChar ++ '"' :: rest) =
      some (units.reverse ++ chars.flatMap Text.charUnits, rest) := by
  induction chars generalizing units with
  | nil => simp [readUnits]
  | cons char chars induction =>
    rw [List.flatMap_cons, List.flatMap_cons, List.append_assoc, readUnits_escapeChar, induction,
      List.reverse_append, List.reverse_reverse, List.append_assoc]

theorem toList_quote (text : String) :
    (quote text).toList = '"' :: (text.toList.flatMap escapeChar ++ ['"']) := by
  simp [quote]

theorem readText_quoted (text : String) (rest : List Char) :
    readText (text.toList.flatMap escapeChar ++ '"' :: rest) = some (text, rest) := by
  simp only [readText, readUnits_text, List.reverse_nil, List.nil_append, Option.map_some,
    Text.ofUnits_flatMap_charUnits, String.ofList_toList]

/-! ## Numbers -/

/-- What may follow a value: nothing, or a mark that separates or closes. -/
def Ends : List Char → Prop
  | [] => True
  | mark :: _ => mark ∈ [',', ']', '\x7d']

/-- A reader that reads the same whatever follows the value. -/
def Steady {α : Type} (read : List Char → Option (α × List Char)) : Prop :=
  ∀ ⦃chars value tail rest⦄, read chars = some (value, tail) → Ends rest →
    read (chars ++ rest) = some (value, tail ++ rest)

theorem steady_pure {α : Type} (value : α) : Steady fun chars => some (value, chars) := by
  rintro chars _ _ rest ⟨⟩ _
  rfl

theorem Steady.bind {α β : Type} {read : List Char → Option (α × List Char)}
    {next : α → List Char → Option (β × List Char)} (first : Steady read)
    (second : ∀ value, Steady (next value)) :
    Steady fun chars => (read chars).bind fun result => next result.1 result.2 := by
  intro chars value tail rest done ends
  obtain ⟨⟨middle, left⟩, readFirst, readSecond⟩ := Option.bind_eq_some_iff.mp done
  simp only [first readFirst ends, Option.bind_some]
  exact second middle readSecond ends

theorem readDigits_append (chars : List Char) {rest : List Char} (ends : Ends rest) :
    readDigits (chars ++ rest) = ((readDigits chars).1, (readDigits chars).2 ++ rest) := by
  induction chars with
  | nil =>
    cases rest with
    | nil => rfl
    | cons mark rest =>
      have noDigit : ∀ mark ∈ [',', ']', '\x7d'], mark.isDigit = false := by simp
      simp [readDigits, noDigit mark ends]
  | cons char chars induction =>
    simp only [readDigits, Prod.mk.injEq] at induction
    cases isDigit : char.isDigit <;> simp [readDigits, isDigit, induction]

theorem steady_digits {α : Type} (value : List Char → α) :
    Steady fun chars => if (readDigits chars).1.isEmpty then none
      else some (value (readDigits chars).1, (readDigits chars).2) := by
  intro chars digits tail rest read ends
  simp only [readDigits_append chars ends] at read ⊢
  split at read
  case isTrue => cases read
  case isFalse notEmpty =>
    cases read
    rw [if_neg notEmpty]

theorem steady_readWhole : Steady readWhole := by
  intro chars digits tail rest read ends
  cases chars with
  | nil => cases read
  | cons char chars =>
    by_cases isZero : char = '0'
    · subst char
      cases read
      rfl
    · have other (chars : List Char) : readWhole (char :: chars) =
          if (readDigits (char :: chars)).1.isEmpty then none
          else some (readDigits (char :: chars)) := by
        unfold readWhole
        split <;> simp_all
      rw [other] at read
      rw [List.cons_append, other]
      exact steady_digits id read ends

theorem readFraction_of_ne {char : Char} (noPoint : char ≠ '.') (chars : List Char) :
    readFraction (char :: chars) = some ([], char :: chars) := by
  unfold readFraction
  split <;> simp_all

theorem steady_readFraction : Steady readFraction := by
  intro chars digits tail rest read ends
  cases chars with
  | nil =>
    cases read
    cases rest with
    | nil => rfl
    | cons mark rest =>
      have noPoint : ∀ mark ∈ [',', ']', '\x7d'], mark ≠ '.' := by simp
      exact readFraction_of_ne (noPoint mark ends) rest
  | cons char chars =>
    by_cases isPoint : char = '.'
    · subst char
      exact steady_digits id read ends
    · rw [readFraction_of_ne isPoint] at read
      rw [List.cons_append, readFraction_of_ne isPoint]
      cases read
      rfl

theorem readExponent_of_ne {char : Char} (noMark : ¬ (char = 'e' ∨ char = 'E'))
    (chars : List Char) :
    readExponent (char :: chars) = some (0, char :: chars) := by
  simp only [readExponent, if_neg noMark]

theorem steady_readExponent : Steady readExponent := by
  intro chars value tail rest read ends
  cases chars with
  | nil =>
    cases read
    cases rest with
    | nil => rfl
    | cons mark rest =>
      have noMark : ∀ mark ∈ [',', ']', '\x7d'], ¬ (mark = 'e' ∨ mark = 'E') := by simp
      exact readExponent_of_ne (noMark mark ends) rest
  | cons char chars =>
    by_cases isMark : char = 'e' ∨ char = 'E'
    · simp only [readExponent, if_pos isMark, List.cons_append] at read ⊢
      cases chars with
      | nil => cases read
      | cons sign chars =>
        by_cases isPlus : sign = '+'
        · subst sign
          exact steady_digits (fun digits => (digitsValue digits : Int)) read ends
        by_cases isMinus : sign = '-'
        · subst sign
          exact steady_digits (fun digits => -(digitsValue digits : Int)) read ends
        · simp only [List.cons_append, List.cons.injEq, isPlus, isMinus, false_and, imp_self,
            implies_true] at read ⊢
          exact steady_digits (fun digits => (digitsValue digits : Int)) read ends
    · rw [readExponent_of_ne isMark] at read
      rw [List.cons_append, readExponent_of_ne isMark]
      cases read
      rfl

/-- Reads a number without a sign, exactly. -/
def readMagnitude (chars : List Char) : Option (Decimal × List Char) := do
  let (whole, chars) ← readWhole chars
  let (fraction, chars) ← readFraction chars
  let (exponent, chars) ← readExponent chars
  pure (⟨digitsValue (whole ++ fraction), exponent - fraction.length⟩, chars)

/-- Reads a number as its sign and its exact magnitude. -/
def readSigned (chars : List Char) : Option ((Bool × Decimal) × List Char) :=
  match chars with
  | '-' :: rest => (readMagnitude rest).map fun (decimal, rest) => ((true, decimal), rest)
  | _ => (readMagnitude chars).map fun (decimal, rest) => ((false, decimal), rest)

/-- The double nearest to a decimal with a sign. -/
def nearestSigned (signed : Bool × Decimal) : Float :=
  if signed.1 then -nearestDouble signed.2.digits signed.2.exponent
  else nearestDouble signed.2.digits signed.2.exponent

theorem readSigned_of_ne {char : Char} (noSign : char ≠ '-') (chars : List Char) :
    readSigned (char :: chars) =
      (readMagnitude (char :: chars)).map fun result => ((false, result.1), result.2) := by
  unfold readSigned
  split
  case h_1 sign => exact absurd (List.cons.inj sign).1 noSign
  case h_2 => rfl

theorem readNumber_eq (chars : List Char) :
    readNumber chars = (readSigned chars).map (Prod.map nearestSigned id) := by
  cases chars with
  | nil => rfl
  | cons char rest =>
    by_cases isSign : char = '-'
    · subst char
      simp [readNumber, readSigned, readMagnitude, nearestSigned]
    · simp [readNumber, readSigned_of_ne isSign, isSign, readMagnitude, nearestSigned]

theorem Steady.map {α β : Type} {read : List Char → Option (α × List Char)} (steady : Steady read)
    (change : α → β) : Steady fun chars => (read chars).map (Prod.map change id) := by
  intro chars value tail rest done ends
  obtain ⟨⟨before, left⟩, readBefore, same⟩ := Option.map_eq_some_iff.mp done
  cases same
  simp only [steady readBefore ends, Option.map_some]
  rfl

theorem steady_readMagnitude : Steady readMagnitude :=
  steady_readWhole.bind fun whole => steady_readFraction.bind fun fraction =>
    steady_readExponent.bind fun exponent =>
      steady_pure (Decimal.mk (digitsValue (whole ++ fraction)) (exponent - fraction.length))

theorem steady_readSigned : Steady readSigned := by
  intro chars value tail rest read ends
  cases chars with
  | nil => cases read
  | cons char chars =>
    by_cases isSign : char = '-'
    · subst char
      exact steady_readMagnitude.map (Prod.mk true) read ends
    · rw [readSigned_of_ne isSign] at read
      rw [List.cons_append, readSigned_of_ne isSign, ← List.cons_append]
      exact steady_readMagnitude.map (Prod.mk false) read ends

theorem steady_readNumber : Steady readNumber := by
  have steady := steady_readSigned.map nearestSigned
  simp only [← readNumber_eq] at steady
  exact steady

theorem readSigned_head {char : Char} {chars : List Char} {result : (Bool × Decimal) × List Char}
    (read : readSigned (char :: chars) = some result) : char = '-' ∨ char.isDigit := by
  by_contra other
  obtain ⟨noMinus, noDigit⟩ := not_or.mp other
  have noWhole : readWhole (char :: chars) = none := by
    unfold readWhole
    split
    · simp_all
    · simp [readDigits, noDigit]
  simp [readSigned_of_ne noMinus, readMagnitude, noWhole] at read

theorem readNumber_head {char : Char} {chars : List Char} {result : Float × List Char}
    (read : readNumber (char :: chars) = some result) : char = '-' ∨ char.isDigit := by
  rw [readNumber_eq, Option.map_eq_some_iff] at read
  obtain ⟨signed, read, -⟩ := read
  exact readSigned_head read

/-! ## Values -/

theorem skipBlanks_skipBlanks (chars : List Char) :
    skipBlanks (skipBlanks chars) = skipBlanks chars := by
  induction chars with
  | nil => rfl
  | cons char chars induction =>
    by_cases isBlank : char = ' ' ∨ char = '\t' ∨ char = '\n' ∨ char = '\r'
    · rw [skipBlanks, if_pos isBlank, induction]
    · rw [skipBlanks, if_neg isBlank, skipBlanks, if_neg isBlank]

theorem readValue_skipBlanks (fuel : Nat) (chars : List Char) :
    readValue fuel (skipBlanks chars) = readValue fuel chars := by
  cases fuel with
  | zero => rfl
  | succ fuel => rw [readValue, readValue, skipBlanks_skipBlanks]

theorem readItems_skipBlanks (fuel : Nat) (items : List Json) (chars : List Char) :
    readItems fuel items (skipBlanks chars) = readItems fuel items chars := by
  cases fuel with
  | zero => rfl
  | succ fuel => rw [readItems, readItems, readValue_skipBlanks]

theorem readMembers_skipBlanks (fuel : Nat) (members : List (String × Json)) (chars : List Char) :
    readMembers fuel members (skipBlanks chars) = readMembers fuel members chars := by
  cases fuel with
  | zero => rfl
  | succ fuel => rw [readMembers, readMembers, skipBlanks_skipBlanks]

/-- A value is read from its text, whatever may follow, but for the signs of zeros. Each character
of the text takes at most two units of the fuel. -/
def Readable (value : Json) : Prop :=
  ∀ ⦃fuel rest⦄, 2 * (render value).toList.length < fuel → Ends rest →
    readValue fuel ((render value).toList ++ rest) = some (value.plain, rest)

theorem readable_null : Readable null := by
  intro fuel rest enough _
  obtain ⟨fuel, rfl⟩ : ∃ less, fuel = less + 1 := ⟨fuel - 1, by omega⟩
  simp [render, plain, readValue, skipBlanks, readWord]

theorem readable_bool (value : Bool) : Readable (bool value) := by
  intro fuel rest enough _
  obtain ⟨fuel, rfl⟩ : ∃ less, fuel = less + 1 := ⟨fuel - 1, by omega⟩
  cases value <;> simp [render, plain, readValue, skipBlanks, readWord]

theorem readable_str (value : String) : Readable (str value) := by
  intro fuel rest enough _
  obtain ⟨fuel, rfl⟩ : ∃ less, fuel = less + 1 := ⟨fuel - 1, by omega⟩
  simp [render, plain, toList_quote, readValue, skipBlanks, readText_quoted]

/-- A finite number whose text reads back as the number, but for the sign of zero. -/
def ReadsBack (value : Float) : Prop :=
  Number.IsFinite value ∧
    readNumber (Number.text value).toList = some (Number.plain value, [])

instance (value : Float) : Decidable (ReadsBack value) := inferInstanceAs (Decidable (_ ∧ _))

theorem readValue_number {char : Char} (starts : char = '-' ∨ char.isDigit) (fuel : Nat)
    (rest : List Char) :
    readValue (fuel + 1) (char :: rest) =
      (readNumber (char :: rest)).map fun result => (num result.1, result.2) := by
  have others : ∀ mark ∈ [' ', '\t', '\n', '\r', '"', '[', '\x7b', 'n', 't', 'f'],
      ¬ (mark = '-' ∨ mark.isDigit) := by simp
  have distinct : char ∉ [' ', '\t', '\n', '\r', '"', '[', '\x7b', 'n', 't', 'f'] :=
    fun isMark => others char isMark starts
  simp only [List.mem_cons, List.not_mem_nil, or_false, not_or] at distinct
  simp [readValue, skipBlanks, distinct]

theorem readable_num {value : Float} (back : ReadsBack value) : Readable (num value) := by
  intro fuel rest enough ends
  obtain ⟨fuel, rfl⟩ : ∃ less, fuel = less + 1 := ⟨fuel - 1, by omega⟩
  obtain ⟨finite, back⟩ := back
  have written : render (num value) = Number.text value := by
    simp only [render, renderNumber, finite, Bool.false_eq_true, if_false]
  have read := steady_readNumber back ends
  rw [written, plain]
  cases chars : (Number.text value).toList with
  | nil =>
    rw [chars] at back
    cases back
  | cons char more =>
    rw [chars] at back read
    rw [List.cons_append] at read ⊢
    rw [readValue_number (readNumber_head back), read, Option.map_some, List.nil_append]

theorem toList_render_arr (items : List Json) :
    (render (arr items)).toList = '[' :: ((renderItems items).toList ++ [']']) := by
  simp [render]

theorem toList_render_obj (members : List (String × Json)) :
    (render (obj members)).toList = '\x7b' :: ((renderMembers members).toList ++ ['\x7d']) := by
  simp [render]

theorem toList_renderItems_cons_cons (first second : Json) (rest : List Json) :
    (renderItems (first :: second :: rest)).toList =
      (render first).toList ++ ',' :: (renderItems (second :: rest)).toList := by
  simp [renderItems]

theorem toList_renderMembers_singleton (member : String × Json) :
    (renderMembers [member]).toList =
      (quote member.1).toList ++ ':' :: (render member.2).toList := by
  simp [renderMembers]

theorem toList_renderMembers_cons_cons (first second : String × Json)
    (rest : List (String × Json)) :
    (renderMembers (first :: second :: rest)).toList = (quote first.1).toList ++ ':' ::
      ((render first.2).toList ++ ',' :: (renderMembers (second :: rest)).toList) := by
  simp [renderMembers]

/-- The items of a list that is not empty are read up to the bracket. -/
theorem readItems_renderItems {item : Json} {items : List Json}
    (readable : ∀ value ∈ item :: items, Readable value) (fuel : Nat)
    (enough : 2 * (renderItems (item :: items)).toList.length + 2 ≤ fuel) (found : List Json)
    (rest : List Char) :
    readItems fuel found ((renderItems (item :: items)).toList ++ ']' :: rest) =
      some (found.reverse ++ (item :: items).map plain, rest) := by
  induction items generalizing item fuel found with
  | nil =>
    obtain ⟨fuel, rfl⟩ : ∃ less, fuel = less + 1 := ⟨fuel - 1, by omega⟩
    have first := readable item List.mem_cons_self
    rw [renderItems] at enough ⊢
    rw [readItems, first (by omega) (by simp [Ends])]
    simp [skipBlanks]
  | cons next items induction =>
    obtain ⟨fuel, rfl⟩ : ∃ less, fuel = less + 1 := ⟨fuel - 1, by omega⟩
    obtain ⟨first, others⟩ := List.forall_mem_cons.mp readable
    rw [toList_renderItems_cons_cons, List.length_append, List.length_cons] at enough
    rw [toList_renderItems_cons_cons, List.append_assoc, readItems,
      first (by omega) (by simp [Ends])]
    simp [skipBlanks, induction others fuel (by omega) (item.plain :: found)]

theorem readItems_close (fuel : Nat) (found : List Json) (rest : List Char) :
    readItems fuel found (']' :: rest) = none := by
  cases fuel with
  | zero => rfl
  | succ fuel =>
    cases fuel with
    | zero => rfl
    | succ fuel => simp [readItems, readValue, skipBlanks, readNumber, readWhole, readDigits]

theorem readable_arr {items : List Json} (readable : ∀ item ∈ items, Readable item) :
    Readable (arr items) := by
  intro fuel rest enough _
  obtain ⟨fuel, rfl⟩ : ∃ less, fuel = less + 1 := ⟨fuel - 1, by omega⟩
  cases items with
  | nil => simp [render, renderItems, plain, plainItems, readValue, skipBlanks]
  | cons item items =>
    rw [toList_render_arr, List.length_cons, List.length_append] at enough
    have read := readItems_renderItems readable fuel (by omega) [] rest
    rw [toList_render_arr, plain, plainItems_eq_map]
    simp only [List.cons_append, List.append_assoc, List.nil_append, readValue, skipBlanks,
      Char.reduceEq, or_self, if_false]
    -- Had the bracket been closed at once, no items could be read.
    rw [← readItems_skipBlanks] at read
    split
    case h_1 closed =>
      rw [closed, readItems_close] at read
      cases read
    case h_2 => rw [read, Option.map_some, List.reverse_nil, List.nil_append]

theorem putMember_of_notMem {members : List (String × Json)} {name : String}
    (new : name ∉ members.map (·.1)) (value : Json) :
    putMember members name value = members ++ [(name, value)] := by
  rw [putMember, if_neg]
  simpa using new

theorem name_notMem_of_nodup {member : String × Json} {before after : List (String × Json)}
    (distinct : ((before ++ member :: after).map (·.1)).Nodup) :
    member.1 ∉ before.map (·.1) := by
  simp only [List.map_append, List.map_cons, List.nodup_middle, List.nodup_cons,
    List.mem_append, not_or] at distinct
  exact distinct.1.1

/-- The members of an object that is not empty are read up to the brace, in their order, as long as
no name comes twice. -/
theorem readMembers_renderMembers {member : String × Json} {members : List (String × Json)}
    (readable : ∀ entry ∈ member :: members, Readable entry.2) (fuel : Nat)
    (enough : 2 * (renderMembers (member :: members)).toList.length + 2 ≤ fuel)
    (found : List (String × Json)) (distinct : ((found ++ member :: members).map (·.1)).Nodup)
    (rest : List Char) :
    readMembers fuel found ((renderMembers (member :: members)).toList ++ '\x7d' :: rest) =
      some (found ++ (member :: members).map (Prod.map id plain), rest) := by
  induction members generalizing member fuel found with
  | nil =>
    obtain ⟨fuel, rfl⟩ : ∃ less, fuel = less + 1 := ⟨fuel - 1, by omega⟩
    rw [toList_renderMembers_singleton, List.length_append, List.length_cons] at enough
    have read : readValue fuel ((render member.2).toList ++ '\x7d' :: rest) =
        some (member.2.plain, '\x7d' :: rest) :=
      readable member List.mem_cons_self (by omega) (by simp [Ends])
    rw [toList_renderMembers_singleton, toList_quote, readMembers]
    simp only [List.cons_append, List.append_assoc, List.nil_append, skipBlanks, Char.reduceEq,
      or_self, if_false, readText_quoted, read,
      putMember_of_notMem (name_notMem_of_nodup distinct)]
    rfl
  | cons next members induction =>
    obtain ⟨fuel, rfl⟩ : ∃ less, fuel = less + 1 := ⟨fuel - 1, by omega⟩
    obtain ⟨first, others⟩ := List.forall_mem_cons.mp readable
    rw [toList_renderMembers_cons_cons, List.length_append, List.length_cons,
      List.length_append, List.length_cons] at enough
    have read : readValue fuel ((render member.2).toList ++
          ',' :: ((renderMembers (next :: members)).toList ++ '\x7d' :: rest)) =
        some (member.2.plain,
          ',' :: ((renderMembers (next :: members)).toList ++ '\x7d' :: rest)) :=
      first (by omega) (by simp [Ends])
    have later := induction others fuel (by omega) (found ++ [(member.1, member.2.plain)])
      (by simpa using distinct)
    rw [toList_renderMembers_cons_cons, toList_quote, readMembers]
    simp only [List.cons_append, List.append_assoc, List.nil_append, skipBlanks, Char.reduceEq,
      or_self, if_false, readText_quoted, read,
      putMember_of_notMem (name_notMem_of_nodup distinct), later]
    rfl

theorem readMembers_close (fuel : Nat) (found : List (String × Json)) (rest : List Char) :
    readMembers fuel found ('\x7d' :: rest) = none := by
  cases fuel with
  | zero => rfl
  | succ fuel => simp [readMembers, skipBlanks]

theorem readable_obj {members : List (String × Json)} (distinct : (members.map (·.1)).Nodup)
    (readable : ∀ member ∈ members, Readable member.2) : Readable (obj members) := by
  intro fuel rest enough _
  obtain ⟨fuel, rfl⟩ : ∃ less, fuel = less + 1 := ⟨fuel - 1, by omega⟩
  cases members with
  | nil => simp [render, renderMembers, plain, plainMembers, readValue, skipBlanks]
  | cons member members =>
    rw [toList_render_obj, List.length_cons, List.length_append] at enough
    have read := readMembers_renderMembers readable fuel (by omega) [] distinct rest
    rw [toList_render_obj, plain, plainMembers_eq_map]
    simp only [List.cons_append, List.append_assoc, List.nil_append, readValue, skipBlanks,
      Char.reduceEq, or_self, if_false]
    rw [← readMembers_skipBlanks] at read
    split
    case h_1 closed =>
      rw [closed, readMembers_close] at read
      cases read
    case h_2 => rw [read, Option.map_some, List.nil_append]

theorem Proper.readable {value : Json} (proper : value.Proper ReadsBack) : Readable value := by
  induction proper with
  | null => exact readable_null
  | bool value => exact readable_bool value
  | num back => exact readable_num back
  | str value => exact readable_str value
  | arr _ induction => exact readable_arr induction
  | obj distinct _ induction => exact readable_obj distinct induction

/-- A value all of whose numbers read back is read from its text. -/
theorem parse?_render {value : Json} (proper : value.Proper ReadsBack) :
    parse? (render value) = some value.plain := by
  have read : readValue (2 * (render value).toList.length + 2) ((render value).toList ++ []) =
      some (value.plain, []) := proper.readable (by omega) trivial
  rw [List.append_nil] at read
  simp [parse?, read, skipBlanks]

end Json
end CodeAtlas
