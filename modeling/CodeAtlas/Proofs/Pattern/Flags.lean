import CodeAtlas.Classification

/-!
# Patterns as tests

Two flags of a pattern are about where a search goes on: one asks for all matches, the other for a
match at the current place. Neither has a part in reading the pattern, so that a pattern can be made
a test, which leaves both out, whenever it can be compiled.
-/

namespace CodeAtlas
namespace Pattern

/-- The flags without those about where a search goes on. -/
def Flags.stateless (flags : Flags) : Flags := { flags with global := false, sticky := false }

/-- Whether a letter stands for a flag that is not about where a search goes on. -/
def isStateless (letter : Char) : Bool := letter != 'g' && letter != 'y'

/-! ## Flags -/

namespace Flags

theorem stateless_of_set? {flags next : Flags} {letter : Char}
    (isSet : flags.set? letter = some next) (left : isStateless letter = false) :
    next.stateless = flags.stateless := by
  have isLetter : letter = 'g' ∨ letter = 'y' := by
    simpa [isStateless, Classical.or_iff_not_imp_left] using left
  rcases isLetter with rfl | rfl
  · obtain ⟨_, rfl⟩ : flags.global = false ∧ { flags with global := true } = next := by
      simpa [set?] using isSet
    rfl
  · obtain ⟨_, rfl⟩ : flags.sticky = false ∧ { flags with sticky := true } = next := by
      simpa [set?] using isSet
    rfl

/-- All other flags are set in the same way without them. -/
theorem set?_stateless {flags next : Flags} {letter : Char} (isSet : flags.set? letter = some next)
    (kept : isStateless letter = true) : flags.stateless.set? letter = some next.stateless := by
  unfold set? at isSet ⊢
  split at isSet
  case h_2 => simp [isStateless] at kept
  case h_8 => simp [isStateless] at kept
  case h_9 => cases isSet
  all_goals
    split at isSet
    case isTrue => cases isSet
    case isFalse unset =>
      rw [← Option.some.inj isSet]
      exact if_neg unset

theorem foldlM_set?_stateless {letters : List Char} {flags last : Flags}
    (isLast : letters.foldlM set? flags = some last) :
    (letters.filter isStateless).foldlM set? flags.stateless = some last.stateless := by
  induction letters generalizing flags with
  | nil =>
    cases isLast
    rfl
  | cons letter letters induction =>
    obtain ⟨next, isSet, rest⟩ := Option.bind_eq_some_iff.mp isLast
    have tail := induction rest
    by_cases kept : isStateless letter = true
    · rw [List.filter_cons_of_pos kept, List.foldlM_cons, set?_stateless isSet kept]
      exact tail
    · rw [List.filter_cons_of_neg kept,
        ← stateless_of_set? isSet (Bool.not_eq_true _ ▸ kept)]
      exact tail

theorem ofText?_stateless {letters : String} {flags : Flags}
    (isFlags : ofText? letters = some flags) :
    ofText? (String.ofList (letters.toList.filter isStateless)) = some flags.stateless := by
  unfold ofText? at isFlags ⊢
  split at isFlags
  case h_2 => cases isFlags
  case h_1 last isLast =>
    have stateless : (letters.toList.filter isStateless).foldlM set? {} = some last.stateless :=
      foldlM_set?_stateless isLast
    split at isFlags
    case isTrue => cases isFlags
    case isFalse compatible =>
      rw [String.toList_ofList, stateless, ← Option.some.inj isFlags]
      exact if_neg compatible

end Flags

/-! ## Reading -/

/-- A setting without the flags about where a search goes on. -/
def Setting.stateless (setting : Setting) : Setting :=
  { setting with flags := setting.flags.stateless }

section Reading

variable (setting : Setting)

-- Functions that do not call themselves look at other flags only, which holds by definition.

theorem readClassAtom_stateless : readClassAtom setting.stateless = readClassAtom setting := rfl

theorem readSetEscape?_stateless : readSetEscape? setting.stateless = readSetEscape? setting := rfl

theorem readSetSymbol_stateless : readSetSymbol setting.stateless = readSetSymbol setting := rfl

theorem readRanges_stateless (fuel : Nat) :
    readRanges setting.stateless fuel = readRanges setting fuel := by
  induction fuel with
  | zero => rfl
  | succ fuel induction =>
    funext set symbols
    cases symbols with
    | nil => rfl
    | cons symbol rest =>
      rw [readRanges, readRanges, readClassAtom_stateless, induction]
      rfl

/-- The parts of a class with set operations and their operands call each other. -/
theorem readSetParts_stateless (fuel : Nat) :
    readSetParts setting.stateless fuel = readSetParts setting fuel ∧
      readSetParts.readSetOperand setting.stateless fuel =
        readSetParts.readSetOperand setting fuel := by
  induction fuel with
  | zero => exact ⟨rfl, rfl⟩
  | succ fuel induction =>
    obtain ⟨parts, operand⟩ := induction
    constructor
    · funext operation set symbols
      cases symbols with
      | nil => rfl
      | cons symbol rest => rw [readSetParts, readSetParts, operand]
    · funext operation set symbols
      cases symbols with
      | nil => rfl
      | cons symbol rest =>
        simp only [readSetParts.readSetOperand, parts, readSetSymbol_stateless,
          readSetEscape?_stateless]

theorem readClass_stateless : readClass setting.stateless = readClass setting := by
  funext symbols
  have ranges := readRanges_stateless setting
  have parts (fuel : Nat) := (readSetParts_stateless setting fuel).1
  simp only [readClass, ranges, parts]
  rfl

theorem readTerm_stateless : readTerm setting.stateless = readTerm setting := by
  funext reading symbol rest
  rw [readTerm, readClass_stateless]
  rfl

theorem readTerms_stateless (fuel : Nat) :
    readTerms setting.stateless fuel = readTerms setting fuel := by
  induction fuel with
  | zero => rfl
  | succ fuel induction =>
    funext reading symbols
    cases symbols with
    | nil => rfl
    | cons symbol rest => rw [readTerms, readTerms, readTerm_stateless, induction]

end Reading

/-- A pattern that can be read can be read without the flags about where a search goes on. -/
theorem parse_stateless {flags : Flags} {source : String} {compiled : Compiled}
    (isRead : parse flags source = .ok compiled) :
    parse flags.stateless source = .ok { compiled with flags := flags.stateless } := by
  have symbols : flags.stateless.byCharacter = flags.byCharacter := rfl
  unfold parse at isRead ⊢
  simp only [symbols] at isRead ⊢
  generalize (if flags.byCharacter then source.toList.map Char.toNat else Text.units source) =
    symbols at isRead ⊢
  let setting : Setting := ⟨flags, (countGroups (symbols.length + 1) 0 false symbols).1,
    (countGroups (symbols.length + 1) 0 false symbols).2⟩
  have terms := readTerms_stateless setting (symbols.length + 1)
  change (readTerms setting (symbols.length + 1) {} symbols >>= _) = _ at isRead
  change (readTerms setting.stateless (symbols.length + 1) {} symbols >>= _) = _
  rw [terms]
  cases isReading : readTerms setting (symbols.length + 1) {} symbols with
  | error fault =>
    rw [isReading] at isRead
    cases isRead
  | ok reading =>
    rw [isReading] at isRead
    change (if _ then _ else _) = _ at isRead
    change (if _ then _ else _) = _
    split at isRead
    case isTrue known =>
      cases isRead
      exact if_pos known
    case isFalse => cases isRead

theorem exists_compileTest {source : String} {flags : Option String} {compiled : Compiled}
    (isCompiled : compile source (flags.getD "") = .ok compiled) :
    ∃ test, compileTest source flags = .ok test := by
  unfold compile at isCompiled
  split at isCompiled
  case h_1 => cases isCompiled
  case h_2 read isFlags =>
    split at isCompiled
    case h_2 => cases isCompiled
    case h_1 found isRead =>
      have letters := Flags.ofText?_stateless isFlags
      refine ⟨Compiled.matches? { found with flags := read.stateless }, ?_⟩
      change (compile source (String.ofList ((flags.getD "").toList.filter isStateless))).map _ = _
      rw [compile, letters]
      dsimp only
      rw [parse_stateless isRead]
      rfl

end Pattern
end CodeAtlas
