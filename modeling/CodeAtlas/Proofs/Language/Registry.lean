import CodeAtlas.Proofs.Language

/-!
# Registries of language maps

The entries of a map are its languages without an extractor and the extensions of the others. An
extension belongs to the first language that lists it, in whatever case, so that what is wrong with
an entry can be said without the registry under construction. A map has one issue for each entry
with which something is wrong, and a map without issues gives every extension to the one language
that lists it.
-/

namespace CodeAtlas

namespace Path

theorem extension_of_baseName {path stem : String} {chars : List Char}
    (named : baseName path = stem ++ String.ofList ('.' :: chars)) (stemFull : stem ≠ "")
    (full : chars ≠ []) (clear : '.' ∉ chars) : extension path = String.ofList ('.' :: chars) := by
  have nameChars : (baseName path).toList = stem.toList ++ '.' :: chars := by simp [named]
  have tail : (baseName path).toList.reverse.takeWhile (· ≠ '.') = chars.reverse := by
    have plain : ∀ char ∈ chars.reverse, decide (char ≠ '.') = true := fun char member =>
      decide_eq_true fun isDot => clear (isDot ▸ List.mem_reverse.mp member)
    rw [nameChars, List.reverse_append, List.reverse_cons, List.append_assoc,
      List.takeWhile_append_of_pos plain]
    simp
  have stemLength : 0 < stem.toList.length := by
    rw [List.length_pos_iff, Ne, String.toList_eq_nil_iff]
    exact stemFull
  have charsLength : 0 < chars.length := List.length_pos_iff.mpr full
  have notUp : (baseName path).toList ≠ ['.', '.'] := by
    intro isUp
    have lengths := congrArg List.length (nameChars.symm.trans isUp)
    simp only [List.length_append, List.length_cons, List.length_nil] at lengths
    omega
  have short : chars.reverse.length + 1 < (baseName path).toList.length := by
    rw [nameChars, List.length_append, List.length_cons, List.length_reverse]
    omega
  rw [extension]
  simp only [tail]
  rw [if_pos ⟨short, notUp⟩, List.reverse_reverse]

end Path

namespace LanguageRegistry

/-! ## Extensions -/

/-- The form of extensions: a dot with at least one lower-case letter, digit, `_`, `+` or `-` after
it and nothing else. -/
def HasForm (extension : String) : Prop :=
  ∃ chars, extension.toList = '.' :: chars ∧ chars ≠ [] ∧
    ∀ char ∈ chars, ('a' ≤ char ∧ char ≤ 'z') ∨ ('0' ≤ char ∧ char ≤ '9') ∨
      char = '_' ∨ char = '+' ∨ char = '-'

theorem isExtensionChar_iff {char : Char} :
    isExtensionChar char ↔ ('a' ≤ char ∧ char ≤ 'z') ∨ ('0' ≤ char ∧ char ≤ '9') ∨
      char = '_' ∨ char = '+' ∨ char = '-' := by
  have lower : char.isLower ↔ 'a' ≤ char ∧ char ≤ 'z' :=
    Bool.and_eq_true_iff.trans (and_congr decide_eq_true_iff decide_eq_true_iff)
  have digit : char.isDigit ↔ '0' ≤ char ∧ char ≤ '9' :=
    Bool.and_eq_true_iff.trans (and_congr decide_eq_true_iff decide_eq_true_iff)
  simp only [isExtensionChar, Bool.or_eq_true, lower, digit, beq_iff_eq, or_assoc]

theorem isWellFormed_iff {extension : String} : isWellFormed extension ↔ HasForm extension := by
  unfold isWellFormed HasForm
  split
  case h_1 rest isDotted =>
    simp [isDotted, ← isExtensionChar_iff]
  case h_2 noDot =>
    simp only [Bool.false_eq_true, false_iff, not_exists, not_and]
    intro chars isDotted
    exact absurd isDotted (noDot chars)

instance (extension : String) : Decidable (HasForm extension) :=
  decidable_of_iff _ isWellFormed_iff

/-- Texts that differ at most in the case of ASCII letters. -/
def SameButCase (left right : String) : Prop :=
  left.toList.map Char.toLower = right.toList.map Char.toLower

instance (left right : String) : Decidable (SameButCase left right) :=
  inferInstanceAs (Decidable (_ = _))

theorem toNat_toLower (char : Char) :
    char.toLower.toNat =
      if 65 ≤ char.toNat ∧ char.toNat ≤ 90 then char.toNat + 32 else char.toNat := by
  have upper : (char.val ≥ 'A'.val ∧ char.val ≤ 'Z'.val) ↔
      65 ≤ char.toNat ∧ char.toNat ≤ 90 := Iff.rfl
  unfold Char.toLower
  by_cases isUpper : char.val ≥ 'A'.val ∧ char.val ≤ 'Z'.val
  · rw [dif_pos isUpper, if_pos (upper.mp isUpper)]
    have bound := (upper.mp isUpper).2
    change (char.val + ('a'.val - 'A'.val)).toNat = char.val.toNat + 32
    change char.val.toNat ≤ 90 at bound
    rw [UInt32.toNat_add]
    have : ('a'.val - 'A'.val).toNat = 32 := rfl
    omega
  · rw [dif_neg isUpper, if_neg (mt upper.mpr isUpper)]

theorem lowerChar_toLower (char : Char) : lowerChar char.toLower = lowerChar char := by
  have twice : char.toLower.toLower = char.toLower := by
    rw [← Char.toNat_inj, toNat_toLower char.toLower, toNat_toLower char]
    by_cases isUpper : 65 ≤ char.toNat ∧ char.toNat ≤ 90
    · rw [if_pos isUpper, if_neg (by omega)]
    · rw [if_neg isUpper, if_neg isUpper]
  have kelvin : char.toLower.toNat = 0x212A ↔ char.toNat = 0x212A := by
    rw [toNat_toLower]
    split <;> omega
  simp only [lowerChar, kelvin, twice]

theorem lowerChar_eq_dot {char : Char} : lowerChar char = '.' ↔ char = '.' := by
  unfold lowerChar
  split
  case isTrue kelvin =>
    have other : char ≠ '.' := by rintro rfl; simp at kelvin
    simp [other]
  case isFalse =>
    rw [← Char.toNat_inj, ← Char.toNat_inj, toNat_toLower]
    have dot : '.'.toNat = 46 := rfl
    split <;> omega

theorem lower_eq_of_sameButCase {left right : String} (same : SameButCase left right) :
    lower left = lower right := by
  have lowered (text : String) : text.toList.map lowerChar =
      (text.toList.map Char.toLower).map lowerChar := by
    rw [List.map_map]
    exact List.map_congr_left fun char _ => (lowerChar_toLower char).symm
  rw [lower, lower, lowered left, lowered right, same]

/-- A text has the form of an extension in lower case only if it is a dot and what follows it has no
other dot. -/
theorem exists_dot_cons_of_hasForm {text : String} (form : HasForm (lower text)) :
    ∃ chars, text = String.ofList ('.' :: chars) ∧ chars ≠ [] ∧ '.' ∉ chars := by
  obtain ⟨lowered, isDotted, full, allowed⟩ := form
  rw [lower, String.toList_ofList, List.map_eq_cons_iff] at isDotted
  obtain ⟨first, chars, textChars, isDot, rfl⟩ := isDotted
  rw [lowerChar_eq_dot] at isDot
  refine ⟨chars, ?_, by simpa using full, fun member => ?_⟩
  · rw [← isDot, ← textChars, String.ofList_toList]
  · have isAllowed := allowed _ (List.mem_map_of_mem member)
    rw [lowerChar_eq_dot.mpr rfl] at isAllowed
    exact absurd isAllowed (by decide)

end LanguageRegistry

namespace LanguageMap

open LanguageRegistry

/-! ## Entries of a map -/

/-- An entry of a language map. -/
inductive Entry where
  /-- A language without an extractor, whatever extensions it lists. -/
  | foreign (language : String)
  /-- An extension that a supported language lists. -/
  | listed (language raw : String)
  deriving DecidableEq, Repr

/-- The entries of a map in order. -/
def entries (map : LanguageMap) (supported : List String) : List Entry :=
  map.flatMap fun entry =>
    if entry.1 ∈ supported then entry.2.map (.listed entry.1) else [.foreign entry.1]

/-- The first language that lists an extension, in whatever case. -/
def holderIn (entries : List Entry) (extension : String) : Option String :=
  entries.findSome? fun
    | .listed language raw => if lower raw = extension then some language else none
    | .foreign _ => none

/-- What is wrong with an entry, given the languages that extensions belong to. -/
def Entry.issue? (holder : String → Option String) : Entry → Option Issue
  | foreign language => some (.unsupported language)
  | listed language raw =>
    if HasForm (lower raw) then
      match holder (lower raw) with
      | some owner => if owner = language then none else some (.taken language (lower raw) owner)
      | none => none
    else
      some (.malformed language raw)

/-- The issues of a map: one for each entry with which something is wrong, in the order of the
map. -/
def issues (map : LanguageMap) (supported : List String) : List Issue :=
  (entries map supported).filterMap (Entry.issue? (holderIn (entries map supported)))

/-! ## Building a registry -/

theorem holderIn_append (left right : List Entry) (extension : String) :
    holderIn (left ++ right) extension =
      (holderIn left extension).or (holderIn right extension) :=
  List.findSome?_append

theorem holderIn_singleton (language raw extension : String) :
    holderIn [.listed language raw] extension =
      if lower raw = extension then some language else none := by
  rw [holderIn, List.findSome?_singleton]

/-- Enters an entry. -/
def Entry.enter (state : LanguageRegistry × List Issue) :
    Entry → LanguageRegistry × List Issue
  | foreign language => (state.1, state.2 ++ [.unsupported language])
  | listed language raw => LanguageRegistry.enter language state raw

theorem build_eq_foldl (map : LanguageMap) (supported : List String) :
    build map supported = (entries map supported).foldl Entry.enter (⟨[]⟩, []) := by
  rw [entries, List.foldl_flatMap, build]
  congr 1
  funext state entry
  rw [enterLanguage]
  by_cases isSupported : entry.1 ∈ supported
  · rw [if_pos (List.contains_iff_mem.mpr isSupported), if_pos isSupported, List.foldl_map]
    rfl
  · rw [if_neg (mt List.contains_iff_mem.mp isSupported), if_neg isSupported]
    rfl

/-- A registry gives each extension that has the form of one to the first language that lists it. -/
def Reflects (registry : LanguageRegistry) (done : List Entry) : Prop :=
  ∀ extension, registry.find? extension =
    if HasForm extension then holderIn done extension else none

theorem reflects_empty : Reflects ⟨[]⟩ [] := by
  intro extension
  split <;> rfl

theorem find?_append (entries : List (String × String)) (extension language other : String) :
    find? ⟨entries ++ [(extension, language)]⟩ other =
      (find? ⟨entries⟩ other).or (if extension = other then some language else none) := by
  rw [find?, find?, List.find?_append, Option.map_or, List.find?_singleton]
  by_cases same : extension = other <;> simp [same]

/-- An entry adds the issue that it has in the whole map: what is listed later takes no extension
away. -/
theorem Reflects.enter {registry : LanguageRegistry} {done : List Entry}
    (reflects : Reflects registry done) (issues : List Issue) (entry : Entry)
    (rest : List Entry) :
    Reflects (entry.enter (registry, issues)).1 (done ++ [entry]) ∧
      (entry.enter (registry, issues)).2 =
        issues ++ (entry.issue? (holderIn (done ++ entry :: rest))).toList := by
  cases entry with
  | foreign language =>
    refine ⟨fun extension => ?_, rfl⟩
    rw [holderIn_append]
    exact (reflects extension).trans (by simp [holderIn])
  | listed language raw =>
    have holder (rest : List Entry) (extension : String) :
        holderIn (done ++ .listed language raw :: rest) extension =
          (holderIn done extension).or
            ((if lower raw = extension then some language else none).or
              (holderIn rest extension)) := by
      rw [← List.singleton_append, holderIn_append, holderIn_append, holderIn_singleton]
    have found := reflects (lower raw)
    simp only [Entry.enter, LanguageRegistry.enter, Entry.issue?, isWellFormed_iff]
    by_cases form : HasForm (lower raw)
    · rw [if_pos form] at found
      rw [if_pos form, if_pos form, holder, found]
      cases held : holderIn done (lower raw) with
      | some owner =>
        -- The extension belongs to a language already, so that the registry stays as it is.
        have kept : Reflects registry (done ++ [.listed language raw]) := by
          intro extension
          rw [reflects extension, holder]
          by_cases same : lower raw = extension
          · rw [← same, held]
            rfl
          · simp [same, holderIn]
        by_cases own : owner = language
        · simpa [own] using kept
        · simpa [own] using kept
      | none =>
        refine ⟨fun extension => ?_, by simp⟩
        change find? ⟨registry.entries ++ [(lower raw, language)]⟩ extension = _
        rw [find?_append, reflects extension, holder]
        by_cases same : lower raw = extension
        · simp [← same, form, held]
        · simp [same, holderIn]
    · rw [if_neg form, if_neg form]
      refine ⟨fun extension => ?_, rfl⟩
      rw [reflects extension, holder]
      by_cases same : lower raw = extension
      · rw [← same, if_neg form, if_neg form]
      · simp [same, holderIn]

/-- Entering the rest of the entries adds the issues that they have in the whole map. -/
theorem Reflects.foldl_enter {registry : LanguageRegistry} {done : List Entry}
    (reflects : Reflects registry done) (issues : List Issue) (rest : List Entry) :
    Reflects (rest.foldl Entry.enter (registry, issues)).1 (done ++ rest) ∧
      (rest.foldl Entry.enter (registry, issues)).2 =
        issues ++ rest.filterMap (Entry.issue? (holderIn (done ++ rest))) := by
  induction rest generalizing registry done issues with
  | nil => simpa using reflects
  | cons entry rest induction =>
    obtain ⟨next, added⟩ := reflects.enter issues entry rest
    obtain ⟨later, others⟩ := induction next (entry.enter (registry, issues)).2
    rw [List.append_cons done entry rest]
    refine ⟨later, ?_⟩
    rw [List.foldl_cons]
    refine others.trans ?_
    rw [added, ← List.append_cons, List.filterMap_cons]
    cases (entry.issue? (holderIn (done ++ entry :: rest))) <;> simp

theorem build_reflects (map : LanguageMap) (supported : List String) :
    Reflects (build map supported).1 (entries map supported) ∧
      (build map supported).2 = issues map supported := by
  rw [build_eq_foldl]
  exact reflects_empty.foldl_enter [] (entries map supported)

/-! ## Maps with and without issues -/

/-- A supported language lists an extension. -/
def Lists (map : LanguageMap) (supported : List String) (language raw : String) : Prop :=
  language ∈ supported ∧ ∃ extensions, (language, extensions) ∈ map ∧ raw ∈ extensions

variable {map : LanguageMap} {supported : List String}

theorem listed_mem_entries {language raw : String} :
    .listed language raw ∈ entries map supported ↔ Lists map supported language raw := by
  simp only [entries, List.mem_flatMap, Lists]
  constructor
  · rintro ⟨⟨name, extensions⟩, isEntry, member⟩
    split at member
    case isTrue isSupported =>
      obtain ⟨extension, isExtension, same⟩ := List.mem_map.mp member
      cases same
      exact ⟨isSupported, extensions, isEntry, isExtension⟩
    case isFalse => simp at member
  · rintro ⟨isSupported, extensions, isEntry, isExtension⟩
    refine ⟨(language, extensions), isEntry, ?_⟩
    rw [if_pos isSupported]
    exact List.mem_map_of_mem isExtension

theorem foreign_mem_entries {language : String} :
    .foreign language ∈ entries map supported ↔
      ∃ entry ∈ map, entry.1 = language ∧ language ∉ supported := by
  simp only [entries, List.mem_flatMap]
  constructor
  · rintro ⟨entry, isEntry, member⟩
    split at member
    case isTrue => simp at member
    case isFalse foreign =>
      cases List.mem_singleton.mp member
      exact ⟨entry, isEntry, rfl, foreign⟩
  · rintro ⟨entry, isEntry, rfl, foreign⟩
    refine ⟨entry, isEntry, ?_⟩
    rw [if_neg foreign]
    exact List.mem_singleton_self _

theorem exists_lists_of_holderIn {extension owner : String}
    (held : holderIn (entries map supported) extension = some owner) :
    ∃ raw, Lists map supported owner raw ∧ lower raw = extension := by
  obtain ⟨entry, isEntry, found⟩ := List.exists_of_findSome?_eq_some held
  cases entry with
  | foreign language => cases found
  | listed language raw =>
    obtain ⟨same, isOwner⟩ := Option.ite_none_right_eq_some.mp found
    cases isOwner
    exact ⟨raw, listed_mem_entries.mp isEntry, same⟩

theorem exists_holderIn {language raw : String} (lists : Lists map supported language raw) :
    ∃ owner, holderIn (entries map supported) (lower raw) = some owner := by
  rw [← Option.isSome_iff_exists, holderIn, List.findSome?_isSome_iff]
  exact ⟨.listed language raw, listed_mem_entries.mpr lists, by simp⟩

/-- What is wrong with a listed extension: it has not the form of one, or it belongs to another
language. -/
theorem issue?_listed_ne_none_iff {holder : String → Option String} {language raw : String} :
    (Entry.listed language raw).issue? holder ≠ none ↔
      ¬ HasForm (lower raw) ∨
        ∃ owner, holder (lower raw) = some owner ∧ owner ≠ language := by
  rw [Entry.issue?]
  by_cases form : HasForm (lower raw)
  · rw [if_pos form]
    cases holder (lower raw) with
    | none => simp [form]
    | some owner => by_cases own : owner = language <;> simp [form, own]
  · simp [form]

/-- A map has issues if a language has no extractor, an extension is malformed, or two languages
share an extension, and only then. -/
theorem issues_ne_nil_iff :
    issues map supported ≠ [] ↔
      (∃ entry ∈ map, entry.1 ∉ supported) ∨
      (∃ language raw, Lists map supported language raw ∧ ¬ HasForm (lower raw)) ∨
      (∃ first second raw other, Lists map supported first raw ∧
        Lists map supported second other ∧ first ≠ second ∧ HasForm (lower raw) ∧
        lower raw = lower other) := by
  have isFaulty : issues map supported ≠ [] ↔ ∃ entry ∈ entries map supported,
      entry.issue? (holderIn (entries map supported)) ≠ none := by
    simp [issues, List.filterMap_eq_nil_iff]
  rw [isFaulty]
  constructor
  · rintro ⟨entry, isEntry, faulty⟩
    cases entry with
    | foreign language =>
      obtain ⟨entry, inMap, rfl, foreign⟩ := foreign_mem_entries.mp isEntry
      exact .inl ⟨entry, inMap, foreign⟩
    | listed language raw =>
      have lists := listed_mem_entries.mp isEntry
      by_cases form : HasForm (lower raw)
      · obtain malformed | ⟨owner, held, other⟩ := issue?_listed_ne_none_iff.mp faulty
        · exact absurd form malformed
        · obtain ⟨first, ownerLists, same⟩ := exists_lists_of_holderIn held
          exact .inr (.inr
            ⟨owner, language, first, raw, ownerLists, lists, other, same ▸ form, same⟩)
      · exact .inr (.inl ⟨language, raw, lists, form⟩)
  · rintro (⟨entry, isEntry, foreign⟩ | ⟨language, raw, lists, malformed⟩ |
      ⟨first, second, raw, other, firstLists, secondLists, different, form, same⟩)
    · exact ⟨.foreign entry.1, foreign_mem_entries.mpr ⟨entry, isEntry, rfl, foreign⟩, by
        simp [Entry.issue?]⟩
    · exact ⟨.listed language raw, listed_mem_entries.mpr lists,
        issue?_listed_ne_none_iff.mpr (.inl malformed)⟩
    · -- The extension belongs to one language, so that the other one is to blame.
      obtain ⟨owner, held⟩ := exists_holderIn firstLists
      by_cases isFirst : owner = first
      · refine ⟨.listed second other, listed_mem_entries.mpr secondLists,
          issue?_listed_ne_none_iff.mpr (.inr ⟨owner, same ▸ held, ?_⟩)⟩
        exact isFirst ▸ different
      · exact ⟨.listed first raw, listed_mem_entries.mpr firstLists,
          issue?_listed_ne_none_iff.mpr (.inr ⟨owner, held, isFirst⟩)⟩

/-- In a map without issues a listed extension has the form of one and belongs to the language that
lists it. -/
theorem holderIn_of_issues_eq_nil (clean : issues map supported = []) {language raw : String}
    (lists : Lists map supported language raw) :
    HasForm (lower raw) ∧
      holderIn (entries map supported) (lower raw) = some language := by
  have none := List.filterMap_eq_nil_iff.mp clean _ (listed_mem_entries.mpr lists)
  obtain ⟨owner, held⟩ := exists_holderIn lists
  have sound := mt issue?_listed_ne_none_iff.mpr (not_not.mpr none)
  simp only [not_or, not_not, not_exists, not_and] at sound
  exact ⟨sound.1, held.trans (congrArg some (sound.2 owner held))⟩

end LanguageMap

namespace LanguageRegistry

open LanguageMap

theorem create_eq (map : LanguageMap) (supported : List String) :
    create map supported =
      if issues map supported = [] then .ok (build map supported).1
      else .error (.configuration "Invalid language map"
        ((issues map supported).map Issue.message)) := by
  obtain ⟨-, found⟩ := build_reflects map supported
  rw [← found, create]
  obtain ⟨registry, issues⟩ := build map supported
  cases issues <;> rfl

/-- A language map is refused if and only if a language has no extractor, an extension of a language
that has one is malformed, or two such languages share an extension, and the refusal lists the
issues of the map. An accepted map gives each extension of each language to that language, for every
path with a base name that ends in it, in whatever case and whatever stands before it, and it gives
no language to a path whose extension is not listed. -/
theorem create_detects (map : LanguageMap) (supported : List String) :
    ((∃ error, create map supported = .error error) ↔
      (∃ entry ∈ map, entry.1 ∉ supported) ∨
      (∃ language raw, Lists map supported language raw ∧ ¬ HasForm (lower raw)) ∨
      (∃ first second raw other, Lists map supported first raw ∧
        Lists map supported second other ∧ first ≠ second ∧ HasForm (lower raw) ∧
        lower raw = lower other)) ∧
    (∀ error, create map supported = .error error →
      error = .configuration "Invalid language map"
        ((issues map supported).map Issue.message)) ∧
    ∀ registry, create map supported = .ok registry →
      (∀ language extensions, (language, extensions) ∈ map → ∀ raw ∈ extensions,
        ∀ path stem ending, Path.baseName path = stem ++ ending → stem ≠ "" →
          SameButCase ending raw → registry.detect path = some language) ∧
      ∀ path, (∀ entry ∈ map, ∀ raw ∈ entry.2, lower raw ≠ lower (Path.extension path)) →
        registry.detect path = none := by
  rw [← issues_ne_nil_iff, create_eq]
  refine ⟨?_, ?_, ?_⟩
  · split <;> simp_all
  · intro error refused
    split at refused
    · cases refused
    · cases refused
      rfl
  · intro registry accepted
    split at accepted
    case isFalse => cases accepted
    case isTrue clean =>
      cases accepted
      obtain ⟨reflects, -⟩ := build_reflects map supported
      constructor
      · intro language extensions isEntry raw isRaw path stem ending named stemFull sameCase
        have isSupported : language ∈ supported := by
          by_contra foreign
          exact issues_ne_nil_iff.mpr (.inl ⟨_, isEntry, foreign⟩) clean
        obtain ⟨form, held⟩ := holderIn_of_issues_eq_nil clean
          ⟨isSupported, extensions, isEntry, isRaw⟩
        have same := lower_eq_of_sameButCase sameCase
        obtain ⟨chars, rfl, full, clear⟩ := exists_dot_cons_of_hasForm (same ▸ form)
        rw [detect, Path.extension_of_baseName named stemFull full clear, same, reflects,
          if_pos form, held]
      · intro path unlisted
        rw [detect, reflects]
        split
        case isFalse => rfl
        case isTrue =>
          cases held : holderIn (map.entries supported) (lower (Path.extension path)) with
          | none => rfl
          | some owner =>
            obtain ⟨raw, ⟨-, extensions, isEntry, isRaw⟩, same⟩ := exists_lists_of_holderIn held
            exact absurd same (unlisted _ isEntry raw isRaw)

/-- Two maps: one with extensions in mixed case, and one with every kind of issue, in which the
second language is to blame for the shared extension and the malformed one is nobody's. -/
theorem create_detects_mixed_case :
    let accepted : LanguageMap := [("go", [".Go", ".go"]), ("java", [".J+_-9"])]
    let refused : LanguageMap := [("go", [".go", "x", ".j"]), ("cobol", [".go"]), ("java", [".J"])]
    (∃ registry, create accepted ["java", "go"] = .ok registry ∧
      registry.detect "src/..a.b.gO/" = some "go" ∧ registry.detect "Main.j+_-9" = some "java" ∧
      registry.detect "src.go/.go" = none) ∧
    create refused ["java", "go"] = .error (.configuration "Invalid language map"
      ["languages.go: invalid extension \"x\"", "languages.cobol: no extractor for this language",
        "languages.java: extension .j already mapped to go"]) := by
  intro accepted refused
  obtain ⟨-, -, detects⟩ := create_detects accepted ["java", "go"]
  obtain ⟨refusal, named, -⟩ := create_detects refused ["java", "go"]
  constructor
  · have isOk : ∃ registry, create accepted ["java", "go"] = .ok registry := ⟨_, rfl⟩
    obtain ⟨registry, isOk⟩ := isOk
    obtain ⟨found, missed⟩ := detects registry isOk
    exact ⟨registry, isOk,
      found "go" [".Go", ".go"] (by decide) ".Go" (by decide) _ "..a.b" ".gO" (by decide)
        (by decide) (by decide),
      found "java" [".J+_-9"] (by decide) ".J+_-9" (by decide) _ "Main" ".j+_-9" (by decide)
        (by decide) (by decide),
      missed _ (by decide)⟩
  · obtain ⟨error, isError⟩ := refusal.mpr (.inl ⟨("cobol", [".go"]), by decide, by decide⟩)
    have texts : (issues refused ["java", "go"]).map Issue.message =
        ["languages.go: invalid extension \"x\"", "languages.cobol: no extractor for this language",
          "languages.java: extension .j already mapped to go"] := by decide
    rw [isError, named error isError, texts]

end LanguageRegistry
end CodeAtlas
