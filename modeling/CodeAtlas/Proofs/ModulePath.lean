import CodeAtlas.ModulePath
import CodeAtlas.Proofs.Text.Relative

/-!
# Names of files and relative imports

The extension of a source file is dropped from its path, and the segments that are left make up the
name of its module. A relative import that starts with dots names the module whose file lies below
the package that the dots lead to, at every depth but one: a file `__init__.py` outside of all
packages counts as a package of its own name.
-/

namespace CodeAtlas
namespace ModulePath

open Text (split join endsWith)

/-! ## Extensions -/

theorem clear_of_mem_sourceExtensions {extension : String}
    (isSource : extension ∈ sourceExtensions) :
    '.' ∉ extension.toList ∧ '/' ∉ extension.toList := by
  revert extension
  decide

/-- A path ends in the extension of a source file. -/
def HasExtension (path : String) : Prop :=
  ∃ extension ∈ sourceExtensions, endsWith path ("." ++ extension) = true

instance (path : String) : Decidable (HasExtension path) :=
  inferInstanceAs (Decidable (∃ extension ∈ sourceExtensions, _))

/-- An extension is dropped, unless it is the second part of that of type declarations. -/
theorem withoutExtension_append {stem extension : String} (isSource : extension ∈ sourceExtensions)
    (noDeclaration : extension = "ts" → endsWith stem ".d" = false) :
    withoutExtension (stem ++ "." ++ extension) = stem := by
  have clear := (clear_of_mem_sourceExtensions isSource).1
  have chars : (stem ++ "." ++ extension).toList.reverse =
      extension.toList.reverse ++ '.' :: stem.toList.reverse := by
    rw [String.toList_append, String.toList_append, show ".".toList = ['.'] from rfl,
      List.reverse_append, List.reverse_append, List.reverse_singleton, List.singleton_append]
  have ending : ∀ char ∈ extension.toList.reverse, (decide (char ≠ '.')) = true := by
    rintro char member
    simpa using fun same : char = '.' => clear (same ▸ List.mem_reverse.mp member)
  have taken : (stem ++ "." ++ extension).toList.reverse.takeWhile (· ≠ '.') =
      extension.toList.reverse := by
    rw [chars, List.takeWhile_append_of_pos ending, List.takeWhile_cons_of_neg (by simp),
      List.append_nil]
  rw [withoutExtension]
  cases dropped : Text.dropBeginning? ".d.ts".toList.reverse
      (stem ++ "." ++ extension).toList.reverse with
  | some rest =>
    obtain ⟨front, isFront⟩ : ∃ front, stem ++ "." ++ extension = front ++ ".d.ts" :=
      Text.endsWith_iff.mp (Option.isSome_of_mem dropped)
    have parts : stem ++ "." ++ extension = front ++ ".d" ++ "." ++ "ts" := by
      rw [isFront, String.append_assoc, String.append_assoc]
      rfl
    obtain ⟨rfl, rfl⟩ := Text.append_separator_inj_right (show ".".toList = ['.'] from rfl) clear
      (by decide) parts
    have isDeclaration : endsWith (front ++ ".d") ".d" = true :=
      Text.endsWith_iff.mpr ⟨front, rfl⟩
    rw [noDeclaration rfl] at isDeclaration
    cases isDeclaration
  | none =>
    dsimp only
    rw [taken, List.reverse_reverse, String.ofList_toList, if_pos, chars]
    · rw [← List.singleton_append, ← List.append_assoc,
        List.drop_left' (by simp [String.length_toList]), List.reverse_reverse,
        String.ofList_toList]
    · refine ⟨by simpa using isSource, ?_⟩
      rw [chars, List.length_append, List.length_reverse, String.length_toList]
      simp

/-- What is longer than its part before the first dot goes on with the dot. -/
theorem exists_eq_takeWhile_append {chars : List Char}
    (shorter : (chars.takeWhile (· ≠ '.')).length < chars.length) :
    ∃ rest, chars = chars.takeWhile (· ≠ '.') ++ '.' :: rest := by
  have whole := List.takeWhile_append_dropWhile (p := fun char => decide (char ≠ '.')) (l := chars)
  have stops := List.head?_dropWhile_not (fun char => decide (char ≠ '.')) chars
  cases isTail : chars.dropWhile (· ≠ '.') with
  | nil =>
    have lengths := congrArg List.length whole
    rw [isTail, List.append_nil] at lengths
    omega
  | cons char rest =>
    rw [isTail] at whole stops
    have isDot : char = '.' := by simpa using stops
    exact ⟨rest, isDot ▸ whole.symm⟩

theorem withoutExtension_eq_self {path : String} (bare : ¬ HasExtension path) :
    withoutExtension path = path := by
  rw [withoutExtension]
  cases dropped : Text.dropBeginning? ".d.ts".toList.reverse path.toList.reverse with
  | some rest =>
    obtain ⟨front, rfl⟩ : ∃ front, path = front ++ ".d.ts" :=
      Text.endsWith_iff.mp (Option.isSome_of_mem dropped)
    refine absurd ⟨"ts", by decide, Text.endsWith_iff.mpr ⟨front ++ ".d", ?_⟩⟩ bare
    rw [String.append_assoc]
    rfl
  | none =>
    refine if_neg fun ⟨isSource, shorter⟩ => bare ⟨_, by simpa using isSource, ?_⟩
    rw [String.length_ofList, List.length_reverse] at shorter
    obtain ⟨rest, isWhole⟩ := exists_eq_takeWhile_append shorter
    rw [List.reverse_eq_iff] at isWhole
    refine Text.endsWith_iff.mpr ⟨String.ofList rest.reverse, String.toList_injective ?_⟩
    refine isWhole.trans ?_
    rw [List.reverse_append, List.reverse_cons]
    simp

/-! ## Names of modules -/

/-- The name of the module whose file lies along segments, the last one without extension. -/
def named (language : String) (segments : List String) : String :=
  join "." (dropIndex (indexStems language)
    (if language = "rust" then dropSourceRoot segments else segments))

theorem nameOf_eq_named {path : String} {segments : List String}
    (isStem : withoutExtension path = join "/" segments) (present : segments ≠ [])
    (clear : ∀ segment ∈ segments, segment ≠ "" ∧ '/' ∉ segment.toList) (language : String) :
    nameOf path language = named language segments := by
  have kept : segments.filter (· ≠ "") = segments :=
    List.filter_eq_self.mpr fun segment member => by simpa using (clear segment member).1
  rw [nameOf, isStem, Text.split_join rfl present fun segment member => (clear segment member).2,
    kept]
  rfl

theorem dropIndex_append (stems folders : List String) (last : String) :
    dropIndex stems (folders ++ [last]) =
      if folders ≠ [] ∧ last ∈ stems then folders else folders ++ [last] := by
  simp [dropIndex, List.length_pos_iff]

/-- A text between the separators of a path or of a dotted name. -/
structure IsSegment (text : String) : Prop where
  /-- It is not empty. -/
  notEmpty : text ≠ ""
  /-- It is one segment of a path. -/
  noSlash : '/' ∉ text.toList
  /-- It is one segment of a dotted name. -/
  noDot : '.' ∉ text.toList

instance (text : String) : Decidable (IsSegment text) :=
  decidable_of_iff (text ≠ "" ∧ '/' ∉ text.toList ∧ '.' ∉ text.toList)
    ⟨fun ⟨notEmpty, noSlash, noDot⟩ => ⟨notEmpty, noSlash, noDot⟩,
      fun segment => ⟨segment.1, segment.2, segment.3⟩⟩

section

variable {folders : List String} {stem extension : String}

/-- The extension of a file is dropped behind its last segment. -/
theorem withoutExtension_join (folders : List String) (isSource : extension ∈ sourceExtensions)
    (noDeclaration : endsWith stem ".d" = false) :
    withoutExtension (join "/" (folders ++ [stem ++ "." ++ extension])) =
      join "/" (folders ++ [stem]) := by
  rw [String.append_assoc, Text.join_append_last, ← String.append_assoc]
  refine withoutExtension_append isSource fun _ => ?_
  rwa [Text.endsWith_join rfl (by decide)]

theorem hasExtension_join (folders : List String) (last : String) :
    HasExtension (join "/" (folders ++ [last])) ↔ HasExtension last := by
  refine exists_congr fun extension => and_congr_right fun isSource => ?_
  have single : '/' ∉ ("." ++ extension).toList := by
    simp [(clear_of_mem_sourceExtensions isSource).2]
  rw [Text.endsWith_join rfl single]

theorem IsSegment.endsWith_eq_false (segment : IsSegment stem) {ending : String}
    (dotted : '.' ∈ ending.toList) : endsWith stem ending = false := by
  rw [Bool.eq_false_iff]
  intro ends
  obtain ⟨front, rfl⟩ := Text.endsWith_iff.mp ends
  exact segment.noDot (by simp [dotted])

theorem IsSegment.append_extension (segment : IsSegment stem)
    (isSource : extension ∈ sourceExtensions) :
    stem ++ "." ++ extension ≠ "" ∧ '/' ∉ (stem ++ "." ++ extension).toList := by
  have clear := (clear_of_mem_sourceExtensions isSource).2
  simp [segment.notEmpty, segment.noSlash, clear, String.append_eq_empty_iff]

theorem nameOf_file (segments : ∀ segment ∈ folders ++ [stem], IsSegment segment)
    (isSource : extension ∈ sourceExtensions) (language : String) :
    nameOf (join "/" (folders ++ [stem ++ "." ++ extension])) language =
      named language (folders ++ [stem]) := by
  refine nameOf_eq_named (withoutExtension_join folders isSource ?_) (by simp) ?_ language
  · exact (segments stem (by simp)).endsWith_eq_false (by decide)
  · intro segment member
    exact ⟨(segments segment member).notEmpty, (segments segment member).noSlash⟩

theorem isIndex_file (segments : ∀ segment ∈ folders ++ [stem], IsSegment segment)
    (isSource : extension ∈ sourceExtensions) (language : String) :
    isIndex (join "/" (folders ++ [stem ++ "." ++ extension])) language =
      (indexStems language).contains stem := by
  have segment := segments stem (by simp)
  rw [isIndex, Path.baseName_join, withoutExtension_append isSource fun _ =>
    segment.endsWith_eq_false (by decide)]
  rw [List.forall_mem_append, List.forall_mem_singleton]
  refine ⟨fun folder member => ?_, segment.append_extension isSource⟩
  have := segments folder (List.mem_append_left _ member)
  exact ⟨this.notEmpty, this.noSlash⟩

end

/-! ## Python modules -/

/-- The segments of the name of a Python module: an index file has the name of its folder. -/
def pythonModule (folders : List String) (stem : String) : List String :=
  if folders ≠ [] ∧ stem = "__init__" then folders else folders ++ [stem]

section

variable {folders names : List String} {stem last : String} {dots : Nat}

theorem nameOf_python (segments : ∀ segment ∈ folders ++ [stem], IsSegment segment) :
    nameOf (join "/" (folders ++ [stem ++ ".py"])) "python" =
      join "." (pythonModule folders stem) := by
  have stems : indexStems "python" = ["__init__"] := rfl
  rw [show ".py" = "." ++ "py" from rfl, ← String.append_assoc,
    nameOf_file segments (by decide), named, if_neg (by decide), dropIndex_append, stems]
  simp only [List.mem_singleton, pythonModule]

theorem isIndex_python (segments : ∀ segment ∈ folders ++ [stem], IsSegment segment) :
    isIndex (join "/" (folders ++ [stem ++ ".py"])) "python" = decide (stem = "__init__") := by
  rw [show ".py" = "." ++ "py" from rfl, ← String.append_assoc, isIndex_file segments (by decide)]
  simp [indexStems]

theorem pythonModule_of_ne (noIndex : stem ≠ "__init__") :
    pythonModule folders stem = folders ++ [stem] :=
  if_neg fun index => noIndex index.2

theorem pythonModule_index (within : folders ≠ []) : pythonModule folders "__init__" = folders :=
  if_pos ⟨within, rfl⟩

theorem pythonModule_ne_nil (folders : List String) (stem : String) :
    pythonModule folders stem ≠ [] := by
  unfold pythonModule
  split_ifs with within
  · exact within.1
  · simp

theorem segments_pythonModule (segments : ∀ segment ∈ folders ++ [stem], IsSegment segment) :
    ∀ segment ∈ pythonModule folders stem, IsSegment segment := by
  unfold pythonModule
  split_ifs
  · exact (List.forall_mem_append.mp segments).1
  · exact segments

/-- The package of a file is its folder, but a lone index file is a package by itself. -/
theorem package_pythonModule (folders : List String) (stem : String) :
    (if decide (stem = "__init__") then pythonModule folders stem
      else (pythonModule folders stem).dropLast) =
      if folders = [] ∧ stem = "__init__" then ["__init__"] else folders := by
  by_cases index : stem = "__init__"
  · by_cases within : folders = []
    · simp [index, within, pythonModule]
    · simp [index, within, pythonModule_index]
  · simp [index, pythonModule_of_ne]

/-! ## Relative imports -/

/-- A relative import keeps as many segments of the package as its dots leave. -/
theorem resolveRelative_join {segments package rest : List String} {isPackage : Bool}
    (isIts : (if isPackage then segments else segments.dropLast) = package)
    (segmentsPresent : segments ≠ []) (restPresent : rest ≠ [])
    (segmentsClear : ∀ segment ∈ segments, IsSegment segment)
    (restClear : ∀ segment ∈ rest, IsSegment segment) (low : 1 ≤ dots) :
    resolveRelative (join "." segments) isPackage dots (join "." rest) =
      join "." (package.take (package.length + 1 - dots) ++ rest) := by
  have written : join "." rest ≠ "" :=
    Text.join_ne_empty rfl restPresent fun empty => (restClear "" empty).notEmpty rfl
  rw [resolveRelative,
    Text.split_join rfl segmentsPresent fun segment member => (segmentsClear segment member).noDot,
    Text.split_join rfl restPresent fun segment member => (restClear segment member).noDot,
    isIts, if_neg written, if_neg (by omega),
    show package.length - (dots - 1) = package.length + 1 - dots by omega]

/-- A relative import names the module whose file lies below the package that its dots lead to. In a
file `__init__.py` outside of all packages the name has that of the file in front. -/
theorem resolveRelative_nameOf
    (segments : ∀ segment ∈ folders ++ [stem] ++ (names ++ [last]), IsSegment segment)
    (noIndex : last ≠ "__init__") (low : 1 ≤ dots) (high : dots ≤ folders.length + 1) :
    let file := join "/" (folders ++ [stem ++ ".py"])
    let above := folders.take (folders.length + 1 - dots)
    let meant := nameOf (join "/" (above ++ names ++ [last ++ ".py"])) "python"
    nameOf (join "/" (above ++ names ++ [last] ++ ["__init__.py"])) "python" = meant ∧
      resolveRelative (nameOf file "python") (isIndex file "python") dots
          (join "." (names ++ [last])) =
        if folders = [] ∧ stem = "__init__" then "__init__." ++ meant else meant := by
  intro file above meant
  obtain ⟨fileSegments, nameSegments⟩ := List.forall_mem_append.mp segments
  obtain ⟨folderSegments, -⟩ := List.forall_mem_append.mp fileSegments
  have aboveSegments : ∀ segment ∈ above ++ names ++ [last], IsSegment segment := by
    rw [List.append_assoc, List.forall_mem_append]
    exact ⟨fun segment member => folderSegments segment (List.mem_of_mem_take member),
      nameSegments⟩
  have isMeant : meant = join "." (above ++ (names ++ [last])) := by
    rw [← List.append_assoc, ← pythonModule_of_ne noIndex, ← nameOf_python aboveSegments]
  constructor
  · have index : IsSegment "__init__" := ⟨by decide, by decide, by decide⟩
    have isName := nameOf_python (List.forall_mem_append.mpr ⟨aboveSegments, by simpa using index⟩)
    rw [pythonModule_index (by simp), show "__init__" ++ ".py" = "__init__.py" from rfl] at isName
    rw [isName, isMeant, List.append_assoc]
  · rw [nameOf_python fileSegments, isIndex_python fileSegments,
      resolveRelative_join (package_pythonModule folders stem) (pythonModule_ne_nil folders stem)
        (by simp) (segments_pythonModule fileSegments) nameSegments low, isMeant]
    by_cases alone : folders = [] ∧ stem = "__init__"
    · obtain rfl : folders = [] := alone.1
      obtain rfl : dots = 1 := Nat.le_antisymm high low
      rw [if_pos alone, if_pos alone]
      exact Text.join_cons "." "__init__" (by simp)
    · rw [if_neg alone, if_neg alone]

end

/-- Two dots in a file two folders deep lead to the upper folder. -/
theorem resolveRelative_nameOf_upper :
    (∀ segment ∈ ["app", "services"] ++ ["users"] ++ (["data"] ++ ["models"]), IsSegment segment) ∧
    ("models" ≠ "__init__" ∧ 1 ≤ 2 ∧ 2 ≤ ["app", "services"].length + 1) ∧
    nameOf "app/data/models/__init__.py" "python" = nameOf "app/data/models.py" "python" ∧
    resolveRelative (nameOf "app/services/users.py" "python")
        (isIndex "app/services/users.py" "python") 2 "data.models" =
      nameOf "app/data/models.py" "python" := by
  have segments : ∀ segment ∈ ["app", "services"] ++ ["users"] ++ (["data"] ++ ["models"]),
      IsSegment segment := by decide
  obtain ⟨same, resolved⟩ :=
    resolveRelative_nameOf segments (by decide) (by decide : 1 ≤ 2) (by decide)
  rw [if_neg (by decide)] at resolved
  exact ⟨segments, by decide, same, resolved⟩

/-- In the outermost `__init__.py` one dot leads to a package that does not exist. -/
theorem resolveRelative_nameOf_outermost :
    resolveRelative (nameOf "__init__.py" "python") (isIndex "__init__.py" "python") 1 "models" =
        "__init__.models" ∧
      nameOf "models.py" "python" = "models" := by
  decide

end ModulePath
end CodeAtlas
