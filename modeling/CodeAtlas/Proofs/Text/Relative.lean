import CodeAtlas.Proofs.Text.Path
import Mathlib.Data.List.TakeWhile

/-!
# Relative paths

The base name of a path is its last segment and its directory is made of the others. A relative path
leads from the directory of a file up to a folder that both lie below and down from there: read from
that directory, it gives the place that it leads to, with a slash at the end or without.
-/

namespace CodeAtlas
namespace Path

open Text (split join startsWith endsWith)

/-! ## The parts of a path -/

variable {folders : List String} {name : String}

theorem isAbsolute_append {path : String} (present : path ≠ "") (rest : String) :
    isAbsolute (path ++ rest) = isAbsolute path := by
  rw [isAbsolute, isAbsolute, startsWith, startsWith, String.toList_append]
  cases chars : path.toList with
  | nil => exact absurd (String.toList_eq_nil_iff.mp chars) present
  | cons char others => simp [Text.dropBeginning?, apply_ite]

theorem dropTrailingSlashes_append (present : name ≠ "") (single : '/' ∉ name.toList)
    (front : String) : dropTrailingSlashes (front ++ name) = front ++ name := by
  rw [dropTrailingSlashes, String.toList_append, List.reverse_append]
  cases chars : name.toList.reverse with
  | nil => exact absurd (by simpa using chars) present
  | cons char chars' =>
    have different : char ≠ '/' := by
      rintro rfl
      exact single (List.mem_reverse.mp (chars ▸ List.mem_cons_self))
    rw [List.cons_append, List.dropWhile_cons_of_neg (by simpa using different),
      ← List.cons_append, ← chars, ← List.reverse_append, List.reverse_reverse,
      ← String.toList_append, String.ofList_toList]

theorem exists_join_append (folders : List String) (name : String) :
    ∃ front, join "/" (folders ++ [name]) = front ++ name := by
  by_cases present : folders = []
  · exact ⟨"", by rw [present]; simp [join]⟩
  · exact ⟨_, Text.join_append "/" present (List.cons_ne_nil _ _)⟩

theorem baseName_join
    (clear : ∀ segment ∈ folders ++ [name], segment ≠ "" ∧ '/' ∉ segment.toList) :
    baseName (join "/" (folders ++ [name])) = name := by
  obtain ⟨present, single⟩ := clear name (by simp)
  obtain ⟨front, isFront⟩ := exists_join_append folders name
  rw [baseName, isFront, dropTrailingSlashes_append present single, ← isFront, Text.lastPiece,
    Text.split_join rfl (by simp) fun segment member => (clear segment member).2]
  simp

theorem directory_join
    (clear : ∀ segment ∈ folders ++ [name], segment ≠ "" ∧ '/' ∉ segment.toList) :
    directory (join "/" (folders ++ [name])) = if folders = [] then "." else join "/" folders := by
  obtain ⟨present, single⟩ := clear name (by simp)
  obtain ⟨front, isFront⟩ := exists_join_append folders name
  have noSlash : ∀ char ∈ name.toList.reverse, (decide (char ≠ '/')) = true := by
    rintro char member
    simpa using fun same : char = '/' => single (same ▸ List.mem_reverse.mp member)
  rw [directory, isFront, dropTrailingSlashes_append present single, ← isFront]
  by_cases none : folders = []
  · have pieces : split '/' name = [name] := by
      rw [split, Text.splitChars_of_notMem single, List.map_singleton, String.ofList_toList]
    have relative : isAbsolute name = false :=
      isAbsolute_of_full (by simpa [pieces] using Ne.symm present)
    rw [if_pos none, none, List.nil_append, join, List.dropWhile_eq_nil_iff.mpr noSlash]
    simp [relative]
  · have full : join "/" folders ≠ "" :=
      Text.join_ne_empty rfl none fun empty => (clear "" (List.mem_append_left _ empty)).1 rfl
    have chars : (join "/" (folders ++ [name])).toList.reverse.dropWhile (· ≠ '/') =
        '/' :: (join "/" folders).toList.reverse := by
      rw [Text.join_append "/" none (List.cons_ne_nil _ _), join, String.toList_append,
        String.toList_append, show "/".toList = ['/'] from rfl, List.reverse_append,
        List.dropWhile_append_of_pos noSlash, List.reverse_append]
      exact List.dropWhile_cons_of_neg (by simp)
    rw [if_neg none, chars, List.drop_succ_cons, List.drop_zero, List.reverse_reverse]
    split
    case h_1 empty => exact absurd (String.toList_eq_nil_iff.mp empty) full
    case h_2 parent _ => exact String.ofList_toList

theorem normalize_append_slash {path : String} {segments : List String} (full : "" ∉ split '/' path)
    (normal : normalSegments true (split '/' path) = segments) (present : segments ≠ [])
    (clear : "" ∉ segments) : normalize (path ++ "/") = join "/" segments ++ "/" := by
  have notEmpty : path ≠ "" := ne_empty_of_full full
  have trailing : endsWith (path ++ "/") "/" = true := Text.endsWith_iff.mpr ⟨path, rfl⟩
  have relative : isAbsolute (path ++ "/") = false :=
    (isAbsolute_append notEmpty "/").trans (isAbsolute_of_full full)
  have pieces : split '/' (path ++ "/") = split '/' path ++ [""] := by
    have parts := Text.split_append (show "/".toList = ['/'] from rfl) path ""
    rwa [String.append_empty] at parts
  have same : normalSegments true (split '/' path ++ [""]) = segments := by
    rw [← normal, normalSegments, normalSegments, List.foldl_append]
    rfl
  have body : join "/" segments ≠ "" := Text.join_ne_empty rfl present clear
  simp [normalize, relative, trailing, pieces, same, body, String.append_eq_empty_iff]

/-! ## Relative paths -/

/-- A relative path leads from one place to another: to a folder that both lie below, and down from
there. It may start with the folder that it is read from. -/
inductive Leads : List String → List String → String → Prop where
  /-- A path that starts with a dot for the folder. -/
  | stay (common left right : List String) :
    Leads (common ++ left) (common ++ right)
      (join "/" ("." :: (List.replicate left.length ".." ++ right)))
  /-- A path that goes up at once. -/
  | climb (common : List String) {left : List String} (upwards : left ≠ []) (right : List String) :
    Leads (common ++ left) (common ++ right)
      (join "/" (List.replicate left.length ".." ++ right))

theorem foldl_pushSegment_climb (allowAbove : Bool) {left : List String}
    (proper : ∀ segment ∈ left, Proper segment) (kept : List String) :
    (List.replicate left.length "..").foldl (pushSegment allowAbove) (left ++ kept) = kept := by
  induction left with
  | nil => rfl
  | cons segment left induction =>
    have step : pushSegment allowAbove (segment :: (left ++ kept)) ".." = left ++ kept := by
      simp [pushSegment, (proper segment List.mem_cons_self).notUp]
    rw [List.length_cons, List.replicate_succ, List.foldl_cons, List.cons_append, step]
    exact induction fun other member => proper other (List.mem_cons_of_mem segment member)

section

variable {common left right : List String}

/-- Going up and down turns the place that is left into the one that is reached. -/
theorem foldl_pushSegment_lead (leftProper : ∀ segment ∈ left, Proper segment)
    (rightProper : ∀ segment ∈ right, Proper segment) :
    (List.replicate left.length ".." ++ right).foldl (pushSegment true) (common ++ left).reverse =
      (common ++ right).reverse := by
  have reversedProper : ∀ segment ∈ left.reverse, Proper segment := fun segment member =>
    leftProper segment (List.mem_reverse.mp member)
  have climbed := foldl_pushSegment_climb true reversedProper common.reverse
  rw [List.length_reverse] at climbed
  rw [List.foldl_append, List.reverse_append, climbed, foldl_pushSegment_proper true _ rightProper,
    List.reverse_append]

theorem clear_lead (rightProper : ∀ segment ∈ right, Proper segment) :
    ∀ step ∈ List.replicate left.length ".." ++ right, step ≠ "" ∧ '/' ∉ step.toList := by
  intro step member
  rcases List.mem_append.mp member with isUp | isProper
  · rw [List.eq_of_mem_replicate isUp]
    decide
  · exact ⟨(rightProper step isProper).notEmpty, (rightProper step isProper).single⟩

end

/-- The steps of a relative path turn the place that it starts from into the one that it leads
to. -/
theorem Leads.exists_steps {origin target : List String} {path : String}
    (leads : Leads origin target path) (originProper : ∀ segment ∈ origin, Proper segment)
    (targetProper : ∀ segment ∈ target, Proper segment) :
    ∃ first rest, (first = "." ∨ first = "..") ∧ path = join "/" (first :: rest) ∧
      (∀ step ∈ first :: rest, step ≠ "" ∧ '/' ∉ step.toList) ∧
      (first :: rest).foldl (pushSegment true) origin.reverse = target.reverse := by
  cases leads with
  | stay common left right =>
    have leftProper := (List.forall_mem_append.mp originProper).2
    have rightProper := (List.forall_mem_append.mp targetProper).2
    refine ⟨".", _, .inl rfl, rfl, ?_, foldl_pushSegment_lead leftProper rightProper⟩
    exact List.forall_mem_cons.mpr ⟨by decide, clear_lead rightProper⟩
  | @climb common left upwards right =>
    have leftProper := (List.forall_mem_append.mp originProper).2
    have rightProper := (List.forall_mem_append.mp targetProper).2
    obtain ⟨segment, others, rfl⟩ := List.exists_cons_of_ne_nil upwards
    have clear : ∀ step ∈ List.replicate (segment :: others).length ".." ++ right,
        step ≠ "" ∧ '/' ∉ step.toList := clear_lead rightProper
    exact ⟨"..", List.replicate others.length ".." ++ right, .inr rfl, rfl, clear,
      foldl_pushSegment_lead leftProper rightProper⟩

theorem joinAll_pair {first second : String} (firstPresent : first ≠ "")
    (secondPresent : second ≠ "") :
    joinAll [first, second] = normalize (first ++ "/" ++ second) := by
  simp [joinAll, firstPresent, secondPresent, join]

/-- Reading a relative path from the directory of a file gives the place that it leads to. A slash
at the end stays. -/
theorem Leads.joinAll_directory {folders target : List String} {name path : String}
    (leads : Leads folders target path) (proper : ∀ segment ∈ folders ++ [name], Proper segment)
    (targetProper : ∀ segment ∈ target, Proper segment) (present : target ≠ []) :
    joinAll [directory (join "/" (folders ++ [name])), path] = join "/" target ∧
      joinAll [directory (join "/" (folders ++ [name])), path ++ "/"] = join "/" target ++ "/" := by
  have foldersProper := (List.forall_mem_append.mp proper).1
  obtain ⟨first, rest, -, rfl, clear, folded⟩ := leads.exists_steps foldersProper targetProper
  -- A file at the root has the directory `.`, which is one more step that stays.
  obtain ⟨base, isBase, baseClear, basePresent, reached⟩ : ∃ base,
      directory (join "/" (folders ++ [name])) = join "/" base ∧
        (∀ segment ∈ base, segment ≠ "" ∧ '/' ∉ segment.toList) ∧ base ≠ [] ∧
        base.foldl (pushSegment true) [] = folders.reverse := by
    rw [directory_join fun segment member =>
      ⟨(proper segment member).notEmpty, (proper segment member).single⟩]
    split_ifs with atRoot
    · exact ⟨["."], rfl, by decide, List.cons_ne_nil _ _, by rw [atRoot]; rfl⟩
    · refine ⟨folders, rfl, fun segment member => ?_, atRoot, ?_⟩
      · exact ⟨(foldersProper segment member).notEmpty, (foldersProper segment member).single⟩
      · rw [foldl_pushSegment_proper true [] foldersProper, List.append_nil]
  have wholeClear := List.forall_mem_append.mpr ⟨baseClear, clear⟩
  have pieces : split '/' (join "/" base ++ "/" ++ join "/" (first :: rest)) =
      base ++ first :: rest := by
    rw [← Text.join_append "/" basePresent (List.cons_ne_nil first rest)]
    exact Text.split_join rfl (by simp) fun segment member => (wholeClear segment member).2
  have full : "" ∉ split '/' (join "/" base ++ "/" ++ join "/" (first :: rest)) :=
    fun empty => (wholeClear "" (pieces ▸ empty)).1 rfl
  have normal : normalSegments true (split '/' (join "/" base ++ "/" ++ join "/" (first :: rest))) =
      target := by
    rw [pieces, normalSegments, List.foldl_append, reached, folded, List.reverse_reverse]
  have noEmpty : "" ∉ target := fun empty => (targetProper "" empty).notEmpty rfl
  have basePath : join "/" base ≠ "" :=
    Text.join_ne_empty rfl basePresent fun empty => (baseClear "" empty).1 rfl
  have stepsPath : join "/" (first :: rest) ≠ "" :=
    Text.join_ne_empty rfl (List.cons_ne_nil _ _) fun empty => (clear "" empty).1 rfl
  rw [isBase, joinAll_pair basePath stepsPath, joinAll_pair basePath (by simp [stepsPath]),
    ← String.append_assoc]
  exact ⟨normalize_eq_join full normal present noEmpty,
    normalize_append_slash full normal present noEmpty⟩

/-- A relative path starts with a dot, whatever stands behind it. -/
theorem Leads.startsWith_dot {origin target : List String} {path : String}
    (leads : Leads origin target path) (originProper : ∀ segment ∈ origin, Proper segment)
    (targetProper : ∀ segment ∈ target, Proper segment) (ending : String) :
    startsWith (path ++ ending) "." = true := by
  obtain ⟨first, rest, isFirst, rfl, -, -⟩ := leads.exists_steps originProper targetProper
  have begins : ∃ more, join "/" (first :: rest) = "." ++ more := by
    by_cases alone : rest = []
    · rw [alone, join]
      rcases isFirst with rfl | rfl
      · exact ⟨"", rfl⟩
      · exact ⟨".", rfl⟩
    · rw [Text.join_cons "/" first alone, String.append_assoc]
      rcases isFirst with rfl | rfl
      · exact ⟨_, rfl⟩
      · exact ⟨"." ++ ("/" ++ join "/" rest), rfl⟩
  obtain ⟨more, isMore⟩ := begins
  rw [isMore, String.append_assoc]
  exact Text.startsWith_append "." _

end Path
end CodeAtlas
