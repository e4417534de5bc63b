import CodeAtlas.Proofs.Text.Split
import CodeAtlas.Text.Path

/-!
# Normal paths

A path whose segments are proper, after any number of steps upwards, is its own normal form. The
path from one absolute path to another has that shape, and it has no steps upwards if and only if
the second lies below the first.
-/

namespace CodeAtlas
namespace Text

theorem splitChars_ne_nil (separator : Char) (chars : List Char) :
    splitChars separator chars ≠ [] := by
  cases chars with
  | nil => simp [splitChars]
  | cons char chars =>
    rw [splitChars]
    split
    · simp
    · split <;> simp

theorem splitChars_append (separator : Char) (left right : List Char) :
    splitChars separator (left ++ separator :: right) =
      splitChars separator left ++ splitChars separator right := by
  induction left with
  | nil => simp [splitChars]
  | cons char left induction =>
    rw [List.cons_append, splitChars, splitChars, induction]
    split
    · rfl
    · cases found : splitChars separator left with
      | nil => exact absurd found (splitChars_ne_nil separator left)
      | cons piece pieces => rfl

theorem split_append {separator : String} {char : Char} (single : separator.toList = [char])
    (left right : String) :
    split char (left ++ separator ++ right) = split char left ++ split char right := by
  rw [split, split, split, String.toList_append, String.toList_append, single, List.append_assoc,
    List.singleton_append, splitChars_append, List.map_append]

theorem notMem_of_mem_splitChars {separator : Char} {chars piece : List Char}
    (member : piece ∈ splitChars separator chars) : separator ∉ piece := by
  induction chars generalizing piece with
  | nil => simp_all [splitChars]
  | cons char chars induction =>
    rw [splitChars] at member
    split at member
    case isTrue =>
      rcases List.mem_cons.mp member with rfl | rest
      · exact List.not_mem_nil
      · exact induction rest
    case isFalse different =>
      split at member
      case h_1 => simp_all [Ne.symm different]
      case h_2 first pieces found =>
        rcases List.mem_cons.mp member with rfl | rest
        · have clear := induction (found ▸ List.mem_cons_self)
          simp [clear, Ne.symm different]
        · exact induction (found ▸ List.mem_cons_of_mem first rest)

theorem notMem_of_mem_split {separator : Char} {text piece : String}
    (member : piece ∈ split separator text) : separator ∉ piece.toList := by
  obtain ⟨chars, isPiece, rfl⟩ := List.mem_map.mp member
  rw [String.toList_ofList]
  exact notMem_of_mem_splitChars isPiece

theorem join_split {separator : String} {char : Char} (single : separator.toList = [char])
    (text : String) : join separator (split char text) = text := by
  have chars (chars : List Char) :
      (join separator ((splitChars char chars).map String.ofList)).toList = chars := by
    induction chars with
    | nil => simp [splitChars, join]
    | cons first chars induction =>
      cases found : splitChars char chars with
      | nil => exact absurd found (splitChars_ne_nil char chars)
      | cons piece pieces =>
        rw [found] at induction
        by_cases same : first = char
        · rw [splitChars, if_pos same, found, List.map_cons, List.map_cons,
            toList_join_cons_cons single, ← List.map_cons, induction, same]
          rfl
        · rw [splitChars, if_neg same, found]
          cases pieces with
          | nil => simpa [join] using induction
          | cons second pieces =>
            simp only [List.map_cons] at induction ⊢
            rw [toList_join_cons_cons single] at induction ⊢
            simpa using induction
  exact String.toList_injective (chars text.toList)

theorem dropBeginning?_singleton {char : Char} {chars : List Char}
    (begins : (dropBeginning? [char] chars).isSome) : ∃ rest, chars = char :: rest := by
  cases chars with
  | nil => simp [dropBeginning?] at begins
  | cons first rest =>
    rw [dropBeginning?] at begins
    split at begins
    case isTrue same => exact ⟨rest, by rw [same]⟩
    case isFalse => simp at begins

/-- A text that starts or ends with the separator has an empty piece. -/
theorem empty_mem_split {text : String} (edge : startsWith text "/" ∨ endsWith text "/") :
    "" ∈ split '/' text := by
  have empty : ([] : List Char) ∈ splitChars '/' text.toList := by
    rcases edge with starts | ends
    · have begins : (dropBeginning? ['/'] text.toList).isSome := starts
      obtain ⟨rest, same⟩ := dropBeginning?_singleton begins
      rw [same, splitChars, if_pos rfl]
      exact List.mem_cons_self
    · have begins : (dropBeginning? ['/'] text.toList.reverse).isSome := ends
      obtain ⟨rest, same⟩ := dropBeginning?_singleton begins
      rw [← List.reverse_reverse text.toList, same, List.reverse_cons, splitChars_append]
      exact List.mem_append_right _ List.mem_cons_self
  exact List.mem_map.mpr ⟨[], empty, rfl⟩

end Text

namespace Path

open Text (split join startsWith endsWith)

/-- A segment that names something. -/
structure Proper (segment : String) : Prop where
  /-- It is not empty. -/
  notEmpty : segment ≠ ""
  /-- It does not stay. -/
  notHere : segment ≠ "."
  /-- It does not lead upwards. -/
  notUp : segment ≠ ".."
  /-- It is one segment. -/
  single : '/' ∉ segment.toList

instance (segment : String) : Decidable (Proper segment) :=
  decidable_of_iff (segment ≠ "" ∧ segment ≠ "." ∧ segment ≠ ".." ∧ '/' ∉ segment.toList)
    ⟨fun ⟨notEmpty, notHere, notUp, single⟩ => ⟨notEmpty, notHere, notUp, single⟩,
      fun proper => ⟨proper.1, proper.2, proper.3, proper.4⟩⟩

theorem pushSegment_proper (allowAbove : Bool) (kept : List String) {segment : String}
    (proper : Proper segment) : pushSegment allowAbove kept segment = segment :: kept := by
  simp [pushSegment, proper.notEmpty, proper.notHere, proper.notUp]

theorem foldl_pushSegment_proper (allowAbove : Bool) (kept : List String) {segments : List String}
    (proper : ∀ segment ∈ segments, Proper segment) :
    segments.foldl (pushSegment allowAbove) kept = segments.reverse ++ kept := by
  induction segments generalizing kept with
  | nil => rfl
  | cons segment segments induction =>
    rw [List.foldl_cons, pushSegment_proper allowAbove kept (proper segment List.mem_cons_self),
      induction _ fun other member => proper other (List.mem_cons_of_mem segment member)]
    simp

theorem foldl_pushSegment_up (kept count : Nat) :
    (List.replicate count "..").foldl (pushSegment true) (List.replicate kept "..") =
      List.replicate (count + kept) ".." := by
  induction count generalizing kept with
  | zero => simp
  | succ count induction =>
    have step : pushSegment true (List.replicate kept "..") ".." =
        List.replicate (kept + 1) ".." := by
      cases kept <;> simp [pushSegment, List.replicate_succ]
    rw [List.replicate_succ, List.foldl_cons, step, induction]
    congr 1
    omega

theorem normalSegments_up (up : Nat) {segments : List String}
    (proper : ∀ segment ∈ segments, Proper segment) :
    normalSegments true (List.replicate up ".." ++ segments) =
      List.replicate up ".." ++ segments := by
  have ups := foldl_pushSegment_up 0 up
  rw [List.replicate_zero, Nat.add_zero] at ups
  rw [normalSegments, List.foldl_append, ups, foldl_pushSegment_proper true _ proper]
  simp

theorem proper_absoluteSegments {path segment : String}
    (member : segment ∈ absoluteSegments path) : Proper segment := by
  have all (kept segments : List String) (keptProper : ∀ segment ∈ kept, Proper segment)
      (single : ∀ segment ∈ segments, '/' ∉ segment.toList) :
      ∀ segment ∈ segments.foldl (pushSegment false) kept, Proper segment := by
    induction segments generalizing kept with
    | nil => exact keptProper
    | cons first segments induction =>
      refine induction _ ?_ fun other isOther => single other (List.mem_cons_of_mem first isOther)
      intro other isOther
      unfold pushSegment at isOther
      split at isOther
      case isTrue => exact keptProper other isOther
      case isFalse named =>
        rw [not_or] at named
        split at isOther
        case isTrue =>
          cases kept with
          | nil => simp at isOther
          | cons last rest =>
            have notUp := (keptProper last List.mem_cons_self).notUp
            simp only [if_neg notUp] at isOther
            exact keptProper other (List.mem_cons_of_mem last isOther)
        case isFalse notUp =>
          rcases List.mem_cons.mp isOther with rfl | old
          · exact ⟨named.1, named.2, notUp, single other List.mem_cons_self⟩
          · exact keptProper other old
  exact all [] (split '/' path) (by simp) (fun _ => Text.notMem_of_mem_split) segment
    (List.mem_reverse.mp member)

theorem ne_empty_of_full {path : String} (full : "" ∉ split '/' path) : path ≠ "" := by
  rintro rfl
  exact full (by decide)

theorem isAbsolute_of_full {path : String} (full : "" ∉ split '/' path) :
    isAbsolute path = false := by
  by_contra absolute
  exact full (Text.empty_mem_split (.inl (eq_true_of_ne_false absolute)))

/-- A path without empty segments is joined from its normal segments. -/
theorem normalize_eq_join {path : String} {segments : List String} (full : "" ∉ split '/' path)
    (normal : normalSegments true (split '/' path) = segments) (present : segments ≠ [])
    (clear : "" ∉ segments) : normalize path = join "/" segments := by
  have notEmpty : path ≠ "" := ne_empty_of_full full
  have trimmed : endsWith path "/" = false := by
    by_contra trailing
    exact full (Text.empty_mem_split (.inr (eq_true_of_ne_false trailing)))
  have body : join "/" segments ≠ "" := Text.join_ne_empty rfl present clear
  simp [normalize, notEmpty, isAbsolute_of_full full, trimmed, normal, body]

/-- A path of steps upwards and proper segments is its own normal form. -/
theorem normalize_join (up : Nat) {segments : List String}
    (proper : ∀ segment ∈ segments, Proper segment)
    (present : List.replicate up ".." ++ segments ≠ []) :
    normalize (join "/" (List.replicate up ".." ++ segments)) =
      join "/" (List.replicate up ".." ++ segments) := by
  have clear : ∀ segment ∈ List.replicate up ".." ++ segments,
      segment ≠ "" ∧ '/' ∉ segment.toList := by
    intro segment member
    rcases List.mem_append.mp member with isUp | isProper
    · rw [List.eq_of_mem_replicate isUp]
      decide
    · exact ⟨(proper segment isProper).notEmpty, (proper segment isProper).single⟩
  have pieces : split '/' (join "/" (List.replicate up ".." ++ segments)) =
      List.replicate up ".." ++ segments :=
    Text.split_join rfl present fun segment member => (clear segment member).2
  have full : "" ∉ List.replicate up ".." ++ segments := fun empty => (clear "" empty).1 rfl
  refine normalize_eq_join (by rwa [pieces]) ?_ present full
  rw [pieces, normalSegments_up up proper]

/-! ## From one path to another -/

/-- The steps between two paths lead up to their common part and down from there. -/
theorem stepsBetween_eq (origin target : List String) :
    ∃ common left right, origin = common ++ left ∧ target = common ++ right ∧
      stepsBetween origin target = List.replicate left.length ".." ++ right := by
  fun_induction stepsBetween origin target with
  | case1 rest second others induction =>
    obtain ⟨common, left, right, originEq, targetEq, steps⟩ := induction
    exact ⟨second :: common, left, right, by rw [originEq, List.cons_append],
      by rw [targetEq, List.cons_append], steps⟩
  | case2 first rest second others different =>
    exact ⟨[], first :: rest, second :: others, rfl, rfl, rfl⟩
  | case3 left right => exact ⟨[], left, right, rfl, rfl, rfl⟩

theorem stepsBetween_append (origin segments : List String) :
    stepsBetween origin (origin ++ segments) = segments := by
  induction origin with
  | nil => simp [stepsBetween]
  | cons first rest induction => simp [stepsBetween, induction]

theorem relative_of_below {origin target : String} {segments : List String}
    (below : absoluteSegments target = absoluteSegments origin ++ segments) :
    relative origin target = join "/" segments := by
  rw [relative, below, stepsBetween_append]

/-- The path between two absolute paths goes up some steps and then down. -/
theorem exists_relative (origin target : String) :
    ∃ up segments, (∀ segment ∈ segments, Proper segment) ∧
      relative origin target = join "/" (List.replicate up ".." ++ segments) ∧
      (up = 0 → absoluteSegments target = absoluteSegments origin ++ segments) := by
  obtain ⟨common, left, right, originEq, targetEq, steps⟩ :=
    stepsBetween_eq (absoluteSegments origin) (absoluteSegments target)
  refine ⟨left.length, right, ?_, by rw [relative, steps], ?_⟩
  · intro segment member
    have inTarget : segment ∈ absoluteSegments target := targetEq ▸ List.mem_append_right _ member
    exact proper_absoluteSegments inTarget
  · intro none
    rw [targetEq, originEq, List.length_eq_zero_iff.mp none, List.append_nil]

end Path
end CodeAtlas
