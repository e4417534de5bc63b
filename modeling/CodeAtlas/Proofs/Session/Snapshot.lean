import CodeAtlas.Proofs.Element
import CodeAtlas.Proofs.Table
import CodeAtlas.Session.Analyzer
import Mathlib.Logic.Function.Basic

/-!
# What snapshots show

A snapshot is seen through what became of the file at each path. Adding and removing a file change
what is shown at its path only, and all that is read off a snapshot depends on what it shows, not on
the order in which files were added.
-/

namespace CodeAtlas

@[simp]
theorem FileReader.filePath_outcome (reader : FileReader) (filePath : String) :
    (reader.outcome filePath).filePath = filePath := by
  unfold outcome
  split
  · rfl
  · split
    · rfl
    · split <;> rfl

namespace Snapshot

/-! ## Values by path -/

section ByPath

variable {β : Type} {left right : Table String β}

theorem byPath_eq (leftDistinct : left.Distinct) (rightDistinct : right.Distinct)
    (same : ∀ path, left.get? path = right.get? path) : byPath left = byPath right := by
  have perm := leftDistinct.perm_entries rightDistinct same
  have sorted : Text.sortBy Prod.fst left.entries = Text.sortBy Prod.fst right.entries :=
    Text.sortBy_eq_of_perm perm fun _ isFirst _ isSecond samePath =>
      List.inj_on_of_nodup_map leftDistinct isFirst isSecond samePath
  rw [byPath, byPath, sorted]

theorem mem_byPath (distinct : left.Distinct) {value : β} :
    value ∈ byPath left ↔ ∃ path, left.get? path = some value := by
  simp only [byPath, List.mem_map, Text.mem_sortBy, Prod.exists, exists_eq_right,
    distinct.get?_eq_some_iff]

end ByPath

/-! ## Outcomes by path -/

/-- The problems that a snapshot keeps of a file. -/
def problemsOf (outcome : FileOutcome) : Option (List Diagnostic) :=
  if outcome.diagnostics.isEmpty then none else some outcome.diagnostics

/-- A snapshot shows what became of the file at each path. -/
structure Shows (snapshot : Snapshot) (outcomeAt : String → Option FileOutcome) : Prop where
  /-- Each file has its extraction. -/
  extractions : ∀ path, snapshot.extractions.get? path =
    (outcomeAt path).bind FileOutcome.extraction
  /-- Each file has its problems. -/
  problems : ∀ path, snapshot.problems.get? path = (outcomeAt path).bind problemsOf
  /-- A path has one extraction. -/
  distinctExtractions : snapshot.extractions.Distinct
  /-- A path has one list of problems. -/
  distinctProblems : snapshot.problems.Distinct

variable {snapshot other : Snapshot} {outcomeAt : String → Option FileOutcome}

theorem shows_empty (root : String) (rules : Ignore.Rules) :
    Shows ⟨root, rules, .empty, .empty⟩ fun _ => none :=
  ⟨fun _ => rfl, fun _ => rfl, Table.distinct_empty, Table.distinct_empty⟩

theorem distinct_extractions_add (distinct : snapshot.extractions.Distinct)
    (outcome : FileOutcome) : (snapshot.add outcome).extractions.Distinct := by
  cases found : outcome.extraction with
  | some extraction => simpa [add, found] using distinct.put _ _
  | none => simpa [add, found] using distinct

theorem distinct_problems_add (distinct : snapshot.problems.Distinct) (outcome : FileOutcome) :
    (snapshot.add outcome).problems.Distinct := by
  by_cases clean : outcome.diagnostics.isEmpty
  · simpa [add, clean] using distinct
  · simpa [add, clean] using distinct.put _ _

/-- What is added is shown, as long as nothing else was shown in its place. -/
theorem Shows.add (shows : snapshot.Shows outcomeAt) (outcome : FileOutcome)
    (free : outcomeAt outcome.filePath = none ∨ outcomeAt outcome.filePath = some outcome) :
    (snapshot.add outcome).Shows (Function.update outcomeAt outcome.filePath (some outcome)) where
  extractions path := by
    have old := shows.extractions path
    by_cases same : path = outcome.filePath
    · subst same
      rw [Function.update_self]
      cases found : outcome.extraction with
      | some extraction => simp [Snapshot.add, found]
      | none => rcases free with free | free <;> simp [Snapshot.add, found, old, free]
    · rw [Function.update_of_ne same, ← old]
      cases found : outcome.extraction with
      | some extraction => simp [Snapshot.add, found, Table.get?_put, same]
      | none => simp [Snapshot.add, found]
  problems path := by
    have old := shows.problems path
    by_cases same : path = outcome.filePath
    · subst same
      rw [Function.update_self]
      by_cases clean : outcome.diagnostics.isEmpty
      · rcases free with free | free <;> simp [Snapshot.add, problemsOf, clean, old, free]
      · simp [Snapshot.add, problemsOf, clean]
    · rw [Function.update_of_ne same, ← old]
      by_cases clean : outcome.diagnostics.isEmpty
      · simp [Snapshot.add, clean]
      · simp [Snapshot.add, clean, Table.get?_put, same]
  distinctExtractions := distinct_extractions_add shows.distinctExtractions outcome
  distinctProblems := distinct_problems_add shows.distinctProblems outcome

theorem Shows.remove (shows : snapshot.Shows outcomeAt) (filePath : String) :
    (snapshot.remove filePath).Shows (Function.update outcomeAt filePath none) where
  extractions path := by
    rw [Snapshot.remove, Table.get?_erase, shows.extractions, Function.update_apply]
    split <;> rfl
  problems path := by
    rw [Snapshot.remove, Table.get?_erase, shows.problems, Function.update_apply]
    split <;> rfl
  distinctExtractions := shows.distinctExtractions.erase filePath
  distinctProblems := shows.distinctProblems.erase filePath

theorem ite_mem_update {β : Type} (valueAt : String → β) (file : String) (files : List String)
    (value : β) :
    (fun path => if path ∈ files then value else Function.update valueAt file value path) =
      fun path => if path ∈ file :: files then value else valueAt path := by
  funext path
  by_cases isFile : path = file <;> simp [isFile]

theorem Shows.removeAll (shows : snapshot.Shows outcomeAt) (files : List String) :
    (files.foldl Snapshot.remove snapshot).Shows fun path =>
      if path ∈ files then none else outcomeAt path := by
  induction files generalizing snapshot outcomeAt with
  | nil => simpa using shows
  | cons file files induction =>
    rw [← ite_mem_update]
    exact induction (shows.remove file)

theorem Shows.addAll (shows : snapshot.Shows outcomeAt) (reader : FileReader) {files : List String}
    (free : ∀ path ∈ files, outcomeAt path = none ∨ outcomeAt path = some (reader.outcome path)) :
    ((files.map reader.outcome).foldl Snapshot.add snapshot).Shows fun path =>
      if path ∈ files then some (reader.outcome path) else outcomeAt path := by
  induction files generalizing snapshot outcomeAt with
  | nil => simpa using shows
  | cons file files induction =>
    have first : (snapshot.add (reader.outcome file)).Shows
        (Function.update outcomeAt file (some (reader.outcome file))) := by
      have added := shows.add (reader.outcome file)
      rw [FileReader.filePath_outcome] at added
      exact added (free file List.mem_cons_self)
    have rest := induction first fun path member => by
      by_cases isFile : path = file
      · exact .inr (by simp [isFile])
      · simpa [Function.update_of_ne isFile] using free path (List.mem_cons_of_mem file member)
    have same : (fun path => if path ∈ files then some (reader.outcome path)
          else Function.update outcomeAt file (some (reader.outcome file)) path) =
        fun path => if path ∈ file :: files then some (reader.outcome path)
          else outcomeAt path := by
      funext path
      by_cases isFile : path = file <;> simp [isFile]
    exact same ▸ rest

/-! ## What is read off a snapshot -/

theorem Shows.byPath_extractions_eq (shows : snapshot.Shows outcomeAt)
    (otherShows : other.Shows outcomeAt) : byPath snapshot.extractions = byPath other.extractions :=
  byPath_eq shows.distinctExtractions otherShows.distinctExtractions fun path =>
    (shows.extractions path).trans (otherShows.extractions path).symm

theorem Shows.elements_eq (shows : snapshot.Shows outcomeAt) (otherShows : other.Shows outcomeAt) :
    snapshot.elements = other.elements := by
  rw [elements, elements, shows.byPath_extractions_eq otherShows]

theorem Shows.languageCounts_eq (shows : snapshot.Shows outcomeAt)
    (otherShows : other.Shows outcomeAt) : snapshot.languageCounts = other.languageCounts := by
  rw [languageCounts, languageCounts, shows.byPath_extractions_eq otherShows]

theorem Shows.diagnostics_eq (shows : snapshot.Shows outcomeAt)
    (otherShows : other.Shows outcomeAt) : snapshot.diagnostics = other.diagnostics := by
  have same : byPath snapshot.problems = byPath other.problems :=
    byPath_eq shows.distinctProblems otherShows.distinctProblems fun path =>
      (shows.problems path).trans (otherShows.problems path).symm
  rw [diagnostics, diagnostics, same]

theorem Shows.mem_elements (shows : snapshot.Shows outcomeAt) {element : Element} :
    element ∈ snapshot.elements ↔ ∃ path extraction,
      (outcomeAt path).bind FileOutcome.extraction = some extraction ∧
        element ∈ extraction.elements := by
  simp only [elements, List.mem_flatMap, mem_byPath shows.distinctExtractions, shows.extractions]
  constructor
  · rintro ⟨extraction, ⟨path, found⟩, member⟩
    exact ⟨path, extraction, found, member⟩
  · rintro ⟨path, extraction, found, member⟩
    exact ⟨extraction, ⟨path, found⟩, member⟩

end Snapshot
end CodeAtlas
