import CodeAtlas.Proofs.Batch
import CodeAtlas.Proofs.Graph.Integrity
import CodeAtlas.Proofs.Resolution.Ends
import CodeAtlas.Proofs.Session.Labels

/-!
# What runs account for

A ledger of a history says which files the last run has to account for, and which reader looked at
each of them last. Whatever the history is, the analysis of a run has all elements of each of these
files or a diagnostic that names the file, and each of its relationships is in the graph or is
reported once.
-/

namespace CodeAtlas

/-! ## Outcomes -/

/-- A file is not passed over: its outcome has the elements that a reader finds in it or problems,
and all problems name the file. -/
structure FileOutcome.AccountsFor (outcome : FileOutcome) (reader : FileReader) (path : String) :
    Prop where
  /-- The outcome is that of the file. -/
  filePath_eq : outcome.filePath = path
  /-- What was found is what the reader finds. -/
  found : ∀ extraction, outcome.extraction = some extraction →
    (reader.outcome path).extraction = some extraction
  /-- A file in which nothing was found has problems. -/
  spoken : outcome.extraction = none → outcome.diagnostics ≠ []
  /-- Problems are about the file. -/
  named : ∀ problem ∈ outcome.diagnostics,
    problem.filePath = some path ∧ problem.relationshipId = none

theorem FileOutcome.accountsFor_problem (reader : FileReader) {path : String}
    {problem : Diagnostic} (isNamed : problem.filePath = some path)
    (unrelated : problem.relationshipId = none) :
    AccountsFor ⟨path, none, [problem]⟩ reader path where
  filePath_eq := rfl
  found _ none := by cases none
  spoken _ := List.cons_ne_nil _ _
  named other member := by
    rw [List.mem_singleton.mp member]
    exact ⟨isNamed, unrelated⟩

theorem FileOutcome.named_of_mem_issueDiagnostics {path : String} {extraction : FileExtraction}
    {problem : Diagnostic} (member : problem ∈ issueDiagnostics path extraction) :
    problem.filePath = some path ∧ problem.relationshipId = none := by
  unfold issueDiagnostics at member
  split at member
  · cases member
  · rw [List.mem_singleton.mp member]
    exact ⟨rfl, rfl⟩

theorem FileReader.accountsFor_outcome (reader : FileReader) (path : String) :
    (reader.outcome path).AccountsFor reader path := by
  cases isLanguage : reader.language? path with
  | none =>
    rw [outcome, isLanguage]
    exact FileOutcome.accountsFor_problem reader rfl rfl
  | some language =>
    cases isContent : reader.content path with
    | error error =>
      rw [outcome, isLanguage, isContent]
      exact FileOutcome.accountsFor_problem reader rfl rfl
    | ok source =>
      cases isExtraction : reader.workspace.extract reader.root source path language with
      | error error =>
        simp only [outcome, isLanguage, isContent, isExtraction]
        exact FileOutcome.accountsFor_problem reader rfl rfl
      | ok extraction =>
        have isOutcome : reader.outcome path = .extracted path extraction := by
          simp only [outcome, isLanguage, isContent, isExtraction]
        refine ⟨reader.filePath_outcome path, fun _ found => found, ?_, ?_⟩
        · rw [isOutcome]
          exact fun none => by cases none
        · rw [isOutcome]
          exact fun problem member => FileOutcome.named_of_mem_issueDiagnostics member

/-- All courses that are given for the files of readers are such that a limiter allows. -/
def Course.Orderly (limit : Nat) (course : Course) : Prop :=
  ∀ reader files, Batch.IsCourse limit files.length (course reader files)

/-- In a batch that goes through, each file is looked at or comes too late. -/
theorem Run.outcomes_extractAlong {course : Course} {analyzer : Analyzer} {workspace : Workspace}
    {root : String} {options : RunOptions} {files : List String} {outcomes : List FileOutcome}
    (orderly : course.Orderly (batchOptions analyzer options).limit)
    (through : extractAlong course analyzer workspace root options files = .ok outcomes) :
    List.Forall₂ (fun path outcome => outcome = (readerOf analyzer workspace root).outcome path ∨
      outcome = .late path) files outcomes := by
  let reader := readerOf analyzer workspace root
  let batch := Batch.ofReader reader (batchOptions analyzer options) files
  have kept : (batch.run { aborted := (batchOptions analyzer options).abortedBefore }
      (course reader files)).cancelled = false := by
    rw [← Bool.not_eq_true]
    intro cancelled
    rw [extractAlong, Batch.result, if_pos cancelled] at through
    cases through
  obtain ⟨each, isOk, allowed⟩ := Batch.result_of_isCourse _ (orderly reader files) kept
  obtain rfl : outcomes = each := Except.ok.inj (through.symm.trans isOk)
  exact allowed.imp fun path outcome isAllowed => isAllowed.imp_right And.right

theorem Run.filePaths_extractAlong {course : Course} {analyzer : Analyzer} {workspace : Workspace}
    {root : String} {options : RunOptions} {files : List String} {outcomes : List FileOutcome}
    (orderly : course.Orderly (batchOptions analyzer options).limit)
    (through : extractAlong course analyzer workspace root options files = .ok outcomes) :
    outcomes.map FileOutcome.filePath = files := by
  rw [← List.forall₂_eq_eq_eq, List.forall₂_map_left_iff]
  refine (outcomes_extractAlong orderly through).flip.imp fun outcome path isOutcome => ?_
  rcases isOutcome with rfl | rfl
  · exact FileReader.filePath_outcome _ path
  · rfl

theorem Run.accountsFor_extractAlong {course : Course} {analyzer : Analyzer}
    {workspace : Workspace} {root : String} {options : RunOptions} {files : List String}
    {outcomes : List FileOutcome} (orderly : course.Orderly (batchOptions analyzer options).limit)
    (through : extractAlong course analyzer workspace root options files = .ok outcomes) :
    List.Forall₂ (fun path outcome =>
      outcome.AccountsFor (readerOf analyzer workspace root) path) files outcomes := by
  refine (outcomes_extractAlong orderly through).imp fun path outcome isOutcome => ?_
  rcases isOutcome with rfl | rfl
  · exact FileReader.accountsFor_outcome _ path
  · exact FileOutcome.accountsFor_problem _ rfl rfl

/-! ## Ledgers -/

/-- The files to account for, each with the reader that looked at it last. -/
abbrev Ledger := String → Option FileReader

namespace Snapshot

theorem get?_extractions_add (snapshot : Snapshot) (outcome : FileOutcome) (path : String) :
    (snapshot.add outcome).extractions.get? path =
      if path = outcome.filePath then outcome.extraction.or (snapshot.extractions.get? path)
      else snapshot.extractions.get? path := by
  cases found : outcome.extraction with
  | none => simp [add, found]
  | some extraction => simp [add, found, Table.get?_put]

theorem get?_problems_add (snapshot : Snapshot) (outcome : FileOutcome) (path : String) :
    (snapshot.add outcome).problems.get? path =
      if path = outcome.filePath ∧ outcome.diagnostics ≠ [] then some outcome.diagnostics
      else snapshot.problems.get? path := by
  by_cases clean : outcome.diagnostics = []
  · simp [add, clean]
  · simp [add, clean, Table.get?_put]

/-- A snapshot passes over no file of a ledger. -/
structure Balances (snapshot : Snapshot) (ledger : Ledger) : Prop where
  /-- A path has one extraction. -/
  distinctExtractions : snapshot.extractions.Distinct
  /-- A path has one list of problems. -/
  distinctProblems : snapshot.problems.Distinct
  /-- What was found in a file is what its reader finds. -/
  found : ∀ path extraction, snapshot.extractions.get? path = some extraction →
    ∃ reader, ledger path = some reader ∧ (reader.outcome path).extraction = some extraction
  /-- A file in which nothing was found has problems. -/
  spoken : ∀ path reader, ledger path = some reader → snapshot.extractions.get? path = none →
    snapshot.problems.get? path ≠ none
  /-- Problems are there and about the file. -/
  named : ∀ path problems, snapshot.problems.get? path = some problems →
    problems ≠ [] ∧ ∀ problem ∈ problems,
      problem.filePath = some path ∧ problem.relationshipId = none

variable {snapshot : Snapshot} {ledger : Ledger}

theorem balances_empty (root : String) (rules : Ignore.Rules) :
    Balances ⟨root, rules, .empty, .empty⟩ fun _ => none where
  distinctExtractions := Table.distinct_empty
  distinctProblems := Table.distinct_empty
  found _ _ none := by cases none
  spoken _ _ none := by cases none
  named _ _ none := by cases none

theorem Balances.remove (balances : snapshot.Balances ledger) (filePath : String) :
    (snapshot.remove filePath).Balances (Function.update ledger filePath none) where
  distinctExtractions := balances.distinctExtractions.erase filePath
  distinctProblems := balances.distinctProblems.erase filePath
  found path extraction isFound := by
    rw [Snapshot.remove, Table.get?_erase] at isFound
    rw [Function.update_apply]
    split at isFound
    · cases isFound
    case isFalse other =>
      rw [if_neg other]
      exact balances.found path extraction isFound
  spoken path reader isReader nothing := by
    rw [Function.update_apply] at isReader
    split at isReader
    · cases isReader
    case isFalse other =>
      rw [Snapshot.remove, Table.get?_erase, if_neg other] at nothing ⊢
      exact balances.spoken path reader isReader nothing
  named path problems isNamed := by
    rw [Snapshot.remove, Table.get?_erase] at isNamed
    split at isNamed
    · cases isNamed
    · exact balances.named path problems isNamed

theorem Balances.removeAll (balances : snapshot.Balances ledger) (files : List String) :
    (files.foldl Snapshot.remove snapshot).Balances fun path =>
      if path ∈ files then none else ledger path := by
  induction files generalizing snapshot ledger with
  | nil => simpa using balances
  | cons file files induction =>
    rw [← ite_mem_update]
    exact induction (balances.remove file)

/-- What is added is accounted for, as long as no other reader has looked at the file. -/
theorem Balances.add (balances : snapshot.Balances ledger) {outcome : FileOutcome}
    {reader : FileReader} {file : String} (accounts : outcome.AccountsFor reader file)
    (free : ledger file = none ∨ ledger file = some reader) :
    (snapshot.add outcome).Balances (Function.update ledger file (some reader)) where
  distinctExtractions := distinct_extractions_add balances.distinctExtractions outcome
  distinctProblems := distinct_problems_add balances.distinctProblems outcome
  found path extraction isFound := by
    rw [get?_extractions_add, accounts.filePath_eq] at isFound
    by_cases same : path = file
    · subst same
      rw [if_pos rfl, Option.or_eq_some_iff] at isFound
      rw [Function.update_self]
      rcases isFound with added | ⟨_, kept⟩
      · exact ⟨reader, rfl, accounts.found extraction added⟩
      · -- An outcome without an extraction leaves an earlier one, which the same reader has found.
        obtain ⟨other, isOther, found⟩ := balances.found path extraction kept
        rcases free with free | free
        · rw [free] at isOther
          cases isOther
        · exact ⟨other, free ▸ isOther, found⟩
    · rw [if_neg same] at isFound
      rw [Function.update_of_ne same]
      exact balances.found path extraction isFound
  spoken path other isReader nothing := by
    rw [get?_extractions_add, accounts.filePath_eq] at nothing
    rw [get?_problems_add, accounts.filePath_eq]
    by_cases same : path = file
    · rw [if_pos same, Option.or_eq_none_iff] at nothing
      rw [if_pos ⟨same, accounts.spoken nothing.1⟩]
      exact Option.some_ne_none _
    · rw [if_neg same] at nothing
      rw [if_neg fun both => same both.1]
      rw [Function.update_of_ne same] at isReader
      exact balances.spoken path other isReader nothing
  named path problems isNamed := by
    rw [get?_problems_add, accounts.filePath_eq] at isNamed
    split at isNamed
    case isTrue added =>
      obtain ⟨rfl, present⟩ := added
      cases isNamed
      exact ⟨present, accounts.named⟩
    case isFalse => exact balances.named path problems isNamed

theorem Balances.addAll (balances : snapshot.Balances ledger) {reader : FileReader}
    {files : List String} {outcomes : List FileOutcome}
    (accounts : List.Forall₂ (fun path outcome => outcome.AccountsFor reader path) files outcomes)
    (free : ∀ path ∈ files, ledger path = none ∨ ledger path = some reader) :
    (outcomes.foldl Snapshot.add snapshot).Balances fun path =>
      if path ∈ files then some reader else ledger path := by
  induction accounts generalizing snapshot ledger with
  | nil => simpa using balances
  | @cons file outcome files outcomes first _ induction =>
    rw [← ite_mem_update]
    refine induction (balances.add first (free file List.mem_cons_self)) fun path member => ?_
    by_cases isFile : path = file
    · exact .inr (by simp [isFile])
    · simpa [Function.update_of_ne isFile] using free path (List.mem_cons_of_mem file member)

end Snapshot

/-! ## Analyses -/

/-- An analysis does not pass over a file: it has all elements that a reader finds in the file,
apart from labels, or a diagnostic that names the file. -/
def Analysis.Covers (analysis : Analysis) (reader : FileReader) (path : String) : Prop :=
  (∃ extraction, (reader.outcome path).extraction = some extraction ∧
    (extraction.elements.map Element.withoutLabel).Subperm
      (analysis.elements.map Element.withoutLabel)) ∨
  ∃ diagnostic ∈ analysis.diagnostics, diagnostic.filePath = some path

/-- An analysis does not pass over a relationship: the relationship is in the graph and not
reported, or it has no edges and is reported once. -/
def Analysis.Settles (analysis : Analysis) (relationship : Relationship Float) : Prop :=
  let reports := DependencyGraph.reportsOf analysis.diagnostics relationship
  (analysis.graph.Holds relationship ∧ reports = []) ∨
    (analysis.graph.edgesFor relationship = [] ∧ reports.length = 1)

theorem Snapshot.sublist_elements {snapshot : Snapshot}
    (distinct : snapshot.extractions.Distinct) {path : String} {extraction : FileExtraction}
    (found : snapshot.extractions.get? path = some extraction) :
    extraction.elements.Sublist snapshot.elements := by
  have member := (mem_byPath distinct).mpr ⟨path, found⟩
  rw [elements, List.flatMap_def]
  exact List.sublist_flatten_of_mem (List.mem_map_of_mem member)

theorem Snapshot.mem_diagnostics {snapshot : Snapshot} (distinct : snapshot.problems.Distinct)
    {problem : Diagnostic} : problem ∈ snapshot.diagnostics ↔
      ∃ path problems, snapshot.problems.get? path = some problems ∧ problem ∈ problems := by
  simp only [diagnostics, List.mem_flatten, mem_byPath distinct]
  constructor
  · rintro ⟨problems, ⟨path, found⟩, member⟩
    exact ⟨path, problems, found, member⟩
  · rintro ⟨path, problems, found, member⟩
    exact ⟨problems, ⟨path, found⟩, member⟩

namespace Analyzer

variable {analyzer : Analyzer} {snapshot : Snapshot} {ledger : Ledger}

theorem nodup_ids_stateOf (analyzer : Analyzer) (snapshot : Snapshot) (reuse : Option Reuse) :
    ((analyzer.stateOf snapshot reuse).resolution.relationships.map Relationship.id).Nodup := by
  cases reuse <;> exact Resolution.nodup_ids_assemble snapshot.elements _

theorem perm_diagnostics_analysisOf (analyzer : Analyzer) (labels : Table String Label)
    (state : RunState) (mode : AnalysisMode) (version : Nat) (createdAt : Instant) :
    (analyzer.analysisOf labels state mode version createdAt).diagnostics.Perm
      (state.snapshot.diagnostics ++
        DependencyGraph.diagnostics (elementsOf state) state.resolution.relationships) :=
  List.mergeSort_perm _ _

section Balanced

variable (balances : snapshot.Balances ledger) (labels : Table String Label) (reuse : Option Reuse)
  (mode : AnalysisMode) (version : Nat) (createdAt : Instant)

include balances

theorem covers_analysisOf {path : String} {reader : FileReader}
    (isReader : ledger path = some reader) :
    (analyzer.analysisOf labels (analyzer.stateOf snapshot reuse) mode version createdAt).Covers
      reader path := by
  cases found : snapshot.extractions.get? path with
  | some extraction =>
    obtain ⟨other, isOther, same⟩ := balances.found path extraction found
    obtain rfl : reader = other := Option.some.inj (isReader.symm.trans isOther)
    have listed : extraction.elements.Sublist
        (elementsOf (analyzer.stateOf snapshot reuse)) :=
      (Snapshot.sublist_elements balances.distinctExtractions found).trans
        (List.sublist_append_left _ _)
    refine .inl ⟨extraction, same, ?_⟩
    rw [elements_analysisOf, Element.map_withoutLabel_showLabels]
    exact (listed.map _).subperm.trans ((Text.sortBy_perm Element.id _).map _).symm.subperm
  | none =>
    obtain ⟨problems, isNamed⟩ := Option.ne_none_iff_exists'.mp
      (balances.spoken path reader isReader found)
    obtain ⟨present, named⟩ := balances.named path problems isNamed
    obtain ⟨problem, member⟩ := List.exists_mem_of_ne_nil problems present
    have listed : problem ∈ snapshot.diagnostics :=
      (Snapshot.mem_diagnostics balances.distinctProblems).mpr ⟨path, problems, isNamed, member⟩
    exact .inr ⟨problem, (perm_diagnostics_analysisOf ..).mem_iff.mpr
      (List.mem_append_left _ listed), (named problem member).1⟩

theorem reportsOf_snapshot (relationship : Relationship Float) :
    DependencyGraph.reportsOf snapshot.diagnostics relationship = [] := by
  refine List.filter_eq_nil_iff.mpr fun problem member => ?_
  obtain ⟨path, problems, isNamed, isProblem⟩ :=
    (Snapshot.mem_diagnostics balances.distinctProblems).mp member
  simp [((balances.named path problems isNamed).2 problem isProblem).2]

theorem settles_analysisOf {relationship : Relationship Float}
    (member : relationship ∈ (analyzer.stateOf snapshot reuse).resolution.relationships) :
    (analyzer.analysisOf labels (analyzer.stateOf snapshot reuse) mode version createdAt).Settles
      relationship := by
  let state := analyzer.stateOf snapshot reuse
  have reports : (DependencyGraph.reportsOf
        (analyzer.analysisOf labels state mode version createdAt).diagnostics relationship).Perm
      (DependencyGraph.reportsOf
        (DependencyGraph.diagnostics (elementsOf state) state.resolution.relationships)
        relationship) := by
    refine ((perm_diagnostics_analysisOf ..).filter _).trans (.of_eq ?_)
    rw [List.filter_append]
    exact congrArg (· ++ _) (reportsOf_snapshot balances relationship)
  rcases DependencyGraph.holds_or_reported (nodup_ids_stateOf analyzer snapshot reuse) member
      analyzer.configuration.graph (elementsOf state)
      (reuse.map fun reuse => (reuse.state.graph, reuse.changedIds)) with
    ⟨holds, unreported⟩ | ⟨dropped, reported⟩
  · exact .inl ⟨holds, List.perm_nil.mp (reports.trans (.of_eq unreported))⟩
  · exact .inr ⟨dropped, reports.length_eq.trans reported⟩

end Balanced
end Analyzer

/-! ## Histories -/

namespace Ledger

/-- The ledger of files that have just been listed. -/
def ofListing (reader : FileReader) (files : List String) : Ledger := fun path =>
  if path ∈ files then some reader else none

/-- A ledger after some files may have changed. A file that is named, below the root and not ignored
has to be accounted for if it is there: by a new reader, unless it has the content it had. -/
def afterChanges (ledger : Ledger) (reader : FileReader) (snapshot : Snapshot)
    (files : List String) : Ledger := fun path =>
  if (∃ name ∈ files, Run.relativePath snapshot.root name = path) ∧ Run.isBelowRoot path ∧
      snapshot.rules.ignores path = false then
    if reader.workspace.holds (Path.joinAll [snapshot.root, path]) then
      if Run.isUnchanged reader.workspace snapshot path then some ((ledger path).getD reader)
      else some reader
    else none
  else ledger path

end Ledger

namespace Run

theorem mem_changedPaths_iff {snapshot : Snapshot} {files : List String} {path : String} :
    path ∈ changedPaths snapshot files ↔
      (∃ name ∈ files, relativePath snapshot.root name = path) ∧ isBelowRoot path ∧
        snapshot.rules.ignores path = false := by
  simp [changedPaths, mem_distinct]

theorem ok_of_bind {ε α β : Type} {first : Except ε α} {second : α → Except ε β} {value : β}
    (isOk : first >>= second = .ok value) :
    ∃ middle, first = .ok middle ∧ second middle = .ok value := by
  cases first with
  | error error => cases isOk
  | ok middle => exact ⟨middle, rfl, isOk⟩

variable {course : Course} {analyzer : Analyzer} {workspace : Workspace} {options : RunOptions}
  {found : Findings}

theorem known_of_isUnchanged {snapshot : Snapshot} {path : String}
    (unchanged : isUnchanged workspace snapshot path) :
    ∃ extraction, snapshot.extractions.get? path = some extraction := by
  unfold isUnchanged at unchanged
  split at unchanged
  · cases unchanged
  case h_2 known isKnown => exact ⟨known, isKnown⟩

/-- The files that a plan leaves alone keep their readers. -/
theorem afterChanges_eq {snapshot : Snapshot} {ledger : Ledger}
    (balances : snapshot.Balances ledger) (reader : FileReader) (files : List String) :
    ledger.afterChanges reader snapshot files = fun path =>
      if path ∈ (plan reader.workspace snapshot files).toExtract then some reader
      else if path ∈ (plan reader.workspace snapshot files).removed ++
        (plan reader.workspace snapshot files).toExtract then none
      else ledger path := by
  funext path
  rw [Ledger.afterChanges]
  simp only [← mem_changedPaths_iff, List.mem_append, plan, List.mem_filter]
  by_cases changed : path ∈ changedPaths snapshot files
  case neg => simp [changed]
  by_cases there : reader.workspace.holds (Path.joinAll [snapshot.root, path])
  case neg => simp [changed, there]
  by_cases unchanged : isUnchanged reader.workspace snapshot path
  case neg => simp [changed, there, unchanged]
  -- A file with the content it had is in the ledger already, since something was found in it.
  obtain ⟨extraction, isKnown⟩ := known_of_isUnchanged unchanged
  obtain ⟨earlier, isEarlier, _⟩ := balances.found path extraction isKnown
  simp [changed, there, unchanged, isEarlier]

/-- After a run over a whole code base the files of its listing are accounted for. -/
theorem balances_findAll {rootPath : String}
    (orderly : course.Orderly (batchOptions analyzer options).limit)
    (isFound : findAll course analyzer workspace rootPath options = .ok found) :
    ∃ listing, workspace.scan (rootOf rootPath) ⟨analyzer.configuration.ignorePatterns,
        analyzer.configuration.respectGitignore⟩ = .ok listing ∧
      found.snapshot.Balances
        (.ofListing (readerOf analyzer workspace (rootOf rootPath)) listing.files) := by
  obtain ⟨listing, isListing, isFound⟩ := ok_of_bind isFound
  obtain ⟨outcomes, through, isFound⟩ := ok_of_bind isFound
  cases isFound
  exact ⟨listing, isListing, (Snapshot.balances_empty _ _).addAll
    (accountsFor_extractAlong orderly through) fun _ _ => .inl rfl⟩

/-- After a run over changes the files of the ledger before are accounted for, apart from those that
are gone, and the changed ones are as well. -/
theorem balances_findChanges {files : List String} {state : RunState} {ledger : Ledger}
    (orderly : course.Orderly (batchOptions analyzer options).limit)
    (balances : state.snapshot.Balances ledger)
    (isFound : findChanges course analyzer workspace files options (some state) = .ok found) :
    found.snapshot.Balances (ledger.afterChanges
      (readerOf analyzer workspace state.snapshot.root) state.snapshot files) := by
  obtain ⟨outcomes, through, isFound⟩ := ok_of_bind isFound
  cases isFound
  have accounts := accountsFor_extractAlong orderly through
  -- All touched files leave the ledger first, so that the new reader finds their places free.
  rw [afterChanges_eq balances, findingsAfter, touchedBy, filePaths_extractAlong orderly through]
  exact (balances.removeAll _).addAll accounts fun path member =>
    .inl (if_pos (List.mem_append_right _ member))

end Run

namespace Session

variable {analyzer : Analyzer} {session : Session} {ledger : Ledger}

/-- What a call that goes through does to a ledger, given what the last run has left. -/
def Call.enter (analyzer : Analyzer) (last : Option RunState) (ledger : Ledger) : Call → Ledger
  | .full workspace rootPath _ _ =>
    let root := Run.rootOf rootPath
    let configuration := analyzer.configuration
    match workspace.scan root ⟨configuration.ignorePatterns, configuration.respectGitignore⟩ with
    | .ok listing => .ofListing (Run.readerOf analyzer workspace root) listing.files
    | .error _ => ledger
  | .incremental workspace files _ _ =>
    match last with
    | some state =>
      ledger.afterChanges (Run.readerOf analyzer workspace state.snapshot.root) state.snapshot files
    | none => ledger
  | .labels _ => ledger

/-- The ledger after a call. Calls that fail leave it alone. -/
def ledgerAfter (session : Session) (analyzer : Analyzer) (ledger : Ledger) (call : Call) :
    Ledger :=
  if (session.await analyzer call).2.error?.isSome then ledger
  else call.enter analyzer session.shared.state ledger

/-- The ledger after some calls. -/
def ledgerAfterAll (session : Session) (analyzer : Analyzer) (ledger : Ledger) :
    List Call → Ledger
  | [] => ledger
  | call :: calls => (session.await analyzer call).1.ledgerAfterAll analyzer
    (session.ledgerAfter analyzer ledger call) calls

/-- The course that a call gives, if it gives one, is such as a limiter allows. -/
def Call.Orderly (analyzer : Analyzer) : Call → Prop
  | .full _ _ options course => ∀ given ∈ course,
    given.Orderly (Run.batchOptions analyzer options).limit
  | .incremental _ _ options course => ∀ given ∈ course,
    given.Orderly (Run.batchOptions analyzer options).limit
  | .labels _ => True

/-- Tasks that take turns follow a course that a limiter allows. -/
theorem orderly_getD {options : RunOptions} {course : Option Course}
    (orderly : ∀ given ∈ course, given.Orderly (Run.batchOptions analyzer options).limit) :
    (course.getD (Run.turns analyzer options)).Orderly
      (Run.batchOptions analyzer options).limit := by
  cases course with
  | none => exact fun reader files => Batch.isCourse_jobsOf reader _ files
  | some course => exact orderly course rfl

/-- An idle session whose last run has passed over no file of a ledger. -/
structure Balanced (session : Session) (ledger : Ledger) : Prop where
  /-- Nothing is left to do. -/
  idle : session.Idle
  /-- The last run has passed over no file. -/
  balances : ∀ state, session.shared.state = some state → state.snapshot.Balances ledger

theorem Balanced.found {call : Call} {found : Run.Findings} (balanced : session.Balanced ledger)
    (orderly : call.Orderly analyzer)
    (isFound : call.find? analyzer session.shared.state = some (.ok found)) :
    found.snapshot.Balances (call.enter analyzer session.shared.state ledger) := by
  cases call with
  | full workspace rootPath options course =>
    obtain ⟨listing, isListing, balances⟩ := Run.balances_findAll (orderly_getD orderly)
      (Option.some.inj isFound)
    rw [Call.enter, isListing]
    exact balances
  | incremental workspace files options course =>
    cases isState : session.shared.state with
    | none =>
      rw [isState] at isFound
      cases isFound
    | some state =>
      rw [isState] at isFound
      exact Run.balances_findChanges (orderly_getD orderly) (balanced.balances state isState)
        (Option.some.inj isFound)
  | labels input => cases isFound

/-- A run that goes through is entered into the ledger. -/
theorem ledgerAfter_of_find (idle : session.Idle) {call : Call} {found : Run.Findings}
    (isFound : call.find? analyzer session.shared.state = some (.ok found)) :
    session.ledgerAfter analyzer ledger call =
      call.enter analyzer session.shared.state ledger := by
  obtain ⟨_, _, reply⟩ := await_of_find idle isFound
  rw [ledgerAfter, reply]
  rfl

theorem Balanced.await {call : Call} (balanced : session.Balanced ledger)
    (orderly : call.Orderly analyzer) :
    (session.await analyzer call).1.Balanced (session.ledgerAfter analyzer ledger call) := by
  have idle := idle_await balanced.idle analyzer call
  rcases call.isRun_or_labels with isRun | ⟨input, rfl⟩
  case inr =>
    have unchanged : session.ledgerAfter analyzer ledger (.labels input) = ledger := ite_self _
    rw [unchanged]
    refine ⟨idle, fun state isState => balanced.balances state ?_⟩
    rwa [state_await_labels balanced.idle] at isState
  obtain ⟨found, isFound⟩ := Call.exists_find? isRun analyzer session.shared.state
  obtain ⟨_, shared, reply⟩ := await_of_find balanced.idle isFound
  cases found with
  | error error =>
    have unchanged : session.ledgerAfter analyzer ledger call = ledger := by
      rw [ledgerAfter, reply]
      rfl
    rw [unchanged]
    refine ⟨idle, fun state isState => balanced.balances state ?_⟩
    rwa [shared] at isState
  | ok found =>
    rw [ledgerAfter_of_find balanced.idle isFound]
    refine ⟨idle, fun state isState => ?_⟩
    rw [shared] at isState
    cases isState
    exact balanced.found orderly isFound

theorem Balanced.awaitAll (balanced : session.Balanced ledger) {calls : List Call}
    (orderly : ∀ call ∈ calls, call.Orderly analyzer) :
    (session.awaitAll analyzer calls).1.Balanced
      (session.ledgerAfterAll analyzer ledger calls) := by
  induction calls generalizing session ledger with
  | nil => exact balanced
  | cons call calls induction =>
    rw [List.forall_mem_cons] at orderly
    exact induction (balanced.await orderly.1) orderly.2

/-- A run that goes through passes over no file and no relationship. -/
theorem Balanced.published {call : Call} {analysis : Analysis} (balanced : session.Balanced ledger)
    (orderly : call.Orderly analyzer)
    (published : (session.await analyzer call).2 = .run (.ok analysis)) :
    (∀ path reader, session.ledgerAfter analyzer ledger call path = some reader →
      analysis.Covers reader path) ∧
    ∀ relationship ∈ analysis.relationships, analysis.Settles relationship := by
  rcases call.isRun_or_labels with isRun | ⟨input, rfl⟩
  case inr => cases published
  obtain ⟨found, isFound⟩ := Call.exists_find? isRun analyzer session.shared.state
  obtain ⟨_, _, reply⟩ := await_of_find balanced.idle isFound
  rw [published] at reply
  cases found with
  | error error => cases reply
  | ok found =>
    rw [ledgerAfter_of_find balanced.idle isFound]
    have balances := balanced.found orderly isFound
    obtain rfl := Except.ok.inj (Reply.run.inj reply)
    exact ⟨fun path reader isReader => Analyzer.covers_analysisOf balances _ _ _ _ _ isReader,
      fun relationship member => Analyzer.settles_analysisOf balances _ _ _ _ _ member⟩

theorem ledgerAfterAll_concat (session : Session) (analyzer : Analyzer) (ledger : Ledger)
    (calls : List Call) (call : Call) :
    session.ledgerAfterAll analyzer ledger (calls ++ [call]) =
      (session.awaitAll analyzer calls).1.ledgerAfter analyzer
        (session.ledgerAfterAll analyzer ledger calls) call := by
  induction calls generalizing session ledger with
  | nil => rfl
  | cons first calls induction => exact induction _ _

/-- After any calls, the analysis of a run that goes through has, of each file that was listed by
the last run over the whole code base or named since, and that was there then, all elements that its
last reader finds in it, or it has a diagnostic that names the file. Each of its relationships is in
the graph by its edges or is reported once, and never both. -/
theorem await_passes_over_nothing (analyzer : Analyzer) {calls : List Call} {call : Call}
    (orderly : ∀ made ∈ calls ++ [call], made.Orderly analyzer) {analysis : Analysis}
    (published :
      ((start.awaitAll analyzer calls).1.await analyzer call).2 = .run (.ok analysis)) :
    (∀ path reader,
      start.ledgerAfterAll analyzer (fun _ => none) (calls ++ [call]) path = some reader →
        analysis.Covers reader path) ∧
    ∀ relationship ∈ analysis.relationships, analysis.Settles relationship := by
  rw [List.forall_mem_append, List.forall_mem_singleton] at orderly
  have first : start.Balanced fun _ => none := ⟨idle_start, fun _ none => by cases none⟩
  rw [ledgerAfterAll_concat]
  exact (first.awaitAll orderly.1).published orderly.2 published

/-- One of three files cannot be read any more and another one is gone. -/
theorem await_passes_over_nothing_unreadable :
    let first : Workspace :=
      { scan := fun _ _ => .ok ⟨["a.ts", "b.ts", "c.ts"], ⟨[]⟩⟩
        read := fun _ => .ok ""
        holds := fun _ => true
        extract := fun _ source filePath language =>
          .ok ⟨filePath, language, Extract.contentHash source,
            [Element.sketch filePath filePath []], []⟩ }
    let second : Workspace :=
      { first with
        read := fun path => .error (.fileAccess path none)
        holds := fun path => path != "/repo/c.ts" }
    let analyzer := Move.plainAnalyzer
    let calls : List Call := [.full first "/repo" {} none]
    let call : Call := .incremental second ["b.ts", "/repo/c.ts"] {} none
    ∃ analysis,
      ((start.awaitAll analyzer calls).1.await analyzer call).2 = .run (.ok analysis) ∧
      start.ledgerAfterAll analyzer (fun _ => none) (calls ++ [call]) "c.ts" = none ∧
      analysis.Covers (Run.readerOf analyzer first "/repo") "a.ts" ∧
      ∃ diagnostic ∈ analysis.diagnostics, diagnostic.filePath = some "b.ts" := by
  intro first second analyzer calls call
  let files := ["a.ts", "b.ts", "c.ts"]
  let reader := Run.readerOf analyzer first "/repo"
  let snapshot := Snapshot.ofOutcomes "/repo" ⟨[]⟩ (files.map reader.outcome)
  let state := Analyzer.remember (analyzer.stateOf snapshot none)
  have root : Run.rootOf "/repo" = "/repo" := by decide
  have isFound : (Call.full first "/repo" {} none).find? analyzer start.shared.state =
      some (.ok ⟨snapshot, .full, none⟩) := by
    rw [find?_full rfl rfl, root]
  have isState : (start.awaitAll analyzer calls).1.shared.state = some state :=
    congrArg Memory.state (await_of_find idle_start isFound).2.1
  have isChange : call.find? analyzer (start.awaitAll analyzer calls).1.shared.state = _ :=
    isState ▸ find?_incremental rfl second ["b.ts", "/repo/c.ts"] state
  have laterIdle := idle_awaitAll idle_start analyzer calls
  obtain ⟨_, _, published⟩ := await_of_find laterIdle isChange
  have ledger : start.ledgerAfterAll analyzer (fun _ => none) (calls ++ [call]) =
      (Ledger.ofListing reader files).afterChanges (Run.readerOf analyzer second "/repo") snapshot
        ["b.ts", "/repo/c.ts"] := by
    have listed : start.ledgerAfter analyzer (fun _ => none) (.full first "/repo" {} none) =
        Ledger.ofListing (Run.readerOf analyzer first (Run.rootOf "/repo")) files :=
      ledgerAfter_of_find idle_start isFound
    rw [root] at listed
    rw [ledgerAfterAll_concat, ledgerAfter_of_find laterIdle isChange, isState]
    exact congrArg (Ledger.afterChanges · _ _ _) listed
  have unread : Run.isUnchanged second snapshot "b.ts" = false := by
    rw [Run.isUnchanged]
    split <;> rfl
  have nothing : ((Run.readerOf analyzer second "/repo").outcome "b.ts").extraction = none := by
    rw [FileReader.outcome]
    split <;> rfl
  obtain ⟨covers, -⟩ := await_passes_over_nothing analyzer
    (by simp [calls, call, Call.Orderly]) published
  rw [ledger] at covers ⊢
  refine ⟨_, published, ?_, covers "a.ts" _ ?_, ?_⟩
  · rw [Ledger.afterChanges, if_pos, if_neg]
    · decide
    · exact ⟨⟨"/repo/c.ts", by simp, by decide⟩, by decide, by decide⟩
  · rw [Ledger.afterChanges, if_neg]
    · rfl
    · decide
  · refine (covers "b.ts" (Run.readerOf analyzer second "/repo") ?_).resolve_left ?_
    · rw [Ledger.afterChanges, if_pos, if_pos, if_neg]
      · exact Bool.not_eq_true _ ▸ unread
      · decide
      · exact ⟨⟨"b.ts", by simp, by decide⟩, by decide, by decide⟩
    · rintro ⟨extraction, found, _⟩
      rw [nothing] at found
      cases found

end Session
end CodeAtlas
