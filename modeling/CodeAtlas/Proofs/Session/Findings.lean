import CodeAtlas.Proofs.Session.Failure

/-!
# What runs find

A run first finds out what the files declare, and then makes an analysis of that. What it finds
depends on the files and on what the last run left, but neither on labels nor on the clock, on
versions or on the analysis that is current.
-/

namespace CodeAtlas
namespace Run

/-- What a run knows before it makes its analysis. -/
structure Findings where
  /-- What the files declare. -/
  snapshot : Snapshot
  /-- How the analysis comes about. -/
  mode : AnalysisMode
  /-- The earlier run and what has changed since. -/
  reuse : Option Reuse

/-- What a run over a whole code base finds. -/
def findAll (course : Course) (analyzer : Analyzer) (workspace : Workspace) (rootPath : String)
    (options : RunOptions) : Except AnalysisError Findings := do
  let root := rootOf rootPath
  let configuration := analyzer.configuration
  let listing ← workspace.scan root ⟨configuration.ignorePatterns, configuration.respectGitignore⟩
  let outcomes ← extractAlong course analyzer workspace root options listing.files
  pure ⟨.ofOutcomes root listing.rules outcomes, .full, none⟩

/-- The files that a run over changes has looked at or missed. -/
def touchedBy (workspace : Workspace) (state : RunState) (files : List String)
    (outcomes : List FileOutcome) : List String :=
  (plan workspace state.snapshot files).removed ++ outcomes.map FileOutcome.filePath

/-- What follows from what became of changed files. -/
def findingsAfter (workspace : Workspace) (state : RunState) (files : List String)
    (outcomes : List FileOutcome) : Findings :=
  let touched := touchedBy workspace state files outcomes
  let found := outcomes.flatMap fun outcome =>
    (outcome.extraction.map FileExtraction.elements).getD []
  ⟨outcomes.foldl Snapshot.add (touched.foldl Snapshot.remove state.snapshot), .incremental,
    some ⟨state, touched, distinct (idsIn state.snapshot touched ++ found.map Element.id)⟩⟩

/-- What a run over files that may have changed finds, given what the last run left. -/
def findChanges (course : Course) (analyzer : Analyzer) (workspace : Workspace)
    (files : List String) (options : RunOptions) :
    Option RunState → Except AnalysisError Findings
  | none => .error (.configuration "No previous analysis; run a full analysis first" [])
  | some state => do
    let outcomes ← extractAlong course analyzer workspace state.snapshot.root options
      (plan workspace state.snapshot files).toExtract
    pure (findingsAfter workspace state files outcomes)

/-- Ends a run with what it has found. -/
def endWith (analyzer : Analyzer) (version : Nat) (memory : Memory) :
    Except AnalysisError Findings → Built AnalysisError Analysis × Memory
  | .error error => (.failed error, memory)
  | .ok found => conclude analyzer memory found.snapshot found.mode version found.reuse

theorem fullAlong_eq (course : Course) (analyzer : Analyzer) (workspace : Workspace)
    (rootPath : String) (options : RunOptions) (version : Nat) (current : Option Analysis)
    (memory : Memory) :
    fullAlong course analyzer workspace rootPath options version current memory =
      endWith analyzer version memory
        (findAll course analyzer workspace rootPath options) := by
  rw [fullAlong, findAll]
  cases workspace.scan (rootOf rootPath)
    ⟨analyzer.configuration.ignorePatterns, analyzer.configuration.respectGitignore⟩ with
  | error error => rfl
  | ok listing =>
    change _ = endWith analyzer version memory
      (extractAlong course analyzer workspace (rootOf rootPath) options listing.files >>= _)
    dsimp only
    cases extractAlong course analyzer workspace (rootOf rootPath) options listing.files <;> rfl

theorem incrementalAlong_eq (course : Course) (analyzer : Analyzer) (workspace : Workspace)
    (files : List String) (options : RunOptions) (version : Nat) (current : Option Analysis)
    (memory : Memory) :
    incrementalAlong course analyzer workspace files options version current memory =
      endWith analyzer version memory
        (findChanges course analyzer workspace files options memory.state) := by
  rw [incrementalAlong]
  cases memory.state with
  | none => rfl
  | some state =>
    rw [findChanges]
    dsimp only
    cases extractAlong course analyzer workspace state.snapshot.root options
      (plan workspace state.snapshot files).toExtract <;> rfl

theorem extractAlong_turns {analyzer : Analyzer}
    (unhurried : analyzer.configuration.timeBudget = none) (workspace : Workspace) (root : String)
    (files : List String) :
    extractAlong (turns analyzer {}) analyzer workspace root {} files =
      .ok (files.map (readerOf analyzer workspace root).outcome) := by
  rw [← extract_eq_extractAlong]
  exact Batch.result_extract _ _ _ rfl rfl (by simp [batchOptions, unhurried])

end Run

namespace Session

/-- What a call finds if it asks for a run, given what the last run left. -/
def Call.find? (analyzer : Analyzer) (last : Option RunState) :
    Call → Option (Except AnalysisError Run.Findings)
  | .full workspace rootPath options course =>
    some (Run.findAll (course.getD (Run.turns analyzer options)) analyzer workspace rootPath
      options)
  | .incremental workspace files options course =>
    some (Run.findChanges (course.getD (Run.turns analyzer options)) analyzer workspace files
      options last)
  | .labels _ => none

/-- A run over a whole code base that nothing disturbs finds what became of each file. -/
theorem find?_full {analyzer : Analyzer} (unhurried : analyzer.configuration.timeBudget = none)
    {workspace : Workspace} {rootPath : String} {listing : Listing}
    (isListing : workspace.scan (Run.rootOf rootPath) ⟨analyzer.configuration.ignorePatterns,
      analyzer.configuration.respectGitignore⟩ = .ok listing) (last : Option RunState) :
    (Call.full workspace rootPath {} none).find? analyzer last =
      some (.ok ⟨.ofOutcomes (Run.rootOf rootPath) listing.rules (listing.files.map
        (Run.readerOf analyzer workspace (Run.rootOf rootPath)).outcome), .full, none⟩) := by
  rw [Call.find?, Run.findAll, isListing]
  change some (Run.extractAlong (Run.turns analyzer {}) _ _ _ {} listing.files >>= _) = _
  rw [Run.extractAlong_turns unhurried]
  rfl

theorem find?_incremental {analyzer : Analyzer}
    (unhurried : analyzer.configuration.timeBudget = none) (workspace : Workspace)
    (files : List String) (state : RunState) :
    (Call.incremental workspace files {} none).find? analyzer (some state) =
      some (.ok (Run.findingsAfter workspace state files
        ((Run.plan workspace state.snapshot files).toExtract.map
          (Run.readerOf analyzer workspace state.snapshot.root).outcome))) := by
  rw [Call.find?, Run.findChanges]
  change some (Run.extractAlong (Run.turns analyzer {}) _ _ _ {} _ >>= _) = _
  rw [Run.extractAlong_turns unhurried]
  rfl

/-- In an idle session a run ends with what it finds. -/
theorem await_of_find {session : Session} {analyzer : Analyzer} (idle : session.Idle) {call : Call}
    {found : Except AnalysisError Run.Findings}
    (isFound : call.find? analyzer session.shared.state = some found) :
    let ended := Run.endWith analyzer (session.published.version + 1) session.shared found
    (session.await analyzer call).1.published = session.published.after ended.1 ∧
      (session.await analyzer call).1.shared = ended.2 ∧
      (session.await analyzer call).2 = .run (told ended.1) := by
  have performed {order : Order} (isOrder : call.order analyzer = .ok order)
      (told_eq : order.tell = .run)
      (attempt_eq : session.attempt order.build =
        Run.endWith analyzer (session.published.version + 1) session.shared found) :
      let ended := Run.endWith analyzer (session.published.version + 1) session.shared found
      (session.await analyzer call).1.published = session.published.after ended.1 ∧
        (session.await analyzer call).1.shared = ended.2 ∧
        (session.await analyzer call).2 = .run (told ended.1) := by
    obtain ⟨published, shared, result⟩ := perform_of_idle idle order.build
    rw [attempt_eq] at published shared result
    rw [await_of_order isOrder]
    exact ⟨published, shared, by rw [Prod.map_snd, result, told_eq]⟩
  cases call with
  | full workspace rootPath options course =>
    cases isFound
    exact performed rfl rfl (Run.fullAlong_eq _ _ _ _ _ _ session.published.current _)
  | incremental workspace files options course =>
    cases isFound
    exact performed rfl rfl (Run.incrementalAlong_eq _ _ _ _ _ _ session.published.current _)
  | labels input => cases isFound

end Session
end CodeAtlas
