import CodeAtlas.Proofs.Publication.Turns
import CodeAtlas.Proofs.Session.History

/-!
# Calls on a session

Runs and labels may be asked for at any moment, before earlier ones have been answered. Once
everything has ended, the session and all replies are those that come of waiting for each reply
before the next call.
-/

namespace CodeAtlas

/-! ## Runs along any course of events -/

/-- What happens while files are extracted, given who looks at which files. -/
abbrev Course := FileReader → List String → List Batch.Event

namespace Run

/-- Extracts files along a course of events. -/
def extractAlong (course : Course) (analyzer : Analyzer) (workspace : Workspace) (root : String)
    (options : RunOptions) (files : List String) : Except AnalysisError (List FileOutcome) :=
  let reader := readerOf analyzer workspace root
  let settings := batchOptions analyzer options
  let batch := Batch.ofReader reader settings files
  batch.result (batch.run { aborted := settings.abortedBefore } (course reader files))

/-- A run over a whole code base that extracts files along a course of events. -/
def fullAlong (course : Course) (analyzer : Analyzer) (workspace : Workspace) (rootPath : String)
    (options : RunOptions) : AnalysisBuild := fun version _ memory =>
  let root := rootOf rootPath
  let configuration := analyzer.configuration
  match workspace.scan root ⟨configuration.ignorePatterns, configuration.respectGitignore⟩ with
  | .error error => (.failed error, memory)
  | .ok listing =>
    match extractAlong course analyzer workspace root options listing.files with
    | .error error => (.failed error, memory)
    | .ok outcomes =>
      conclude analyzer memory (.ofOutcomes root listing.rules outcomes) .full version none

/-- A run over files that may have changed that extracts files along a course of events. -/
def incrementalAlong (course : Course) (analyzer : Analyzer) (workspace : Workspace)
    (files : List String) (options : RunOptions) : AnalysisBuild := fun version _ memory =>
  match memory.state with
  | none =>
    (.failed (.configuration "No previous analysis; run a full analysis first" []), memory)
  | some state =>
    match extractAlong course analyzer workspace state.snapshot.root options
      (plan workspace state.snapshot files).toExtract with
    | .error error => (.failed error, memory)
    | .ok outcomes =>
      let touched := (plan workspace state.snapshot files).removed
        ++ outcomes.map FileOutcome.filePath
      let snapshot := outcomes.foldl Snapshot.add (touched.foldl Snapshot.remove state.snapshot)
      let found := outcomes.flatMap fun outcome =>
        (outcome.extraction.map FileExtraction.elements).getD []
      let changedIds := distinct (idsIn state.snapshot touched ++ found.map Element.id)
      conclude analyzer memory snapshot .incremental version
        (some ⟨state, touched, changedIds⟩)

/-- The course that tasks take when they take turns. -/
def turns (analyzer : Analyzer) (options : RunOptions) : Course := fun reader files =>
  let settings := batchOptions analyzer options
  Batch.schedule settings.limit (Batch.jobsOf reader settings files)

theorem extract_eq_extractAlong (analyzer : Analyzer) (workspace : Workspace) (root : String)
    (options : RunOptions) (files : List String) :
    (extract analyzer workspace root options files).result =
      extractAlong (turns analyzer options) analyzer workspace root options files := by
  rw [extract, Batch.extract, extractAlong, turns]

theorem full_eq_fullAlong (analyzer : Analyzer) (workspace : Workspace) (rootPath : String)
    (options : RunOptions) : full analyzer workspace rootPath options =
      fullAlong (turns analyzer options) analyzer workspace rootPath options := by
  funext version current memory
  rw [full, fullAlong]
  cases workspace.scan (rootOf rootPath)
    ⟨analyzer.configuration.ignorePatterns, analyzer.configuration.respectGitignore⟩ with
  | error error => rfl
  | ok listing =>
    have along := extract_eq_extractAlong analyzer workspace (rootOf rootPath) options listing.files
    dsimp only
    generalize extractAlong (turns analyzer options) analyzer workspace (rootOf rootPath) options
      listing.files = ended at along ⊢
    subst along
    rfl

theorem incremental_eq_incrementalAlong (analyzer : Analyzer) (workspace : Workspace)
    (files : List String) (options : RunOptions) : incremental analyzer workspace files options =
      incrementalAlong (turns analyzer options) analyzer workspace files options := by
  funext version current memory
  rw [incremental, incrementalAlong]
  cases memory.state with
  | none => rfl
  | some state =>
    have along := extract_eq_extractAlong analyzer workspace state.snapshot.root options
      (plan workspace state.snapshot files).toExtract
    dsimp only
    generalize extractAlong (turns analyzer options) analyzer workspace state.snapshot.root options
      (plan workspace state.snapshot files).toExtract = ended at along ⊢
    subst along
    rfl

end Run

namespace Session

/-! ## Calls and replies -/

/-- What can be asked of a session. -/
inductive Call where
  /-- A run over a whole code base, along a course of events if one is given. -/
  | full (workspace : Workspace) (rootPath : String) (options : RunOptions)
    (course : Option Course)
  /-- A run over files that may have changed, along a course of events if one is given. -/
  | incremental (workspace : Workspace) (files : List String) (options : RunOptions)
    (course : Option Course)
  /-- Labels. -/
  | labels (input : Option Json)

/-- What a caller is told. -/
inductive Reply where
  /-- What became of a run. -/
  | run (result : Except AnalysisError Analysis)
  /-- What became of labels. -/
  | labels (result : Except AnalysisError LabelOutcome)

/-- The error that a caller is told. -/
def Reply.error? : Reply → Option AnalysisError
  | .run (.error error) => some error
  | .run (.ok _) => none
  | .labels (.error error) => some error
  | .labels (.ok _) => none

/-- Makes a call and waits for the reply. -/
def await (session : Session) (analyzer : Analyzer) : Call → Session × Reply
  | .full workspace rootPath options none =>
    Prod.map id .run (session.runFull analyzer workspace rootPath options)
  | .full workspace rootPath options (some course) =>
    Prod.map id .run (session.perform (Run.fullAlong course analyzer workspace rootPath options))
  | .incremental workspace files options none =>
    Prod.map id .run (session.runIncremental analyzer workspace files options)
  | .incremental workspace files options (some course) =>
    Prod.map id .run
      (session.perform (Run.incrementalAlong course analyzer workspace files options))
  | .labels input => Prod.map id .labels (session.applyLabels analyzer input)

/-- Makes calls, waiting for each reply before the next call. -/
def awaitAll (session : Session) (analyzer : Analyzer) : List Call → Session × List Reply
  | [] => (session, [])
  | call :: calls =>
    let (next, reply) := session.await analyzer call
    let (last, replies) := next.awaitAll analyzer calls
    (last, reply :: replies)

/-- What a call requests: a build, and what the caller is told of its result. -/
structure Order where
  /-- The build. -/
  build : AnalysisBuild
  /-- What the caller is told. -/
  tell : Except AnalysisError Analysis → Reply

/-- What a call requests, or the reply to a call that is refused at once. -/
def Call.order (call : Call) (analyzer : Analyzer) : Except Reply Order :=
  match call with
  | .full workspace rootPath options course =>
    let course := course.getD (Run.turns analyzer options)
    .ok ⟨Run.fullAlong course analyzer workspace rootPath options, .run⟩
  | .incremental workspace files options course =>
    let course := course.getD (Run.turns analyzer options)
    .ok ⟨Run.incrementalAlong course analyzer workspace files options, .run⟩
  | .labels input =>
    match (LabelRequest.readAll input).result with
    | .error issues =>
      .error (.labels (.error (.configuration "Invalid labels" (issues.map Schema.Issue.located))))
    | .ok requests =>
      .ok ⟨Run.applyLabels analyzer requests, fun result => .labels (result.map fun analysis =>
        let (known, unknown) := Run.splitRequests analysis requests
        ⟨analysis, known.length, unknown⟩)⟩

/-- Makes a call without waiting. The reply can be read off the session once the build of the call
has ended. -/
def ask (session : Session) (analyzer : Analyzer) (call : Call) : Session × (Session → Reply) :=
  match call.order analyzer with
  | .error reply => (session, fun _ => reply)
  | .ok order =>
    (session.request order.build, fun later => order.tell (later.resultOf session.issued))

/-- What can happen to a session. -/
inductive Moment where
  /-- A call is made. -/
  | call (call : Call)
  /-- The build of a request begins, if it waits and has its turn. -/
  | start (ticket : Nat)
  /-- The build of a request ends, if it is running. -/
  | finish (ticket : Nat)

/-- The calls that are made, in order. -/
def calls : List Moment → List Call
  | [] => []
  | .call call :: moments => call :: calls moments
  | .start _ :: moments => calls moments
  | .finish _ :: moments => calls moments

/-- The session after some moments, and how to read the replies off a later session. -/
def live (session : Session) (analyzer : Analyzer) :
    List Moment → Session × List (Session → Reply)
  | [] => (session, [])
  | .call call :: moments =>
    let (asked, told) := session.ask analyzer call
    let (last, others) := asked.live analyzer moments
    (last, told :: others)
  | .start ticket :: moments => live (Line.start session ticket) analyzer moments
  | .finish ticket :: moments => live (Line.finish session ticket) analyzer moments

/-- The session after some moments once all builds have ended, and the replies then. -/
def outcome (session : Session) (analyzer : Analyzer) (moments : List Moment) :
    Session × List Reply :=
  let (last, told) := session.live analyzer moments
  (last.settle, told.map (· last.settle))

/-! ## Waiting makes no difference -/

variable {session : Session} {analyzer : Analyzer}

theorem awaitAll_cons (session : Session) (analyzer : Analyzer) (call : Call)
    (calls : List Call) : session.awaitAll analyzer (call :: calls) =
      (((session.await analyzer call).1.awaitAll analyzer calls).1,
        (session.await analyzer call).2 ::
          ((session.await analyzer call).1.awaitAll analyzer calls).2) := rfl

theorem await_of_order {call : Call} {order : Order} (isOrder : call.order analyzer = .ok order)
    (session : Session) :
    session.await analyzer call = Prod.map id order.tell (session.perform order.build) := by
  cases call with
  | full workspace rootPath options course =>
    cases isOrder
    cases course with
    | none =>
      rw [await, runFull, Run.full_eq_fullAlong]
      rfl
    | some course => rfl
  | incremental workspace files options course =>
    cases isOrder
    cases course with
    | none =>
      rw [await, runIncremental, Run.incremental_eq_incrementalAlong]
      rfl
    | some course => rfl
  | labels input =>
    rw [Call.order] at isOrder
    rw [await, applyLabels]
    cases read : (LabelRequest.readAll input).result with
    | error issues =>
      rw [read] at isOrder
      cases isOrder
    | ok requests =>
      rw [read] at isOrder
      cases isOrder
      rfl

/-- A call that is refused at once leaves the session alone. -/
theorem await_of_refused {call : Call} {reply : Reply}
    (refused : call.order analyzer = .error reply) (session : Session) :
    session.await analyzer call = (session, reply) := by
  cases call with
  | full workspace rootPath options course => cases refused
  | incremental workspace files options course => cases refused
  | labels input =>
    rw [Call.order] at refused
    rw [await, applyLabels]
    cases read : (LabelRequest.readAll input).result with
    | error issues =>
      rw [read] at refused
      cases refused
      rfl
    | ok requests =>
      rw [read] at refused
      cases refused

theorem idle_await (idle : session.Idle) (analyzer : Analyzer) (call : Call) :
    (session.await analyzer call).1.Idle := by
  cases isOrder : call.order analyzer with
  | error reply => rwa [await_of_refused isOrder]
  | ok order =>
    rw [await_of_order isOrder]
    exact session.idle_perform order.build

theorem answer?_await (idle : session.Idle) (analyzer : Analyzer) (call : Call) :
    session.issued ≤ (session.await analyzer call).1.issued ∧
      ∀ ticket < session.issued,
        (session.await analyzer call).1.answer? ticket = session.answer? ticket := by
  cases isOrder : call.order analyzer with
  | error reply =>
    rw [await_of_refused isOrder]
    exact ⟨Nat.le_refl _, fun _ _ => rfl⟩
  | ok order =>
    rw [await_of_order isOrder, Prod.map_fst, id, perform, idle.publish order.build]
    refine ⟨?_, fun ticket earlier => idle.answer?_carryOut_of_lt order.build earlier⟩
    rw [idle.issued_carryOut order.build]
    exact Nat.le_succ _

theorem answer?_awaitAll (idle : session.Idle) (calls : List Call) {ticket : Nat}
    (earlier : ticket < session.issued) :
    (session.awaitAll analyzer calls).1.answer? ticket = session.answer? ticket := by
  induction calls generalizing session with
  | nil => rfl
  | cons call calls induction =>
    obtain ⟨issued, answers⟩ := answer?_await idle analyzer call
    rw [awaitAll]
    exact (induction (idle_await idle analyzer call) (Nat.lt_of_lt_of_le earlier issued)).trans
      (answers ticket earlier)

/-- Settling a session after a call is waiting for the reply in the settled session. -/
theorem settle_ask (session : Session) (analyzer : Analyzer) (call : Call) :
    (session.ask analyzer call).1.settle = (await session.settle analyzer call).1 := by
  cases isOrder : call.order analyzer with
  | error reply => rw [await_of_refused isOrder, ask, isOrder]
  | ok order =>
    rw [await_of_order isOrder, ask, isOrder]
    exact Line.settle_request session order.build

/-- The reply to a call is the one that comes of waiting, whatever is called later. -/
theorem told_ask (session : Session) (analyzer : Analyzer) (call : Call) (later : List Call) :
    (session.ask analyzer call).2
        (awaitAll (await session.settle analyzer call).1 analyzer later).1 =
      (await session.settle analyzer call).2 := by
  have idle := Line.idle_settle session
  have nextIdle := idle_await idle analyzer call
  cases isOrder : call.order analyzer with
  | error reply => rw [await_of_refused isOrder, ask, isOrder]
  | ok order =>
    rw [await_of_order isOrder, Prod.map_fst, id] at nextIdle ⊢
    -- The number of the call is below all later ones, so its answer stays.
    have issued : session.issued < (perform session.settle order.build).1.issued := by
      rw [perform, idle.publish, idle.issued_carryOut, Line.issued_settle]
      exact Nat.lt_succ_self _
    rw [Prod.map_snd, ask, isOrder]
    dsimp only
    rw [resultOf, answer?_awaitAll nextIdle later issued, ← Line.issued_settle session]
    rfl

/-- Once all builds have ended, it makes no difference when they began and ended. -/
theorem outcome_eq_awaitAll (session : Session) (analyzer : Analyzer) (moments : List Moment) :
    session.outcome analyzer moments = awaitAll session.settle analyzer (calls moments) := by
  induction moments generalizing session with
  | nil => rfl
  | cons moment moments induction =>
    cases moment with
    | start ticket =>
      have later := induction (Line.start session ticket)
      rwa [Line.settle_start] at later
    | finish ticket =>
      have later := induction (Line.finish session ticket)
      rwa [Line.settle_finish] at later
    | call call =>
      have later := induction (session.ask analyzer call).1
      rw [settle_ask] at later
      have told := told_ask session analyzer call (calls moments)
      rw [← later] at told
      rw [calls, awaitAll_cons, ← later, ← told]
      rfl

/-- Calls on an idle session that are made without waiting come to the same as calls that wait for
each reply. -/
theorem outcome_of_idle (idle : session.Idle) (analyzer : Analyzer) (moments : List Moment) :
    session.outcome analyzer moments = session.awaitAll analyzer (calls moments) := by
  rw [outcome_eq_awaitAll, Line.settle_of_idle idle]

/-- Builds are carried out in the order of their requests, one at a time, whatever the order of
events, and calls come to the same whether or not they wait. -/
theorem outcome_inTurn {σ ε ρ : Type} [Versioned ρ] (shared : σ)
    (events : List (Line.Event σ ε ρ))
    (honest : ∀ build ∈ Line.requested events, Build.Honest build) {session : Session}
    (idle : session.Idle) (analyzer : Analyzer) (moments : List Moment) :
    (∃ ended pending, ended ++ pending = Line.requested events ∧
      (Line.follow { shared := shared } events).Shows (.ofBuilds shared ended) pending) ∧
    (Line.follow { shared := shared } events).settle.Shows
      (.ofBuilds shared (Line.requested events)) [] ∧
    session.outcome analyzer moments = session.awaitAll analyzer (calls moments) := by
  exact ⟨Line.shows_follow shared events honest, Line.shows_settle_follow shared events honest,
    outcome_of_idle idle analyzer moments⟩

/-- A build breaks while others wait, and labels are given before the run that they need has
begun. -/
theorem outcome_inTurn_broken :
    let _ : Versioned Nat := ⟨id⟩
    let build : Build Nat String Nat := fun version _ shared => (.done version, shared + 1)
    let broken : Build Nat String Nat := fun _ _ shared => (.broken "lost", shared)
    let events : List (Line.Event Nat String Nat) := [.request build, .start 0, .request broken,
      .request build, .finish 0, .start 1, .finish 1, .start 2]
    let label := Json.obj [("elementId", .str "main"), ("label", .str "entry"),
      ("confidence", .num 1)]
    let workspace := (Move.before "s3").workspace
    let moments := [.call (.full workspace "/repo" {} none), .call (.labels (some (.arr [label]))),
      .start 0, .call (.incremental workspace ["a.ts"] { cancelled := true } none), .finish 0]
    (∀ build ∈ Line.requested events, Build.Honest build) ∧ start.Idle ∧
    (Line.follow { shared := 0 } events).settle.published.current = some 2 ∧
    (Line.follow { shared := 0 } events).settle.published.previous = some 1 ∧
    start.outcome Move.plainAnalyzer moments =
      start.awaitAll Move.plainAnalyzer (calls moments) := by
  intro _ build broken events label workspace moments
  have honest : ∀ build ∈ Line.requested events, Build.Honest build := by
    have all : Line.requested events = [build, broken, build] := rfl
    intro requested member version current shared result done
    rw [all] at member
    simp only [List.mem_cons, List.not_mem_nil, or_false] at member
    rcases member with rfl | rfl | rfl <;> cases done
    · rfl
    · rfl
  obtain ⟨-, shows, same⟩ := outcome_inTurn 0 events honest idle_start Move.plainAnalyzer moments
  exact ⟨honest, idle_start, shows.current, shows.previous, same⟩

end Session
end CodeAtlas
