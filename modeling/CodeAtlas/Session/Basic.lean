import CodeAtlas.Analysis.Difference
import CodeAtlas.Session.Run

/-!
# Sessions

A session holds the analyses of one code base. Runs and labels are published one after another;
differences are read off what has been published.
-/

namespace CodeAtlas

/-- The analyses of one code base. -/
abbrev Session := Line Memory AnalysisError Analysis

/-- The outcome of giving labels. -/
structure LabelOutcome where
  /-- The analysis with labels. -/
  analysis : Analysis
  /-- The number of labels that were given. -/
  applied : Nat
  /-- The ids of elements that are not there. -/
  unknown : List String

namespace Session

/-- A session without analyses. -/
def start : Session := { shared := {} }

/-- The current analysis. -/
def current (session : Session) : Option Analysis := session.published.current

/-- The analysis before the current one. -/
def previous (session : Session) : Option Analysis := session.published.previous

/-- The result of a build. -/
def resultOf (session : Session) (ticket : Nat) : Except AnalysisError Analysis :=
  match session.answer? ticket with
  | some (.done analysis) => .ok analysis
  | some (.failed error) => .error error
  | some (.broken message) => .error (.general .configuration message)
  | none => .error (.cancelled AnalysisError.cancelledMessage)

/-- Publishes a build and gives its result. -/
def perform (session : Session) (build : AnalysisBuild) : Session × Except AnalysisError Analysis :=
  let next := session.publish build
  (next, resultOf next session.issued)

/-- Runs over a whole code base. -/
def runFull (session : Session) (analyzer : Analyzer) (workspace : Workspace) (rootPath : String)
    (options : RunOptions) : Session × Except AnalysisError Analysis :=
  session.perform (Run.full analyzer workspace rootPath options)

/-- Runs over files that may have changed. -/
def runIncremental (session : Session) (analyzer : Analyzer) (workspace : Workspace)
    (files : List String) (options : RunOptions) : Session × Except AnalysisError Analysis :=
  session.perform (Run.incremental analyzer workspace files options)

/-- The files for which a run over changes calls the extractor, sorted. -/
def extractedBy (session : Session) (analyzer : Analyzer) (workspace : Workspace)
    (files : List String) (options : RunOptions) : List String :=
  match session.shared.state with
  | some state => (Run.extractChanges analyzer workspace state.snapshot files options).extracted
  | none => []

/-- Gives labels that have been read. -/
def giveLabels (session : Session) (analyzer : Analyzer) (requests : List LabelRequest) :
    Session × Except AnalysisError LabelOutcome :=
  let (next, result) := session.perform (Run.applyLabels analyzer requests)
  (next, result.map fun analysis =>
    let (known, unknown) := Run.splitRequests analysis requests
    ⟨analysis, known.length, unknown⟩)

/-- Reads labels and gives them. Labels that cannot be read change nothing. -/
def applyLabels (session : Session) (analyzer : Analyzer) (input : Option Json) :
    Session × Except AnalysisError LabelOutcome :=
  match (LabelRequest.readAll input).result with
  | .error issues =>
    (session, .error (.configuration "Invalid labels" (issues.map Schema.Issue.located)))
  | .ok requests => session.giveLabels analyzer requests

/-- How an analysis differs from another. The second one is the current one unless it is given, and
only then the first one is the one before. -/
def difference (session : Session) (earlier later : Option Analysis) :
    Except AnalysisError Difference :=
  match later.or session.current with
  | none => .error (.configuration "No analysis to compare; run a full analysis first" [])
  | some analysis =>
    let before := earlier.or (if later.isSome then none else session.previous)
    .ok (Difference.between before analysis)

end Session
end CodeAtlas
