import CodeAtlas.Analysis.Report
import CodeAtlas.Session.Basic
import CodeAtlas.Tool.Response

/-!
# Tools

A tool is a request with checked arguments. It runs on a session and answers with a text and the
facts behind it.
-/

namespace CodeAtlas
namespace Tool

/-- A request to a session. -/
inductive Request where
  /-- Analyses a code base, with a time for extraction in milliseconds. -/
  | analyzeCodebase (rootPath : String) (timeBudget : Option Float)
  /-- Analyses changes. -/
  | analyzeChanges (files : List String)
  /-- Asks for the metrics. -/
  | getMetrics
  /-- Asks for the boundaries, or for those of one kind. -/
  | getBoundaries (kind : Option BoundaryKind)
  /-- Asks for an element. -/
  | getElement (id : String)
  /-- Asks what has changed. -/
  | getChanges
  /-- Gives labels. -/
  | applyLabels (labels : List LabelRequest)

namespace Request

open Schema

/-- Reads the arguments of the tool with a name. -/
def reader? (name : String) : Option (Reader Request) :=
  match name with
  | "analyze_codebase" => some <| object fun members =>
    analyzeCodebase <$> member members "root_path" someText
      <*> member members "time_budget_ms" (optional Configuration.readPositive)
  | "analyze_changes" => some <| object fun members =>
    analyzeChanges <$> member members "changed_files" (list text)
  | "get_metrics" => some <| object fun _ => .accept getMetrics
  | "get_boundaries" => some <| object fun members =>
    getBoundaries <$> member members "type"
      (optional (choice (BoundaryKind.all.map fun kind => (kind.name, kind))))
  | "get_element" => some <| object fun members =>
    getElement <$> member members "element_id" someText
  | "get_changes" => some <| object fun _ => .accept getChanges
  | "apply_labels" => some <| object fun members =>
    applyLabels <$> member members "labels" LabelRequest.readAll
  | _ => none

end Request

/-- What a reader is told when there is no analysis to ask. -/
def noAnalysis : String := "No analysis yet. Call analyze_codebase first."

/-- The answer to a request that may have failed. -/
def respond {β : Type} (result : Except AnalysisError β) (answer : β → Response) : Response :=
  match result with
  | .ok value => answer value
  | .error error => .failure error.message

/-- The answer from the current analysis. -/
def ask (session : Session) (answer : Analysis → Response) : Response :=
  match session.current with
  | some analysis => answer analysis
  | none => .failure noAnalysis

/-- The counts of an analysis. -/
def counts (analysis : Analysis) : List (String × Json) :=
  [("version", .nat analysis.version), ("elements", .nat analysis.elements.length),
   ("relationships", .nat analysis.relationships.length),
   ("boundaries", .nat analysis.boundaries.length)]

/-- The answer with the metrics. -/
def metricsResponse (analysis : Analysis) : Response :=
  let metrics := analysis.metrics
  .success (Report.metrics metrics)
    [("version", .nat analysis.version), ("summary", metrics.summary.toJson),
     ("size", metrics.size.toJson),
     ("thresholds", .arr (metrics.thresholds.map ThresholdCheck.toJson)),
     ("cycles", .arr (metrics.cycles.map CycleGroup.toJson))]

/-- The answer with boundaries. -/
def boundariesResponse (kind : Option BoundaryKind) (analysis : Analysis) : Response :=
  let chosen := match kind with
    | some kind => analysis.boundaries.filter (·.kind = kind)
    | none => analysis.boundaries
  .success (Report.boundaries chosen)
    [("version", .nat analysis.version), ("boundaries", .arr (chosen.map Boundary.toJson)),
     ("unassigned", .nat analysis.unassigned.length)]

/-- The answer with an element. -/
def elementResponse (id : String) (analysis : Analysis) : Response :=
  match Report.element? analysis id with
  | some text =>
    .success text
      [("elementId", .str id),
       ("metrics", ((analysis.graph.metrics? id).map NodeMetrics.toJson).getD (.obj []))]
  | none => .failure ("Element not found: " ++ id)

/-- The answer to giving labels. -/
def labelsResponse (outcome : LabelOutcome) : Response :=
  let applied := outcome.applied
  let version := outcome.analysis.version
  .success (s!"Applied {applied} label(s) in v{version}"
      ++ (if outcome.unknown.isEmpty then ""
        else "; unknown element(s): " ++ Text.join ", " outcome.unknown))
    [("version", .nat version), ("applied", .nat applied), ("unknown", .texts outcome.unknown)]

/-- Answers a request. -/
def Request.perform (request : Request) (session : Session) (analyzer : Analyzer)
    (workspace : Workspace) : Session × Response :=
  match request with
  | analyzeCodebase rootPath timeBudget =>
    let (next, result) :=
      session.runFull analyzer workspace rootPath { timeBudget := timeBudget }
    (next, respond result fun analysis => .success (Report.analysis analysis)
      (counts analysis ++ [("diagnostics", .nat analysis.diagnostics.length)]))
  | analyzeChanges files =>
    let (next, result) := session.runIncremental analyzer workspace files {}
    (next, respond result fun analysis => .success (Report.analysis analysis) (counts analysis))
  | getMetrics => (session, ask session metricsResponse)
  | getBoundaries kind => (session, ask session (boundariesResponse kind))
  | getElement id => (session, ask session (elementResponse id))
  | getChanges =>
    (session, respond (session.difference none none) fun difference =>
      .success (Report.difference difference) difference.members)
  | applyLabels labels =>
    let (next, result) := session.giveLabels analyzer labels
    (next, respond result labelsResponse)

end Tool
end CodeAtlas
