import CodeAtlas.Batch.Outcome

/-!
# The progress of a batch

A batch has a task for each of its files. Tasks start, call the extractor and finish in some order,
and at some moments the batch may be aborted or its time be used up. A task that starts after the
batch was aborted leaves its file alone, and its batch is cancelled. A task that starts when the
time is used up skips its file.
-/

namespace CodeAtlas

/-- The files of a batch and what becomes of each. -/
structure Batch where
  /-- The files in the order they were given. -/
  files : List String
  /-- What becomes of a file that is looked at. -/
  outcome : String → FileOutcome
  /-- Whether the time for the batch is used up before a file is looked at. -/
  late : Bool

namespace Batch

/-- What happens during a batch. Tasks are named by the positions of their files. -/
inductive Event where
  /-- A task starts. -/
  | start (task : Nat)
  /-- A task calls the extractor. -/
  | call (task : Nat)
  /-- A task is done. -/
  | finish (task : Nat)
  /-- The batch is aborted. -/
  | abort
  /-- The time for the batch is used up. -/
  | expire
  deriving DecidableEq, Repr

/-- How far a batch is. -/
structure Progress where
  /-- Whether the batch has been aborted. -/
  aborted : Bool := false
  /-- Whether a task started after that. -/
  cancelled : Bool := false
  /-- Whether the time for the batch has been used up. -/
  late : Bool := false
  /-- The tasks that look at their files. -/
  running : List Nat := []
  /-- The tasks that have called the extractor, in order. -/
  called : List Nat := []
  /-- The outcomes of the tasks that are done. -/
  outcomes : Table Nat FileOutcome := .empty

/-- The start of a task on a file. -/
def startTask (batch : Batch) (progress : Progress) (task : Nat) (filePath : String) : Progress :=
  if progress.cancelled || progress.aborted then
    { progress with
      cancelled := true
      outcomes := progress.outcomes.put task (.untouched filePath) }
  else if batch.late || progress.late then
    { progress with outcomes := progress.outcomes.put task (.late filePath) }
  else
    { progress with running := progress.running ++ [task] }

/-- The end of a task on a file. -/
def finishTask (batch : Batch) (progress : Progress) (task : Nat) (filePath : String) :
    Progress :=
  if task ∈ progress.running then
    { progress with
      running := progress.running.erase task
      outcomes := progress.outcomes.put task (batch.outcome filePath) }
  else
    progress

/-- The progress after an event. -/
def next (batch : Batch) (progress : Progress) : Event → Progress
  | .start task =>
    match batch.files[task]? with
    | some filePath => batch.startTask progress task filePath
    | none => progress
  | .call task =>
    if task ∈ progress.running then { progress with called := progress.called ++ [task] }
    else progress
  | .finish task =>
    match batch.files[task]? with
    | some filePath => batch.finishTask progress task filePath
    | none => progress
  | .abort => { progress with aborted := true }
  | .expire => { progress with late := true }

/-- The progress after a list of events. -/
def run (batch : Batch) (progress : Progress) (events : List Event) : Progress :=
  events.foldl batch.next progress

/-- The outcomes in the order of the files, unless the batch was cancelled. -/
def result (batch : Batch) (progress : Progress) : Except AnalysisError (List FileOutcome) :=
  if progress.cancelled then
    .error (.cancelled "Analysis cancelled during extraction")
  else
    .ok (batch.files.zipIdx.map fun (filePath, task) =>
      (progress.outcomes.get? task).getD (.untouched filePath))

/-- The files for which the extractor was called, in order. -/
def calledFiles (batch : Batch) (progress : Progress) : List String :=
  progress.called.filterMap fun task => batch.files[task]?

@[simp]
theorem run_nil (batch : Batch) (progress : Progress) : batch.run progress [] = progress := rfl

@[simp]
theorem run_cons (batch : Batch) (progress : Progress) (event : Event) (events : List Event) :
    batch.run progress (event :: events) = batch.run (batch.next progress event) events := rfl

theorem run_append (batch : Batch) (progress : Progress) (first second : List Event) :
    batch.run progress (first ++ second) = batch.run (batch.run progress first) second := by
  simp [run, List.foldl_append]

end Batch
end CodeAtlas
