import CodeAtlas.Batch.Progress
import CodeAtlas.Number.Shortest

/-!
# The schedule of a batch

A limited number of tasks are in work at once, and they take turns. A task that gets as far as the
extractor calls it in the first turn after its start and needs one turn more than others. When a
task is done the next one starts in its place.
-/

namespace CodeAtlas
namespace Batch

/-- A task with what happens in the turns it still needs. -/
structure Job where
  /-- The task. -/
  task : Nat
  /-- The events of each turn. -/
  turns : List (List Event)

/-- The turns between the start and the end of every task. -/
def idleTurns : List (List Event) := List.replicate 3 []

/-- The work on a file: a task that calls the extractor, which may abort the batch, or another. -/
def jobOf (calls aborts : Bool) (task : Nat) : Job :=
  if calls then ⟨task, (if aborts then [.call task, .abort] else [.call task]) :: idleTurns⟩
  else ⟨task, idleTurns⟩

/-- The number of turns that jobs need, the last of each included. -/
def turnsLeft : List Job → Nat
  | [] => 0
  | job :: jobs => job.turns.length + 1 + turnsLeft jobs

theorem turnsLeft_append (first second : List Job) :
    turnsLeft (first ++ second) = turnsLeft first + turnsLeft second := by
  induction first with
  | nil => simp [turnsLeft]
  | cons job jobs induction =>
    simp only [List.cons_append, turnsLeft, induction]
    omega

/-- The events of jobs in work and of those that wait. Jobs in work take turns, and one that is done
makes room for the first that waits. -/
def eventsOf : (inWork waiting : List Job) → List Event
  | [], _ => []
  | ⟨task, []⟩ :: inWork, [] => .finish task :: eventsOf inWork []
  | ⟨task, []⟩ :: inWork, job :: waiting =>
    .finish task :: .start job.task :: eventsOf (inWork ++ [job]) waiting
  | ⟨task, turn :: turns⟩ :: inWork, waiting =>
    turn ++ eventsOf (inWork ++ [⟨task, turns⟩]) waiting
  termination_by inWork waiting => turnsLeft inWork + turnsLeft waiting
  decreasing_by
    all_goals simp only [turnsLeft, turnsLeft_append, List.length_cons, List.length_nil]
    all_goals omega

/-- The events of all jobs with at most `limit` of them in work at once, and at least one. -/
def schedule (limit : Nat) (jobs : List Job) : List Event :=
  let width := max 1 limit
  (jobs.take width).map (.start ·.task) ++ eventsOf (jobs.take width) (jobs.drop width)

/-- The limit for a wished number of tasks: at least one, and above that only whole numbers. -/
def limitOf? (wished : Float) : Option Nat :=
  if wished ≤ 1 then some 1
  else if Number.isWhole wished then some (Number.toNat wished)
  else none

/-- What a reader is told about a number that is no limit. -/
def limitMessage : String := "Expected \x60concurrency\x60 to be a number from 1 and up"

/-- How a batch is run. -/
structure Options where
  /-- The number of tasks in work at once. -/
  limit : Nat
  /-- Whether the batch is aborted before it starts. -/
  abortedBefore : Bool := false
  /-- The file whose extraction aborts the batch. -/
  abortOn : Option String := none
  /-- Whether the time for the batch is used up before a file is looked at. -/
  late : Bool := false

/-- The batch of files that a reader looks at. -/
def ofReader (reader : FileReader) (options : Options) (files : List String) : Batch :=
  ⟨files, reader.outcome, options.late⟩

/-- The jobs of the files that a reader looks at. -/
def jobsOf (reader : FileReader) (options : Options) (files : List String) : List Job :=
  files.zipIdx.map fun (filePath, task) =>
    jobOf (!options.late && reader.isExtracted filePath) (options.abortOn == some filePath) task

/-- What a batch leaves behind. -/
structure Ending where
  /-- The outcomes in the order of the files, or the cancellation. -/
  result : Except AnalysisError (List FileOutcome)
  /-- The files for which the extractor was called, sorted. -/
  extracted : List String

/-- Extracts files in a batch. -/
def extract (reader : FileReader) (options : Options) (files : List String) : Ending :=
  let batch := ofReader reader options files
  let progress := batch.run { aborted := options.abortedBefore }
    (schedule options.limit (jobsOf reader options files))
  ⟨batch.result progress, Text.sort (batch.calledFiles progress)⟩

end Batch
end CodeAtlas
