import CodeAtlas.Proofs.Batch.Limiter
import CodeAtlas.Proofs.Table
import Mathlib.Data.List.Forall2
import Mathlib.Data.List.Induction

/-!
# Batches along any course

Along every course of events that a limiter allows, a batch comes to one outcome for each file, in
the order of the files, unless a task starts after the batch was aborted. Such a task leaves its
file alone: neither the file nor the extractor has any part in what becomes of the batch.
-/

namespace CodeAtlas
namespace Batch

variable {batch : Batch} {queue later : Queue} {progress : Progress} {width : Nat}

/-! ## What becomes of tasks -/

/-- What may become of a file: its own outcome or, once the time is used up, that it was skipped. -/
def Allows (batch : Batch) (progress : Progress) (filePath : String) (outcome : FileOutcome) :
    Prop :=
  outcome = batch.outcome filePath ∨
    (batch.late || progress.late) = true ∧ outcome = .late filePath

/-- A queue keeps up with the progress of a batch: the tasks that look at their files are in work,
and unless the batch was cancelled all others that have started have an outcome. -/
structure Keeps (batch : Batch) (queue : Queue) (progress : Progress) : Prop where
  /-- Tasks are distinct. -/
  distinct : queue.Distinct
  /-- Each task has a file. -/
  hasFile : ∀ task ∈ queue.inWork ++ queue.waiting, task < batch.files.length
  /-- Tasks that look at their files are in work. -/
  working : progress.running ⊆ queue.inWork
  /-- A task looks at its file once. -/
  nodup : progress.running.Nodup
  /-- All other tasks that have started have an outcome. -/
  outcomes : progress.cancelled = false → ∀ task filePath, batch.files[task]? = some filePath →
    task ∉ queue.waiting → task ∉ progress.running →
      ∃ outcome, progress.outcomes.get? task = some outcome ∧
        batch.Allows progress filePath outcome

theorem keeps_ofCount (batch : Batch) (aborted : Bool) :
    Keeps batch (.ofCount batch.files.length) { aborted := aborted } where
  distinct := Queue.distinct_ofCount _
  hasFile _ member := List.mem_range.mp member
  working := List.Subset.refl []
  nodup := List.nodup_nil
  outcomes _ _ _ isFile started _ :=
    absurd (List.mem_range.mpr (List.getElem?_eq_some_iff.mp isFile).1) started

theorem Keeps.start {task : Nat} (keeps : Keeps batch queue progress)
    (isNext : queue.next? width (.start task) = some later) :
    Keeps batch later (batch.next progress (.start task)) := by
  have distinct := keeps.distinct.next isNext
  obtain ⟨waiting, _, inWork⟩ := Queue.next?_start.mp isNext
  have fresh : task ∉ progress.running := by
    intro isRunning
    have disjoint := (List.nodup_append.mp keeps.distinct).2.2
    exact disjoint task (keeps.working isRunning) task (waiting ▸ List.mem_cons_self) rfl
  have hasFile : ∀ task ∈ later.inWork ++ later.waiting, task < batch.files.length := by
    have same : later.inWork ++ later.waiting = queue.inWork ++ queue.waiting := by
      rw [inWork, waiting, List.append_assoc, List.singleton_append]
    rw [same]
    exact keeps.hasFile
  have subset : progress.running ⊆ later.inWork :=
    inWork ▸ List.subset_append_of_subset_left _ keeps.working
  have isFile := List.getElem?_eq_getElem
    (hasFile task (List.mem_append_left _ (inWork ▸ by simp)))
  have older {other : Nat} (different : other ≠ task) (started : other ∉ later.waiting) :
      other ∉ queue.waiting := by
    rw [waiting, List.mem_cons, not_or]
    exact ⟨different, started⟩
  rw [next, isFile]
  dsimp only
  unfold startTask
  split
  · exact ⟨distinct, hasFile, subset, keeps.nodup, fun cancelled => by cases cancelled⟩
  · split
    case isTrue late =>
      refine ⟨distinct, hasFile, subset, keeps.nodup,
        fun kept other filePath isOther started idle => ?_⟩
      rw [Table.get?_put]
      by_cases same : other = task
      · subst same
        rw [isFile] at isOther
        exact ⟨_, if_pos rfl, .inr ⟨late, by rw [Option.some.inj isOther]⟩⟩
      · rw [if_neg same]
        exact keeps.outcomes kept other filePath isOther (older same started) idle
    case isFalse =>
      refine ⟨distinct, hasFile, ?_, ?_, fun kept other filePath isOther started idle => ?_⟩
      · exact List.append_subset.mpr ⟨subset, inWork ▸ List.subset_append_right _ _⟩
      · exact keeps.nodup.append (List.nodup_singleton task) (by simpa using fresh)
      · rw [List.mem_append, List.mem_singleton, not_or] at idle
        exact keeps.outcomes kept other filePath isOther (older idle.2 started) idle.1

theorem Keeps.finish {task : Nat} (keeps : Keeps batch queue progress)
    (isNext : queue.next? width (.finish task) = some later) :
    Keeps batch later (batch.next progress (.finish task)) := by
  have distinct := keeps.distinct.next isNext
  obtain ⟨isWorking, rfl⟩ := Queue.next?_finish.mp isNext
  have isFile := List.getElem?_eq_getElem (keeps.hasFile task (List.mem_append_left _ isWorking))
  have hasFile : ∀ other ∈ queue.inWork.erase task ++ queue.waiting,
      other < batch.files.length := fun other member =>
    keeps.hasFile other ((List.erase_sublist.append_right _).subset member)
  rw [next, isFile]
  dsimp only
  unfold finishTask
  split
  case isTrue isRunning =>
    refine ⟨distinct, hasFile, fun other member => ?_, keeps.nodup.erase task,
      fun kept other filePath isOther started idle => ?_⟩
    · rw [keeps.nodup.mem_erase_iff] at member
      exact (List.mem_erase_of_ne member.1).mpr (keeps.working member.2)
    · rw [Table.get?_put]
      by_cases same : other = task
      · subst same
        rw [isFile] at isOther
        exact ⟨_, if_pos rfl, .inl (by rw [Option.some.inj isOther])⟩
      · rw [if_neg same]
        rw [List.mem_erase_of_ne same] at idle
        exact keeps.outcomes kept other filePath isOther started idle
  case isFalse idle =>
    -- A task that never looked at its file got its outcome when it started.
    refine ⟨distinct, hasFile, fun other member => ?_, keeps.nodup, keeps.outcomes⟩
    refine (List.mem_erase_of_ne ?_).mpr (keeps.working member)
    rintro rfl
    exact idle member

theorem Keeps.next {event : Event} (keeps : Keeps batch queue progress)
    (isNext : queue.next? width event = some later) :
    Keeps batch later (batch.next progress event) := by
  cases event with
  | start task => exact keeps.start isNext
  | finish task => exact keeps.finish isNext
  | call task =>
    rw [(Queue.next?_call.mp isNext).2, Batch.next]
    split
    · exact ⟨keeps.distinct, keeps.hasFile, keeps.working, keeps.nodup, keeps.outcomes⟩
    · exact keeps
  | abort =>
    cases isNext
    exact ⟨keeps.distinct, keeps.hasFile, keeps.working, keeps.nodup, keeps.outcomes⟩
  | expire =>
    cases isNext
    refine ⟨keeps.distinct, keeps.hasFile, keeps.working, keeps.nodup,
      fun kept task filePath isFile started idle => ?_⟩
    obtain ⟨outcome, found, allowed⟩ := keeps.outcomes kept task filePath isFile started idle
    exact ⟨outcome, found, allowed.imp_right fun skipped => ⟨by simp [Batch.next], skipped.2⟩⟩

theorem Keeps.run {events : List Event} (keeps : Keeps batch queue progress)
    (followed : queue.follow? width events = some later) :
    Keeps batch later (batch.run progress events) := by
  induction events generalizing queue progress with
  | nil =>
    cases followed
    exact keeps
  | cons event events induction =>
    obtain ⟨middle, isNext, rest⟩ := Option.bind_eq_some_iff.mp followed
    exact induction (keeps.next isNext) rest

/-- Once all tasks are done and unless the batch was cancelled, each file has an outcome. -/
theorem Keeps.result (keeps : Keeps batch queue progress) (none : queue.waiting = [])
    (idle : queue.inWork = []) (kept : progress.cancelled = false) :
    ∃ outcomes, batch.result progress = .ok outcomes ∧
      List.Forall₂ (batch.Allows progress) batch.files outcomes := by
  have stopped : progress.running = [] := List.subset_nil.mp (idle ▸ keeps.working)
  refine ⟨_, by rw [Batch.result, kept]; rfl, ?_⟩
  have each : List.Forall₂ (batch.Allows progress) (batch.files.zipIdx.map Prod.fst)
      (batch.files.zipIdx.map fun entry =>
        (progress.outcomes.get? entry.2).getD (.untouched entry.1)) := by
    rw [List.forall₂_map_left_iff, List.forall₂_map_right_iff, List.forall₂_same]
    rintro ⟨filePath, task⟩ member
    obtain ⟨outcome, found, allowed⟩ := keeps.outcomes kept task filePath
      (List.mem_zipIdx_iff_getElem?.mp member) (by simp [none]) (by simp [stopped])
    rw [found]
    exact allowed
  rwa [List.zipIdx_map_fst] at each

/-! ## Aborts -/

/-- A task starts, and what has happened before meets a condition. -/
def StartsWhen (condition : List Event → Prop) (events : List Event) (task : Nat) : Prop :=
  ∃ before after, events = before ++ .start task :: after ∧ condition before

/-- A task starts after the batch was aborted. -/
def StartsAfterAbort : List Event → Nat → Prop := StartsWhen (.abort ∈ ·)

/-- A task starts before the batch is aborted. -/
def StartsInTime : List Event → Nat → Prop := StartsWhen (.abort ∉ ·)

theorem startsWhen_concat {condition : List Event → Prop} {events : List Event} {event : Event}
    {task : Nat} : StartsWhen condition (events ++ [event]) task ↔
      StartsWhen condition events task ∨ event = .start task ∧ condition events := by
  constructor
  · rintro ⟨before, after, split, met⟩
    rcases List.eq_nil_or_concat after with rfl | ⟨after, last, rfl⟩
    · obtain ⟨rfl, rfl⟩ := List.append_singleton_inj.mp split
      exact .inr ⟨rfl, met⟩
    · rw [List.concat_eq_append, ← List.cons_append, ← List.append_assoc] at split
      exact .inl ⟨before, after, (List.append_singleton_inj.mp split).1, met⟩
  · rintro (⟨before, after, rfl, met⟩ | ⟨rfl, met⟩)
    · exact ⟨before, after ++ [event], by simp, met⟩
    · exact ⟨events, [], rfl, met⟩

theorem run_concat (batch : Batch) (progress : Progress) (events : List Event) (event : Event) :
    batch.run progress (events ++ [event]) = batch.next (batch.run progress events) event := by
  rw [run_append, run_cons, run_nil]

section Flags

variable (batch : Batch) (progress : Progress) (task : Nat) (filePath : String)

@[simp]
theorem flags_startTask : (batch.startTask progress task filePath).aborted = progress.aborted ∧
    (batch.startTask progress task filePath).late = progress.late := by
  unfold startTask
  split
  · exact ⟨rfl, rfl⟩
  · split <;> exact ⟨rfl, rfl⟩

@[simp]
theorem cancelled_startTask : (batch.startTask progress task filePath).cancelled =
    (progress.cancelled || progress.aborted) := by
  unfold startTask
  split
  case isTrue stopped => exact stopped.symm
  case isFalse going =>
    rw [Bool.not_eq_true] at going
    rw [going]
    split <;> exact (Bool.or_eq_false_iff.mp going).1

@[simp]
theorem flags_finishTask : (batch.finishTask progress task filePath).aborted = progress.aborted ∧
    (batch.finishTask progress task filePath).late = progress.late ∧
    (batch.finishTask progress task filePath).cancelled = progress.cancelled := by
  unfold finishTask
  split <;> exact ⟨rfl, rfl, rfl⟩

theorem flags_next (event : Event) :
    (batch.next progress event).aborted = (progress.aborted || decide (event = .abort)) ∧
      (batch.next progress event).late = (progress.late || decide (event = .expire)) := by
  cases event with
  | abort => simp [next]
  | expire => simp [next]
  | start task | call task | finish task =>
    rw [next]
    split <;> simp

/-- A flag that one event sets, and no other one, is set when that event has happened. -/
theorem flag_run {flag : Progress → Bool} {mark : Event}
    (sets : ∀ progress event,
      flag (batch.next progress event) = (flag progress || decide (event = mark)))
    (events : List Event) :
    flag (batch.run progress events) = (flag progress || decide (mark ∈ events)) := by
  induction events generalizing progress with
  | nil => simp
  | cons event events induction =>
    rw [run_cons, induction, sets]
    simp [eq_comm, Bool.or_assoc]

theorem aborted_run (events : List Event) :
    (batch.run progress events).aborted = (progress.aborted || decide (.abort ∈ events)) :=
  batch.flag_run progress (fun progress event => (batch.flags_next progress event).1) events

theorem late_run (events : List Event) :
    (batch.run progress events).late = (progress.late || decide (.expire ∈ events)) :=
  batch.flag_run progress (fun progress event => (batch.flags_next progress event).2) events

end Flags

theorem starts_append (first second : List Event) :
    starts (first ++ second) = starts first ++ starts second := by
  induction first with
  | nil => rfl
  | cons event first induction => cases event <;> simp [starts, induction]

/-- A batch is cancelled exactly when a task starts after it was aborted. -/
theorem cancelled_run_iff {events : List Event}
    (hasFile : ∀ task ∈ starts events, task < batch.files.length) :
    (batch.run {} events).cancelled = true ↔ ∃ task, StartsAfterAbort events task := by
  induction events using List.reverseRecOn with
  | nil => simp [StartsAfterAbort, StartsWhen]
  | append_singleton events event induction =>
    rw [starts_append] at hasFile
    have before := induction fun task member => hasFile task (List.mem_append_left _ member)
    have aborted := aborted_run batch {} events
    simp only [StartsAfterAbort] at before ⊢
    simp only [run_concat, startsWhen_concat, exists_or, ← before]
    cases event with
    | abort => simp [next]
    | expire => simp [next]
    | call task =>
      rw [next]
      split <;> simp
    | finish task =>
      rw [next]
      split <;> simp
    | start task =>
      have isFile := List.getElem?_eq_getElem
        (hasFile task (List.mem_append_right _ List.mem_cons_self))
      rw [next, isFile]
      simp [aborted]

theorem mem_running_next {event : Event} {task : Nat}
    (member : task ∈ (batch.next progress event).running) :
    task ∈ progress.running ∨ event = .start task ∧ progress.aborted = false := by
  cases event with
  | abort => exact .inl member
  | expire => exact .inl member
  | call other =>
    rw [next] at member
    split at member <;> exact .inl member
  | finish other =>
    rw [next] at member
    split at member
    · unfold finishTask at member
      split at member
      · exact .inl (List.mem_of_mem_erase member)
      · exact .inl member
    · exact .inl member
  | start other =>
    rw [next] at member
    split at member
    case h_2 => exact .inl member
    case h_1 =>
      unfold startTask at member
      split at member
      · exact .inl member
      case isFalse going =>
        split at member
        · exact .inl member
        · rcases List.mem_append.mp member with earlier | last
          · exact .inl earlier
          · obtain rfl := List.mem_singleton.mp last
            exact .inr ⟨rfl, by simp_all⟩

theorem mem_called_next {event : Event} {task : Nat}
    (member : task ∈ (batch.next progress event).called) :
    task ∈ progress.called ∨ task ∈ progress.running := by
  cases event with
  | abort => exact .inl member
  | expire => exact .inl member
  | call other =>
    rw [next] at member
    split at member
    case isFalse => exact .inl member
    case isTrue isRunning =>
      rcases List.mem_append.mp member with earlier | last
      · exact .inl earlier
      · obtain rfl := List.mem_singleton.mp last
        exact .inr isRunning
  | finish other =>
    rw [next] at member
    split at member
    · unfold finishTask at member
      split at member <;> exact .inl member
    · exact .inl member
  | start other =>
    rw [next] at member
    split at member
    · unfold startTask at member
      split at member
      · exact .inl member
      · split at member <;> exact .inl member
    · exact .inl member

theorem startsInTime_of_mem {events : List Event} {task : Nat}
    (member : task ∈ (batch.run {} events).running ∨ task ∈ (batch.run {} events).called) :
    StartsInTime events task := by
  induction events using List.reverseRecOn with
  | nil => simp at member
  | append_singleton events event induction =>
    rw [StartsInTime, startsWhen_concat]
    rw [run_concat] at member
    rcases member with running | called
    · refine (mem_running_next running).imp (fun earlier => induction (.inl earlier)) ?_
      rintro ⟨isStart, unaborted⟩
      rw [aborted_run] at unaborted
      exact ⟨isStart, by simpa using unaborted⟩
    · rcases mem_called_next called with earlier | running
      · exact .inl (induction (.inr earlier))
      · exact .inl (induction (.inl running))

/-- Only the files of tasks that start in time have a part in a batch. -/
theorem run_eq_of_startsInTime {other : Batch} (files : other.files = batch.files)
    (late : other.late = batch.late) {events : List Event}
    (same : ∀ task filePath, batch.files[task]? = some filePath → StartsInTime events task →
      other.outcome filePath = batch.outcome filePath) :
    other.run {} events = batch.run {} events := by
  induction events using List.reverseRecOn with
  | nil => rfl
  | append_singleton events event induction =>
    have earlier := induction fun task filePath isFile inTime =>
      same task filePath isFile (startsWhen_concat.mpr (.inl inTime))
    rw [run_concat, run_concat, earlier]
    cases event with
    | abort => rfl
    | expire => rfl
    | call task => rfl
    | start task => simp only [next, files, startTask, late]
    | finish task =>
      rw [next, next, files]
      cases isFile : batch.files[task]? with
      | none => rfl
      | some filePath =>
        dsimp only
        unfold finishTask
        split
        case isFalse => rfl
        case isTrue isRunning =>
          have inTime := startsInTime_of_mem (.inl isRunning)
          rw [same task filePath isFile (startsWhen_concat.mpr (.inl inTime))]

theorem not_startsInTime {events : List Event} (once : (starts events).Nodup) {task : Nat}
    (after : StartsAfterAbort events task) : ¬ StartsInTime events task := by
  -- The abort comes before one of the two starts only, so that the task would start twice.
  rintro ⟨before, rest, split, unaborted⟩
  obtain ⟨longer, others, rfl, aborted⟩ := after
  rcases List.append_eq_append_iff.mp split with ⟨gap, rfl, _⟩ | ⟨gap, rfl, tail⟩
  · exact unaborted (List.mem_append_left gap aborted)
  · cases gap with
    | nil =>
      rw [List.append_nil] at aborted
      exact unaborted aborted
    | cons event gap =>
      rw [List.cons_append] at tail
      rw [← (List.cons_eq_cons.mp tail).1] at once
      simp [starts_append, starts, List.nodup_append] at once

/-! ## Results -/

theorem result_of_isCourse {limit : Nat} {events : List Event} (aborted : Bool)
    (isCourse : IsCourse limit batch.files.length events)
    (kept : (batch.run { aborted := aborted } events).cancelled = false) :
    ∃ outcomes, batch.result (batch.run { aborted := aborted } events) = .ok outcomes ∧
      List.Forall₂ (batch.Allows (batch.run { aborted := aborted } events)) batch.files
        outcomes := by
  obtain ⟨queue, followed, still⟩ := isCourse
  obtain ⟨none, idle⟩ := (Queue.still_iff (Nat.lt_of_lt_of_le Nat.one_pos (Nat.le_max_left ..))).mp
    still
  exact ((keeps_ofCount batch aborted).run followed).result none idle kept

theorem lt_of_mem_starts {count : Nat} {events : List Event}
    (followed : Queue.follow? width (.ofCount count) events = some queue) :
    ∀ task ∈ starts events, task < count := by
  intro task member
  have order : starts events ++ queue.waiting = List.range count :=
    Queue.starts_append_waiting followed
  exact List.mem_range.mp (order ▸ List.mem_append_left queue.waiting member)

/-- A batch that is neither aborted nor late gives the outcome of each file. -/
theorem result_undisturbed {limit : Nat} {events : List Event}
    (isCourse : IsCourse limit batch.files.length events) (early : batch.late = false)
    (unaborted : .abort ∉ events) (inTime : .expire ∉ events) :
    batch.result (batch.run {} events) = .ok (batch.files.map batch.outcome) := by
  have hasFile : ∀ task ∈ starts events, task < batch.files.length := by
    obtain ⟨queue, followed, _⟩ := isCourse
    exact lt_of_mem_starts followed
  have kept : (batch.run {} events).cancelled = false := by
    rw [← Bool.not_eq_true, cancelled_run_iff hasFile]
    rintro ⟨task, before, after, rfl, aborted⟩
    exact unaborted (List.mem_append_left _ aborted)
  have notLate : (batch.run {} events).late = false := by
    simp [late_run, inTime]
  obtain ⟨outcomes, isOk, each⟩ := result_of_isCourse false isCourse kept
  rw [isOk]
  have same : List.Forall₂ (fun filePath outcome => batch.outcome filePath = outcome) batch.files
      outcomes := by
    refine each.imp fun filePath outcome allowed => ?_
    rcases allowed with own | ⟨late, _⟩
    · exact own.symm
    · rw [early, notLate] at late
      cases late
  rw [← List.forall₂_map_left_iff, List.forall₂_eq_eq_eq] at same
  rw [same]

theorem tasks_jobsOf (reader : FileReader) (options : Options) (files : List String) :
    (jobsOf reader options files).map Job.task = List.range files.length := by
  rw [jobsOf, List.map_map, List.range_eq_range', ← List.zipIdx_map_snd]
  refine List.map_congr_left fun entry _ => ?_
  simp only [Function.comp, jobOf]
  split <;> rfl

/-- Jobs call the extractor for their own tasks, and abort the batch only if they have to. -/
theorem mem_turns_jobsOf {reader : FileReader} {options : Options} {files : List String} {job : Job}
    (member : job ∈ jobsOf reader options files) {turn : List Event} (isTurn : turn ∈ job.turns)
    {event : Event} (isEvent : event ∈ turn) :
    event = .call job.task ∨ event = .abort ∧ options.abortOn ≠ none := by
  obtain ⟨⟨filePath, task⟩, _, rfl⟩ := List.mem_map.mp member
  unfold jobOf idleTurns at isTurn ⊢
  dsimp only at isTurn ⊢
  split at isTurn
  case isFalse =>
    rw [List.eq_of_mem_replicate isTurn] at isEvent
    cases isEvent
  case isTrue calls =>
    rw [if_pos calls]
    rcases List.mem_cons.mp isTurn with rfl | idle
    · split at isEvent
      case isTrue aborts =>
        have isSet : options.abortOn ≠ none := by
          rw [beq_iff_eq.mp aborts]
          exact Option.some_ne_none filePath
        simpa [isSet] using isEvent
      case isFalse => exact .inl (List.mem_singleton.mp isEvent)
    · rw [List.eq_of_mem_replicate idle] at isEvent
      cases isEvent

/-- The schedule of the files of a reader is one of the courses that a limiter allows. -/
theorem isCourse_jobsOf (reader : FileReader) (options : Options) (files : List String) :
    IsCourse options.limit files.length
      (schedule options.limit (jobsOf reader options files)) := by
  refine isCourse_schedule options.limit (tasks_jobsOf reader options files) ?_
  intro job member turn isTurn event isEvent
  exact (mem_turns_jobsOf member isTurn isEvent).imp_right And.left

theorem result_extract (reader : FileReader) (options : Options) (files : List String)
    (started : options.abortedBefore = false) (unaborted : options.abortOn = none)
    (early : options.late = false) :
    (extract reader options files).result = .ok (files.map reader.outcome) := by
  have happens {event : Event}
      (member : event ∈ schedule options.limit (jobsOf reader options files)) :
      ∃ task, event = .start task ∨ event = .finish task ∨ event = .call task := by
    rcases mem_schedule member with ⟨task, ends⟩ | ⟨job, isJob, turn, isTurn, isEvent⟩
    · exact ⟨task, ends.imp_right .inl⟩
    · rcases mem_turns_jobsOf isJob isTurn isEvent with calls | ⟨_, aborts⟩
      · exact ⟨job.task, .inr (.inr calls)⟩
      · exact absurd unaborted aborts
  rw [extract, started]
  refine result_undisturbed (isCourse_jobsOf reader options files) early ?_ ?_
  · intro member
    obtain ⟨task, impossible⟩ := happens member
    simp at impossible
  · intro member
    obtain ⟨task, impossible⟩ := happens member
    simp at impossible

/-- A queue is still exactly when each task has started and ended. -/
theorem still_iff_turns {count : Nat} {events : List Event} (room : 0 < width)
    (followed : Queue.follow? width (.ofCount count) events = some queue) :
    let turns := (starts events).length + (finishes events).length
    turns ≤ 2 * count ∧ (queue.Still width ↔ turns = 2 * count) := by
  have order : starts events ++ queue.waiting = List.range count :=
    Queue.starts_append_waiting followed
  have started : (starts events).length + queue.waiting.length = count := by
    rw [← List.length_append, order, List.length_range]
  have ended : (finishes events).length + queue.inWork.length = 0 + (starts events).length :=
    Queue.length_finishes followed
  rw [Queue.still_iff room, ← List.length_eq_zero_iff, ← List.length_eq_zero_iff]
  omega

/-- A batch that has come to its end is cancelled exactly when a task starts after the abort, and
otherwise gives an outcome for each file. -/
theorem result_cancelled_iff {limit : Nat} {events : List Event}
    (isCourse : IsCourse limit batch.files.length events) :
    (batch.result (batch.run {} events) =
        .error (.cancelled "Analysis cancelled during extraction") ↔
      ∃ task, StartsAfterAbort events task) ∧
    ((¬ ∃ task, StartsAfterAbort events task) → ∃ outcomes,
      batch.result (batch.run {} events) = .ok outcomes ∧
        List.Forall₂ (batch.Allows (batch.run {} events)) batch.files outcomes) := by
  have hasFile : ∀ task ∈ starts events, task < batch.files.length := by
    obtain ⟨queue, followed, _⟩ := isCourse
    exact lt_of_mem_starts followed
  rw [← cancelled_run_iff hasFile]
  refine ⟨?_, fun kept => result_of_isCourse false isCourse (Bool.not_eq_true _ ▸ kept)⟩
  rw [result]
  cases (batch.run {} events).cancelled <;> simp

/-- A task that starts after the abort neither looks at its file nor calls the extractor. -/
theorem notMem_of_startsAfterAbort {count : Nat} {events : List Event}
    (followed : Queue.follow? width (.ofCount count) events = some queue) {task : Nat}
    (after : StartsAfterAbort events task) :
    task ∉ (batch.run {} events).running ∧ task ∉ (batch.run {} events).called := by
  have order : starts events ++ queue.waiting = List.range count :=
    Queue.starts_append_waiting followed
  have once : (starts events).Nodup := (order ▸ List.nodup_range).of_append_left
  exact ⟨fun running => not_startsInTime once after (startsInTime_of_mem (.inl running)),
    fun called => not_startsInTime once after (startsInTime_of_mem (.inr called))⟩

/-- What becomes of a batch along a course of events, whether or not the course has come to its
end. -/
theorem result_along_course (reader : FileReader) (files : List String) (limit : Nat) (late : Bool)
    {events : List Event} {queue : Queue}
    (followed : Queue.follow? (max 1 limit) (.ofCount files.length) events = some queue) :
    let batch : Batch := ⟨files, reader.outcome, late⟩
    let progress := batch.run {} events
    let turns := (starts events).length + (finishes events).length
    (turns ≤ 2 * files.length ∧ (queue.Still (max 1 limit) ↔ turns = 2 * files.length)) ∧
    (queue.Still (max 1 limit) → late = false → .abort ∉ events → .expire ∉ events →
      batch.result progress = .ok (files.map reader.outcome)) ∧
    (queue.Still (max 1 limit) →
      (batch.result progress = .error (.cancelled "Analysis cancelled during extraction") ↔
        ∃ task, StartsAfterAbort events task) ∧
      ((¬ ∃ task, StartsAfterAbort events task) → ∃ outcomes,
        batch.result progress = .ok outcomes ∧
          List.Forall₂ (batch.Allows progress) files outcomes)) ∧
    (∀ task, StartsAfterAbort events task →
      task ∉ progress.running ∧ task ∉ progress.called) ∧
    ∀ other : FileReader,
      (∀ task filePath, files[task]? = some filePath → StartsInTime events task →
        other.outcome filePath = reader.outcome filePath) →
      (⟨files, other.outcome, late⟩ : Batch).run {} events = progress := by
  intro batch progress turns
  refine ⟨?_, fun still early unaborted inTime => ?_, fun still => ?_, fun task after => ?_,
    fun other same => ?_⟩
  · exact still_iff_turns (Nat.lt_of_lt_of_le Nat.one_pos (Nat.le_max_left ..)) followed
  · exact result_undisturbed ⟨queue, followed, still⟩ early unaborted inTime
  · exact result_cancelled_iff ⟨queue, followed, still⟩
  · exact notMem_of_startsAfterAbort followed after
  · exact @run_eq_of_startsInTime batch ⟨files, other.outcome, late⟩ rfl rfl events same

/-- Of three files the second is done first. The batch is aborted before the third one starts, while
the first one is still in work. -/
theorem result_along_course_aborted :
    let workspace : Workspace :=
      { scan := fun _ _ => .ok ⟨["a.ts", "b.ts", "c.ts"], ⟨[]⟩⟩
        read := fun _ => .ok ""
        holds := fun _ => true
        extract := fun _ source filePath language =>
          .ok ⟨filePath, language, Extract.contentHash source, [], []⟩ }
    let reader : FileReader := ⟨workspace, ⟨[(".ts", "typescript")]⟩, "/repo"⟩
    let files := ["a.ts", "b.ts", "c.ts"]
    let events : List Event :=
      [.start 0, .start 1, .call 1, .finish 1, .abort, .start 2, .finish 2, .call 0, .finish 0]
    let batch : Batch := ⟨files, reader.outcome, false⟩
    Queue.follow? (max 1 2) (.ofCount files.length) events = some ⟨[], []⟩ ∧
    batch.result (batch.run {} events) =
      .error (.cancelled "Analysis cancelled during extraction") ∧
    (batch.run {} events).called = [1, 0] ∧ 2 ∉ (batch.run {} events).called := by
  intro workspace reader files events batch
  have followed : Queue.follow? (max 1 2) (.ofCount files.length) events = some ⟨[], []⟩ := by
    decide
  have still : Queue.Still (max 1 2) ⟨[], []⟩ := (Queue.still_iff (by decide)).mpr ⟨rfl, rfl⟩
  have after : StartsAfterAbort events 2 :=
    ⟨[.start 0, .start 1, .call 1, .finish 1, .abort], [.finish 2, .call 0, .finish 0], rfl,
      by decide⟩
  have called : (batch.run {} events).called = [1, 0] := by decide +kernel
  obtain ⟨-, -, cancels, leaves, -⟩ := result_along_course reader files 2 false followed
  exact ⟨followed, (cancels still).1.mpr ⟨2, after⟩, called, (leaves 2 after).2⟩

end Batch
end CodeAtlas
