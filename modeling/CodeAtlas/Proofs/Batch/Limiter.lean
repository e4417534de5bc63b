import CodeAtlas.Batch.Schedule
import Mathlib.Data.List.Nodup
import Mathlib.Data.List.Perm.Basic

/-!
# Limiters

A limiter starts the tasks of a batch in the order of their files, has at most a given number of
them in work at once, and starts the next one as long as there is room. Tasks end in any order. A
course that a limiter allows cannot get stuck before all tasks are done, and it cannot go on for
ever either, since each task starts and ends once.
-/

namespace CodeAtlas
namespace Batch

/-- The tasks that have not started, in order, and those that are in work. -/
structure Queue where
  /-- The tasks that wait. -/
  waiting : List Nat
  /-- The tasks that have started and not ended. -/
  inWork : List Nat
  deriving DecidableEq, Repr

namespace Queue

/-- All tasks of a batch wait. -/
def ofCount (count : Nat) : Queue := ⟨List.range count, []⟩

/-- The queue after an event, if a limiter of some width lets it happen. -/
def next? (width : Nat) (queue : Queue) : Event → Option Queue
  | .start task =>
    match queue.waiting with
    | [] => none
    | first :: waiting =>
      if task = first ∧ queue.inWork.length < width then some ⟨waiting, queue.inWork ++ [task]⟩
      else none
  | .call task => if task ∈ queue.inWork then some queue else none
  | .finish task =>
    if task ∈ queue.inWork then some { queue with inWork := queue.inWork.erase task } else none
  | .abort => some queue
  | .expire => some queue

/-- The queue after a list of events, if a limiter of some width lets all of them happen. -/
def follow? (width : Nat) (queue : Queue) : List Event → Option Queue
  | [] => some queue
  | event :: events => (queue.next? width event).bind fun later => later.follow? width events

/-- No task can start and none can end. -/
def Still (width : Nat) (queue : Queue) : Prop :=
  ∀ task, queue.next? width (.start task) = none ∧ queue.next? width (.finish task) = none

end Queue

/-- The events of a batch from beginning to end: a limiter allows them, and no task can start or end
after them. -/
def IsCourse (limit count : Nat) (events : List Event) : Prop :=
  ∃ queue, Queue.follow? (max 1 limit) (.ofCount count) events = some queue ∧
    queue.Still (max 1 limit)

/-- The tasks that start, in order. -/
def starts : List Event → List Nat
  | [] => []
  | .start task :: events => task :: starts events
  | .call _ :: events => starts events
  | .finish _ :: events => starts events
  | .abort :: events => starts events
  | .expire :: events => starts events

/-- The tasks that end, in order. -/
def finishes : List Event → List Nat
  | [] => []
  | .finish task :: events => task :: finishes events
  | .start _ :: events => finishes events
  | .call _ :: events => finishes events
  | .abort :: events => finishes events
  | .expire :: events => finishes events

namespace Queue

variable {width : Nat} {queue later : Queue}

/-! ## Steps -/

theorem next?_start {task : Nat} : queue.next? width (.start task) = some later ↔
    queue.waiting = task :: later.waiting ∧ queue.inWork.length < width ∧
      later.inWork = queue.inWork ++ [task] := by
  obtain ⟨waiting, inWork⟩ := queue
  obtain ⟨laterWaiting, laterInWork⟩ := later
  cases waiting with
  | nil => simp [next?]
  | cons first waiting =>
    simp only [next?, Option.ite_none_right_eq_some, Option.some.injEq, mk.injEq, List.cons.injEq]
    constructor
    · rintro ⟨⟨rfl, room⟩, rfl, rfl⟩
      exact ⟨⟨rfl, rfl⟩, room, rfl⟩
    · rintro ⟨⟨rfl, rfl⟩, room, rfl⟩
      exact ⟨⟨rfl, room⟩, rfl, rfl⟩

theorem next?_finish {task : Nat} : queue.next? width (.finish task) = some later ↔
    task ∈ queue.inWork ∧ later = { queue with inWork := queue.inWork.erase task } := by
  simp [next?, eq_comm]

theorem next?_call {task : Nat} : queue.next? width (.call task) = some later ↔
    task ∈ queue.inWork ∧ later = queue := by
  simp [next?, eq_comm]

theorem follow?_append (queue : Queue) (first second : List Event) :
    queue.follow? width (first ++ second) =
      (queue.follow? width first).bind fun later => later.follow? width second := by
  induction first generalizing queue with
  | nil => rfl
  | cons event first induction =>
    rw [List.cons_append, follow?, follow?, Option.bind_assoc]
    exact Option.bind_congr fun later _ => induction later

/-- Tasks start in the order in which they wait. -/
theorem starts_append_waiting {events : List Event}
    (followed : queue.follow? width events = some later) :
    starts events ++ later.waiting = queue.waiting := by
  induction events generalizing queue with
  | nil =>
    cases followed
    rfl
  | cons event events induction =>
    obtain ⟨middle, isNext, rest⟩ := Option.bind_eq_some_iff.mp followed
    have tail := induction rest
    cases event with
    | start task =>
      rw [(next?_start.mp isNext).1, starts, List.cons_append, tail]
    | call task =>
      rw [(next?_call.mp isNext).2] at tail
      exact tail
    | finish task =>
      rw [(next?_finish.mp isNext).2] at tail
      exact tail
    | abort =>
      cases isNext
      exact tail
    | expire =>
      cases isNext
      exact tail

theorem length_finishes {events : List Event}
    (followed : queue.follow? width events = some later) :
    (finishes events).length + later.inWork.length =
      queue.inWork.length + (starts events).length := by
  induction events generalizing queue with
  | nil =>
    cases followed
    simp [finishes, starts]
  | cons event events induction =>
    obtain ⟨middle, isNext, rest⟩ := Option.bind_eq_some_iff.mp followed
    have tail := induction rest
    cases event with
    | start task =>
      rw [(next?_start.mp isNext).2.2, List.length_append, List.length_singleton] at tail
      rw [finishes, starts, List.length_cons]
      omega
    | call task =>
      rw [(next?_call.mp isNext).2] at tail
      exact tail
    | finish task =>
      obtain ⟨isWorking, rfl⟩ := next?_finish.mp isNext
      have working := List.length_pos_of_mem isWorking
      rw [List.length_erase_of_mem isWorking] at tail
      rw [finishes, starts, List.length_cons]
      omega
    | abort =>
      cases isNext
      exact tail
    | expire =>
      cases isNext
      exact tail

/-- A limiter with room for a task gets stuck only when nothing is left to do. -/
theorem still_iff (room : 0 < width) :
    queue.Still width ↔ queue.waiting = [] ∧ queue.inWork = [] := by
  constructor
  · intro still
    have idle : queue.inWork = [] := by
      refine List.eq_nil_iff_forall_not_mem.mpr fun task isWorking => ?_
      have stuck := (still task).2
      simp [next?, isWorking] at stuck
    refine ⟨?_, idle⟩
    cases waiting : queue.waiting with
    | nil => rfl
    | cons task rest =>
      have stuck := (still task).1
      simp [next?, waiting, idle, room] at stuck
  · rintro ⟨none, idle⟩ task
    simp [next?, none, idle]

/-- All tasks are different, those in work and those that wait. -/
def Distinct (queue : Queue) : Prop := (queue.inWork ++ queue.waiting).Nodup

theorem distinct_ofCount (count : Nat) : (ofCount count).Distinct := List.nodup_range

theorem Distinct.next {event : Event} (distinct : queue.Distinct)
    (isNext : queue.next? width event = some later) : later.Distinct := by
  cases event with
  | start task =>
    obtain ⟨waiting, _, inWork⟩ := next?_start.mp isNext
    unfold Distinct at distinct ⊢
    rw [waiting] at distinct
    rwa [inWork, List.append_assoc]
  | call task => exact (next?_call.mp isNext).2 ▸ distinct
  | finish task =>
    rw [(next?_finish.mp isNext).2]
    exact distinct.sublist (List.erase_sublist.append_right queue.waiting)
  | abort =>
    cases isNext
    exact distinct
  | expire =>
    cases isNext
    exact distinct

end Queue

/-! ## Taking turns -/

/-- The events in the turns of a job are calls by its own task and aborts. -/
def Job.Own (job : Job) : Prop :=
  ∀ turn ∈ job.turns, ∀ event ∈ turn, event = .call job.task ∨ event = .abort

theorem Queue.follow?_turn {width : Nat} {queue : Queue} {task : Nat} {turn : List Event}
    (isWorking : task ∈ queue.inWork)
    (own : ∀ event ∈ turn, event = .call task ∨ event = .abort) :
    queue.follow? width turn = some queue := by
  induction turn with
  | nil => rfl
  | cons event turn induction =>
    have rest := induction fun other member => own other (List.mem_cons_of_mem event member)
    rcases own event List.mem_cons_self with rfl | rfl
    · rw [follow?, next?, if_pos isWorking]
      exact rest
    · exact rest

/-- Jobs that take turns do what a limiter allows, until all of them are done. -/
theorem Queue.follow?_eventsOf {width : Nat} {queue : Queue} (inWork waiting : List Job)
    (own : ∀ job ∈ inWork ++ waiting, job.Own)
    (working : queue.inWork.Perm (inWork.map Job.task))
    (waits : queue.waiting = waiting.map Job.task) (fits : inWork.length ≤ width)
    (busy : inWork = [] → waiting = []) :
    queue.follow? width (eventsOf inWork waiting) = some ⟨[], []⟩ := by
  -- The induction follows the turns. A job goes behind the others after a turn, so that the order
  -- in which jobs stand is not the order in which tasks have started.
  have isWorking {task : Nat} {turns : List (List Event)} {others : List Job} {queue : Queue}
      (working : queue.inWork.Perm (((⟨task, turns⟩ : Job) :: others).map Job.task)) :
      task ∈ queue.inWork := working.symm.subset List.mem_cons_self
  have othersWork {task : Nat} {turns : List (List Event)} {others : List Job} {queue : Queue}
      (working : queue.inWork.Perm (((⟨task, turns⟩ : Job) :: others).map Job.task)) :
      (queue.inWork.erase task).Perm (others.map Job.task) := by
    have erased := working.erase task
    rwa [List.map_cons, List.erase_cons_head] at erased
  fun_induction eventsOf inWork waiting generalizing queue with
  | case1 waiting =>
    rw [busy rfl] at waits
    obtain ⟨waitingTasks, workingTasks⟩ := queue
    rw [show workingTasks = [] from working.eq_nil, show waitingTasks = [] from waits]
    rfl
  | case2 task inWork induction =>
    rw [follow?, next?, if_pos (isWorking working)]
    refine induction (fun job member => own job (List.mem_cons_of_mem _ member))
      (othersWork working) waits (Nat.le_of_succ_le fits) fun _ => rfl
  | case3 task inWork job waiting induction =>
    have rest : (queue.inWork.erase task).Perm (inWork.map Job.task) := othersWork working
    have room : (queue.inWork.erase task).length < width := by
      rw [rest.length_eq, List.length_map]
      exact fits
    rw [follow?, next?, if_pos (isWorking working), Option.bind_some, follow?]
    have begins : next? width { queue with inWork := queue.inWork.erase task }
        (.start job.task) =
          some ⟨waiting.map Job.task, queue.inWork.erase task ++ [job.task]⟩ :=
      next?_start.mpr ⟨waits, room, rfl⟩
    rw [begins, Option.bind_some]
    refine induction (fun other member => own other ?_) ?_ rfl ?_ (by simp)
    · rw [List.append_assoc] at member
      exact List.mem_cons_of_mem _ member
    · rw [List.map_append]
      exact rest.append_right [job.task]
    · rw [List.length_append]
      exact fits
  | case4 task turn turns inWork waiting induction =>
    have first : Job.Own ⟨task, turn :: turns⟩ := own _ List.mem_cons_self
    rw [follow?_append, follow?_turn (isWorking working) (first turn List.mem_cons_self),
      Option.bind_some]
    refine induction (fun job member => ?_) ?_ waits ?_ (by simp)
    · rw [List.append_assoc, List.mem_append, List.mem_append, List.mem_singleton] at member
      rcases member with other | rfl | other
      · exact own job (List.mem_cons_of_mem _ (List.mem_append_left _ other))
      · exact fun other isOther => first other (List.mem_cons_of_mem _ isOther)
      · exact own job (List.mem_cons_of_mem _ (List.mem_append_right _ other))
    · rw [List.map_append]
      exact working.trans (List.perm_append_singleton _ _).symm
    · rw [List.length_append]
      exact fits

theorem Queue.follow?_starts {width : Nat} {queue : Queue} (jobs : List Job) {waiting : List Nat}
    (waits : queue.waiting = jobs.map Job.task ++ waiting)
    (fits : queue.inWork.length + jobs.length ≤ width) :
    queue.follow? width (jobs.map (.start ·.task)) =
      some ⟨waiting, queue.inWork ++ jobs.map Job.task⟩ := by
  induction jobs generalizing queue with
  | nil =>
    obtain ⟨waitingTasks, workingTasks⟩ := queue
    rw [List.map_nil, List.nil_append] at waits
    subst waits
    simp [follow?]
  | cons job jobs induction =>
    rw [List.length_cons] at fits
    have begins : queue.next? width (.start job.task) =
        some ⟨jobs.map Job.task ++ waiting, queue.inWork ++ [job.task]⟩ :=
      next?_start.mpr ⟨waits, by omega, rfl⟩
    rw [List.map_cons, follow?, begins, Option.bind_some]
    rw [induction rfl (by simp only [List.length_append, List.length_singleton]; omega)]
    simp

/-- What happens when jobs take turns: tasks start and end, and jobs have their turns. -/
theorem mem_eventsOf {inWork waiting : List Job} {event : Event}
    (member : event ∈ eventsOf inWork waiting) :
    (∃ task, event = .start task ∨ event = .finish task) ∨
      ∃ job ∈ inWork ++ waiting, ∃ turn ∈ job.turns, event ∈ turn := by
  fun_induction eventsOf inWork waiting with
  | case1 waiting => cases member
  | case2 task inWork induction =>
    rcases List.mem_cons.mp member with rfl | later
    · exact .inl ⟨task, .inr rfl⟩
    · refine (induction later).imp_right ?_
      rintro ⟨job, isJob, turn⟩
      exact ⟨job, List.mem_cons_of_mem _ isJob, turn⟩
  | case3 task inWork job waiting induction =>
    simp only [List.mem_cons] at member
    rcases member with rfl | rfl | later
    · exact .inl ⟨task, .inr rfl⟩
    · exact .inl ⟨job.task, .inl rfl⟩
    · refine (induction later).imp_right ?_
      rintro ⟨other, isOther, turn⟩
      rw [List.append_assoc] at isOther
      exact ⟨other, List.mem_cons_of_mem _ isOther, turn⟩
  | case4 task turn turns inWork waiting induction =>
    rcases List.mem_append.mp member with now | later
    · exact .inr ⟨⟨task, turn :: turns⟩, List.mem_cons_self, turn, List.mem_cons_self, now⟩
    · refine (induction later).imp_right ?_
      rintro ⟨job, isJob, other, isOther, isEvent⟩
      rw [List.append_assoc, List.mem_append, List.mem_append, List.mem_singleton] at isJob
      rcases isJob with working | rfl | waits
      · exact ⟨job, List.mem_cons_of_mem _ (List.mem_append_left _ working), other, isOther,
          isEvent⟩
      · exact ⟨_, List.mem_cons_self, other, List.mem_cons_of_mem _ isOther, isEvent⟩
      · exact ⟨job, List.mem_cons_of_mem _ (List.mem_append_right _ waits), other, isOther,
          isEvent⟩

theorem mem_schedule {limit : Nat} {jobs : List Job} {event : Event}
    (member : event ∈ schedule limit jobs) :
    (∃ task, event = .start task ∨ event = .finish task) ∨
      ∃ job ∈ jobs, ∃ turn ∈ job.turns, event ∈ turn := by
  rw [schedule] at member
  rcases List.mem_append.mp member with first | later
  · obtain ⟨job, _, rfl⟩ := List.mem_map.mp first
    exact .inl ⟨job.task, .inl rfl⟩
  · rw [← List.take_append_drop (max 1 limit) jobs]
    exact mem_eventsOf later

/-- The schedule of a batch is one of the courses that a limiter allows. -/
theorem isCourse_schedule (limit : Nat) {jobs : List Job} {count : Nat}
    (tasks : jobs.map Job.task = List.range count) (own : ∀ job ∈ jobs, job.Own) :
    IsCourse limit count (schedule limit jobs) := by
  have room : 0 < max 1 limit := by omega
  refine ⟨⟨[], []⟩, ?_, (Queue.still_iff room).mpr ⟨rfl, rfl⟩⟩
  have whole : jobs.take (max 1 limit) ++ jobs.drop (max 1 limit) = jobs :=
    List.take_append_drop (max 1 limit) jobs
  have waits : (Queue.ofCount count).waiting =
      (jobs.take (max 1 limit)).map Job.task ++ (jobs.drop (max 1 limit)).map Job.task := by
    rw [← List.map_append, whole, tasks]
    rfl
  have fits : (jobs.take (max 1 limit)).length ≤ max 1 limit := List.length_take_le _ _
  rw [schedule, Queue.follow?_append,
    Queue.follow?_starts _ waits (by simpa [Queue.ofCount] using fits), Option.bind_some]
  refine Queue.follow?_eventsOf _ _ (by rwa [whole]) (.refl _) rfl fits fun none => ?_
  rcases List.take_eq_nil_iff.mp none with zero | empty
  · omega
  · simp [empty]

end Batch
end CodeAtlas
