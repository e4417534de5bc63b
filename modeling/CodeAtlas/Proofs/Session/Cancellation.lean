import CodeAtlas.Proofs.Session.Coverage

/-!
# Runs that are cancelled before they start

A run looks at its signal when the task of a file starts. A run whose signal was aborted before is
therefore cancelled if there is a file to extract; otherwise nothing looks at the signal, and the
run goes through.
-/

namespace CodeAtlas
namespace Batch

variable {batch : Batch}

theorem cancelled_run_of_aborted {progress : Progress} (aborted : progress.aborted = true)
    {events : List Event} (hasFile : ∀ task ∈ starts events, task < batch.files.length) :
    (batch.run progress events).cancelled =
      (progress.cancelled || !(starts events).isEmpty) := by
  -- A signal stays aborted, so the first task that starts sees it; no other event looks.
  induction events generalizing progress with
  | nil => simp [starts]
  | cons event events induction =>
    have stays : (batch.next progress event).aborted = true := by
      rw [(flags_next ..).1, aborted, Bool.true_or]
    rw [run_cons]
    cases event with
    | start task =>
      have isFile := List.getElem?_eq_getElem (hasFile task List.mem_cons_self)
      have cancelled : (batch.next progress (.start task)).cancelled = true := by
        rw [next, isFile]
        simp [cancelled_startTask, aborted]
      rw [induction stays fun other member => hasFile other (List.mem_cons_of_mem _ member),
        cancelled]
      simp [starts]
    | call task | finish task =>
      rw [induction stays hasFile, starts, next]
      split <;> simp
    | abort => exact induction stays hasFile
    | expire => exact induction stays hasFile

theorem starts_of_isCourse {limit count : Nat} {events : List Event}
    (isCourse : IsCourse limit count events) : starts events = List.range count := by
  obtain ⟨queue, followed, still⟩ := isCourse
  have room : 0 < max 1 limit := Nat.lt_of_lt_of_le Nat.one_pos (Nat.le_max_left ..)
  have order := Queue.starts_append_waiting followed
  rwa [((Queue.still_iff room).mp still).1, List.append_nil] at order

/-- A batch that was aborted before it starts is cancelled unless it has no files. -/
theorem result_of_aborted {limit : Nat} {events : List Event}
    (isCourse : IsCourse limit batch.files.length events) :
    batch.result (batch.run { aborted := true } events) =
      if batch.files = [] then .ok []
      else .error (.cancelled "Analysis cancelled during extraction") := by
  have order := starts_of_isCourse isCourse
  have cancelled : (batch.run { aborted := true } events).cancelled =
      !(starts events).isEmpty := cancelled_run_of_aborted rfl (by simp [order])
  rw [result, cancelled, order]
  cases batch.files <;> simp

end Batch

theorem Run.extractAlong_of_cancelled {course : Course} {analyzer : Analyzer} {options : RunOptions}
    (orderly : course.Orderly (batchOptions analyzer options).limit)
    (cancelled : options.cancelled = true) (workspace : Workspace) (root : String)
    (files : List String) :
    extractAlong course analyzer workspace root options files =
      if files = [] then .ok []
      else .error (.cancelled "Analysis cancelled during extraction") := by
  rw [extractAlong, show (batchOptions analyzer options).abortedBefore = true from cancelled]
  exact Batch.result_of_aborted (orderly (readerOf analyzer workspace root) files)

namespace Session

/-- Whether a call asks for a run with a signal that has been aborted. -/
def Call.isCancelled : Call → Bool
  | .full _ _ options _ => options.cancelled
  | .incremental _ _ options _ => options.cancelled
  | .labels _ => false

/-- The files that a run extracts, given what the last run left. A run over a whole code base whose
scan fails has none, nor has a run over changes before which there was no run. -/
def Call.toExtract? (analyzer : Analyzer) (last : Option RunState) : Call → Option (List String)
  | .full workspace rootPath _ _ =>
    let configuration := analyzer.configuration
    match workspace.scan (Run.rootOf rootPath)
        ⟨configuration.ignorePatterns, configuration.respectGitignore⟩ with
    | .ok listing => some listing.files
    | .error _ => none
  | .incremental workspace files _ _ =>
    last.map fun state => (Run.plan workspace state.snapshot files).toExtract
  | .labels _ => none

variable {analyzer : Analyzer} {call : Call} {files : List String}

/-- A run that is cancelled before it starts finds nothing unless it has nothing to extract. -/
theorem find?_of_isCancelled (orderly : call.Orderly analyzer) (cancelled : call.isCancelled)
    {last : Option RunState} (toExtract : call.toExtract? analyzer last = some files) :
    ∃ found, call.find? analyzer last = some (if files = [] then .ok found
      else .error (.cancelled "Analysis cancelled during extraction")) := by
  cases call with
  | full workspace rootPath options course =>
    unfold Call.toExtract? at toExtract
    dsimp only at toExtract
    split at toExtract
    case h_2 => cases toExtract
    case h_1 listing isListing =>
    cases toExtract
    refine ⟨⟨.ofOutcomes (Run.rootOf rootPath) listing.rules [], .full, none⟩, ?_⟩
    rw [Call.find?, Run.findAll, isListing]
    refine congrArg some ?_
    change Run.extractAlong _ analyzer workspace _ options listing.files >>= _ = _
    rw [Run.extractAlong_of_cancelled (orderly_getD orderly) cancelled]
    split <;> rfl
  | incremental workspace named options course =>
    obtain ⟨state, rfl, rfl⟩ := Option.map_eq_some_iff.mp toExtract
    refine ⟨Run.findingsAfter workspace state named [], congrArg some ?_⟩
    rw [Run.findChanges, Run.extractAlong_of_cancelled (orderly_getD orderly) cancelled]
    split <;> rfl
  | labels input => cases cancelled

/-- A run that is cancelled before it starts publishes nothing if it has a file to extract, and
otherwise publishes its analysis. -/
theorem await_of_isCancelled {session : Session} (idle : session.Idle)
    (orderly : call.Orderly analyzer) (cancelled : call.isCancelled)
    (toExtract : call.toExtract? analyzer session.shared.state = some files) :
    (files ≠ [] →
      (session.await analyzer call).2 =
        .run (.error (.cancelled "Analysis cancelled during extraction")) ∧
      (session.await analyzer call).1.Alike session) ∧
    (files = [] → ∃ analysis,
      (session.await analyzer call).2 = .run (.ok analysis) ∧
      analysis.version = session.published.version + 1 ∧
      (session.await analyzer call).1.current = some analysis) := by
  obtain ⟨found, isFound⟩ := find?_of_isCancelled orderly cancelled toExtract
  obtain ⟨published, shared, reply⟩ := await_of_find idle isFound
  constructor
  · intro some
    rw [if_neg some] at published shared reply
    exact ⟨reply, published, shared⟩
  · intro none
    rw [if_pos none] at published shared reply
    exact ⟨_, reply, rfl, congrArg _ published⟩

/-- Whatever is asked of a session before and after, a run that is cancelled before it starts is
answered with the cancellation and changes nothing in the session that all calls before it have
left, if there is a file for it to extract. Otherwise its analysis is published. -/
theorem outcome_of_isCancelled (session : Session) (earlier later : List Moment)
    (orderly : call.Orderly analyzer) (cancelled : call.isCancelled)
    (toExtract :
      call.toExtract? analyzer (session.outcome analyzer earlier).1.shared.state = some files) :
    let before := (session.outcome analyzer earlier).1
    let reply? := (session.outcome analyzer
      (earlier ++ .call call :: later)).2[(calls earlier).length]?
    (files ≠ [] →
      reply? = some (.run (.error (.cancelled "Analysis cancelled during extraction"))) ∧
      (before.await analyzer call).1.Alike before) ∧
    (files = [] → ∃ analysis, reply? = some (.run (.ok analysis)) ∧
      analysis.version = before.published.version + 1 ∧
      (before.await analyzer call).1.current = some analysis) := by
  intro before reply?
  have isReply : reply? = some (before.await analyzer call).2 :=
    reply_outcome session analyzer earlier later call
  obtain ⟨busy, idle⟩ := await_of_isCancelled (idle_outcome session analyzer earlier) orderly
    cancelled toExtract
  constructor
  · intro some
    rw [isReply, (busy some).1]
    exact ⟨rfl, (busy some).2⟩
  · intro none
    obtain ⟨analysis, isAnswer, published⟩ := idle none
    rw [isReply, isAnswer]
    exact ⟨analysis, rfl, published⟩

/-- A code base with one file that cannot be read. -/
def unreadable : Workspace where
  scan _ _ := .ok ⟨["a.ts"], ⟨[]⟩⟩
  read path := .error (.fileAccess path none)
  holds _ := true
  extract _ _ filePath language := .error (.unsupported language filePath)

theorem state_unreadable : ∃ state,
    (start.outcome Move.plainAnalyzer
      [.call (.full unreadable "/repo" {} none)]).1.shared.state = some state ∧
    state.snapshot = .ofOutcomes "/repo" ⟨[]⟩
      [(Run.readerOf Move.plainAnalyzer unreadable "/repo").outcome "a.ts"] := by
  have isFound : (Call.full unreadable "/repo" {} none).find? Move.plainAnalyzer
      start.shared.state = _ := find?_full rfl rfl _
  rw [show Run.rootOf "/repo" = "/repo" by decide] at isFound
  exact ⟨_, congrArg Memory.state (await_of_find idle_start isFound).2.1, rfl⟩

/-- A run over a file that may have changed is cancelled while it waits for its turn. -/
theorem outcome_of_isCancelled_unreadable :
    let analyzer := Move.plainAnalyzer
    let earlier : List Moment := [.call (.full unreadable "/repo" {} none)]
    let call := Call.incremental unreadable ["/repo/a.ts"] { cancelled := true } none
    let before := (start.outcome analyzer earlier).1
    call.isCancelled ∧
    call.toExtract? analyzer before.shared.state = some ["a.ts"] ∧
    (start.outcome analyzer (earlier ++ [.call call, .start 1])).2[1]? =
      some (.run (.error (.cancelled "Analysis cancelled during extraction"))) ∧
    (before.await analyzer call).1.Alike before := by
  intro analyzer earlier call before
  obtain ⟨state, isState, isSnapshot⟩ := state_unreadable
  have toExtract : call.toExtract? analyzer before.shared.state = some ["a.ts"] := by
    rw [isState]
    change some (Run.plan unreadable state.snapshot ["/repo/a.ts"]).toExtract = some ["a.ts"]
    rw [isSnapshot]
    decide +kernel
  have orderly : call.Orderly analyzer := fun _ given => by cases given
  obtain ⟨cancelled, -⟩ := outcome_of_isCancelled start earlier [.start 1] orderly rfl toExtract
  exact ⟨rfl, toExtract, cancelled (List.cons_ne_nil _ _)⟩

/-- A run that is cancelled before it starts and has no changed file to look at is answered with an
analysis, which is published. -/
theorem outcome_of_isCancelled_no_file :
    let analyzer := Move.plainAnalyzer
    let before := (start.outcome analyzer [.call (.full unreadable "/repo" {} none)]).1
    let call := Call.incremental unreadable [] { cancelled := true } none
    call.isCancelled ∧ before.shared.state.isSome ∧
    ∃ analysis, (before.await analyzer call).2 = .run (.ok analysis) ∧
      analysis.version = before.published.version + 1 ∧
      (before.await analyzer call).1.current = some analysis := by
  intro analyzer before call
  obtain ⟨state, isState, -⟩ := state_unreadable
  have toExtract : call.toExtract? analyzer before.shared.state = some [] := by
    simp [isState, before, analyzer, call, Call.toExtract?, Run.plan, Run.changedPaths]
  have orderly : call.Orderly analyzer := fun _ given => by cases given
  have idle := idle_outcome start analyzer [.call (.full unreadable "/repo" {} none)]
  obtain ⟨-, published⟩ := await_of_isCancelled idle orderly rfl toExtract
  exact ⟨rfl, by rw [isState]; rfl, published rfl⟩

end Session
end CodeAtlas
