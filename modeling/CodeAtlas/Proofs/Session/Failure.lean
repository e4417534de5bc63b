import CodeAtlas.Proofs.Session.Call

/-!
# Calls that fail

A call that is answered with an error leaves the analyses, the version, what the last run left and
the labels as they were, at whatever point its run was cancelled. All other calls come to what they
would have come to without it.
-/

namespace CodeAtlas

/-! ## Builds that fail -/

/-- A build that leaves what is shared alone if it ends without a result. -/
def Build.Careful {σ ε ρ : Type} (build : Build σ ε ρ) : Prop :=
  ∀ version current shared, (build version current shared).1.result? = none →
    (build version current shared).2 = shared

namespace Run

theorem careful_fullAlong (course : Course) (analyzer : Analyzer) (workspace : Workspace)
    (rootPath : String) (options : RunOptions) :
    Build.Careful (fullAlong course analyzer workspace rootPath options) := by
  intro version current memory failed
  unfold fullAlong at failed ⊢
  dsimp only at failed ⊢
  split
  · rfl
  case h_2 listing isListing =>
    split
    · rfl
    case h_2 outcomes isOutcomes =>
      rw [isListing] at failed
      dsimp only at failed
      rw [isOutcomes] at failed
      cases failed

theorem careful_incrementalAlong (course : Course) (analyzer : Analyzer) (workspace : Workspace)
    (files : List String) (options : RunOptions) :
    Build.Careful (incrementalAlong course analyzer workspace files options) := by
  intro version current memory failed
  unfold incrementalAlong at failed ⊢
  split
  · rfl
  case h_2 state isState =>
    split
    · rfl
    case h_2 outcomes isOutcomes =>
      rw [isState] at failed
      dsimp only at failed
      rw [isOutcomes] at failed
      cases failed

theorem careful_applyLabels (analyzer : Analyzer) (requests : List LabelRequest) :
    Build.Careful (applyLabels analyzer requests) := by
  intro version current memory failed
  cases current with
  | none => rfl
  | some analysis => cases failed

end Run

namespace Session

variable {session left right : Session} {analyzer : Analyzer}

theorem careful_order {call : Call} {order : Order} (isOrder : call.order analyzer = .ok order) :
    Build.Careful order.build := by
  cases call with
  | full workspace rootPath options course =>
    cases isOrder
    exact Run.careful_fullAlong _ analyzer workspace rootPath options
  | incremental workspace files options course =>
    cases isOrder
    exact Run.careful_incrementalAlong _ analyzer workspace files options
  | labels input =>
    rw [Call.order] at isOrder
    split at isOrder <;> cases isOrder
    exact Run.careful_applyLabels analyzer _

theorem error?_tell {call : Call} {order : Order} (isOrder : call.order analyzer = .ok order)
    (analysis : Analysis) : (order.tell (.ok analysis)).error? = none := by
  cases call with
  | full workspace rootPath options course =>
    cases isOrder
    rfl
  | incremental workspace files options course =>
    cases isOrder
    rfl
  | labels input =>
    rw [Call.order] at isOrder
    split at isOrder <;> cases isOrder
    rfl

/-! ## Sessions that show the same -/

/-- Two sessions show the same to all who look at them and to all builds. -/
structure Alike (left right : Session) : Prop where
  /-- The current analysis, the previous one and so the version are the same. -/
  published : left.published = right.published
  /-- What the last run left, the labels and the readings of the clock are the same. -/
  shared : left.shared = right.shared

theorem Alike.refl (session : Session) : session.Alike session := ⟨rfl, rfl⟩

theorem Alike.attempt (alike : left.Alike right) (build : AnalysisBuild) :
    left.attempt build = right.attempt build := by
  rw [Line.attempt, alike.published, alike.shared, Line.attempt]

theorem Alike.perform (alike : left.Alike right) (leftIdle : left.Idle) (rightIdle : right.Idle)
    (build : AnalysisBuild) : (left.perform build).1.Alike (right.perform build).1 ∧
      (left.perform build).2 = (right.perform build).2 := by
  obtain ⟨leftPublished, leftShared, leftResult⟩ := perform_of_idle leftIdle build
  obtain ⟨rightPublished, rightShared, rightResult⟩ := perform_of_idle rightIdle build
  rw [alike.attempt] at leftPublished leftShared leftResult
  rw [alike.published] at leftPublished
  exact ⟨⟨leftPublished.trans rightPublished.symm, leftShared.trans rightShared.symm⟩,
    leftResult.trans rightResult.symm⟩

theorem Alike.await (alike : left.Alike right) (leftIdle : left.Idle) (rightIdle : right.Idle)
    (analyzer : Analyzer) (call : Call) :
    (left.await analyzer call).1.Alike (right.await analyzer call).1 ∧
      (left.await analyzer call).2 = (right.await analyzer call).2 := by
  cases isOrder : call.order analyzer with
  | error reply =>
    rw [await_of_refused isOrder, await_of_refused isOrder]
    exact ⟨alike, rfl⟩
  | ok order =>
    rw [await_of_order isOrder, await_of_order isOrder]
    obtain ⟨next, same⟩ := alike.perform leftIdle rightIdle order.build
    exact ⟨next, congrArg order.tell same⟩

theorem Alike.awaitAll (alike : left.Alike right) (leftIdle : left.Idle) (rightIdle : right.Idle)
    (analyzer : Analyzer) (calls : List Call) :
    (left.awaitAll analyzer calls).1.Alike (right.awaitAll analyzer calls).1 ∧
      (left.awaitAll analyzer calls).2 = (right.awaitAll analyzer calls).2 := by
  induction calls generalizing left right with
  | nil => exact ⟨alike, rfl⟩
  | cons call calls induction =>
    obtain ⟨next, sameReply⟩ := alike.await leftIdle rightIdle analyzer call
    obtain ⟨last, sameReplies⟩ :=
      induction next (idle_await leftIdle analyzer call) (idle_await rightIdle analyzer call)
    rw [awaitAll_cons, awaitAll_cons]
    exact ⟨last, congrArg₂ List.cons sameReply sameReplies⟩

/-! ## Calls that fail -/

/-- A call that fails in an idle session changes nothing that the session shows. -/
theorem alike_of_failed (idle : session.Idle) {call : Call}
    (failed : (session.await analyzer call).2.error?.isSome) :
    (session.await analyzer call).1.Alike session := by
  cases isOrder : call.order analyzer with
  | error reply =>
    rw [await_of_refused isOrder]
    exact .refl session
  | ok order =>
    rw [await_of_order isOrder] at failed ⊢
    obtain ⟨published, shared, result⟩ := perform_of_idle idle order.build
    rw [Prod.map_snd, result] at failed
    have unchanged : (session.attempt order.build).1.result? = none →
        (session.attempt order.build).2 = session.shared := careful_order isOrder _ _ _
    cases ended : (session.attempt order.build).1 with
    | done analysis => simp [ended, told, error?_tell isOrder] at failed
    | failed error =>
      rw [ended] at published unchanged
      exact ⟨published, shared.trans (unchanged rfl)⟩
    | broken message =>
      rw [ended] at published unchanged
      exact ⟨published, shared.trans (unchanged rfl)⟩

theorem calls_append (earlier later : List Moment) :
    calls (earlier ++ later) = calls earlier ++ calls later := by
  induction earlier with
  | nil => rfl
  | cons moment earlier induction => cases moment <;> simp [calls, induction]

theorem awaitAll_append (session : Session) (earlier later : List Call) :
    session.awaitAll analyzer (earlier ++ later) =
      (((session.awaitAll analyzer earlier).1.awaitAll analyzer later).1,
        (session.awaitAll analyzer earlier).2 ++
          ((session.awaitAll analyzer earlier).1.awaitAll analyzer later).2) := by
  induction earlier generalizing session with
  | nil => rfl
  | cons call earlier induction =>
    rw [List.cons_append, awaitAll_cons, awaitAll_cons, induction]
    rfl

theorem length_awaitAll (session : Session) (calls : List Call) :
    (session.awaitAll analyzer calls).2.length = calls.length := by
  induction calls generalizing session with
  | nil => rfl
  | cons call calls induction => rw [awaitAll_cons, List.length_cons, induction, List.length_cons]

theorem idle_awaitAll (idle : session.Idle) (analyzer : Analyzer) (calls : List Call) :
    (session.awaitAll analyzer calls).1.Idle := by
  induction calls generalizing session with
  | nil => exact idle
  | cons call calls induction => exact induction (idle_await idle analyzer call)

theorem idle_outcome (session : Session) (analyzer : Analyzer) (moments : List Moment) :
    (session.outcome analyzer moments).1.Idle := by
  rw [outcome_eq_awaitAll]
  exact idle_awaitAll (Line.idle_settle session) analyzer (calls moments)

/-- Once everything has ended, later calls have come after a call and earlier ones before it. -/
theorem outcome_append (session : Session) (analyzer : Analyzer) (earlier later : List Moment) :
    session.outcome analyzer (earlier ++ later) =
      (((session.outcome analyzer earlier).1.awaitAll analyzer (calls later)).1,
        (session.outcome analyzer earlier).2 ++
          ((session.outcome analyzer earlier).1.awaitAll analyzer (calls later)).2) := by
  rw [outcome_eq_awaitAll, calls_append, awaitAll_append, outcome_eq_awaitAll]

theorem length_outcome (session : Session) (analyzer : Analyzer) (moments : List Moment) :
    (session.outcome analyzer moments).2.length = (calls moments).length := by
  rw [outcome_eq_awaitAll, length_awaitAll]

/-- The reply to a call is given by what all calls before it have left. -/
theorem reply_outcome (session : Session) (analyzer : Analyzer) (earlier later : List Moment)
    (call : Call) :
    (session.outcome analyzer (earlier ++ .call call :: later)).2[(calls earlier).length]? =
      some ((session.outcome analyzer earlier).1.await analyzer call).2 := by
  rw [outcome_append, calls, awaitAll_cons, ← length_outcome session analyzer earlier,
    List.getElem?_append_right (Nat.le_refl _), Nat.sub_self, List.getElem?_cons_zero]

/-- If one of the calls made in a session is answered with an error, then the call changes nothing
in the session that all calls before it have left, and all other calls are answered, and the session
is left, as if that call had not been made. -/
theorem outcome_without_failed (analyzer : Analyzer) (session : Session)
    (earlier later : List Moment) (call : Call) {reply : Reply}
    (isReply :
      (session.outcome analyzer (earlier ++ .call call :: later)).2[(calls earlier).length]? =
        some reply)
    (failed : reply.error?.isSome) :
    ((session.outcome analyzer earlier).1.await analyzer call).1.Alike
      (session.outcome analyzer earlier).1 ∧
    (session.outcome analyzer (earlier ++ .call call :: later)).1.Alike
      (session.outcome analyzer (earlier ++ later)).1 ∧
    (session.outcome analyzer (earlier ++ .call call :: later)).2.eraseIdx (calls earlier).length =
      (session.outcome analyzer (earlier ++ later)).2 := by
  rw [reply_outcome] at isReply
  rw [← Option.some.inj isReply] at failed
  have idle := idle_outcome session analyzer earlier
  have unchanged := alike_of_failed idle failed
  obtain ⟨last, same⟩ :=
    unchanged.awaitAll (idle_await idle analyzer call) idle analyzer (calls later)
  refine ⟨unchanged, ?_, ?_⟩
  · rw [outcome_append, outcome_append, calls, awaitAll_cons]
    exact last
  · rw [outcome_append, outcome_append, calls, awaitAll_cons,
      ← length_outcome session analyzer earlier,
      List.eraseIdx_append_of_length_le (Nat.le_refl _), Nat.sub_self, List.eraseIdx_cons_zero,
      same]

/-- A run is cancelled while the run before it is under way, before its first file is looked at. -/
theorem outcome_without_failed_cancelled :
    let workspace : Workspace :=
      { scan := fun _ _ => .ok ⟨["a.ts"], ⟨[]⟩⟩
        read := fun path => .error (.fileAccess path none)
        holds := fun _ => false
        extract := fun _ _ filePath language => .error (.unsupported language filePath) }
    let earlier : List Moment := [.call (.full workspace "/repo" {} none), .start 0]
    let cancelled := Call.full workspace "/repo" {} (some fun _ _ => [.abort, .start 0])
    let later : List Moment :=
      [.finish 0, .call (.incremental workspace ["a.ts"] {} none), .start 1]
    let reply := Reply.run (.error (.cancelled "Analysis cancelled during extraction"))
    let analyzer := Move.plainAnalyzer
    (start.outcome analyzer (earlier ++ .call cancelled :: later)).2[(calls earlier).length]? =
      some reply ∧ reply.error?.isSome ∧
    (start.outcome analyzer (earlier ++ .call cancelled :: later)).1.Alike
      (start.outcome analyzer (earlier ++ later)).1 := by
  intro workspace earlier cancelled later reply analyzer
  have isReply : (start.outcome analyzer
      (earlier ++ .call cancelled :: later)).2[(calls earlier).length]? = some reply := by
    have isOrder : cancelled.order analyzer = .ok
        ⟨Run.fullAlong (fun _ _ => [.abort, .start 0]) analyzer workspace "/repo" {}, .run⟩ := rfl
    rw [reply_outcome, await_of_order isOrder, Prod.map_snd,
      (perform_of_idle (idle_outcome start analyzer earlier) _).2.2]
    rfl
  have failed : reply.error?.isSome := rfl
  obtain ⟨-, same, -⟩ :=
    outcome_without_failed analyzer start earlier later cancelled isReply failed
  exact ⟨isReply, failed, same⟩

end Session
end CodeAtlas
