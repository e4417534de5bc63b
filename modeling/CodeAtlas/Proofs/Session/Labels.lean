import CodeAtlas.Proofs.Session.Findings

/-!
# Labels along a history

Labels are kept beside what runs leave and go into the elements of an analysis at the very end. So a
history with labels comes to the same analyses as the history without them, apart from the labels,
and every analysis shows for each element the last label that its id was given.
-/

namespace CodeAtlas

/-! ## Elements with labels -/

namespace Element

/-- The facts about an element as a table. -/
def facts (element : Element) : Table String Json := ⟨element.metadata⟩

/-- An element with all that is known about it but its label. -/
def withoutLabel (element : Element) : Element :=
  { element with metadata := (element.facts.erase "label").entries }

/-- An element as it was extracted, apart from the label that it is shown with. -/
structure Carries (shown extracted : Element) (label : Label) : Prop where
  /-- The label is among the facts. -/
  label_eq : shown.fact? "label" = some label.toJson
  /-- All other facts are as they were. -/
  facts_eq : ∀ name, name ≠ "label" → shown.fact? name = extracted.fact? name
  /-- All that is not a fact is as it was. -/
  fields_eq : { shown with metadata := extracted.metadata } = extracted

theorem withLabel_some (element : Element) (label : Label) : element.withLabel (some label) =
    { element with metadata := (element.facts.put "label" label.toJson).entries } := by
  rw [withLabel, Json.putMember, Table.put]
  change _ = { element with metadata := (if element.metadata.any (·.1 = "label") then
    (⟨_⟩ : Table String Json) else ⟨_⟩).entries }
  split <;> rfl

theorem carries_withLabel (element : Element) (label : Label) :
    (element.withLabel (some label)).Carries element label := by
  rw [withLabel_some]
  exact ⟨Table.get?_put_self _ _ _, fun _ other => Table.get?_put_of_ne _ other _, rfl⟩

@[simp]
theorem id_withLabel (element : Element) (label : Option Label) :
    (element.withLabel label).id = element.id := by
  cases label <;> rfl

/-- A later label takes the place of an earlier one. -/
theorem withLabel_withLabel (element : Element) {earlier later : Option Label}
    (kept : later = none → earlier = none) :
    (element.withLabel earlier).withLabel later = element.withLabel later := by
  cases later with
  | none => rw [kept rfl, withLabel]
  | some label =>
    cases earlier with
    | none => rfl
    | some other =>
      rw [withLabel_some, withLabel_some, withLabel_some]
      exact congrArg (fun table : Table String Json => { element with metadata := table.entries })
        (Table.put_put _ _ _ _)

theorem withoutLabel_withLabel (element : Element) (label : Option Label) :
    (element.withLabel label).withoutLabel = element.withoutLabel := by
  cases label with
  | none => rfl
  | some label =>
    rw [withLabel_some]
    exact congrArg (fun table : Table String Json => { element with metadata := table.entries })
      (Table.erase_put _ _ _)

end Element

/-! ## The same runs with and without labels -/

/-- Two analyses are the same but for labels, versions, times and what their graphs remember. -/
structure Analysis.SameButLabels (left right : Analysis) : Prop where
  /-- Their elements are the same but for labels. -/
  elements : left.elements.map Element.withoutLabel = right.elements.map Element.withoutLabel
  /-- Apart from elements they agree. -/
  agree : { left with elements := right.elements }.Agree right

/-- Elements with the labels that their ids have. -/
def Element.showLabels (label : String → Option Label) (elements : List Element) : List Element :=
  elements.map fun element => element.withLabel (label element.id)

theorem Element.sortBy_showLabels (label : String → Option Label) (elements : List Element) :
    Text.sortBy Element.id (showLabels label elements) =
      showLabels label (Text.sortBy Element.id elements) := by
  rw [Text.sortBy, Text.sortBy, showLabels, showLabels, List.map_mergeSort]
  simp

theorem Element.map_withoutLabel_showLabels (label : String → Option Label)
    (elements : List Element) :
    (showLabels label elements).map withoutLabel = elements.map withoutLabel := by
  rw [showLabels, List.map_map]
  exact List.map_congr_left fun element _ => withoutLabel_withLabel element _

theorem Element.showLabels_showLabels {earlier later : String → Option Label}
    (kept : ∀ id, later id = none → earlier id = none) (elements : List Element) :
    showLabels later (showLabels earlier elements) = showLabels later elements := by
  rw [showLabels, showLabels, showLabels, List.map_map]
  refine List.map_congr_left fun element _ => ?_
  rw [Function.comp_apply, id_withLabel]
  exact withLabel_withLabel element (kept element.id)

theorem Element.map_id_showLabels (label : String → Option Label) (elements : List Element) :
    (showLabels label elements).map Element.id = elements.map Element.id := by
  rw [showLabels, List.map_map]
  exact List.map_congr_left fun element _ => id_withLabel element _

theorem Analyzer.elements_analysisOf (analyzer : Analyzer) (labels : Table String Label)
    (state : RunState) (mode : AnalysisMode) (version : Nat) (createdAt : Instant) :
    (analyzer.analysisOf labels state mode version createdAt).elements =
      Element.showLabels labels.get? (Text.sortBy Element.id (elementsOf state)) :=
  Element.sortBy_showLabels labels.get? (elementsOf state)

/-- One state gives the same analyses with any labels. -/
theorem Analyzer.sameButLabels_analysisOf (analyzer : Analyzer) (left right : Table String Label)
    (state : RunState) (mode : AnalysisMode) (leftVersion rightVersion : Nat)
    (leftTime rightTime : Instant) :
    (analyzer.analysisOf left state mode leftVersion leftTime).SameButLabels
      (analyzer.analysisOf right state mode rightVersion rightTime) := by
  refine ⟨?_, ⟨rfl, rfl, rfl, rfl, rfl, rfl, rfl, rfl, rfl, rfl⟩⟩
  rw [elements_analysisOf, elements_analysisOf, Element.map_withoutLabel_showLabels,
    Element.map_withoutLabel_showLabels]

namespace Session

variable {analyzer : Analyzer} {session left right : Session}

/-- Two replies to a run are the same but for labels, versions and times. -/
def Reply.SameButLabels : Reply → Reply → Prop
  | .run (.ok left), .run (.ok right) => left.SameButLabels right
  | .run (.error left), .run (.error right) => left = right
  | _, _ => False

/-- Whether a call asks for a run. -/
def Call.isRun : Call → Bool
  | .full .. => true
  | .incremental .. => true
  | .labels _ => false

/-- The replies to the runs among some calls. -/
def runReplies (calls : List Call) (replies : List Reply) : List Reply :=
  ((calls.zip replies).filter (·.1.isRun)).map Prod.snd

theorem runReplies_cons {call : Call} (isRun : call.isRun) (calls : List Call) (reply : Reply)
    (replies : List Reply) :
    runReplies (call :: calls) (reply :: replies) = reply :: runReplies calls replies := by
  simp [runReplies, isRun]

theorem Call.exists_find? {call : Call} (isRun : call.isRun) (analyzer : Analyzer)
    (last : Option RunState) : ∃ found, call.find? analyzer last = some found := by
  cases call with
  | full workspace rootPath options course => exact ⟨_, rfl⟩
  | incremental workspace files options course => exact ⟨_, rfl⟩
  | labels input => cases isRun

theorem Call.isRun_or_labels (call : Call) : call.isRun ∨ ∃ input, call = .labels input := by
  cases call with
  | full workspace rootPath options course => exact .inl rfl
  | incremental workspace files options course => exact .inl rfl
  | labels input => exact .inr ⟨input, rfl⟩

theorem sameButLabels_endWith (analyzer : Analyzer) (found : Except AnalysisError Run.Findings)
    {leftMemory rightMemory : Memory} (same : leftMemory.state = rightMemory.state)
    (leftVersion rightVersion : Nat) :
    (Run.endWith analyzer leftVersion leftMemory found).2.state =
        (Run.endWith analyzer rightVersion rightMemory found).2.state ∧
      (Reply.run (told (Run.endWith analyzer leftVersion leftMemory found).1)).SameButLabels
        (.run (told (Run.endWith analyzer rightVersion rightMemory found).1)) := by
  cases found with
  | error error => exact ⟨same, rfl⟩
  | ok found => exact ⟨rfl, analyzer.sameButLabels_analysisOf ..⟩

/-- Two idle sessions whose last runs have left the same. -/
structure Parallel (left right : Session) : Prop where
  /-- Nothing is left to do in the first one. -/
  leftIdle : left.Idle
  /-- Nothing is left to do in the second one. -/
  rightIdle : right.Idle
  /-- The last run has left the same in both. -/
  state : left.shared.state = right.shared.state

theorem Parallel.run (parallel : left.Parallel right) (analyzer : Analyzer) {call : Call}
    (isRun : call.isRun) : (left.await analyzer call).1.Parallel (right.await analyzer call).1 ∧
      (left.await analyzer call).2.SameButLabels (right.await analyzer call).2 := by
  obtain ⟨found, isFound⟩ := Call.exists_find? isRun analyzer left.shared.state
  obtain ⟨_, leftShared, leftReply⟩ := await_of_find parallel.leftIdle isFound
  rw [parallel.state] at isFound
  obtain ⟨_, rightShared, rightReply⟩ := await_of_find parallel.rightIdle isFound
  obtain ⟨state, reply⟩ := sameButLabels_endWith analyzer found parallel.state
    (left.published.version + 1) (right.published.version + 1)
  rw [leftReply, rightReply]
  exact ⟨⟨idle_await parallel.leftIdle analyzer call, idle_await parallel.rightIdle analyzer call,
    by rw [leftShared, rightShared, state]⟩, reply⟩

theorem state_applyLabels (analyzer : Analyzer) (requests : List LabelRequest) (version : Nat)
    (current : Option Analysis) (memory : Memory) :
    (Run.applyLabels analyzer requests version current memory).2.state = memory.state := by
  cases current <;> rfl

/-- Labels leave alone what the last run has left. -/
theorem state_await_labels (idle : session.Idle) (analyzer : Analyzer) (input : Option Json) :
    (session.await analyzer (.labels input)).1.shared.state = session.shared.state := by
  cases isOrder : (Call.labels input).order analyzer with
  | error reply => rw [await_of_refused isOrder]
  | ok order =>
    rw [await_of_order isOrder, Prod.map_fst, id, (perform_of_idle idle _).2.1]
    rw [Call.order] at isOrder
    split at isOrder <;> cases isOrder
    exact state_applyLabels ..

theorem Parallel.labels (parallel : left.Parallel right) (input : Option Json) :
    (left.await analyzer (.labels input)).1.Parallel right :=
  ⟨idle_await parallel.leftIdle analyzer _, parallel.rightIdle,
    (state_await_labels parallel.leftIdle analyzer input).trans parallel.state⟩

/-- Runs come to the same in a history with labels and in the history without them. -/
theorem Parallel.awaitAll (parallel : left.Parallel right) (analyzer : Analyzer)
    (calls : List Call) :
    (left.awaitAll analyzer calls).1.Parallel
        (right.awaitAll analyzer (calls.filter Call.isRun)).1 ∧
      List.Forall₂ Reply.SameButLabels (runReplies calls (left.awaitAll analyzer calls).2)
        (right.awaitAll analyzer (calls.filter Call.isRun)).2 := by
  induction calls generalizing left right with
  | nil => exact ⟨parallel, .nil⟩
  | cons call calls induction =>
    rw [awaitAll_cons]
    rcases call.isRun_or_labels with isRun | ⟨input, rfl⟩
    · obtain ⟨next, reply⟩ := parallel.run analyzer isRun
      obtain ⟨last, replies⟩ := induction next
      rw [List.filter_cons_of_pos isRun, awaitAll_cons, runReplies_cons isRun]
      exact ⟨last, .cons reply replies⟩
    · obtain ⟨last, replies⟩ := induction (parallel.labels input)
      exact ⟨last, replies⟩

/-! ## The last label of each element -/

/-- The label that the last request for an id gives. -/
def lastLabel (requests : List LabelRequest) (id : String) : Option Label :=
  (requests.reverse.find? (·.elementId = id)).map LabelRequest.label

/-- The labels that a call has given, as its caller is told: those for ids that are not unknown. -/
def Call.given : Call → Reply → List LabelRequest
  | .labels input, .labels (.ok outcome) =>
    match (LabelRequest.readAll input).result with
    | .ok requests => requests.filter fun request => !outcome.unknown.contains request.elementId
    | .error _ => []
  | _, _ => []

/-- The labels that have been given in a history, in order. -/
def givenLabels (calls : List Call) (replies : List Reply) : List LabelRequest :=
  (calls.zip replies).flatMap fun entry => entry.1.given entry.2

theorem lastLabel_append (earlier later : List LabelRequest) (id : String) :
    lastLabel (earlier ++ later) id = (lastLabel later id).or (lastLabel earlier id) := by
  rw [lastLabel, List.reverse_append, List.find?_append]
  cases found : later.reverse.find? (·.elementId = id) <;> simp [lastLabel, found]

theorem get?_putAll_requests (labels : Table String Label) (requests : List LabelRequest)
    (id : String) :
    (labels.putAll (requests.map fun request => (request.elementId, request.label))).get? id =
      (lastLabel requests id).or (labels.get? id) := by
  rw [Table.get?_putAll, ← List.map_reverse, List.find?_map, Option.map_map]
  rfl

theorem filter_notUnknown (analysis : Analysis) (requests : List LabelRequest) :
    (requests.filter fun request =>
        !(Run.splitRequests analysis requests).2.contains request.elementId) =
      (Run.splitRequests analysis requests).1 := by
  refine List.filter_congr fun request member => ?_
  rw [Bool.not_eq_eq_eq_not, Bool.eq_iff_iff, List.contains_iff_mem]
  simp only [Run.splitRequests, List.mem_map, List.mem_filter]
  constructor
  · rintro ⟨other, ⟨_, unknown⟩, same⟩
    rwa [same] at unknown
  · exact fun unknown => ⟨request, ⟨member, unknown⟩, rfl⟩

/-- What a session shows after some labels: they are all remembered, and the elements of the current
analysis are those of the last run, each with the last label of its id. -/
structure Wears (session : Session) (requests : List LabelRequest) : Prop where
  /-- Nothing is left to do. -/
  idle : session.Idle
  /-- Labels are remembered. -/
  labels : ∀ id, session.shared.labels.get? id = lastLabel requests id
  /-- The current analysis has the elements of the last run with their labels. -/
  elements : ∀ analysis, session.current = some analysis → ∃ state,
    session.shared.state = some state ∧ analysis.elements =
      Element.showLabels (lastLabel requests) (Text.sortBy Element.id (Analyzer.elementsOf state))

theorem wears_start : start.Wears [] :=
  ⟨idle_start, fun _ => rfl, fun _ none => by cases none⟩

theorem Call.given_of_isRun {call : Call} (isRun : call.isRun) (reply : Reply) :
    call.given reply = [] := by
  cases call with
  | full workspace rootPath options course => rfl
  | incremental workspace files options course => rfl
  | labels input => cases isRun

theorem Wears.run {requests : List LabelRequest} (wears : session.Wears requests)
    (analyzer : Analyzer) {call : Call} (isRun : call.isRun) :
    (session.await analyzer call).1.Wears requests := by
  have idle := idle_await wears.idle analyzer call
  obtain ⟨found, isFound⟩ := Call.exists_find? isRun analyzer session.shared.state
  obtain ⟨published, shared, _⟩ := await_of_find wears.idle isFound
  cases found with
  | error error =>
    refine ⟨idle, fun id => ?_, fun analysis isCurrent => ?_⟩
    · rw [shared]
      exact wears.labels id
    · rw [current, published] at isCurrent
      rw [shared]
      exact wears.elements analysis isCurrent
  | ok found =>
    refine ⟨idle, fun id => ?_, fun analysis isCurrent => ?_⟩
    · rw [shared]
      exact wears.labels id
    · rw [current, published] at isCurrent
      rw [shared, ← Option.some.inj isCurrent]
      refine ⟨_, rfl, (analyzer.elements_analysisOf ..).trans ?_⟩
      rw [funext wears.labels]
      rfl

theorem applyLabels_of_current (analyzer : Analyzer) (requests : List LabelRequest) (version : Nat)
    (analysis : Analysis) (memory : Memory) :
    let known := (Run.splitRequests analysis requests).1
    let labels := memory.labels.putAll (known.map fun request =>
      (request.elementId, request.label))
    ∃ next, Run.applyLabels analyzer requests version (some analysis) memory =
        (.done next, { memory with labels := labels, readings := memory.readings + 1 }) ∧
      next.elements = Element.showLabels labels.get? analysis.elements :=
  ⟨_, rfl, rfl⟩

/-- The labels that a call gives are those for elements of the analysis that is current. -/
theorem given_labels {input : Option Json} {added : List LabelRequest}
    (isRead : (LabelRequest.readAll input).result = .ok added) {before after : Analysis}
    (sameIds : after.elements.map Element.id = before.elements.map Element.id) (applied : Nat) :
    (Call.labels input).given
        (.labels (.ok ⟨after, applied, (Run.splitRequests after added).2⟩)) =
      (Run.splitRequests before added).1 := by
  have sameSplit : Run.splitRequests after added = Run.splitRequests before added := by
    rw [Run.splitRequests, Run.splitRequests, sameIds]
  rw [Call.given, isRead, sameSplit]
  exact filter_notUnknown before added

/-- What a call with labels that can be read requests. -/
theorem order_labels (analyzer : Analyzer) {input : Option Json} {added : List LabelRequest}
    (isRead : (LabelRequest.readAll input).result = .ok added) :
    ∃ order, (Call.labels input).order analyzer = .ok order ∧
      order.build = Run.applyLabels analyzer added ∧
      ∀ result, order.tell result = .labels (result.map fun analysis =>
        ⟨analysis, (Run.splitRequests analysis added).1.length,
          (Run.splitRequests analysis added).2⟩) := by
  rw [Call.order, isRead]
  exact ⟨_, rfl, rfl, fun _ => rfl⟩

/-- Labels for known elements are shown in the next analysis and from then on. -/
theorem Wears.labelled {requests : List LabelRequest} (wears : session.Wears requests)
    (analyzer : Analyzer) {input : Option Json} {added : List LabelRequest}
    (isRead : (LabelRequest.readAll input).result = .ok added) :
    (session.await analyzer (.labels input)).1.Wears
      (requests ++ (Call.labels input).given (session.await analyzer (.labels input)).2) := by
  have idle := idle_await wears.idle analyzer (.labels input)
  obtain ⟨order, isOrder, build_eq, tell_eq⟩ := order_labels analyzer isRead
  rw [await_of_order isOrder, build_eq] at idle ⊢
  obtain ⟨published, shared, result⟩ :=
    perform_of_idle wears.idle (Run.applyLabels analyzer added)
  rw [Prod.map_fst, id] at idle ⊢
  rw [Prod.map_snd, result, tell_eq]
  cases isCurrent : session.published.current with
  | none =>
    -- Without an analysis there is nothing to label, and no labels are given.
    have unchanged : session.attempt (Run.applyLabels analyzer added) =
        (.failed (.configuration "No analysis to label; run a full analysis first" []),
          session.shared) := by
      rw [Line.attempt, isCurrent]
      rfl
    rw [unchanged] at published shared ⊢
    refine ⟨idle, fun id => ?_, fun analysis isShown => ?_⟩
    · rw [shared]
      exact (wears.labels id).trans (by simp [told, Except.map, Call.given])
    · rw [current, published] at isShown
      exact absurd (isCurrent.symm.trans isShown) (by simp)
  | some analysis =>
    obtain ⟨next, done, nextElements⟩ := applyLabels_of_current analyzer added
      (session.published.version + 1) analysis session.shared
    rw [← isCurrent] at done
    change session.attempt (Run.applyLabels analyzer added) = _ at done
    have sameIds : next.elements.map Element.id = analysis.elements.map Element.id := by
      rw [nextElements, Element.map_id_showLabels]
    have remembered (id : String) :
        (session.shared.labels.putAll ((Run.splitRequests analysis added).1.map fun request =>
          (request.elementId, request.label))).get? id =
            lastLabel (requests ++ (Run.splitRequests analysis added).1) id := by
      rw [get?_putAll_requests, wears.labels, lastLabel_append]
    rw [done] at published shared ⊢
    simp only [told, Except.map, given_labels isRead sameIds]
    refine ⟨idle, fun id => ?_, fun shown isShown => ?_⟩
    · rw [shared]
      exact remembered id
    · rw [current, published] at isShown
      obtain ⟨state, isState, elements⟩ := wears.elements analysis isCurrent
      refine ⟨state, by rw [shared]; exact isState, ?_⟩
      rw [← Option.some.inj isShown, nextElements, elements, funext remembered]
      -- An id never loses its label, so the later labels take the place of all earlier ones.
      refine Element.showLabels_showLabels (fun id none => ?_) _
      rw [lastLabel_append, Option.or_eq_none_iff] at none
      exact none.2

theorem Wears.await {requests : List LabelRequest} (wears : session.Wears requests)
    (analyzer : Analyzer) (call : Call) :
    (session.await analyzer call).1.Wears
      (requests ++ call.given (session.await analyzer call).2) := by
  rcases call.isRun_or_labels with isRun | ⟨input, rfl⟩
  · rw [Call.given_of_isRun isRun, List.append_nil]
    exact wears.run analyzer isRun
  · cases isRead : (LabelRequest.readAll input).result with
    | ok added => exact wears.labelled analyzer isRead
    | error issues =>
      have refused : (Call.labels input).order analyzer = .error (.labels (.error
          (.configuration "Invalid labels" (issues.map Schema.Issue.located)))) := by
        rw [Call.order, isRead]
      rw [await_of_refused refused, Call.given, List.append_nil]
      · exact wears
      · simp

theorem Wears.awaitAll {requests : List LabelRequest} (wears : session.Wears requests)
    (analyzer : Analyzer) (calls : List Call) :
    (session.awaitAll analyzer calls).1.Wears
      (requests ++ givenLabels calls (session.awaitAll analyzer calls).2) := by
  induction calls generalizing session requests with
  | nil =>
    rw [givenLabels, List.zip_nil_left, List.flatMap_nil, List.append_nil]
    exact wears
  | cons call calls induction =>
    have last := induction (wears.await analyzer call)
    rw [List.append_assoc] at last
    exact last

/-- How an element is shown after some labels: with the last label of its id, or as it was. -/
def ShownAfter (requests : List LabelRequest) (extracted shown : Element) : Prop :=
  match lastLabel requests extracted.id with
  | some label => shown.Carries extracted label
  | none => shown = extracted

theorem shownAfter_withLabel (requests : List LabelRequest) (element : Element) :
    ShownAfter requests element (element.withLabel (lastLabel requests element.id)) := by
  rw [ShownAfter]
  cases lastLabel requests element.id with
  | none => rfl
  | some label => exact element.carries_withLabel label

/-- Runs come to the same, apart from labels, whether or not labels are given between them. After
every history the current analysis has the elements that the last run found, each of them with the
last label that its id was given, or as it was extracted if its id was given none; and the last run
has left what it leaves without labels. -/
theorem awaitAll_labels (analyzer : Analyzer) (calls : List Call) :
    let (session, replies) := start.awaitAll analyzer calls
    let (bare, bareReplies) := start.awaitAll analyzer (calls.filter Call.isRun)
    List.Forall₂ Reply.SameButLabels (runReplies calls replies) bareReplies ∧
    session.shared.state = bare.shared.state ∧
    ∀ analysis, session.current = some analysis → ∃ state, session.shared.state = some state ∧
      List.Forall₂ (ShownAfter (givenLabels calls replies))
        (Text.sortBy Element.id (Analyzer.elementsOf state)) analysis.elements := by
  have parallel : start.Parallel start := ⟨idle_start, idle_start, rfl⟩
  obtain ⟨last, replies⟩ := parallel.awaitAll analyzer calls
  refine ⟨replies, last.state, fun analysis isCurrent => ?_⟩
  have wears := wears_start.awaitAll analyzer calls
  rw [List.nil_append] at wears
  obtain ⟨state, isState, elements⟩ := wears.elements analysis isCurrent
  refine ⟨state, isState, ?_⟩
  rw [elements, Element.showLabels, List.forall₂_map_right_iff, List.forall₂_same]
  exact fun element _ => shownAfter_withLabel _ element

end Session
end CodeAtlas
