import CodeAtlas.Proofs.Collector

/-!
# Steps of a collector

A collector is used step by step, and a step that fails leaves behind whatever it has changed before
it failed. No step changes anything before it fails, so that ids stay distinct and elements stay in
the order they were added in, whichever steps fail. Bindings are read at the end only, so that it
does not matter when they are recorded.
-/

namespace CodeAtlas

/-- What never changes about an element that is being collected: its id, name, qualified name and
kind. -/
def Handle.label (handle : Handle) : String × String × String × ElementKind :=
  (handle.id, handle.name, handle.qualifiedName, handle.kind)

/-- The id, name, qualified name and kind of an element. -/
def Element.label (element : Element) : String × String × String × ElementKind :=
  (element.id, element.name, element.qualifiedName, element.kind)

namespace Collector

/-- Whom a new element belongs to. -/
inductive Parent where
  /-- An element of the collector, as it is by then. -/
  | own (id : String)
  /-- An element known by a handle from elsewhere. -/
  | foreign (handle : Handle)

/-- The handle of a parent. -/
def Parent.handle (collector : Collector) : Parent → Except Error Handle
  | own id => collector.handle id
  | foreign handle => .ok handle

/-- Something that is done to a collector. -/
inductive Step where
  /-- Adds an element below a parent. -/
  | add (parent : Parent) (declaration : Declaration)
  /-- Enters a package. -/
  | enterPackage (name : String) (line : Nat)
  /-- Records a reference of the element with an id. -/
  | reference (id : String) (kind : ReferenceKind) (target : String) (line : Nat)
  /-- Adds a qualifying word to the element with an id. -/
  | addModifier (id modifier : String)
  /-- Records what a local name stands for. -/
  | bind (name target : String)
  /-- Looks for an element. -/
  | find (qualifiedName : String) (kinds : List ElementKind)

/-- What is done to a collector one change after another: a failure ends it, and the changes made
before it stay. -/
abbrev Action := ExceptT Error (StateM Collector)

namespace Action

/-- Changes the element with an id. -/
def change (id : String) (edit : Draft → Draft) : Action Unit := do
  match (← get).modify id edit with
  | .ok next => set next
  | .error error => throw error

/-- Adds an element below the one with a handle. -/
def insert (parent : Handle) (declaration : Declaration) : Action Handle := do
  let (next, handle) := (← get).add parent declaration
  set next
  return handle

variable {α β : Type} (collector : Collector)

@[simp]
theorem run_pure (value : α) : (pure value : Action α).run collector = (.ok value, collector) := rfl

@[simp]
theorem run_get : (get : Action Collector).run collector = (.ok collector, collector) := rfl

@[simp]
theorem run_set (next : Collector) : (set next : Action PUnit).run collector = (.ok (), next) := rfl

@[simp]
theorem run_throw (error : Error) :
    (throw error : Action α).run collector = (.error error, collector) := rfl

/-- What follows a failure is not done, and what has been changed by then stays. -/
@[simp]
theorem run_bind (first : Action α) (rest : α → Action β) :
    (first >>= rest).run collector =
      match first.run collector with
      | (.ok value, next) => (rest value).run next
      | (.error error, next) => (.error error, next) := by
  change (match first.run collector with
    | (outcome, next) => (ExceptT.bindCont rest outcome : StateM Collector _) next) = _
  obtain ⟨outcome, next⟩ := first.run collector
  cases outcome <;> rfl

theorem run_change (id : String) (edit : Draft → Draft) :
    (change id edit).run collector =
      match collector.modify id edit with
      | .ok next => (.ok (), next)
      | .error error => (.error error, collector) := by
  rw [change, run_bind, run_get]
  dsimp only
  cases collector.modify id edit <;> rfl

@[simp]
theorem run_insert (parent : Handle) (declaration : Declaration) :
    (insert parent declaration).run collector =
      (.ok (collector.add parent declaration).2, (collector.add parent declaration).1) := rfl

end Action

namespace Step

/-- The changes of a step in their order, and the handle it answers with, if any. -/
def perform : Step → Action (Option Handle)
  | add parent declaration => do
    match parent.handle (← get) with
    | .ok handle => return some (← Action.insert handle declaration)
    | .error error => throw error
  | enterPackage name line => do
    set { (← get) with currentModule := name }
    Action.change (← get).root.id fun draft => { draft with moduleName := name, scope := name }
    return some (← Action.insert (← get).rootHandle
      { name := Text.lastPiece '.' name
        kind := .package
        startLine := line
        endLine := line
        qualifiedName := some name })
  | reference id kind target line => do
    let trimmed := Text.trim target
    if trimmed ≠ "" then
      Action.change id fun draft =>
        { draft with references := draft.references ++ [⟨kind, trimmed, line⟩] }
    return none
  | addModifier id modifier => do
    Action.change id fun draft =>
      { draft with modifiers := (draft.modifiers ++ [modifier]).eraseDups }
    return none
  | bind name target => do
    set ((← get).bind name target)
    return none
  | find qualifiedName kinds => do
    return (← get).find? qualifiedName kinds

/-- The outcome of a step and the collector it leaves behind. -/
def run (step : Step) (collector : Collector) : Except Error (Option Handle) × Collector :=
  step.perform.run collector

variable (collector : Collector)

theorem run_add_of_handle {collector : Collector} {parent : Parent} {handle : Handle}
    (isParent : parent.handle collector = .ok handle) (declaration : Declaration) :
    (add parent declaration).run collector =
      (.ok (some (collector.add handle declaration).2), (collector.add handle declaration).1) := by
  rw [run, perform, Action.run_bind, Action.run_get]
  dsimp only
  rw [isParent]
  rfl

theorem run_add_of_error {collector : Collector} {parent : Parent} {error : Error}
    (missing : parent.handle collector = .error error) (declaration : Declaration) :
    (add parent declaration).run collector = (.error error, collector) := by
  rw [run, perform, Action.run_bind, Action.run_get]
  dsimp only
  rw [missing]
  rfl

/-- The element of the file is always there, so that a package can always be entered. -/
theorem run_enterPackage (name : String) (line : Nat) :
    (enterPackage name line).run collector =
      (.ok (some (collector.enterPackage name line).2), (collector.enterPackage name line).1) := by
  have changed (edit : Draft → Draft) :
      (Action.change collector.root.id edit).run { collector with currentModule := name } =
        (.ok (), { collector with currentModule := name, root := edit collector.root }) := by
    rw [Action.run_change, Collector.modify, if_pos rfl]
  simp only [run, perform, Action.run_bind, Action.run_get, Action.run_set, changed]
  rfl

/-- What a change that answers nothing leaves behind. -/
def settle (collector : Collector) :
    Except Error Collector → Except Error (Option Handle) × Collector
  | .ok next => (.ok none, next)
  | .error error => (.error error, collector)

theorem run_reference (id : String) (kind : ReferenceKind) (target : String) (line : Nat) :
    (reference id kind target line).run collector =
      settle collector (collector.reference id kind target line) := by
  rw [Collector.reference]
  by_cases blank : Text.trim target = ""
  · simp [run, perform, blank, settle]
  · simp only [run, perform, blank, ne_eq, not_false_eq_true, if_true, if_false, Action.run_bind,
      Action.run_change]
    cases collector.modify id _ <;> rfl

theorem run_addModifier (id modifier : String) :
    (addModifier id modifier).run collector =
      settle collector (collector.addModifier id modifier) := by
  rw [Collector.addModifier]
  simp only [run, perform, Action.run_bind, Action.run_change]
  cases collector.modify id _ <;> rfl

theorem run_bind (name target : String) :
    (bind name target).run collector = (.ok none, collector.bind name target) := rfl

/-- Whether a step records a binding. -/
def isBind : Step → Bool
  | bind .. => true
  | _ => false

/-- The elements that a step with an answer has added. -/
def added : Step → Except Error (Option Handle) → List Handle
  | add .., .ok (some handle) | enterPackage .., .ok (some handle) => [handle]
  | _, _ => []

end Step

/-- The collector that steps leave behind, the failing ones included. -/
def after (collector : Collector) (steps : List Step) : Collector :=
  steps.foldl (fun collector step => (step.run collector).2) collector

/-- The elements that steps add, in their order. -/
def added (collector : Collector) : List Step → List Handle
  | [] => []
  | step :: rest =>
    step.added (step.run collector).1 ++ added (step.run collector).2 rest

theorem after_append (collector : Collector) (left right : List Step) :
    collector.after (left ++ right) = (collector.after left).after right :=
  List.foldl_append

/-! ## Ids of new elements -/

/-- The id that a new element gets: the plain one if it is free, else the one with the least number
from two on that is free. -/
def FirstFree (ids : List String) (plain id : String) : Prop :=
  plain ∉ ids ∧ id = plain ∨
    plain ∈ ids ∧ ∃ number, 2 ≤ number ∧ id = s!"{plain}~{number}" ∧ id ∉ ids ∧
      ∀ smaller, 2 ≤ smaller → smaller < number → s!"{plain}~{smaller}" ∈ ids

theorem firstFree_freeId (collector : Collector) (plain : String) :
    FirstFree collector.ids plain (collector.freeId plain) := by
  have isFree := freeId_notMem collector plain
  rw [freeId] at isFree ⊢
  split at isFree
  case isTrue isTaken =>
    rw [if_pos isTaken]
    obtain ⟨number, same, above, taken, -, -⟩ :=
      exists_numberedId collector plain collector.drafts.length 2
    exact .inr ⟨hasId_iff.mp isTaken, number, above, same, isFree, taken⟩
  case isFalse isNew =>
    rw [if_neg isNew]
    exact .inl ⟨isFree, rfl⟩

/-! ## Elements in order -/

section Labels

variable {collector next : Collector} {id : String} {edit : Draft → Draft}

theorem modify_of_notMem (absent : id ∉ collector.ids) (edit : Draft → Draft) :
    collector.modify id edit = .error (.unknownElement id collector.filePath) := by
  have notRoot : ¬ collector.root.id = id := fun same => absent (same ▸ root_mem_ids collector)
  rw [modify, if_neg notRoot, if_neg (mt hasId_iff.mp absent)]

theorem map_drafts_of_modify {α : Type} {view : Draft → α}
    (done : collector.modify id edit = .ok next)
    (same : ∀ draft, view (edit draft) = view draft) :
    next.drafts.map view = collector.drafts.map view := by
  unfold modify at done
  split at done
  · cases done
    simp only [drafts, List.map_cons, same]
  · split at done
    · cases done
      simp only [drafts, List.map_cons, List.map_map]
      congr 1
      refine List.map_congr_left fun draft _ => ?_
      rw [Function.comp_apply]
      split
      · exact same draft
      · rfl
    · cases done

/-- The labels of the elements in the order they were added. -/
def labels (collector : Collector) : List (String × String × String × ElementKind) :=
  collector.drafts.map (·.label)

theorem map_fst_labels (collector : Collector) : collector.labels.map Prod.fst = collector.ids := by
  rw [labels, ids, List.map_map]
  rfl

theorem same_of_modify (done : collector.modify id edit = .ok next)
    (sameLabel : ∀ draft, (edit draft).label = draft.label) :
    next.filePath = collector.filePath ∧ next.labels = collector.labels := by
  refine ⟨?_, map_drafts_of_modify done sameLabel⟩
  unfold modify at done
  split at done
  · cases done
    rfl
  · split at done <;> cases done
    rfl

theorem same_of_reference {kind : ReferenceKind} {target : String} {line : Nat}
    (done : collector.reference id kind target line = .ok next) :
    next.filePath = collector.filePath ∧ next.labels = collector.labels := by
  unfold reference at done
  dsimp only at done
  split at done
  · cases done
    exact ⟨rfl, rfl⟩
  · exact same_of_modify done fun _ => rfl

theorem labels_add (collector : Collector) (parent : Handle) (declaration : Declaration) :
    (collector.add parent declaration).1.labels =
      collector.labels ++ [(collector.add parent declaration).2.label] := by
  simp [labels, drafts, add]

end Labels

namespace Step

/-- What a step can do: it fails and changes nothing, it keeps the elements, or it adds one to a
collector that has the same elements. -/
inductive Effect (step : Step) (collector : Collector) :
    Except Error (Option Handle) × Collector → Prop
  | fails (error : Error) : Effect step collector (.error error, collector)
  | keeps (answer : Option Handle) (next : Collector) (none : step.added (.ok answer) = [])
      (path : next.filePath = collector.filePath) (same : next.labels = collector.labels) :
      Effect step collector (.ok answer, next)
  | adds (entered : Collector) (parent : Handle) (declaration : Declaration)
      (one : step.added (.ok (some (entered.add parent declaration).2)) =
        [(entered.add parent declaration).2])
      (path : entered.filePath = collector.filePath) (same : entered.labels = collector.labels) :
      Effect step collector
        (.ok (some (entered.add parent declaration).2), (entered.add parent declaration).1)

theorem effect_settle {step : Step} {collector : Collector} {outcome : Except Error Collector}
    (none : step.added (.ok none) = [])
    (same : ∀ next, outcome = .ok next →
      next.filePath = collector.filePath ∧ next.labels = collector.labels) :
    step.Effect collector (settle collector outcome) := by
  cases outcome with
  | ok next => exact .keeps _ _ none (same next rfl).1 (same next rfl).2
  | error error => exact .fails error

theorem effect_run (step : Step) (collector : Collector) :
    step.Effect collector (step.run collector) := by
  cases step with
  | add parent declaration =>
    cases found : parent.handle collector with
    | ok handle =>
      rw [run_add_of_handle found]
      exact .adds collector handle declaration rfl rfl rfl
    | error missing =>
      rw [run_add_of_error found]
      exact .fails missing
  | enterPackage name line =>
    rw [run_enterPackage]
    exact .adds _ _ _ rfl rfl rfl
  | reference id kind target line =>
    rw [run_reference]
    exact effect_settle rfl fun _ => same_of_reference
  | addModifier id modifier =>
    rw [run_addModifier]
    exact effect_settle rfl fun _ done => same_of_modify done fun _ => rfl
  | bind name target =>
    rw [run_bind]
    refine .keeps _ _ rfl ?_ ?_ <;> (unfold Collector.bind; split <;> rfl)
  | find qualifiedName kinds => exact .keeps _ _ rfl rfl rfl

theorem eq_of_run_error {step : Step} {collector next : Collector} {error : Error}
    (failed : step.run collector = (.error error, next)) : next = collector := by
  have effect := step.effect_run collector
  rw [failed] at effect
  cases effect with
  | fails => rfl

section Effects

variable {step : Step} {collector : Collector} {result : Except Error (Option Handle) × Collector}

theorem Effect.filePath_eq (effect : step.Effect collector result) :
    result.2.filePath = collector.filePath := by
  cases effect with
  | fails => rfl
  | keeps _ _ _ path => exact path
  | adds _ _ _ _ path => exact path

/-- A step adds the elements it answers with after those that are there, and changes no label. -/
theorem Effect.labels_eq (effect : step.Effect collector result) :
    result.2.labels = collector.labels ++ (step.added result.1).map (·.label) := by
  cases effect with
  | fails error =>
    have none : step.added (.error error) = [] := by cases step <;> rfl
    rw [none, List.map_nil, List.append_nil]
  | keeps answer next none path same => rw [none, List.map_nil, List.append_nil, same]
  | adds entered parent declaration one path same =>
    rw [one, labels_add, same]
    rfl

theorem Effect.nodup_ids (effect : step.Effect collector result) (distinct : collector.ids.Nodup) :
    result.2.ids.Nodup := by
  have same {next : Collector} (same : next.labels = collector.labels) : next.ids.Nodup := by
    rw [← map_fst_labels, same, map_fst_labels]
    exact distinct
  cases effect with
  | fails => exact distinct
  | keeps _ _ _ _ sameLabels => exact same sameLabels
  | adds entered parent declaration _ _ sameLabels =>
    rw [ids_add]
    refine (same sameLabels).append (List.nodup_singleton _) (List.disjoint_singleton.mpr ?_)
    exact freeId_notMem entered _

end Effects

end Step

theorem filePath_after (collector : Collector) (steps : List Step) :
    (collector.after steps).filePath = collector.filePath := by
  induction steps generalizing collector with
  | nil => rfl
  | cons step rest induction => exact (induction _).trans (step.effect_run collector).filePath_eq

theorem labels_after (collector : Collector) (steps : List Step) :
    (collector.after steps).labels =
      collector.labels ++ (collector.added steps).map (·.label) := by
  induction steps generalizing collector with
  | nil => exact (List.append_nil _).symm
  | cons step rest induction =>
    rw [after, List.foldl_cons, ← after, induction, (step.effect_run collector).labels_eq, added,
      List.map_append, List.append_assoc]

theorem nodup_ids_after {collector : Collector} (distinct : collector.ids.Nodup)
    (steps : List Step) : (collector.after steps).ids.Nodup := by
  induction steps generalizing collector with
  | nil => exact distinct
  | cons step rest induction => exact induction ((step.effect_run collector).nodup_ids distinct)

/-! ## Bindings -/

/-- A collector in a package, before the element of the package is added. -/
def inPackage (collector : Collector) (name : String) : Collector :=
  { collector with
    currentModule := name
    root := { collector.root with moduleName := name, scope := name } }

/-- A collector with other bindings. -/
def withBindings (collector : Collector) (bindings : List (String × String)) : Collector :=
  { collector with bindings := bindings }

/-- Bindings after one more name is bound. -/
def bound (name target : String) (bindings : List (String × String)) : List (String × String) :=
  if name = "" ∨ target = "" ∨ name = target then bindings else (name, target) :: bindings

theorem bind_eq_withBindings (collector : Collector) (name target : String) :
    collector.bind name target =
      collector.withBindings (bound name target collector.bindings) := by
  rw [bind, bound]
  split <;> rfl

section Bindings

variable (collector : Collector) (bindings : List (String × String))

theorem modify_withBindings (id : String) (edit : Draft → Draft) :
    (collector.withBindings bindings).modify id edit =
      (collector.modify id edit).map (·.withBindings bindings) := by
  by_cases isRoot : collector.root.id = id
  · have isRootThen : (collector.withBindings bindings).root.id = id := isRoot
    rw [modify, modify, if_pos isRoot, if_pos isRootThen]
    rfl
  · have noRootThen : ¬ (collector.withBindings bindings).root.id = id := isRoot
    rw [modify, modify, if_neg isRoot, if_neg noRootThen]
    by_cases isThere : collector.hasId id = true
    · have isThereThen : (collector.withBindings bindings).hasId id = true := isThere
      rw [if_pos isThere, if_pos isThereThen]
      rfl
    · have notThereThen : ¬ (collector.withBindings bindings).hasId id = true := isThere
      rw [if_neg isThere, if_neg notThereThen]
      rfl

theorem freeId_withBindings (plain : String) :
    (collector.withBindings bindings).freeId plain = collector.freeId plain := by
  have numbered (fuel number : Nat) :
      (collector.withBindings bindings).numberedId plain fuel number =
        collector.numberedId plain fuel number := by
    induction fuel generalizing number with
    | zero => rfl
    | succ fuel induction =>
      rw [numberedId, numberedId, induction]
      rfl
  rw [freeId, freeId]
  exact if_congr Iff.rfl (numbered _ _) rfl

theorem add_withBindings (parent : Handle) (declaration : Declaration) :
    (collector.withBindings bindings).add parent declaration =
      ((collector.add parent declaration).1.withBindings bindings,
        (collector.add parent declaration).2) := by
  simp only [add, freeId_withBindings]
  rfl

theorem reference_withBindings (id : String) (kind : ReferenceKind) (target : String)
    (line : Nat) :
    (collector.withBindings bindings).reference id kind target line =
      (collector.reference id kind target line).map (·.withBindings bindings) := by
  simp only [reference, modify_withBindings]
  split <;> rfl

end Bindings

namespace Step

theorem settle_withBindings (collector : Collector) (bindings : List (String × String))
    (outcome : Except Error Collector) :
    settle (collector.withBindings bindings) (outcome.map (·.withBindings bindings)) =
      ((settle collector outcome).1, (settle collector outcome).2.withBindings bindings) := by
  cases outcome <;> rfl

/-- A step that records no binding does the same whatever the bindings are. -/
theorem run_withBindings {step : Step} (noBind : step.isBind = false) (collector : Collector)
    (bindings : List (String × String)) :
    step.run (collector.withBindings bindings) =
      ((step.run collector).1, (step.run collector).2.withBindings bindings) := by
  cases step with
  | add parent declaration =>
    have same : parent.handle (collector.withBindings bindings) = parent.handle collector := by
      cases parent <;> rfl
    cases found : parent.handle collector with
    | ok handle =>
      rw [run_add_of_handle found, run_add_of_handle (same.trans found), add_withBindings]
    | error missing => rw [run_add_of_error found, run_add_of_error (same.trans found)]
  | enterPackage name line =>
    have entered : (collector.withBindings bindings).enterPackage name line =
        ((collector.enterPackage name line).1.withBindings bindings,
          (collector.enterPackage name line).2) :=
      add_withBindings (collector.inPackage name) bindings _ _
    rw [run_enterPackage, run_enterPackage, entered]
  | reference id kind target line =>
    rw [run_reference, run_reference, reference_withBindings, settle_withBindings]
  | addModifier id modifier =>
    rw [run_addModifier, run_addModifier, Collector.addModifier, modify_withBindings,
      settle_withBindings]
    rfl
  | bind name target => cases noBind
  | find qualifiedName kinds => rfl

/-- A step that records no binding can be done before one that does. -/
theorem run_bind_comm {step : Step} (noBind : step.isBind = false) (collector : Collector)
    (name target : String) :
    step.run (collector.bind name target) =
      ((step.run collector).1, (step.run collector).2.bind name target) := by
  have kept : (step.run collector).2.bindings = collector.bindings :=
    congrArg (fun outcome => outcome.2.bindings)
      (run_withBindings noBind collector collector.bindings)
  rw [bind_eq_withBindings, bind_eq_withBindings, run_withBindings noBind, kept]

end Step

theorem after_bind_comm (collector : Collector) {steps : List Step}
    (noBind : ∀ step ∈ steps, step.isBind = false) (name target : String) :
    (collector.bind name target).after steps = (collector.after steps).bind name target := by
  induction steps generalizing collector with
  | nil => rfl
  | cons step rest induction =>
    obtain ⟨first, others⟩ := List.forall_mem_cons.mp noBind
    rw [after, List.foldl_cons, Step.run_bind_comm first]
    exact induction _ others

/-- After any steps, of which some may fail, ids are distinct. A new element gets the plain id of
its kind and qualified name, or else the least number from two on that is free, and it can be added
below every element of the collector and below every handle from elsewhere. A step that fails
changes nothing. The elements are collected in the order they were added in, and they are the same
if a binding is recorded before or after any steps that record none. -/
theorem finish_after (filePath language moduleName : String) (lineCount : Nat)
    (steps : List Step) :
    let origin := start filePath language moduleName lineCount
    let collector := origin.after steps
    (collector.finish.map (·.id)).Nodup ∧
    (∀ parent : Parent, (∀ id, parent = .own id → id ∈ collector.finish.map (·.id)) →
      ∀ declaration, ∃ handle added next, parent.handle collector = .ok handle ∧
        (Step.add parent declaration).run collector = (.ok (some added), next) ∧
        FirstFree (collector.finish.map (·.id))
          (filePath ++ "::" ++ declaration.kind.name ++ ":" ++
            declaration.qualifiedName.getD (handle.scope ++ "." ++ declaration.name)) added.id) ∧
    (∀ name line, ∃ added next,
      (Step.enterPackage name line).run collector = (.ok (some added), next) ∧
        FirstFree (collector.finish.map (·.id))
          (filePath ++ "::" ++ ElementKind.package.name ++ ":" ++ name) added.id) ∧
    (∀ (step : Step) error next, step.run collector = (.error error, next) → next = collector) ∧
    collector.finish.map (·.label) = origin.rootHandle.label :: (origin.added steps).map (·.label) ∧
    ∀ before name target middle rest, steps = before ++ .bind name target :: (middle ++ rest) →
      (∀ step ∈ middle, step.isBind = false) →
      (origin.after (before ++ middle ++ .bind name target :: rest)).finish = collector.finish := by
  intro origin collector
  have collected : collector.finish.map (·.id) = collector.ids := by
    rw [finish, List.map_map]
    rfl
  have path : collector.filePath = filePath := filePath_after origin steps
  have originDistinct : origin.ids.Nodup := List.nodup_singleton _
  have distinct : collector.ids.Nodup := nodup_ids_after originDistinct steps
  rw [collected]
  refine ⟨distinct, ?_, ?_, fun _ _ _ => Step.eq_of_run_error, ?_, ?_⟩
  · intro parent known declaration
    have isKnown : ∃ handle, parent.handle collector = .ok handle := by
      cases parent with
      | own id =>
        obtain ⟨handle, isHandle, -⟩ := handle_of_mem (known id rfl)
        exact ⟨handle, isHandle⟩
      | foreign handle => exact ⟨handle, rfl⟩
    obtain ⟨handle, isHandle⟩ := isKnown
    refine ⟨handle, _, _, isHandle, Step.run_add_of_handle isHandle declaration, ?_⟩
    rw [← path]
    exact firstFree_freeId collector _
  · intro name line
    refine ⟨_, _, Step.run_enterPackage collector name line, ?_⟩
    rw [← path]
    exact firstFree_freeId (collector.inPackage name) _
  · have labelled : collector.finish.map (·.label) = collector.labels := by
      rw [finish, List.map_map]
      rfl
    rw [labelled, labels_after]
    rfl
  · rintro before name target middle rest rfl noBind
    have moved : origin.after (before ++ middle ++ .bind name target :: rest) = collector := by
      have bindFirst (collector : Collector) (steps : List Step) :
          collector.after (.bind name target :: steps) = (collector.bind name target).after steps :=
        rfl
      rw [show collector = origin.after _ from rfl, after_append, after_append, after_append,
        bindFirst, bindFirst, after_append, after_bind_comm _ noBind]
    rw [moved]

/-- A name that looks like a numbered one takes the first number of another name, a reference of an
unknown element fails, and a binding is recorded after the reference that it is for. -/
theorem finish_after_name_with_number :
    let declare (name : String) : Declaration :=
      { name := name, kind := .function, startLine := 1, endLine := 2, qualifiedName := some name }
    let before : List Step :=
      [.add (.foreign ⟨"b.ts::class:b", "b", "b", .classType, "b"⟩) (declare "f"),
        .add (.own "a.ts::module") (declare "f~2")]
    let middle : List Step :=
      [.reference "b.ts::class:b" .uses "T" 1, .reference "a.ts::function:f" .calls "g.h" 2]
    let collector :=
      (start "a.ts" "typescript" "a" 3).after (before ++ .bind "g" "lib" :: (middle ++ []))
    collector.finish.map (·.id) = ["a.ts::module", "a.ts::function:f", "a.ts::function:f~2"] ∧
      (∃ added next, (Step.add (.own "a.ts::module") (declare "f")).run collector =
          (.ok (some added), next) ∧
        FirstFree ["a.ts::module", "a.ts::function:f", "a.ts::function:f~2"]
          "a.ts::function:f" added.id) ∧
      (∃ next, (Step.addModifier "b.ts::class:b" "export").run collector =
          (.error (.unknownElement "b.ts::class:b" "a.ts"), next) ∧ next = collector) ∧
      ((start "a.ts" "typescript" "a" 3).after (before ++ middle ++ [.bind "g" "lib"])).finish =
        collector.finish := by
  intro declare before middle collector
  have ids : collector.finish.map (·.id) =
      ["a.ts::module", "a.ts::function:f", "a.ts::function:f~2"] := by decide
  have refused : (Step.addModifier "b.ts::class:b" "export").run collector =
      (.error (.unknownElement "b.ts::class:b" "a.ts"), collector) := by
    rw [Step.run_addModifier, addModifier, modify_of_notMem (by decide)]
    rfl
  have noBind : ∀ step ∈ middle, step.isBind = false := by decide
  obtain ⟨-, added, -, failed, -, moved⟩ := finish_after "a.ts" "typescript" "a" 3
    (before ++ .bind "g" "lib" :: (middle ++ []))
  have known : ∀ id, Parent.own "a.ts::module" = .own id → id ∈ collector.finish.map (·.id) := by
    rintro id ⟨⟩
    rw [ids]
    exact List.mem_cons_self
  obtain ⟨handle, element, next, -, isAdded, isFree⟩ := added _ known (declare "f")
  refine ⟨ids, ⟨element, next, isAdded, ?_⟩, ⟨_, refused, failed _ _ _ refused⟩,
    moved before "g" "lib" middle [] rfl noBind⟩
  rw [← ids]
  exact isFree

end Collector
end CodeAtlas
