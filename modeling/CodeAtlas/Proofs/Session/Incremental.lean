import CodeAtlas.Proofs.Publication
import CodeAtlas.Proofs.Session.State
import CodeAtlas.Proofs.Session.Tree
import CodeAtlas.Session.Basic

/-!
# Runs over changes

A session that has run over a tree knows what became of its files. Labels leave that as it is, and a
run over changes that covers the difference to another tree makes it true of that tree.
-/

namespace CodeAtlas

open DependencyGraph Boundary Resolution

variable {project : Project}

namespace Tree

/-- The elements that the files of a tree declare. -/
def elements (tree : Tree project) : List Element := tree.snapshot.elements

/-- Ids are distinct and can be read off the signatures of nodes. -/
def Clear (tree : Tree project) : Prop := project.analyzer.Clear tree.elements

/-- A run over changes can tell two trees apart by what is named and by fingerprints, ids and
digests. -/
structure Leads (old new : Tree project) (named : List String) : Prop where
  /-- All files that differ are named, and no folder is. -/
  covers : old.Covers new named
  /-- Fingerprints tell contents apart. -/
  hashes : old.HashesTellApart new
  /-- Ids in the new tree are distinct and can be read off the signatures of nodes. -/
  clear : new.Clear
  /-- Ids and digests stand for the same in both trees. -/
  apart : project.analyzer.ToldApart old.elements new.elements

theorem Mirrors.elements_eq {snapshot : Snapshot} {tree : Tree project}
    (mirrors : Mirrors snapshot tree) : snapshot.elements = tree.elements :=
  mirrors.shows.elements_eq tree.shows_snapshot

theorem filePath_of_outcomeAt {tree : Tree project} {path : String} {extraction : FileExtraction}
    (found : (tree.outcomeAt path).bind FileOutcome.extraction = some extraction)
    {element : Element} (member : element ∈ extraction.elements) : element.filePath = path := by
  obtain ⟨outcome, isOutcome, extracted⟩ := Option.bind_eq_some_iff.mp found
  unfold outcomeAt at isOutcome
  split at isOutcome
  case isFalse => simp at isOutcome
  case isTrue isFile =>
    rw [← Option.some.inj isOutcome] at extracted
    obtain ⟨source, language, _, result⟩ := extraction_outcome isFile extracted
    exact project.filePath_extract source path language extraction result element member

theorem mem_elements {tree : Tree project} {element : Element} : element ∈ tree.elements ↔
    ∃ path extraction, (tree.outcomeAt path).bind FileOutcome.extraction = some extraction ∧
      element ∈ extraction.elements :=
  tree.shows_snapshot.mem_elements

theorem sameOutside {old new : Tree project} {changed : List String}
    (same : ∀ path ∉ changed, old.outcomeAt path = new.outcomeAt path) :
    SameOutside changed old.elements new.elements := by
  intro element untouched
  rw [mem_elements, mem_elements]
  constructor
  · rintro ⟨path, extraction, found, member⟩
    have isPath := filePath_of_outcomeAt found member
    exact ⟨path, extraction, same path (isPath ▸ untouched) ▸ found, member⟩
  · rintro ⟨path, extraction, found, member⟩
    have isPath := filePath_of_outcomeAt found member
    exact ⟨path, extraction, (same path (isPath ▸ untouched)).symm ▸ found, member⟩

/-- A run over changes leaves the elements of files that it does not touch as they were. -/
theorem sameOutside_renewed {old new : Tree project} {snapshot : Snapshot} {named : List String}
    (mirrors : Mirrors snapshot old) (covers : old.Covers new named)
    (hashes : old.HashesTellApart new) :
    SameOutside (new.touched snapshot named) snapshot.elements
      (new.renewed snapshot named).elements := by
  rw [mirrors.elements_eq, (mirrors_renewed mirrors covers hashes).elements_eq]
  exact sameOutside fun path untouched =>
    outcomeAt_eq_of_untouched mirrors covers hashes untouched

end Tree

/-! ## Runs over a tree -/

open CodeAtlas.Tree

/-- A build gives an analysis of a tree and leaves a sound outcome for its files. -/
def YieldsTree (build : AnalysisBuild) (memory : Memory) (tree : Tree project) : Prop :=
  ∀ version current, ∃ state mode,
    build version current memory =
      (.done (project.analyzer.analysisOf memory.labels state mode version
          (project.analyzer.clock memory.readings)),
        { memory with
          state := some (Analyzer.remember state)
          readings := memory.readings + 1 }) ∧
      Mirrors state.snapshot tree ∧ project.analyzer.Sound state

/-- The run over a whole tree. -/
def fullRun (tree : Tree project) : AnalysisBuild :=
  Run.full project.analyzer tree.workspace project.rootPath {}

/-- The run over named files of a tree. -/
def changeRun (tree : Tree project) (named : List String) : AnalysisBuild :=
  Run.incremental project.analyzer tree.workspace named {}

theorem yieldsTree_fullRun (tree : Tree project) (memory : Memory) :
    YieldsTree (fullRun tree) memory tree := by
  intro version current
  refine ⟨project.analyzer.stateOf tree.snapshot none, .full, ?_, tree.mirrors_snapshot,
    Analyzer.sound_stateOf tree.snapshot⟩
  have scanned := tree.scan_eq
  unfold Project.root at scanned
  have outcomes := tree.result_extract tree.files
  unfold Project.root at outcomes
  simp only [fullRun, Run.full, scanned, outcomes]
  rfl

/-- The ids of elements that a run over changes marks as changed. -/
def Tree.changedIds (tree : Tree project) (snapshot : Snapshot) (named : List String) :
    List String :=
  let found := (tree.added snapshot named).flatMap fun outcome =>
    (outcome.extraction.map FileExtraction.elements).getD []
  distinct (Run.idsIn snapshot (tree.touched snapshot named) ++ found.map Element.id)

section Marked

variable {old new : Tree project} {snapshot : Snapshot} {named : List String}
  (mirrors : Mirrors snapshot old)

include mirrors

theorem named_of_outcomeAt {tree : Tree project} {path : String} {extraction : FileExtraction}
    (changed : path ∈ Run.changedPaths snapshot named)
    (found : (tree.outcomeAt path).bind FileOutcome.extraction = some extraction)
    {element : Element} (member : element ∈ extraction.elements) :
    element ∈ tree.elements ∧
      ∃ name ∈ named, Run.relativePath project.root name = element.filePath := by
  refine ⟨mem_elements.mpr ⟨path, extraction, found, member⟩, ?_⟩
  rw [filePath_of_outcomeAt found member]
  exact ((mem_changedPaths mirrors).mp changed).1

/-- What a run over changes marks is in a file that is named. -/
theorem named_of_mem_changedIds (covers : old.Covers new named) {id : String}
    (marked : id ∈ new.changedIds snapshot named) :
    ∃ element, (element ∈ old.elements ∨ element ∈ new.elements) ∧ element.id = id ∧
      ∃ name ∈ named, Run.relativePath project.root name = element.filePath := by
  rcases List.mem_append.mp (mem_distinct.mp marked) with known | found
  · obtain ⟨path, isTouched, isId⟩ := List.mem_flatMap.mp known
    have changed : path ∈ Run.changedPaths snapshot named := by
      rcases List.mem_append.mp isTouched with removed | extracted
      · exact ((mem_removed mirrors).mp removed).1
      · exact ((mem_toExtract mirrors).mp extracted).1
    rw [mirrors.shows.extractions] at isId
    cases isExtraction : (old.outcomeAt path).bind FileOutcome.extraction with
    | none => simp [isExtraction] at isId
    | some extraction =>
      rw [isExtraction] at isId
      obtain ⟨element, member, sameId⟩ := List.mem_map.mp isId
      have located := named_of_outcomeAt mirrors changed isExtraction member
      exact ⟨element, .inl located.1, sameId, located.2⟩
  · obtain ⟨element, isFound, sameId⟩ := List.mem_map.mp found
    obtain ⟨outcome, isAdded, isElement⟩ := List.mem_flatMap.mp isFound
    obtain ⟨path, isPath, rfl⟩ := List.mem_map.mp isAdded
    obtain ⟨changed, there, _⟩ := (mem_toExtract mirrors).mp isPath
    have isFile := mem_files_of_mem_changedPaths mirrors covers changed there
    cases isExtraction : (new.reader.outcome path).extraction with
    | none => simp [isExtraction] at isElement
    | some extraction =>
      rw [isExtraction] at isElement
      have outcome : (new.outcomeAt path).bind FileOutcome.extraction = some extraction := by
        rw [outcomeAt, if_pos isFile]
        exact isExtraction
      have located := named_of_outcomeAt mirrors changed outcome isElement
      exact ⟨element, .inr located.1, sameId, located.2⟩

end Marked

theorem changeRun_eq {tree : Tree project} {named : List String} {memory : Memory}
    {state : RunState} (isState : memory.state = some state)
    (root_eq : state.snapshot.root = project.root) (version : Nat) (current : Option Analysis) :
    changeRun tree named version current memory =
      Run.conclude project.analyzer memory (tree.renewed state.snapshot named) .incremental version
        (some ⟨state, tree.touched state.snapshot named,
          tree.changedIds state.snapshot named⟩) := by
  have extracted : (Run.extractChanges project.analyzer tree.workspace state.snapshot named
      {}).result = .ok (tree.added state.snapshot named) := by
    rw [Run.extractChanges, root_eq]
    exact tree.result_extract _
  have paths : (tree.added state.snapshot named).map FileOutcome.filePath =
      (Run.plan tree.workspace state.snapshot named).toExtract := by
    simp [added, Function.comp_def]
  simp only [changeRun, Run.incremental, isState, extracted, paths]
  rfl

theorem yieldsTree_changeRun {old new : Tree project} {named : List String} {memory : Memory}
    {state : RunState} (isState : memory.state = some state) (mirrors : Mirrors state.snapshot old)
    (sound : project.analyzer.Sound state) (clear : old.Clear) (leads : old.Leads new named) :
    YieldsTree (changeRun new named) memory new := by
  intro version current
  have newMirrors : Mirrors (new.renewed state.snapshot named) new :=
    mirrors_renewed mirrors leads.covers leads.hashes
  refine ⟨_, .incremental, changeRun_eq isState mirrors.root_eq version current, newMirrors,
    sound.stateOf (sameOutside_renewed mirrors leads.covers leads.hashes) ?_ ?_ ?_ _⟩
  · rw [mirrors.elements_eq]
    exact clear
  · rw [newMirrors.elements_eq]
    exact leads.clear
  · rw [mirrors.elements_eq, newMirrors.elements_eq]
    exact leads.apart

/-- The boundaries that a run over changes gives, whether or not ids and digests can be told
apart. -/
theorem boundaries_changeRun {old new : Tree project} {named : List String} {memory : Memory}
    {state : RunState} (isState : memory.state = some state) (mirrors : Mirrors state.snapshot old)
    (sound : project.analyzer.Sound state) (covers : old.Covers new named)
    (hashes : old.HashesTellApart new)
    (oldDistinct : DistinctIds (project.analyzer.version old.elements).elements)
    (newDistinct : DistinctIds (project.analyzer.version new.elements).elements)
    (undivided : UndividedModules (old.elements ++ new.elements))
    (version : Nat) (current : Option Analysis) :
    let detector := project.analyzer.detector
    let before := project.analyzer.version old.elements
    let now := project.analyzer.version new.elements
    let changedIds := new.changedIds state.snapshot named
    let detection := detector.detect before.elements before.relationships state.graph none
    ∃ analysis next, changeRun new named version current memory = (.done analysis, next) ∧
      analysis.boundaries = (detector.detect now.elements now.relationships
        (after state.graph changedIds now.graph)
        (some ⟨detection, state.graph, changedIds⟩)).boundaries := by
  intro detector before now changedIds detection
  refine ⟨_, _, changeRun_eq isState mirrors.root_eq version current, ?_⟩
  have oldElements := mirrors.elements_eq
  have newElements := (mirrors_renewed mirrors covers hashes).elements_eq
  have next := sound.stateOf_eq (sameOutside_renewed mirrors covers hashes)
    (oldElements ▸ oldDistinct) (newElements ▸ newDistinct)
    (by rw [oldElements, newElements]; exact undivided) changedIds
  change (project.analyzer.stateOf _ _).detection.boundaries = _
  rw [next, sound.detection_eq, oldElements, newElements]

/-! ## What a session knows -/

namespace Session

/-- What is told of a build by how it ended. -/
def told : Built AnalysisError Analysis → Except AnalysisError Analysis
  | .done analysis => .ok analysis
  | .failed error => .error error
  | .broken message => .error (.general .configuration message)

theorem resultOf_of_answer {session : Session} {ticket : Nat} {built : Built AnalysisError Analysis}
    (answer : session.answer? ticket = some built) : session.resultOf ticket = told built := by
  rw [resultOf, answer]
  cases built <;> rfl

theorem perform_of_settle (session : Session) (build : AnalysisBuild) :
    let settled := Line.settle session
    (session.perform build).1.published = settled.published.after (settled.attempt build).1 ∧
      (session.perform build).1.shared = (settled.attempt build).2 ∧
      (session.perform build).2 = told (settled.attempt build).1 := by
  intro settled
  have idle := Line.idle_settle session
  obtain ⟨published, shared, -⟩ := idle.carryOut_eq build
  rw [perform, Line.publish_eq_carryOut, ← Line.issued_settle session]
  exact ⟨published, shared, resultOf_of_answer (idle.answer?_carryOut build)⟩

theorem perform_of_idle {session : Session} (idle : session.Idle) (build : AnalysisBuild) :
    (session.perform build).1.published = session.published.after (session.attempt build).1 ∧
      (session.perform build).1.shared = (session.attempt build).2 ∧
      (session.perform build).2 = told (session.attempt build).1 := by
  have performed := perform_of_settle session build
  rwa [Line.settle_of_idle idle] at performed

theorem idle_perform (session : Session) (build : AnalysisBuild) :
    (session.perform build).1.Idle :=
  Line.idle_settle _

theorem idle_start : start.Idle := fun ticket inside => absurd inside (Nat.not_lt_zero ticket)

/-- A session knows a tree: nothing is left to do in it, and its last run left a sound outcome for
the files of the tree. -/
structure Knows (session : Session) (tree : Tree project) : Prop where
  /-- Nothing is left to do. -/
  idle : session.Idle
  /-- The last run left a sound outcome for the tree. -/
  state : ∃ state, session.shared.state = some state ∧ Mirrors state.snapshot tree ∧
    project.analyzer.Sound state

theorem Knows.of_yieldsTree {session : Session} {build : AnalysisBuild} {tree : Tree project}
    (yields : YieldsTree build (Line.settle session).shared tree) :
    Knows (session.perform build).1 tree := by
  obtain ⟨state, mode, done, mirrors, sound⟩ :=
    yields ((Line.settle session).published.version + 1) (Line.settle session).published.current
  obtain ⟨-, shared, -⟩ := perform_of_settle session build
  refine ⟨session.idle_perform build, Analyzer.remember state, ?_, mirrors, sound.remember⟩
  rw [shared, Line.attempt, done]

/-- After a run over a whole tree the session knows the tree, whatever came before. -/
theorem knows_runFull (session : Session) (tree : Tree project) :
    Knows (session.runFull project.analyzer tree.workspace project.rootPath {}).1 tree :=
  .of_yieldsTree (yieldsTree_fullRun tree (Line.settle session).shared)

/-- After a run over changes the session knows the tree that the changes lead to. -/
theorem Knows.runIncremental {session : Session} {old new : Tree project} {named : List String}
    (knows : session.Knows old) (clear : old.Clear) (leads : old.Leads new named) :
    Knows (session.runIncremental project.analyzer new.workspace named {}).1 new := by
  obtain ⟨state, isState, mirrors, sound⟩ := knows.state
  refine .of_yieldsTree (yieldsTree_changeRun ?_ mirrors sound clear leads)
  rw [Line.settle_of_idle knows.idle]
  exact isState

theorem Knows.applyLabels {session : Session} {tree : Tree project} (knows : session.Knows tree)
    (analyzer : Analyzer) (input : Option Json) :
    Knows (session.applyLabels analyzer input).1 tree := by
  have state (requests : List LabelRequest) (version : Nat) (current : Option Analysis)
      (memory : Memory) :
      (Run.applyLabels analyzer requests version current memory).2.state = memory.state := by
    cases current <;> rfl
  unfold Session.applyLabels
  split
  · exact knows
  case h_2 requests _ =>
    obtain ⟨known, isKnown, rest⟩ := knows.state
    obtain ⟨-, shared, -⟩ := perform_of_idle knows.idle (Run.applyLabels analyzer requests)
    refine ⟨session.idle_perform _, known, ?_, rest⟩
    exact (congrArg Memory.state shared).trans ((state requests _ _ _).trans isKnown)

end Session
end CodeAtlas
