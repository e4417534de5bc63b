import CodeAtlas.Proofs.Batch
import CodeAtlas.Proofs.Session.Snapshot
import CodeAtlas.Proofs.Text.Path
import CodeAtlas.Session.Run

/-!
# Trees of files

A project is what stays while the files of a code base change, and a tree is its files at one
moment. A run over the whole tree shows the outcome of each file. So does a run over changes that
starts from an earlier tree, as long as every file that differs is named: what is named is looked at
again unless its content is the same, what is gone is removed, and all else is as it was.
-/

namespace CodeAtlas

/-- What stays the same while the files of a code base change. -/
structure Project where
  /-- What makes analyses. -/
  analyzer : Analyzer
  /-- The root of the code base. -/
  rootPath : String
  /-- The rules by which files are ignored. -/
  rules : Ignore.Rules
  /-- Extracts a source, given its relative path and its language. -/
  extract : (source filePath language : String) → Except Extract.Error FileExtraction
  /-- Runs may take as long as they need. -/
  unhurried : analyzer.configuration.timeBudget = none
  /-- What is extracted carries the fingerprint of the source. -/
  hash_extract : ∀ source filePath language extraction,
    extract source filePath language = .ok extraction →
      extraction.contentHash = Extract.contentHash source
  /-- What is extracted from a file is in that file. -/
  filePath_extract : ∀ source filePath language extraction,
    extract source filePath language = .ok extraction →
      ∀ element ∈ extraction.elements, element.filePath = filePath

/-- The absolute form of the root. -/
def Project.root (project : Project) : String := Run.rootOf project.rootPath

/-- The files of a project at one moment. -/
structure Tree (project : Project) where
  /-- Where the files are. -/
  workspace : Workspace
  /-- The files that are not ignored, relative to the root. -/
  files : List String
  /-- A scan lists the files. -/
  scan_eq : workspace.scan project.root ⟨project.analyzer.configuration.ignorePatterns,
    project.analyzer.configuration.respectGitignore⟩ = .ok ⟨files, project.rules⟩
  /-- Files are extracted alike at all moments. -/
  extract_eq : ∀ path ∈ files, ∀ source language,
    workspace.extract project.root source path language = project.extract source path language
  /-- Files are below the root. -/
  below : ∀ path ∈ files, Run.isBelowRoot path
  /-- No file is ignored. -/
  notIgnored : ∀ path ∈ files, project.rules.ignores path = false
  /-- Files are there. -/
  holds : ∀ path ∈ files, workspace.holds (Path.joinAll [project.root, path])

/-! ## Names of files -/

/-- A name, absolute or relative to the root, stands for a path below the root. -/
def NamesFile (root name path : String) : Prop :=
  if Path.isAbsolute name then
    Path.absoluteSegments name = Path.absoluteSegments root ++ Text.split '/' path
  else
    Path.normalize name = path

theorem NamesFile.relativePath_eq {root name path : String} (names : NamesFile root name path) :
    Run.relativePath root name = path := by
  unfold NamesFile at names
  unfold Run.relativePath
  split at names
  case isFalse relative => rw [if_neg relative, names]
  case isTrue absolute =>
    have proper : ∀ segment ∈ Text.split '/' path, Path.Proper segment := fun segment member =>
      Path.proper_absoluteSegments (names ▸ List.mem_append_right _ member)
    have present : Text.split '/' path ≠ [] := by
      simp [Text.split, Text.splitChars_ne_nil]
    have normal := Path.normalize_join 0 proper (by simpa using present)
    rw [List.replicate_zero, List.nil_append, Text.join_split rfl] at normal
    rw [if_pos absolute, Path.relative_of_below names, Text.join_split rfl, normal]

theorem not_isBelowRoot_join_up {segments : List String} :
    Run.isBelowRoot (Text.join "/" (".." :: segments)) = false := by
  cases segments with
  | nil => decide
  | cons second segments =>
    have starts : Text.startsWith (Text.join "/" (".." :: second :: segments)) "../" = true := by
      unfold Text.startsWith
      rw [Text.toList_join_cons_cons rfl]
      rfl
    simp [Run.isBelowRoot, starts]

/-- A name whose path is below the root stands for that path. -/
theorem names_relativePath {root name : String}
    (below : Run.isBelowRoot (Run.relativePath root name)) :
    NamesFile root name (Run.relativePath root name) := by
  unfold NamesFile
  split
  case isFalse relative => rw [Run.relativePath, if_neg relative]
  case isTrue absolute =>
    rw [Run.relativePath, if_pos absolute] at below ⊢
    obtain ⟨up, segments, proper, relative, atRoot⟩ := Path.exists_relative root name
    rw [relative] at below ⊢
    cases up with
    | zero =>
      by_cases empty : segments = []
      · subst empty
        exact absurd below (by decide)
      · have normal := Path.normalize_join 0 proper (by simpa using empty)
        rw [List.replicate_zero, List.nil_append] at normal ⊢
        rw [normal, Text.split_join rfl empty fun segment member => (proper segment member).single]
        exact atRoot rfl
    | succ up =>
      rw [Path.normalize_join _ proper (by simp [List.replicate_succ]), List.replicate_succ,
        List.cons_append, not_isBelowRoot_join_up] at below
      exact absurd below (by simp)

namespace Tree

variable {project : Project}

/-! ## Files in memory -/

theorem mem_listBelow {rules : Ignore.Rules} {root path : String} {paths : List String} :
    path ∈ Workspace.listBelow rules root paths ↔
      (∃ whole ∈ paths, Workspace.pathBelow? root whole = some path) ∧
        rules.ignores path = false := by
  simp [Workspace.listBelow]

/-- The tree of files in memory, each at the path that it is looked for. -/
def ofFiles (project : Project) (files : Table String MemoryFile)
    (sameRules : ∀ ignoreText, Scan.rulesOf ⟨project.analyzer.configuration.ignorePatterns,
      project.analyzer.configuration.respectGitignore⟩ ignoreText = project.rules)
    (sameExtract : ∀ path file, files.get? path = some file → file.extract = project.extract)
    (inPlace : ∀ whole ∈ files.keys, ∀ path, Workspace.pathBelow? project.root whole = some path →
      Run.isBelowRoot path ∧ Path.joinAll [project.root, path] = whole) : Tree project where
  workspace := .ofFiles files
  files := Workspace.listBelow project.rules project.root files.keys
  scan_eq := by simp only [Workspace.ofFiles, sameRules]
  extract_eq path member source language := by
    obtain ⟨⟨whole, isKey, isPath⟩, _⟩ := mem_listBelow.mp member
    have place := (inPlace whole isKey path isPath).2
    cases found : files.get? whole with
    | none => exact absurd isKey (Table.get?_eq_none_iff.mp found)
    | some file => simp only [Workspace.ofFiles, place, found, sameExtract whole file found]
  below path member := by
    obtain ⟨⟨whole, isKey, isPath⟩, _⟩ := mem_listBelow.mp member
    exact (inPlace whole isKey path isPath).1
  notIgnored path member := (mem_listBelow.mp member).2
  holds path member := by
    obtain ⟨⟨whole, isKey, isPath⟩, _⟩ := mem_listBelow.mp member
    rw [(inPlace whole isKey path isPath).2]
    exact Table.has_iff_mem_keys.mpr isKey

/-! ## Outcomes -/

/-- What looks at the files of a tree. -/
def reader (tree : Tree project) : FileReader :=
  Run.readerOf project.analyzer tree.workspace project.root

/-- What became of the file at each path. -/
def outcomeAt (tree : Tree project) (path : String) : Option FileOutcome :=
  if path ∈ tree.files then some (tree.reader.outcome path) else none

/-- The snapshot of a tree. -/
def snapshot (tree : Tree project) : Snapshot :=
  .ofOutcomes project.root project.rules (tree.files.map tree.reader.outcome)

theorem shows_snapshot (tree : Tree project) : tree.snapshot.Shows tree.outcomeAt :=
  (Snapshot.shows_empty project.root project.rules).addAll tree.reader fun _ _ => .inl rfl

theorem root_foldl_add (snapshot : Snapshot) (outcomes : List FileOutcome) :
    (outcomes.foldl Snapshot.add snapshot).root = snapshot.root ∧
      (outcomes.foldl Snapshot.add snapshot).rules = snapshot.rules := by
  induction outcomes generalizing snapshot with
  | nil => exact ⟨rfl, rfl⟩
  | cons outcome outcomes induction => exact induction (snapshot.add outcome)

theorem root_foldl_remove (snapshot : Snapshot) (files : List String) :
    (files.foldl Snapshot.remove snapshot).root = snapshot.root ∧
      (files.foldl Snapshot.remove snapshot).rules = snapshot.rules := by
  induction files generalizing snapshot with
  | nil => exact ⟨rfl, rfl⟩
  | cons file files induction => exact induction (snapshot.remove file)

theorem result_extract (tree : Tree project) (files : List String) :
    (Run.extract project.analyzer tree.workspace project.root {} files).result =
      .ok (files.map tree.reader.outcome) := by
  refine Batch.result_extract _ _ files rfl rfl ?_
  simp [Run.batchOptions, project.unhurried]

theorem extraction_outcome {tree : Tree project} {path : String} {extraction : FileExtraction}
    (isFile : path ∈ tree.files)
    (found : (tree.reader.outcome path).extraction = some extraction) :
    ∃ source language, tree.reader.content path = .ok source ∧
      project.extract source path language = .ok extraction := by
  unfold FileReader.outcome at found
  split at found
  case h_1 => simp [FileOutcome.unsupported] at found
  case h_2 language _ =>
    split at found
    case h_1 => simp [FileOutcome.unreadable] at found
    case h_2 source isSource =>
      split at found
      case h_1 => simp [FileOutcome.failed] at found
      case h_2 result isResult =>
        refine ⟨source, language, isSource, ?_⟩
        rw [← tree.extract_eq path isFile]
        exact Option.some.inj found ▸ isResult

theorem outcomeAt_eq_of_content_eq {old new : Tree project} {path : String}
    (isOld : path ∈ old.files) (isNew : path ∈ new.files)
    (same : old.reader.content path = new.reader.content path) :
    old.outcomeAt path = new.outcomeAt path := by
  have extracts (source language : String) :
      old.reader.workspace.extract old.reader.root source path language =
        new.reader.workspace.extract new.reader.root source path language :=
    (old.extract_eq path isOld source language).trans
      (new.extract_eq path isNew source language).symm
  have languages : old.reader.language? path = new.reader.language? path := rfl
  rw [outcomeAt, outcomeAt, if_pos isOld, if_pos isNew, FileReader.outcome, FileReader.outcome]
  simp only [same, extracts, languages]

/-! ## Changes of a tree -/

/-- A file is in one of two trees only, or it can be read in one of them only, or its content is not
the same in both. -/
def Differs (old new : Tree project) (path : String) : Prop :=
  (path ∈ old.files ∨ path ∈ new.files) ∧
    ¬ (path ∈ old.files ∧ path ∈ new.files ∧ old.reader.content path = new.reader.content path)

/-- A list names all files that differ between two trees, and names of folders are not in it. -/
structure Covers (old new : Tree project) (named : List String) : Prop where
  /-- Each file that differs is named. -/
  differing : ∀ path, old.Differs new path → ∃ name ∈ named, NamesFile project.root name path
  /-- What is named and there is a file, unless it is ignored. -/
  noFolders : ∀ name ∈ named, ∀ path, NamesFile project.root name path → Run.isBelowRoot path →
    project.rules.ignores path = false →
      new.workspace.holds (Path.joinAll [project.root, path]) → path ∈ new.files

/-- Different contents of a file in two trees have different fingerprints. -/
def HashesTellApart (old new : Tree project) : Prop :=
  ∀ path ∈ old.files, path ∈ new.files → ∀ before after, old.reader.content path = .ok before →
    new.reader.content path = .ok after →
      Extract.contentHash before = Extract.contentHash after → before = after

/-- A snapshot holds what became of the files of a tree. -/
structure Mirrors (snapshot : Snapshot) (tree : Tree project) : Prop where
  /-- It has the root of the project. -/
  root_eq : snapshot.root = project.root
  /-- It has the rules of the project. -/
  rules_eq : snapshot.rules = project.rules
  /-- It shows the outcome of each file. -/
  shows : snapshot.Shows tree.outcomeAt

theorem mirrors_snapshot (tree : Tree project) : Mirrors tree.snapshot tree :=
  ⟨(root_foldl_add _ _).1, (root_foldl_add _ _).2, tree.shows_snapshot⟩

/-- The files that a run over changes touches. -/
def touched (tree : Tree project) (snapshot : Snapshot) (named : List String) : List String :=
  let plan := Run.plan tree.workspace snapshot named
  plan.removed ++ plan.toExtract

/-- The outcomes that a run over changes adds. -/
def added (tree : Tree project) (snapshot : Snapshot) (named : List String) : List FileOutcome :=
  (Run.plan tree.workspace snapshot named).toExtract.map tree.reader.outcome

/-- The snapshot after a run over changes. -/
def renewed (tree : Tree project) (snapshot : Snapshot) (named : List String) : Snapshot :=
  (tree.added snapshot named).foldl Snapshot.add
    ((tree.touched snapshot named).foldl Snapshot.remove snapshot)

section Change

variable {old new : Tree project} {snapshot : Snapshot} {named : List String}
  (mirrors : Mirrors snapshot old) (covers : old.Covers new named)

include mirrors

theorem mem_changedPaths {path : String} : path ∈ Run.changedPaths snapshot named ↔
    (∃ name ∈ named, Run.relativePath project.root name = path) ∧ Run.isBelowRoot path ∧
      project.rules.ignores path = false := by
  simp [Run.changedPaths, mem_distinct, mirrors.root_eq, mirrors.rules_eq]

theorem mem_removed {path : String} : path ∈ (Run.plan new.workspace snapshot named).removed ↔
    path ∈ Run.changedPaths snapshot named ∧
      new.workspace.holds (Path.joinAll [project.root, path]) = false := by
  simp [Run.plan, mirrors.root_eq]

theorem mem_toExtract {path : String} :
    path ∈ (Run.plan new.workspace snapshot named).toExtract ↔
      path ∈ Run.changedPaths snapshot named ∧
        new.workspace.holds (Path.joinAll [project.root, path]) = true ∧
        Run.isUnchanged new.workspace snapshot path = false := by
  simp [Run.plan, mirrors.root_eq]

include covers

theorem mem_files_of_mem_changedPaths {path : String}
    (changed : path ∈ Run.changedPaths snapshot named)
    (there : new.workspace.holds (Path.joinAll [project.root, path])) : path ∈ new.files := by
  obtain ⟨⟨name, isName, rfl⟩, below, notIgnored⟩ := (mem_changedPaths mirrors).mp changed
  exact covers.noFolders name isName _ (names_relativePath below) below notIgnored there

theorem outcomeAt_eq_of_notMem_changedPaths {path : String}
    (unnamed : path ∉ Run.changedPaths snapshot named) :
    old.outcomeAt path = new.outcomeAt path := by
  by_cases listed : path ∈ old.files ∨ path ∈ new.files
  · have below : Run.isBelowRoot path := listed.elim (old.below path) (new.below path)
    have notIgnored := listed.elim (old.notIgnored path) (new.notIgnored path)
    have same : ¬ old.Differs new path := by
      intro differs
      obtain ⟨name, isName, names⟩ := covers.differing path differs
      exact unnamed ((mem_changedPaths mirrors).mpr
        ⟨⟨name, isName, names.relativePath_eq⟩, below, notIgnored⟩)
    obtain ⟨isOld, isNew, sameContent⟩ := not_not.mp fun changed => same ⟨listed, changed⟩
    exact outcomeAt_eq_of_content_eq isOld isNew sameContent
  · rw [not_or] at listed
    rw [outcomeAt, outcomeAt, if_neg listed.1, if_neg listed.2]

omit covers in
theorem outcomeAt_eq_of_isUnchanged (hashes : old.HashesTellApart new) {path : String}
    (isNew : path ∈ new.files) (unchanged : Run.isUnchanged new.workspace snapshot path) :
    old.outcomeAt path = new.outcomeAt path := by
  unfold Run.isUnchanged at unchanged
  rw [mirrors.shows.extractions, mirrors.root_eq] at unchanged
  split at unchanged
  case h_1 => simp at unchanged
  case h_2 known isKnown =>
    split at unchanged
    case h_2 => simp at unchanged
    case h_1 after isAfter =>
      obtain ⟨outcome, isOutcome, found⟩ := Option.bind_eq_some_iff.mp isKnown
      unfold outcomeAt at isOutcome
      split at isOutcome
      case isFalse => simp at isOutcome
      case isTrue isOld =>
        rw [← Option.some.inj isOutcome] at found
        obtain ⟨before, language, isBefore, extracted⟩ := extraction_outcome isOld found
        have sameHash : Extract.contentHash before = Extract.contentHash after := by
          rw [← project.hash_extract _ _ _ _ extracted]
          exact (beq_iff_eq.mp unchanged).symm
        have same := hashes path isOld isNew before after isBefore isAfter sameHash
        have sameContent : old.reader.content path = new.reader.content path := by
          rw [isBefore, same]
          exact isAfter.symm
        exact outcomeAt_eq_of_content_eq isOld isNew sameContent

/-- After a change each path shows what became of its file in the new tree. -/
theorem outcomeAt_after (hashes : old.HashesTellApart new) (path : String) :
    (if path ∈ (Run.plan new.workspace snapshot named).toExtract then
      some (new.reader.outcome path)
    else if path ∈ new.touched snapshot named then none else old.outcomeAt path) =
      new.outcomeAt path := by
  unfold touched
  -- What is named is extracted, removed or recognised by its fingerprint; all else is as it was.
  generalize isPlan : Run.plan new.workspace snapshot named = plan
  by_cases extracted : path ∈ plan.toExtract
  · obtain ⟨changed, there, _⟩ := (mem_toExtract mirrors).mp (isPlan ▸ extracted)
    have isNew := mem_files_of_mem_changedPaths mirrors covers changed there
    rw [if_pos extracted, outcomeAt, if_pos isNew]
  by_cases removed : path ∈ plan.removed
  · have gone : path ∉ new.files := fun isNew => by
      have there := new.holds path isNew
      simp [((mem_removed mirrors).mp (isPlan ▸ removed)).2] at there
    rw [if_neg extracted, if_pos (List.mem_append_left _ removed), outcomeAt, if_neg gone]
  · rw [if_neg extracted, if_neg (by simp [extracted, removed])]
    by_cases changed : path ∈ Run.changedPaths snapshot named
    · have there : new.workspace.holds (Path.joinAll [project.root, path]) = true := by
        by_contra gone
        exact removed (isPlan ▸ (mem_removed mirrors).mpr ⟨changed, by simpa using gone⟩)
      have unchanged : Run.isUnchanged new.workspace snapshot path = true := by
        by_contra different
        exact extracted
          (isPlan ▸ (mem_toExtract mirrors).mpr ⟨changed, there, by simpa using different⟩)
      have isNew := mem_files_of_mem_changedPaths mirrors covers changed there
      exact outcomeAt_eq_of_isUnchanged mirrors hashes isNew unchanged
    · exact outcomeAt_eq_of_notMem_changedPaths mirrors covers changed

/-- A file that a run over changes does not touch is as it was. -/
theorem outcomeAt_eq_of_untouched (hashes : old.HashesTellApart new) {path : String}
    (untouched : path ∉ new.touched snapshot named) : old.outcomeAt path = new.outcomeAt path := by
  rw [← outcomeAt_after mirrors covers hashes path,
    if_neg fun member => untouched (List.mem_append_right _ member), if_neg untouched]

/-- A run over changes keeps a snapshot in step with the tree. -/
theorem mirrors_renewed (hashes : old.HashesTellApart new) :
    Mirrors (new.renewed snapshot named) new := by
  have removed := mirrors.shows.removeAll (new.touched snapshot named)
  have added := removed.addAll new.reader fun path member =>
    .inl (if_pos (List.mem_append_right (Run.plan new.workspace snapshot named).removed member))
  have kept := root_foldl_remove snapshot (new.touched snapshot named)
  refine ⟨(root_foldl_add _ _).1.trans (kept.1.trans mirrors.root_eq),
    (root_foldl_add _ _).2.trans (kept.2.trans mirrors.rules_eq), ?_⟩
  exact funext (outcomeAt_after mirrors covers hashes) ▸ added

end Change

end Tree
end CodeAtlas
