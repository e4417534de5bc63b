import CodeAtlas.Project.Scan
import CodeAtlas.Proofs.Text.Order
import CodeAtlas.Proofs.Text.Path

/-!
# Scans and their rules

A scan does not enter a folder that is ignored or in which an invented name is ignored. What it
lists is never ignored. It lists all files that are not ignored exactly as long as none of them lies
below a folder that is not entered. That depends on the rules: one that holds of the invented name
hides all files but those at the root.
-/

namespace CodeAtlas

/-- A file that rules leave is not below a folder that a scan does not enter. -/
def Ignore.Rules.Reaches (rules : Ignore.Rules) (path : String) : Prop :=
  rules.ignores path = false →
    ∀ folder ∈ Scan.foldersAbove path, Scan.isSkipped rules folder = false

/-- A listing has the files of a directory that its rules do not ignore. -/
def Listing.Agrees (listing : Listing) (directory : Directory) : Prop :=
  listing.files = directory.files.filter fun path => !listing.rules.ignores path

/-- Everything in a directory has a path of proper names. -/
def Directory.Proper (directory : Directory) : Prop :=
  ∀ entry ∈ directory.entries, entry.1 ≠ [] ∧ ∀ segment ∈ entry.1, Path.Proper segment

theorem Directory.mem_files {directory : Directory} {path : String} : path ∈ directory.files ↔
    ∃ segments content, (segments, Entry.file content) ∈ directory.entries ∧
      Text.join "/" segments = path := by
  simp only [files, Text.mem_sort, List.mem_filterMap, Prod.exists]
  constructor
  · rintro ⟨segments, entry, member, isPath⟩
    cases entry with
    | folder => cases isPath
    | file content => exact ⟨segments, content, member, Option.some.inj isPath⟩
  · rintro ⟨segments, content, member, rfl⟩
    exact ⟨segments, .file content, member, rfl⟩

namespace Scan

variable {rules : Ignore.Rules} {path : String}

theorem isSkipped_eq_false {folder : String} : isSkipped rules folder = false ↔
    rules.ignores folder = false ∧ rules.ignores (folder ++ "/" ++ childMarker) = false :=
  Bool.or_eq_false_iff

theorem isListed_iff : isListed rules path ↔
    rules.ignores path = false ∧ ∀ folder ∈ foldersAbove path, isSkipped rules folder = false := by
  simp [isListed, and_comm]

theorem isListed_eq_iff_reaches :
    (isListed rules path = !rules.ignores path) ↔ rules.Reaches path := by
  rw [Bool.eq_iff_iff, isListed_iff, Bool.not_eq_true', and_iff_left_iff_imp]
  rfl

/-- A scan lists all files that are not ignored exactly if it reaches them. -/
theorem agrees_scan_iff (options : ScanOptions) (directory : Directory) :
    (scan options (some directory)).Agrees directory ↔
      ∀ path ∈ directory.files, (scan options (some directory)).rules.Reaches path := by
  constructor
  · intro agrees path isFile
    have listed := congrArg (path ∈ ·) agrees
    simp only [scan, List.mem_filter, isFile, true_and, eq_iff_iff, ← Bool.eq_iff_iff] at listed
    exact isListed_eq_iff_reaches.mp listed
  · exact fun reaches => List.filter_congr fun path isFile =>
      isListed_eq_iff_reaches.mpr (reaches path isFile)

/-- Scans by some lines agree with them on all directories exactly if they reach all paths that the
lines leave. -/
theorem agrees_everywhere_iff (lines : List String) :
    (∀ directory : Directory, directory.Proper →
      (scan ⟨lines, false⟩ (some directory)).Agrees directory) ↔
    ∀ path, (∀ segment ∈ Text.split '/' path, Path.Proper segment) →
      (Ignore.Rules.ofLines lines).Reaches path := by
  have isRules (directory : Directory) :
      (scan ⟨lines, false⟩ (some directory)).rules = Ignore.Rules.ofLines lines := by
    simp [scan, rulesOf]
  simp only [agrees_scan_iff, isRules]
  constructor
  · intro everywhere path proper
    let directory : Directory := ⟨"/", [(Text.split '/' path, .file "")]⟩
    have present : Text.split '/' path ≠ [] := by simp [Text.split, Text.splitChars_ne_nil]
    have isProper : directory.Proper := by
      simpa [directory, Directory.Proper] using ⟨present, proper⟩
    refine everywhere directory isProper path ?_
    exact Directory.mem_files.mpr ⟨_, "", List.mem_singleton_self _, Text.join_split rfl path⟩
  · intro reaches directory allProper path isFile
    obtain ⟨segments, content, member, rfl⟩ := Directory.mem_files.mp isFile
    obtain ⟨present, proper⟩ := allProper _ member
    refine reaches _ ?_
    rwa [Text.split_join rfl present fun segment isSegment => (proper segment isSegment).single]

/-- What a scan lists is in order and not ignored. It has all files that are not ignored exactly if
none of them lies below a folder that is ignored itself or in which the invented name is. So there
are lines by which all directories are listed as they say, and lines by which they are not: that
depends on whether some path that the lines leave lies below such a folder. -/
theorem scan_agrees_iff (lines : List String) :
    (∀ (respectGitignore : Bool) (directory : Directory),
      let listing := scan ⟨lines, respectGitignore⟩ (some directory)
      listing.files.Pairwise (fun left right => Text.notAfter left right) ∧
      (∀ path, path ∈ listing.files ↔
        path ∈ directory.files ∧ listing.rules.ignores path = false ∧
          ∀ folder ∈ foldersAbove path, listing.rules.ignores folder = false ∧
            listing.rules.ignores (folder ++ "/" ++ childMarker) = false) ∧
      (listing.Agrees directory ↔ ∀ path ∈ directory.files, listing.rules.Reaches path)) ∧
    ((∀ directory : Directory, directory.Proper →
        (scan ⟨lines, false⟩ (some directory)).Agrees directory) ↔
      ∀ path, (∀ segment ∈ Text.split '/' path, Path.Proper segment) →
        (Ignore.Rules.ofLines lines).Reaches path) := by
  refine ⟨fun respectGitignore directory => ⟨?_, fun path => ?_, ?_⟩, agrees_everywhere_iff lines⟩
  · exact (Text.pairwise_sort _).sublist List.filter_sublist
  · simp only [← isSkipped_eq_false, ← isListed_iff]
    exact List.mem_filter
  · exact agrees_scan_iff ⟨lines, respectGitignore⟩ directory

/-- A rule about names that begin with an underscore hides a file whose path has no such name. -/
theorem scan_agrees_iff_underscore :
    let directory := Directory.ofFiles "/repo" [("src/a.ts", some "")]
    let listing := scan ⟨["_*"], true⟩ (some directory)
    directory.files = ["src/a.ts"] ∧ listing.rules.ignores "src/a.ts" = false ∧
      listing.files = [] := by
  decide +kernel

end Scan
end CodeAtlas
