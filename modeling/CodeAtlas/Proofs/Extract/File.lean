import CodeAtlas.Extract.File
import CodeAtlas.Language
import CodeAtlas.Proofs.Extract.Go
import CodeAtlas.Proofs.Extract.Java
import CodeAtlas.Proofs.Extract.Python
import CodeAtlas.Proofs.Extract.Rust
import CodeAtlas.Proofs.Extract.Script

/-!
# Extraction of any syntax tree

A reader of a language and the collector that records its outline work on every syntax tree, also on
a malformed one: extraction gives well-formed elements whenever the parser gave a tree.
-/

namespace CodeAtlas
namespace Extract

open Collector (WellFormed)
open SyntaxTree (Node)

/-- Every supported language has a reader, whose outlines can be recorded. -/
theorem exists_outlineOf? {language : String} (isSupported : language ∈ Language.supported) :
    ∃ outline, outlineOf? language = some outline ∧
      ∀ file root, Outline.AllPlaced (outline file root) := by
  simp only [Language.supported, List.mem_cons, List.not_mem_nil, or_false] at isSupported
  rcases isSupported with rfl | rfl | rfl | rfl | rfl | rfl | rfl
  · exact ⟨_, rfl, Script.allPlaced_outline⟩
  · exact ⟨_, rfl, Script.allPlaced_outline⟩
  · exact ⟨_, rfl, Script.allPlaced_outline⟩
  · exact ⟨_, rfl, Python.allPlaced_outline⟩
  · exact ⟨_, rfl, Go.allPlaced_outline⟩
  · exact ⟨_, rfl, Java.allPlaced_outline⟩
  · exact ⟨_, rfl, Rust.allPlaced_outline⟩

/-- Recording the outline of a tree succeeds and gives well-formed elements. -/
theorem exists_elementsOf {outline : SourceFile → Node → List Outline}
    (placed : ∀ file root, Outline.AllPlaced (outline file root)) (file : SourceFile)
    (lines : Nat) (root : Node) :
    ∃ elements, elementsOf outline file lines root = .ok elements ∧
      WellFormed file.path elements := by
  have sound := Collector.sound_start file.path file.language file.moduleName lines
  obtain ⟨collector, recorded, collectorSound, extended⟩ :=
    sound.recordAll (Collector.root_mem_ids _) _ (placed file root)
  refine ⟨collector.finish, ?_, ?_⟩
  · rw [elementsOf, Collector.recordFile, recorded]
    rfl
  · have finished := collectorSound.finish
    rwa [extended.filePath_eq] at finished

/-- Extraction in a supported language succeeds on every syntax tree, and the elements are well
formed. -/
theorem extract_wellFormed (source filePath : String) {language : String}
    (isSupported : language ∈ Language.supported) (root : Node) :
    ∃ extraction, extract source filePath language (.ok root) = .ok extraction ∧
      WellFormed filePath extraction.elements := by
  obtain ⟨outline, isOutline, placed⟩ := exists_outlineOf? isSupported
  obtain ⟨elements, isElements, wellFormed⟩ := exists_elementsOf placed
    ⟨filePath, language, ModulePath.nameOf filePath language⟩ (lineCount source) root
  refine ⟨⟨filePath, language, contentHash source, elements, root.issues⟩, ?_, wellFormed⟩
  rw [extract, isOutline]
  dsimp only
  rw [isElements]

/-- Two functions without names, in a stretch that the parser could not read. -/
theorem extract_wellFormed_nameless :
    let nameless : Node :=
      .mk ⟨"function_definition", true, true, none, "", ⟨0, 0⟩, ⟨0, 0⟩, 0⟩ []
    let malformed : Node :=
      .mk ⟨"ERROR", true, false, none, "", ⟨0, 0⟩, ⟨0, 0⟩, 0⟩ [nameless, nameless]
    "python" ∈ Language.supported ∧
    ∃ extraction, extract "" "a.py" "python" (.ok (.mk ⟨"module", true, false, none, "", ⟨0, 0⟩,
      ⟨0, 0⟩, 0⟩ [malformed])) = .ok extraction ∧ WellFormed "a.py" extraction.elements :=
  ⟨by decide, extract_wellFormed "" "a.py" (by decide) _⟩

end Extract
end CodeAtlas
