import CodeAtlas.Outline
import CodeAtlas.Proofs.Collector

/-!
# Recording outlines

Recording an outline never speaks of an element that the collector does not hold: recorded from a
sound collector, an outline whose elements start on lines counted from one always ends in a sound
collector.
-/

namespace CodeAtlas
namespace Outline

mutual

/-- Every element that the outline declares starts on a line counted from one. -/
def Placed : Outline → Prop
  | .declare declaration body => 1 ≤ declaration.startLine ∧ AllPlaced body
  | .importModule declaration _ _ => 1 ≤ declaration.startLine
  | .package _ line => 1 ≤ line
  | .about _ _ known unknown => AllPlaced known ∧ AllPlaced unknown
  | .refer _ | .referFile _ | .bind _ _ => True

/-- Every element that the outlines declare starts on a line counted from one. -/
def AllPlaced : List Outline → Prop
  | [] => True
  | outline :: rest => outline.Placed ∧ AllPlaced rest

end

theorem allPlaced_iff {outlines : List Outline} :
    AllPlaced outlines ↔ ∀ outline ∈ outlines, outline.Placed := by
  induction outlines with
  | nil => simp [AllPlaced]
  | cons outline rest induction => simp [AllPlaced, induction]

theorem allPlaced_append {left right : List Outline} :
    AllPlaced (left ++ right) ↔ AllPlaced left ∧ AllPlaced right := by
  simp only [allPlaced_iff, List.forall_mem_append]

end Outline

namespace Collector

open Outline (Placed AllPlaced)

variable {collector : Collector} {id : String}

/-- An import is an element of the file and two references. -/
theorem Sound.record_importModule (sound : collector.Sound) {declaration : Declaration}
    (placed : 1 ≤ declaration.startLine) (target : String) (line : Nat) :
    ∃ next, collector.record id (.importModule declaration target line) = .ok next ∧ next.Sound ∧
      next.Extends collector := by
  have added : (collector.add collector.rootHandle declaration).1.Sound :=
    sound.add (root_mem_ids collector) placed
  obtain ⟨imported, isImported, importedSound, importedExtends⟩ :=
    added.reference (mem_ids_add ..) .imports target line
  obtain ⟨next, isNext, nextSound, nextExtends⟩ :=
    importedSound.reference (root_mem_ids imported) .dependsOn target line
  refine ⟨next, ?_, nextSound, nextExtends.trans (importedExtends.trans (extends_add ..))⟩
  rw [Collector.record]
  dsimp only
  rw [isImported]
  dsimp only [Bind.bind, Except.bind]
  exact isNext

-- The induction follows the outline. Its invariant is that the collector is sound and holds the
-- element that the outline is about; later collectors still hold it, since they only grow.
mutual

/-- Recording an outline about an element of a sound collector succeeds and keeps it sound. -/
theorem Sound.record {collector : Collector} (sound : collector.Sound) {id : String}
    (member : id ∈ collector.ids) : ∀ outline : Outline, outline.Placed →
    ∃ next, collector.record id outline = .ok next ∧ next.Sound ∧ next.Extends collector
  | .declare declaration body, placed => by
    obtain ⟨placedHere, placedBelow⟩ := placed
    obtain ⟨parent, isParent, sameId⟩ := handle_of_mem member
    have added := sound.add (sameId ▸ member) placedHere
    obtain ⟨next, isNext, nextSound, nextExtends⟩ :=
      added.recordAll (mem_ids_add ..) body placedBelow
    refine ⟨next, ?_, nextSound, nextExtends.trans (extends_add ..)⟩
    rw [Collector.record, isParent]
    exact isNext
  | .refer reference, _ => by
    rw [Collector.record]
    exact sound.reference member ..
  | .referFile reference, _ => by
    rw [Collector.record]
    exact sound.reference (root_mem_ids collector) ..
  | .importModule declaration target line, placed =>
    sound.record_importModule placed target line
  | .bind name target, _ => by
    rw [Collector.record]
    exact ⟨_, rfl, sound.bind name target, extends_bind ..⟩
  | .package name line, placed => by
    refine ⟨(collector.enterPackage name line).1, ?_, sound.enterPackage name placed,
      extends_enterPackage ..⟩
    rw [Collector.record]
  | .about qualifiedName kinds known unknown, placed => by
    obtain ⟨placedKnown, placedUnknown⟩ := placed
    rw [Collector.record]
    split
    case h_1 handle found =>
      exact sound.recordAll (mem_ids_of_find? found) known placedKnown
    case h_2 => exact sound.recordAll member unknown placedUnknown

theorem Sound.recordAll {collector : Collector} (sound : collector.Sound) {id : String}
    (member : id ∈ collector.ids) : ∀ outlines : List Outline, AllPlaced outlines →
    ∃ next, collector.recordAll id outlines = .ok next ∧ next.Sound ∧ next.Extends collector
  | [], _ => ⟨collector, rfl, sound, .refl collector⟩
  | outline :: rest, placed => by
    obtain ⟨placedFirst, placedRest⟩ := placed
    obtain ⟨middle, isMiddle, middleSound, middleExtends⟩ := sound.record member outline placedFirst
    obtain ⟨next, isNext, nextSound, nextExtends⟩ :=
      middleSound.recordAll (middleExtends.ids_subset member) rest placedRest
    refine ⟨next, ?_, nextSound, nextExtends.trans middleExtends⟩
    rw [Collector.recordAll, isMiddle]
    exact isNext

end

end Collector
end CodeAtlas
