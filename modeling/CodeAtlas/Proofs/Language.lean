import CodeAtlas.Language
import Mathlib.Data.List.Infix

/-!
# Language maps and supported languages

Building a registry never takes an issue back. A map without issues is therefore one in which every
step went well, and it stays without issues when more languages are supported.
-/

namespace CodeAtlas
namespace LanguageRegistry

theorem issues_enter (language : String) (state : LanguageRegistry × List Issue) (raw : String) :
    state.2 <+: (enter language state raw).2 := by
  unfold enter
  dsimp only
  split
  · split
    · split
      · exact List.prefix_rfl
      · exact List.prefix_append _ _
    · exact List.prefix_rfl
  · exact List.prefix_append _ _

theorem issues_foldl_enter (language : String) (state : LanguageRegistry × List Issue)
    (extensions : List String) : state.2 <+: (extensions.foldl (enter language) state).2 := by
  induction extensions generalizing state with
  | nil => exact List.prefix_rfl
  | cons raw extensions induction =>
    exact (issues_enter language state raw).trans (induction _)

theorem issues_enterLanguage (supported : List String) (state : LanguageRegistry × List Issue)
    (entry : String × List String) : state.2 <+: (enterLanguage supported state entry).2 := by
  unfold enterLanguage
  split
  · exact issues_foldl_enter entry.1 state entry.2
  · exact List.prefix_append _ _

theorem issues_foldl_enterLanguage (supported : List String)
    (state : LanguageRegistry × List Issue) (map : LanguageMap) :
    state.2 <+: (map.foldl (enterLanguage supported) state).2 := by
  induction map generalizing state with
  | nil => exact List.prefix_rfl
  | cons entry map induction =>
    exact (issues_enterLanguage supported state entry).trans (induction _)

theorem mem_of_enterLanguage {supported : List String} {state : LanguageRegistry × List Issue}
    {entry : String × List String} (clean : (enterLanguage supported state entry).2 = []) :
    entry.1 ∈ supported := by
  unfold enterLanguage at clean
  split at clean
  case isTrue isSupported => exact List.contains_iff_mem.mp isSupported
  case isFalse => exact absurd clean (by simp)

/-- A map without issues gives the same registry when more languages are supported. -/
theorem foldl_enterLanguage_of_subset {supported languages : List String}
    (more : supported ⊆ languages) {state : LanguageRegistry × List Issue} {map : LanguageMap}
    (clean : (map.foldl (enterLanguage supported) state).2 = []) :
    map.foldl (enterLanguage languages) state = map.foldl (enterLanguage supported) state := by
  induction map generalizing state with
  | nil => rfl
  | cons entry map induction =>
    rw [List.foldl_cons] at clean ⊢
    have first : (enterLanguage supported state entry).2 = [] := by
      have kept := issues_foldl_enterLanguage supported (enterLanguage supported state entry) map
      exact List.prefix_nil.mp (clean ▸ kept)
    have isSupported := mem_of_enterLanguage first
    have same : enterLanguage languages state entry = enterLanguage supported state entry := by
      rw [enterLanguage, if_pos (List.contains_iff_mem.mpr (more isSupported)), enterLanguage,
        if_pos (List.contains_iff_mem.mpr isSupported)]
    rw [List.foldl_cons, same]
    exact induction clean

theorem exists_create {supported languages : List String} {map : LanguageMap}
    (clean : (build map supported).2 = []) (more : supported ⊆ languages) :
    ∃ registry, create map languages = .ok registry := by
  have same : build map languages = build map supported := foldl_enterLanguage_of_subset more clean
  refine ⟨(build map supported).1, ?_⟩
  have isBuilt : build map languages = ((build map supported).1, []) := by
    rw [same, ← clean]
  rw [create, isBuilt]

end LanguageRegistry
end CodeAtlas
