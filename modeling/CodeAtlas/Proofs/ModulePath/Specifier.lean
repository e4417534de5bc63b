import CodeAtlas.Proofs.ModulePath

/-!
# Specifiers of script files

A relative specifier leads from the directory of the importing file to a file, with the extension of
any script file or with none, or to the directory of an index file. In all these forms it names the
module of the file that it means.
-/

namespace CodeAtlas
namespace ModulePath

open CodeAtlas.Path (Leads Proper)
open Text (split join endsWith)

/-- The extensions of script files. -/
def scriptExtensions : List String :=
  ["ts", "tsx", "mts", "cts", "js", "jsx", "mjs", "cjs"]

theorem mem_sourceExtensions_of_script {extension : String}
    (isScript : extension ∈ scriptExtensions) : extension ∈ sourceExtensions := by
  revert extension
  decide

theorem dropSlash_append (path : String) : dropSlash (path ++ "/") = path := by
  have chars : (path ++ "/").toList.reverse = '/' :: path.toList.reverse := by
    rw [String.toList_append, List.reverse_append]
    rfl
  have back : String.ofList path.toList.reverse.reverse = path := by
    rw [List.reverse_reverse, String.ofList_toList]
  rw [dropSlash, chars]
  exact back

theorem dropSlash_of_full {path : String} (full : "" ∉ split '/' path) : dropSlash path = path := by
  rw [dropSlash]
  split
  case h_1 rest chars =>
    have trailing : endsWith path "/" = true := by
      rw [List.reverse_eq_iff] at chars
      refine Text.endsWith_iff.mpr ⟨String.ofList rest.reverse, String.toList_injective ?_⟩
      rw [chars, List.reverse_cons]
      simp
    exact absurd (Text.empty_mem_split (.inr trailing)) full
  case h_2 => rfl

section

variable {folders directory : List String} {name stem extension specifier : String}

/-- A specifier names the module of the path that it leads to, with a slash at the end or
without. -/
theorem resolveSpecifier_of_leads {target : List String} (leads : Leads folders target specifier)
    (proper : ∀ segment ∈ folders ++ [name], Proper segment)
    (targetProper : ∀ segment ∈ target, Proper segment) (present : target ≠ [])
    (language : String) :
    resolveSpecifier (join "/" (folders ++ [name])) specifier language =
        nameOf (join "/" target) language ∧
      resolveSpecifier (join "/" (folders ++ [name])) (specifier ++ "/") language =
        nameOf (join "/" target) language := by
  have dotted := leads.startsWith_dot (List.forall_mem_append.mp proper).1 targetProper
  have single := dotted ""
  rw [String.append_empty] at single
  have noEmpty : "" ∉ target := fun empty => (targetProper "" empty).notEmpty rfl
  have pieces : split '/' (join "/" target) = target :=
    Text.split_join rfl present fun segment member => (targetProper segment member).single
  have full : "" ∉ split '/' (join "/" target) := by rwa [pieces]
  have normal : Path.normalSegments true (split '/' (join "/" target)) = target := by
    rw [pieces]
    exact Path.normalSegments_up 0 targetProper
  obtain ⟨joined, slashed⟩ := leads.joinAll_directory proper targetProper present
  constructor
  · rw [resolveSpecifier, if_pos single, joined, Path.normalize_eq_join full normal present noEmpty]
    dsimp only
    rw [dropSlash_of_full full]
  · rw [resolveSpecifier, if_pos (dotted "/"), slashed,
      Path.normalize_append_slash full normal present noEmpty]
    dsimp only
    rw [dropSlash_append]

theorem named_index {language last : String}
    (isScript : language ∈ ["typescript", "tsx", "javascript"]) (parent : List String)
    (noIndex : last ≠ "index") :
    named language (parent ++ [last] ++ ["index"]) = named language (parent ++ [last]) := by
  have stems : indexStems language = ["index"] := by
    simp only [List.mem_cons, List.not_mem_nil, or_false] at isScript
    rw [indexStems, if_pos isScript]
  have notRust : language ≠ "rust" := by
    rintro rfl
    exact absurd isScript (by decide)
  rw [named, named, if_neg notRust, if_neg notRust, dropIndex_append, dropIndex_append, stems,
    if_pos (by simp), if_neg (by simp [noIndex])]

theorem proper_fileName (stemProper : Proper stem) (isSource : extension ∈ sourceExtensions) :
    Proper (stem ++ "." ++ extension) := by
  have clear := (clear_of_mem_sourceExtensions isSource).2
  have long : 2 ≤ extension.length := by
    revert extension
    decide
  have lengths : 3 ≤ (stem ++ "." ++ extension).length := by
    rw [String.length_append, String.length_append, show ".".length = 1 from rfl]
    omega
  have differs {text : String} (short : text.length ≤ 2) : stem ++ "." ++ extension ≠ text := by
    rintro rfl
    omega
  refine ⟨differs (by decide), differs (by decide), differs (by decide), ?_⟩
  simp [stemProper.single, clear]

/-- In a script file, a specifier that leads to a script file names its module, whichever of the
extensions of script files it has. So does one that leaves the extension out, unless what is left
ends in an extension, and one that leads to the directory of an index file, unless the name of the
directory could be taken for that of a file. -/
theorem resolveSpecifier_nameOf {language : String}
    (isScript : language ∈ ["typescript", "tsx", "javascript"])
    (proper : ∀ segment ∈ folders ++ [name], Proper segment)
    (targetProper : ∀ segment ∈ directory ++ [stem], Proper segment)
    (noDeclaration : endsWith stem ".d" = false) (isExtension : extension ∈ scriptExtensions) :
    let file := join "/" (folders ++ [name])
    let target := nameOf (join "/" (directory ++ [stem ++ "." ++ extension])) language
    (∀ other ∈ scriptExtensions, ∀ specifier,
      Leads folders (directory ++ [stem ++ "." ++ other]) specifier →
        resolveSpecifier file specifier language = target) ∧
    (¬ HasExtension (join "/" (directory ++ [stem])) → ∀ specifier,
      Leads folders (directory ++ [stem]) specifier →
        resolveSpecifier file specifier language = target) ∧
    (stem = "index" → ∀ parent last, directory = parent ++ [last] → last ≠ "index" →
      ¬ HasExtension last → ∀ specifier, Leads folders directory specifier →
        resolveSpecifier file specifier language = target ∧
          resolveSpecifier file (specifier ++ "/") language = target) := by
  intro file target
  obtain ⟨directoryProper, stemProper⟩ := List.forall_mem_append.mp targetProper
  have clear : ∀ segment ∈ directory ++ [stem], segment ≠ "" ∧ '/' ∉ segment.toList := by
    intro segment member
    exact ⟨(targetProper segment member).notEmpty, (targetProper segment member).single⟩
  have named_of {other : String} (isOther : other ∈ scriptExtensions) :
      nameOf (join "/" (directory ++ [stem ++ "." ++ other])) language =
        named language (directory ++ [stem]) :=
    nameOf_eq_named (withoutExtension_join directory (mem_sourceExtensions_of_script isOther)
      noDeclaration) (by simp) clear language
  have isTarget : target = named language (directory ++ [stem]) := named_of isExtension
  rw [isTarget]
  refine ⟨fun other isOther specifier leads => ?_, fun bare specifier leads => ?_, ?_⟩
  · have fileProper : ∀ segment ∈ directory ++ [stem ++ "." ++ other], Proper segment := by
      rw [List.forall_mem_append, List.forall_mem_singleton]
      exact ⟨directoryProper, proper_fileName (stemProper stem (List.mem_singleton_self stem))
        (mem_sourceExtensions_of_script isOther)⟩
    rw [← named_of isOther]
    exact (resolveSpecifier_of_leads leads proper fileProper (by simp) language).1
  · rw [← nameOf_eq_named (withoutExtension_eq_self bare) (by simp) clear language]
    exact (resolveSpecifier_of_leads leads proper targetProper (by simp) language).1
  · rintro rfl parent last rfl noIndex bare specifier leads
    have bareDirectory : ¬ HasExtension (join "/" (parent ++ [last])) :=
      (hasExtension_join parent last).not.mpr bare
    rw [named_index isScript parent noIndex,
      ← nameOf_eq_named (withoutExtension_eq_self bareDirectory) (by simp)
        (List.forall_mem_append.mp clear).1 language]
    exact resolveSpecifier_of_leads leads proper directoryProper (by simp) language

end

/-- Four specifiers of an index file. -/
theorem resolveSpecifier_nameOf_index :
    let file := "src/app/main.ts"
    let target := nameOf "src/lib/index.tsx" "typescript"
    ("typescript" ∈ ["typescript", "tsx", "javascript"] ∧
      (∀ segment ∈ ["src", "app"] ++ ["main.ts"], Proper segment) ∧
      (∀ segment ∈ ["src", "lib"] ++ ["index"], Proper segment) ∧
      endsWith "index" ".d" = false ∧ "tsx" ∈ scriptExtensions) ∧
    resolveSpecifier file "../lib/index.js" "typescript" = target ∧
    resolveSpecifier file "../lib/index" "typescript" = target ∧
    resolveSpecifier file "../lib" "typescript" = target ∧
    resolveSpecifier file "../lib/" "typescript" = target := by
  intro file target
  have proper : ∀ segment ∈ ["src", "app"] ++ ["main.ts"], Proper segment := by decide
  have targetProper : ∀ segment ∈ ["src", "lib"] ++ ["index"], Proper segment := by decide
  obtain ⟨files, bare, directories⟩ :=
    resolveSpecifier_nameOf (by decide : "typescript" ∈ ["typescript", "tsx", "javascript"]) proper
      targetProper (by decide) (by decide : "tsx" ∈ scriptExtensions)
  have climbs (right : List String) := Leads.climb ["src"] (List.cons_ne_nil "app" []) right
  refine ⟨⟨by decide, proper, targetProper, by decide, by decide⟩,
    files "js" (by decide) _ (climbs ["lib", "index.js"]),
    bare (by decide) _ (climbs ["lib", "index"]),
    directories rfl ["src"] "lib" rfl (by decide) (by decide) _ (climbs ["lib"])⟩

end ModulePath
end CodeAtlas
