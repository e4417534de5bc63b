import CodeAtlas.Proofs.Element
import CodeAtlas.Proofs.Table
import CodeAtlas.Proofs.Text.Split
import CodeAtlas.Resolution.Candidate

/-!
# What is found under a key

The symbols of a code base are tables that hold elements under keys. A look-up gives the elements of
a suitable kind that have the key, as if all elements were gone through. The key of a name in a
module joins the two by a character. If no name of a module holds that character then elements have
one key only if they have one module and one name.
-/

namespace CodeAtlas
namespace Resolution

/-- An element that references of a kind may mean. -/
def Suits (kind : ReferenceKind) (element : Element) : Prop :=
  element.kind ≠ .importItem ∧ element.kind ∈ compatible kind

instance (kind : ReferenceKind) (element : Element) : Decidable (Suits kind element) :=
  inferInstanceAs (Decidable (_ ∧ _))

/-- The elements of a suitable kind with a property, in the order of their ids. -/
def suitable (elements : List Element) (kind : ReferenceKind) (property : Element → Prop)
    [DecidablePred property] : List Element :=
  Text.sortBy Element.id (elements.filter fun element => Suits kind element ∧ property element)

theorem mem_suitable {elements : List Element} {kind : ReferenceKind} {property : Element → Prop}
    [DecidablePred property] {element : Element} :
    element ∈ suitable elements kind property ↔
      element ∈ elements ∧ Suits kind element ∧ property element := by
  rw [suitable, Text.mem_sortBy, List.mem_filter, decide_eq_true_iff]

theorem accept_group (kind : ReferenceKind) (key : Element → String) (elements : List Element)
    (wanted : String) :
    accept kind (.group key (elements.filter (·.kind != .importItem))) wanted =
      suitable elements kind (key · = wanted) := by
  rw [accept, suitable, Table.getD_get?_group, List.filter_filter, List.filter_filter]
  refine congrArg (Text.sortBy Element.id) (List.filter_congr fun element _ => ?_)
  rw [Bool.eq_iff_iff, decide_eq_true_iff]
  simp only [Bool.and_eq_true, bne_iff_ne, List.contains_iff_mem, decide_eq_true_iff, Suits]
  tauto

variable (elements : List Element) (reference : Reference)

theorem exactMatches_eq : exactMatches (.ofElements elements) reference =
    suitable elements reference.kind (·.qualifiedName = reference.target) :=
  accept_group reference.kind Element.qualifiedName elements reference.target

theorem namedMatches_eq : namedMatches (.ofElements elements) reference =
    suitable elements reference.kind (·.name = lastSegment reference.target) :=
  accept_group reference.kind Element.name elements (lastSegment reference.target)

theorem sameModuleMatches_eq_of_key (moduleName : String) :
    sameModuleMatches (.ofElements elements) moduleName reference =
      if isQualified reference.target then []
      else suitable elements reference.kind fun element =>
        moduleKey element.moduleName element.name = moduleKey moduleName reference.target := by
  rw [sameModuleMatches]
  exact congrArg (ite _ _) (accept_group reference.kind
    (fun element => moduleKey element.moduleName element.name) elements _)

/-- No name of a module holds the character that joins it with another name. -/
def UndividedModules (elements : List Element) : Prop :=
  ∀ element ∈ elements, '\x00' ∉ element.moduleName.toList

instance : Decidable (UndividedModules elements) := List.decidableBAll _ _

variable {elements}

theorem UndividedModules.cons (undivided : UndividedModules elements) {source : Element}
    (member : source ∈ elements) : UndividedModules (source :: elements) :=
  List.forall_mem_cons.mpr ⟨undivided source member, undivided⟩

theorem moduleKey_inj {moduleName otherModule name otherName : String}
    (undivided : '\x00' ∉ moduleName.toList) (otherUndivided : '\x00' ∉ otherModule.toList) :
    moduleKey moduleName name = moduleKey otherModule otherName ↔
      moduleName = otherModule ∧ name = otherName := by
  refine ⟨Text.append_separator_inj rfl undivided otherUndivided, ?_⟩
  rintro ⟨rfl, rfl⟩
  rfl

/-- A look-up in the module of an element finds the elements of that module. -/
theorem sameModuleMatches_eq {source : Element}
    (undivided : UndividedModules (source :: elements)) :
    sameModuleMatches (.ofElements elements) source.moduleName reference =
      if isQualified reference.target then []
      else suitable elements reference.kind fun element =>
        element.moduleName = source.moduleName ∧ element.name = reference.target := by
  obtain ⟨sourceUndivided, undivided⟩ := List.forall_mem_cons.mp undivided
  rw [sameModuleMatches_eq_of_key, suitable, suitable]
  refine congrArg (ite _ _) (congrArg _ (List.filter_congr fun element member => ?_))
  simp only [moduleKey_inj (undivided element member) sourceUndivided]

end Resolution
end CodeAtlas
