import CodeAtlas.Element
import CodeAtlas.Proofs.Text.Order
import Mathlib.Data.List.Nodup

/-!
# Elements with distinct ids

In a list with distinct ids an element is known by its id, and sorting by ids forgets the given
order.
-/

namespace CodeAtlas

/-- The ids of elements are distinct. -/
def DistinctIds (elements : List Element) : Prop := (elements.map Element.id).Nodup

instance (elements : List Element) : Decidable (DistinctIds elements) :=
  inferInstanceAs (Decidable (elements.map Element.id).Nodup)

namespace DistinctIds

variable {left right : List Element}

theorem nodup (distinct : DistinctIds left) : left.Nodup := List.Nodup.of_map Element.id distinct

theorem eq_of_id_eq (distinct : DistinctIds left) {first second : Element}
    (firstMember : first ∈ left) (secondMember : second ∈ left) (same : first.id = second.id) :
    first = second :=
  List.inj_on_of_nodup_map distinct firstMember secondMember same

theorem of_perm (distinct : DistinctIds left) (perm : left.Perm right) : DistinctIds right :=
  (perm.map Element.id).nodup_iff.mp distinct

theorem filter (distinct : DistinctIds left) (wanted : Element → Bool) :
    DistinctIds (left.filter wanted) :=
  distinct.sublist (List.filter_sublist.map Element.id)

theorem sortBy_id_eq (distinct : DistinctIds left) (perm : left.Perm right) :
    Text.sortBy Element.id left = Text.sortBy Element.id right :=
  Text.sortBy_eq_of_perm perm fun _ firstMember _ secondMember =>
    distinct.eq_of_id_eq firstMember secondMember

theorem sortBy_id (distinct : DistinctIds left) : DistinctIds (Text.sortBy Element.id left) :=
  distinct.of_perm (Text.sortBy_perm Element.id left).symm

end DistinctIds

/-- A function on the first line of a file, with the references it makes. -/
def Element.sketch (id filePath : String) (references : List Reference) : Element :=
  { id := id
    name := id
    qualifiedName := id
    kind := .function
    language := "typescript"
    filePath := filePath
    startLine := 1
    endLine := 1
    moduleName := filePath
    visibility := .everyone
    modifiers := []
    parentId := none
    references := references
    metadata := [] }

end CodeAtlas
