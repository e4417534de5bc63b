import CodeAtlas.Layer
import CodeAtlas.Proofs.Element
import CodeAtlas.Proofs.Table
import Mathlib.Logic.Relation

/-!
# Layers along chains of parents

An element inherits the layer of the first element on its chain of parents that has one of its own,
itself first. Inheritance is given by rules, so that a chain that comes back to an element without
having met a layer passes none on. The climb finds what is inherited although it asks each element
only once for its own layer, and although it stops by counting what it has visited.
-/

namespace CodeAtlas
namespace Layer

variable {tests : List LayerTest} {elements : List Element} {element : Element} {layer : LayerName}

/-! ## Layers of one's own -/

/-- A text has the layer of the first rule that holds of it. -/
def Ruled (tests : List LayerTest) (text : String) (layer : LayerName) : Prop :=
  ∃ earlier test later, tests = earlier ++ test :: later ∧
    (∀ other ∈ earlier, ¬ other.holds text) ∧ test.holds text ∧ test.layer = layer

/-- An element has a layer of its own: that of its name or, if no rule holds of its name, that of
its path, unless the path is empty. -/
def Owns (tests : List LayerTest) (element : Element) (layer : LayerName) : Prop :=
  Ruled tests element.name layer ∨
    (∀ test ∈ tests, ¬ test.holds element.name) ∧ element.filePath ≠ "" ∧
      Ruled tests element.filePath layer

theorem ofText?_eq_some_iff {text : String} : ofText? tests text = some layer ↔
    Ruled tests text layer := by
  rw [ofText?, Option.map_eq_some_iff]
  constructor
  · rintro ⟨test, found, rfl⟩
    obtain ⟨holds, earlier, later, rfl, fail⟩ := List.find?_eq_some_iff_append.mp found
    exact ⟨earlier, test, later, rfl, by simpa using fail, holds, rfl⟩
  · rintro ⟨earlier, test, later, rfl, fail, holds, rfl⟩
    refine ⟨test, List.find?_eq_some_iff_append.mpr ⟨holds, earlier, later, rfl, ?_⟩, rfl⟩
    simpa using fail

theorem ofText?_eq_none_iff {text : String} : ofText? tests text = none ↔
    ∀ test ∈ tests, ¬ test.holds text := by
  rw [ofText?, Option.map_eq_none_iff, List.find?_eq_none]

theorem own?_eq_some_iff : own? tests element = some layer ↔ Owns tests element layer := by
  rw [Owns, ← ofText?_eq_some_iff, ← ofText?_eq_some_iff, ← ofText?_eq_none_iff, own?]
  cases byName : ofText? tests element.name with
  | some named => simp
  | none => by_cases noPath : element.filePath = "" <;> simp [noPath]

theorem own?_eq_none_iff : own? tests element = none ↔ ∀ layer, ¬ Owns tests element layer := by
  simp only [← own?_eq_some_iff, Option.eq_none_iff_forall_ne_some, ne_eq]

/-! ## Inherited layers -/

/-- An element without a layer of its own passes on to the element that it names as its parent. -/
structure Passes (tests : List LayerTest) (elements : List Element) (element parent : Element) :
    Prop where
  /-- The element has no layer of its own. -/
  bare : ∀ layer, ¬ Owns tests element layer
  /-- The parent is there. -/
  member : parent ∈ elements
  /-- The element names the parent. -/
  named : element.parentId = some parent.id

/-- An element has the layer of the first element on its chain of parents, itself first, that has
one of its own. -/
inductive Inherits (tests : List LayerTest) (elements : List Element) :
    Element → LayerName → Prop
  | own {element : Element} {layer : LayerName} (owns : Owns tests element layer) :
      Inherits tests elements element layer
  | passed {element parent : Element} {layer : LayerName}
      (passes : Passes tests elements element parent)
      (inherits : Inherits tests elements parent layer) : Inherits tests elements element layer

theorem Passes.unique (distinct : DistinctIds elements) {first second : Element}
    (isFirst : Passes tests elements element first)
    (isSecond : Passes tests elements element second) : first = second := by
  apply distinct.eq_of_id_eq isFirst.member isSecond.member
  exact Option.some.inj (isFirst.named.symm.trans isSecond.named)

theorem Passes.inherits_iff (distinct : DistinctIds elements) {parent : Element}
    (passes : Passes tests elements element parent) :
    Inherits tests elements element layer ↔ Inherits tests elements parent layer := by
  refine ⟨fun inherits => ?_, .passed passes⟩
  cases inherits with
  | own owns => exact absurd owns (passes.bare layer)
  | passed again inherits => exact again.unique distinct passes ▸ inherits

theorem inherits_iff_of_own? {own : LayerName} (isOwn : own? tests element = some own) :
    Inherits tests elements element layer ↔ own = layer := by
  constructor
  · intro inherits
    cases inherits with
    | own owns => exact Option.some.inj (isOwn.symm.trans (own?_eq_some_iff.mpr owns))
    | passed passes _ => exact absurd (own?_eq_some_iff.mp isOwn) (passes.bare own)
  · rintro rfl
    exact .own (own?_eq_some_iff.mp isOwn)

theorem not_inherits_of_alone (bare : own? tests element = none)
    (alone : ∀ parent, ¬ Passes tests elements element parent) :
    ¬ Inherits tests elements element layer := by
  intro inherits
  cases inherits with
  | own owns => exact own?_eq_none_iff.mp bare layer owns
  | passed passes _ => exact alone _ passes

/-- On a chain that comes back to an element nothing is inherited. -/
theorem Inherits.not_cyclic (distinct : DistinctIds elements)
    (inherits : Inherits tests elements element layer) :
    ¬ Relation.TransGen (Passes tests elements) element element := by
  induction inherits with
  | own owns =>
    intro cycle
    obtain ⟨parent, passes, -⟩ := Relation.TransGen.head'_iff.mp cycle
    exact passes.bare _ owns
  | passed passes _ induction =>
    intro cycle
    obtain ⟨parent, again, back⟩ := Relation.TransGen.head'_iff.mp cycle
    rw [again.unique distinct passes] at back
    exact induction (Relation.TransGen.tail' back passes)

/-! ## The climb -/

/-- What has been found about elements is right. -/
def Sound (tests : List LayerTest) (elements : List Element) (known : Known) : Prop :=
  ∀ element ∈ elements, ∀ found, known.get? element.id = some found → found = own? tests element

theorem Sound.ask {known : Known} (sound : Sound tests elements known)
    (distinct : DistinctIds elements) (member : element ∈ elements) :
    ∃ later, ask tests known element = (own? tests element, later) ∧
      Sound tests elements later := by
  unfold Layer.ask
  cases isKnown : known.get? element.id with
  | some found => exact ⟨known, by rw [sound element member found isKnown], sound⟩
  | none =>
    refine ⟨_, rfl, fun other isOther found isFound => ?_⟩
    rw [Table.get?_put] at isFound
    split at isFound
    case isTrue same =>
      rw [distinct.eq_of_id_eq isOther member same]
      exact (Option.some.inj isFound).symm
    case isFalse => exact sound other isOther found isFound

/-- The elements by their ids. -/
abbrev byId (elements : List Element) : Table String Element :=
  Table.ofList (elements.map fun element => (element.id, element))

theorem get?_byId_eq_some_iff (distinct : DistinctIds elements) {id : String} :
    (byId elements).get? id = some element ↔ element ∈ elements ∧ element.id = id := by
  constructor
  · intro found
    obtain ⟨other, member, same⟩ := List.mem_map.mp (Table.mem_of_get?_ofList found)
    obtain ⟨rfl, rfl⟩ := Prod.mk.inj same
    exact ⟨member, rfl⟩
  · rintro ⟨member, rfl⟩
    apply Table.get?_ofList_of_mem
    · rw [List.map_map]
      exact distinct
    · exact List.mem_map_of_mem member

theorem passes_iff (distinct : DistinctIds elements) {parent : Element}
    (bare : own? tests element = none) : Passes tests elements element parent ↔
      element.parentId.bind (byId elements).get? = some parent := by
  rw [Option.bind_eq_some_iff]
  constructor
  · intro passes
    exact ⟨parent.id, passes.named, (get?_byId_eq_some_iff distinct).mpr ⟨passes.member, rfl⟩⟩
  · rintro ⟨id, named, found⟩
    obtain ⟨member, rfl⟩ := (get?_byId_eq_some_iff distinct).mp found
    exact ⟨own?_eq_none_iff.mp bare, member, named⟩

/-- The ids that were visited on the way up to an element are different, and each is that of an
element from which the way led on. -/
structure Trail (tests : List LayerTest) (elements : List Element) (visited : List String)
    (element : Element) : Prop where
  /-- No id is visited twice. -/
  nodup : visited.Nodup
  /-- The way led on from each. -/
  led : ∀ id ∈ visited, ∃ earlier ∈ elements, earlier.id = id ∧
    Relation.TransGen (Passes tests elements) earlier element

theorem trail_nil (tests : List LayerTest) (elements : List Element) (element : Element) :
    Trail tests elements [] element :=
  ⟨List.nodup_nil, fun _ member => absurd member List.not_mem_nil⟩

namespace Trail

variable {visited : List String} (trail : Trail tests elements visited element)

include trail

theorem length_le : visited.length ≤ elements.length := by
  have subset : visited ⊆ elements.map Element.id := by
    intro id member
    obtain ⟨earlier, isEarlier, rfl, -⟩ := trail.led id member
    exact List.mem_map_of_mem isEarlier
  have bound := (List.subperm_of_subset trail.nodup subset).length_le
  rwa [List.length_map] at bound

theorem not_inherits (distinct : DistinctIds elements) (member : element ∈ elements)
    (again : element.id ∈ visited) : ¬ Inherits tests elements element layer := by
  intro inherits
  obtain ⟨earlier, isEarlier, same, cycle⟩ := trail.led element.id again
  rw [distinct.eq_of_id_eq isEarlier member same] at cycle
  exact inherits.not_cyclic distinct cycle

theorem cons {parent : Element} (member : element ∈ elements) (fresh : element.id ∉ visited)
    (passes : Passes tests elements element parent) :
    Trail tests elements (element.id :: visited) parent := by
  refine ⟨List.nodup_cons.mpr ⟨fresh, trail.nodup⟩, fun id isVisited => ?_⟩
  rcases List.mem_cons.mp isVisited with rfl | isVisited
  · exact ⟨element, member, rfl, .single passes⟩
  · obtain ⟨earlier, isEarlier, same, way⟩ := trail.led id isVisited
    exact ⟨earlier, isEarlier, same, way.tail passes⟩

end Trail

/-- The climb from an element finds the layer that the element inherits, and what it finds out on
its way is right. -/
theorem climb_spec (distinct : DistinctIds elements) (fuel : Nat) :
    ∀ {visited : List String} {known : Known} {element : Element}, element ∈ elements →
      Trail tests elements visited element → elements.length < fuel + visited.length →
      Sound tests elements known →
      (∀ layer, (climb tests (byId elements) fuel visited known element).1 = some layer ↔
        Inherits tests elements element layer) ∧
        Sound tests elements (climb tests (byId elements) fuel visited known element).2 := by
  induction fuel with
  | zero =>
    intro visited known element _ trail room
    have bound := trail.length_le
    omega
  | succ fuel induction =>
    intro visited known element member trail room sound
    rw [climb]
    split
    case isTrue again =>
      rw [List.contains_iff_mem] at again
      refine ⟨fun layer => ⟨fun found => (nomatch found), fun inherits => ?_⟩, sound⟩
      exact absurd inherits (trail.not_inherits distinct member again)
    case isFalse fresh =>
      rw [List.contains_iff_mem] at fresh
      obtain ⟨later, asked, soundLater⟩ := sound.ask distinct member
      rw [asked]
      cases isOwn : own? tests element with
      | some own =>
        refine ⟨fun layer => ?_, soundLater⟩
        rw [inherits_iff_of_own? isOwn]
        exact Option.some_inj
      | none =>
        cases isParent : element.parentId.bind (byId elements).get? with
        | none =>
          have alone (parent : Element) : ¬ Passes tests elements element parent := by
            rw [passes_iff distinct isOwn, isParent]
            exact nofun
          refine ⟨fun layer => ⟨fun found => (nomatch found), fun inherits => ?_⟩, soundLater⟩
          exact absurd inherits (not_inherits_of_alone isOwn alone)
        | some parent =>
          have passes := (passes_iff distinct isOwn).mpr isParent
          obtain ⟨found, known⟩ := induction passes.member (trail.cons member fresh passes)
            (by rw [List.length_cons]; omega) soundLater
          exact ⟨fun layer => (found layer).trans (passes.inherits_iff distinct).symm, known⟩

/-! ## The assignment -/

/-- An element belongs to a layer: it is neither a stub nor an import, and it inherits the layer. -/
def Belongs (tests : List LayerTest) (elements : List Element) (element : Element)
    (layer : LayerName) : Prop :=
  ¬ element.isExternal ∧ element.kind ≠ .importItem ∧ Inherits tests elements element layer

/-- The state after some elements have been placed. -/
structure Assigned (tests : List LayerTest) (elements placed : List Element)
    (state : Table String LayerName × Known) : Prop where
  /-- What has been found about elements is right. -/
  sound : Sound tests elements state.2
  /-- No id is assigned twice. -/
  distinct : state.1.Distinct
  /-- What has been placed is among the elements. -/
  subset : placed ⊆ elements
  /-- Each element that has been placed has the layer that it belongs to. -/
  get?_iff : ∀ id layer, state.1.get? id = some layer ↔
    ∃ element ∈ placed, element.id = id ∧ Belongs tests elements element layer

theorem assigned_empty (tests : List LayerTest) (elements : List Element) :
    Assigned tests elements [] (Table.empty, Table.empty) where
  sound _ _ _ found := nomatch found
  distinct := Table.distinct_empty
  subset := List.nil_subset elements
  get?_iff _ _ := by simp

namespace Assigned

variable {placed : List Element} {state : Table String LayerName × Known}

theorem append_subset (assigned : Assigned tests elements placed state)
    (member : element ∈ elements) : placed ++ [element] ⊆ elements :=
  List.append_subset.mpr ⟨assigned.subset, by simpa using member⟩

/-- An element that belongs to no layer leaves the assignment as it is. -/
theorem skip (assigned : Assigned tests elements placed state) (member : element ∈ elements)
    {known : Known} (sound : Sound tests elements known)
    (outside : ∀ layer, ¬ Belongs tests elements element layer) :
    Assigned tests elements (placed ++ [element]) (state.1, known) where
  sound := sound
  distinct := assigned.distinct
  subset := assigned.append_subset member
  get?_iff id layer := by
    rw [assigned.get?_iff id layer]
    simp [or_and_right, exists_or, outside]

/-- An element that belongs to a layer is assigned that layer. -/
theorem put (assigned : Assigned tests elements placed state) (distinct : DistinctIds elements)
    (member : element ∈ elements) {known : Known} (sound : Sound tests elements known)
    {found : LayerName}
    (belongs : ∀ layer, Belongs tests elements element layer ↔ found = layer) :
    Assigned tests elements (placed ++ [element]) (state.1.put element.id found, known) where
  sound := sound
  distinct := assigned.distinct.put element.id found
  subset := assigned.append_subset member
  get?_iff id layer := by
    rw [Table.get?_put]
    split
    case isTrue same =>
      subst same
      rw [Option.some_inj, ← belongs layer]
      refine ⟨fun own => ⟨element, by simp, rfl, own⟩, ?_⟩
      rintro ⟨other, isOther, same, own⟩
      rwa [← distinct.eq_of_id_eq (assigned.append_subset member isOther) member same]
    case isFalse different =>
      rw [assigned.get?_iff id layer]
      simp [or_and_right, exists_or, Ne.symm different]

theorem place (assigned : Assigned tests elements placed state) (distinct : DistinctIds elements)
    (member : element ∈ elements) : Assigned tests elements (placed ++ [element])
      (place tests (byId elements) (elements.length + 2) state element) := by
  unfold Layer.place
  split
  case isTrue apart =>
    refine assigned.skip member assigned.sound fun layer belongs => ?_
    rcases Bool.or_eq_true_iff.mp apart with external | isImport
    · exact belongs.1 external
    · exact belongs.2.1 (by simpa using isImport)
  case isFalse counts =>
    rw [Bool.or_eq_true, not_or, beq_iff_eq] at counts
    obtain ⟨climbs, sound⟩ := climb_spec distinct (elements.length + 2) member
      (trail_nil tests elements element) (by simp) assigned.sound
    have belongs (layer : LayerName) : Belongs tests elements element layer ↔
        (climb tests (byId elements) (elements.length + 2) [] state.2 element).1 = some layer := by
      rw [climbs layer]
      exact ⟨fun belongs => belongs.2.2, fun inherits => ⟨counts.1, counts.2, inherits⟩⟩
    split
    case h_1 found known isFound =>
      rw [isFound] at belongs sound
      exact assigned.put distinct member sound fun layer => (belongs layer).trans Option.some_inj
    case h_2 known isFound =>
      rw [isFound] at belongs sound
      exact assigned.skip member sound fun layer own => nomatch (belongs layer).mp own

theorem foldl (assigned : Assigned tests elements placed state) (distinct : DistinctIds elements)
    {rest : List Element} (subset : rest ⊆ elements) : Assigned tests elements (placed ++ rest)
      (rest.foldl (Layer.place tests (byId elements) (elements.length + 2)) state) := by
  induction rest generalizing placed state with
  | nil => rwa [List.append_nil]
  | cons element rest induction =>
    obtain ⟨member, subset⟩ := List.cons_subset.mp subset
    rw [List.append_cons]
    exact induction (assigned.place distinct member) subset

end Assigned

/-- An id is placed in a layer: it is that of an element that belongs to the layer. -/
def Placed (tests : List LayerTest) (elements : List Element) (id : String) (layer : LayerName) :
    Prop :=
  ∃ element ∈ elements, element.id = id ∧ Belongs tests elements element layer

theorem assigned_assign (tests : List LayerTest) (distinct : DistinctIds elements) :
    ∃ known, Assigned tests elements elements (assign tests elements, known) :=
  ⟨_, (assigned_empty tests elements).foldl distinct (List.Subset.refl elements)⟩

theorem get?_assign (tests : List LayerTest) (distinct : DistinctIds elements) (id : String)
    (layer : LayerName) :
    (assign tests elements).get? id = some layer ↔ Placed tests elements id layer :=
  let ⟨_, assigned⟩ := assigned_assign tests distinct
  assigned.get?_iff id layer

theorem distinct_assign (tests : List LayerTest) (distinct : DistinctIds elements) :
    (assign tests elements).Distinct :=
  let ⟨_, assigned⟩ := assigned_assign tests distinct
  assigned.distinct

end Layer
end CodeAtlas
