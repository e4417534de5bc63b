import CodeAtlas.Proofs.Json.Canonical
import CodeAtlas.Proofs.Json.Number
import CodeAtlas.Proofs.Table

/-!
# Values told by their texts

The text of a value tells the value, as far as texts can: members may come in any order, zero has no
sign, and a number that is not finite reads like the absent value.
-/

namespace CodeAtlas
namespace Json

/-! ## Lists of texts -/

section Commas

variable {α β : Type} {write : α → List Char} {view : α → β} {close : Char}

/-- The text of one value tells the value from another one, and where the text ends. -/
def Tells (write : α → List Char) (view : α → β) (left right : α) : Prop :=
  ∀ ⦃leftRest rightRest⦄, Ends leftRest → Ends rightRest →
    write left ++ leftRest = write right ++ rightRest →
      view left = view right ∧ leftRest = rightRest

/-- What follows the first value of a list with commas up to the closing mark. -/
def afterFirst (write : α → List Char) (close : Char) (values : List α) (rest : List Char) :
    List Char :=
  if values = [] then close :: rest
  else ',' :: ([','].intercalate (values.map write) ++ close :: rest)

theorem intercalate_cons_append (value : α) (values : List α) (rest : List Char) :
    [','].intercalate ((value :: values).map write) ++ close :: rest =
      write value ++ afterFirst write close values rest := by
  cases values <;> simp [afterFirst]

theorem ends_afterFirst (closes : close ∈ [']', '\x7d']) (values : List α) (rest : List Char) :
    Ends (afterFirst write close values rest) := by
  unfold afterFirst
  split
  · exact List.mem_cons_of_mem ',' closes
  · exact List.mem_cons_self

theorem tells_intercalate (closes : close ∈ [']', '\x7d']) {left right : List α}
    (starts : ∀ value, value ∈ left ∨ value ∈ right →
      ∃ mark rest, write value = mark :: rest ∧ mark ≠ close)
    (tells : ∀ first ∈ left, ∀ second ∈ right, Tells write view first second)
    {leftRest rightRest : List Char}
    (same : [','].intercalate (left.map write) ++ close :: leftRest =
      [','].intercalate (right.map write) ++ close :: rightRest) :
    left.map view = right.map view ∧ leftRest = rightRest := by
  have noComma : close ≠ ',' := by
    rintro rfl
    revert closes
    decide
  have notEmpty (value : α) (values : List α) (rest other : List Char)
      (starts : ∃ mark more, write value = mark :: more ∧ mark ≠ close) :
      [','].intercalate ((value :: values).map write) ++ close :: rest ≠ close :: other := by
    obtain ⟨mark, more, written, otherMark⟩ := starts
    rw [intercalate_cons_append, written, List.cons_append]
    exact fun same => otherMark (List.cons.inj same).1
  induction left generalizing right with
  | nil =>
    cases right with
    | nil => exact ⟨rfl, (List.cons.inj same).2⟩
    | cons second others =>
      exact absurd same.symm (notEmpty _ _ _ _ (starts second (.inr List.mem_cons_self)))
  | cons first rest induction =>
    cases right with
    | nil => exact absurd same (notEmpty _ _ _ _ (starts first (.inl List.mem_cons_self)))
    | cons second others =>
      rw [intercalate_cons_append, intercalate_cons_append] at same
      obtain ⟨sameFirst, sameRest⟩ := tells first List.mem_cons_self second List.mem_cons_self
        (ends_afterFirst closes rest leftRest) (ends_afterFirst closes others rightRest) same
      unfold afterFirst at sameRest
      split_ifs at sameRest with noMore noOther noOther
      · exact ⟨by rw [noMore, noOther, List.map_cons, List.map_cons, sameFirst],
          (List.cons.inj sameRest).2⟩
      · exact absurd (List.cons.inj sameRest).1 noComma
      · exact absurd (List.cons.inj sameRest).1.symm noComma
      · obtain ⟨sameValues, sameRest⟩ := induction
          (fun value isValue => starts value
            (isValue.imp (List.mem_cons_of_mem first) (List.mem_cons_of_mem second)))
          (fun value isValue other isOther => tells value (List.mem_cons_of_mem first isValue)
            other (List.mem_cons_of_mem second isOther)) (List.cons.inj sameRest).2
        exact ⟨by rw [List.map_cons, List.map_cons, sameFirst, sameValues], sameRest⟩

end Commas

/-! ## Kinds of values -/

/-- The kind of the values whose texts start with a mark. -/
def kindOfMark (mark : Char) : String :=
  if mark = '-' ∨ mark.isDigit then "number"
  else if mark = 'n' then "null"
  else if mark = 't' ∨ mark = 'f' then "boolean"
  else if mark = '"' then "string"
  else if mark = '[' then "array"
  else if mark = '\x7b' then "object"
  else "none"

theorem render_num {value : Float} (finite : Number.IsFinite value) :
    render (num value) = Number.text value := by
  simp only [render, renderNumber, finite, Bool.false_eq_true, if_false]

theorem exists_render_eq_cons {value : Json} (proper : value.Proper Number.IsFinite) :
    ∃ mark rest, (render value).toList = mark :: rest ∧ kindOfMark mark = value.kindName := by
  cases proper with
  | null => exact ⟨'n', ['u', 'l', 'l'], by simp [render], by decide⟩
  | bool value =>
    cases value with
    | true => exact ⟨'t', ['r', 'u', 'e'], by simp [render], by decide⟩
    | false => exact ⟨'f', ['a', 'l', 's', 'e'], by simp [render], by decide⟩
  | @num value finite =>
    obtain ⟨negative, decimal, read, -⟩ := exists_readSigned_text finite
    have number : value.isNaN = false := (Bool.or_eq_false_iff.mp finite).1
    rw [render_num finite]
    cases chars : (Number.text value).toList with
    | nil =>
      rw [chars] at read
      cases read
    | cons mark rest =>
      rw [chars] at read
      refine ⟨mark, rest, rfl, ?_⟩
      rw [kindOfMark, if_pos (readSigned_head read), kindName, number]
      rfl
  | str value => exact ⟨'"', _, by rw [render, toList_quote],
      (by decide : kindOfMark '"' = "string")⟩
  | arr => exact ⟨'[', _, toList_render_arr _, (by decide : kindOfMark '[' = "array")⟩
  | obj => exact ⟨'\x7b', _, toList_render_obj _, (by decide : kindOfMark '\x7b' = "object")⟩

theorem exists_mark_ne_bracket {value : Json} (proper : value.Proper Number.IsFinite) :
    ∃ mark rest, (render value).toList = mark :: rest ∧ mark ≠ ']' := by
  obtain ⟨mark, rest, text, kind⟩ := exists_render_eq_cons proper
  refine ⟨mark, rest, text, ?_⟩
  rintro rfl
  have noKind : kindOfMark ']' = "none" := by decide
  rw [noKind] at kind
  cases value <;> grind [kindName]

/-- Values of one kind. -/
inductive SameKind : Json → Json → Prop
  | null : SameKind null null
  | bool (left right : Bool) : SameKind (bool left) (bool right)
  | num (left right : Float) : SameKind (num left) (num right)
  | str (left right : String) : SameKind (str left) (str right)
  | arr (left right : List Json) : SameKind (arr left) (arr right)
  | obj (left right : List (String × Json)) : SameKind (obj left) (obj right)

theorem sameKind_of_kindName {left right : Json} (same : left.kindName = right.kindName) :
    SameKind left right := by
  cases left <;> cases right <;> first | constructor | grind [kindName]

/-- Values whose texts begin alike are of one kind. -/
theorem sameKind_of_append {left right : Json} (leftProper : left.Proper Number.IsFinite)
    (rightProper : right.Proper Number.IsFinite) {leftRest rightRest : List Char}
    (same : (render left).toList ++ leftRest = (render right).toList ++ rightRest) :
    SameKind left right := by
  obtain ⟨leftMark, _, leftText, leftKind⟩ := exists_render_eq_cons leftProper
  obtain ⟨rightMark, _, rightText, rightKind⟩ := exists_render_eq_cons rightProper
  rw [leftText, rightText] at same
  apply sameKind_of_kindName
  rw [← leftKind, ← rightKind, (List.cons.inj same).1]

/-! ## Texts of values -/

theorem toList_renderItems (items : List Json) :
    (renderItems items).toList =
      [','].intercalate (items.map fun item => (render item).toList) := by
  rw [renderItems_eq_intercalate, String.toList_intercalate, List.map_map]
  rfl

/-- The text of a member of an object. -/
def memberText (member : String × Json) : List Char :=
  (quote member.1).toList ++ ':' :: (render member.2).toList

theorem toList_renderMembers (members : List (String × Json)) :
    (renderMembers members).toList = [','].intercalate (members.map memberText) := by
  have text : (String.toList ∘ fun member : String × Json =>
      quote member.1 ++ ":" ++ render member.2) = memberText :=
    funext fun member => by simp [memberText]
  rw [renderMembers_eq_intercalate, String.toList_intercalate, List.map_map, text]
  rfl

theorem quote_append_inj {left right : String} {leftRest rightRest : List Char}
    (same : (quote left).toList ++ leftRest = (quote right).toList ++ rightRest) :
    left = right ∧ leftRest = rightRest := by
  simp only [toList_quote, List.cons_append, List.append_assoc, List.nil_append,
    List.cons.injEq, true_and] at same
  have read := congrArg readText same
  rw [readText_quoted, readText_quoted] at read
  cases read
  exact ⟨rfl, rfl⟩

/-- The text of a value with finite numbers tells the value and where the text ends. -/
theorem tells_render {left right : Json} (leftProper : left.Proper Number.IsFinite)
    (rightProper : right.Proper Number.IsFinite) :
    Tells (fun value => (render value).toList) plain left right := by
  induction leftProper generalizing right with
  | null =>
    intro leftRest rightRest leftEnds rightEnds same
    cases sameKind_of_append .null rightProper same
    exact ⟨rfl, List.append_cancel_left same⟩
  | bool value =>
    intro leftRest rightRest leftEnds rightEnds same
    cases sameKind_of_append (.bool value) rightProper same with
    | bool _ other => cases value <;> cases other <;> simp_all [render]
  | num finite =>
    intro leftRest rightRest leftEnds rightEnds same
    cases sameKind_of_append (.num finite) rightProper same
    cases rightProper with
    | num otherFinite =>
      simp only [render_num finite, render_num otherFinite] at same
      obtain ⟨samePlain, sameRest⟩ :=
        plain_eq_of_text_append finite otherFinite leftEnds rightEnds same
      exact ⟨by rw [plain, plain, samePlain], sameRest⟩
  | str value =>
    intro leftRest rightRest leftEnds rightEnds same
    cases sameKind_of_append (.str value) rightProper same
    simp only [render] at same
    obtain ⟨rfl, sameRest⟩ := quote_append_inj same
    exact ⟨rfl, sameRest⟩
  | @arr items proper induction =>
    intro leftRest rightRest leftEnds rightEnds same
    cases sameKind_of_append (.arr proper) rightProper same with
    | arr _ others =>
    cases rightProper with
    | arr otherProper =>
      simp only [toList_render_arr, toList_renderItems, List.cons_append, List.append_assoc,
        List.nil_append, List.cons.injEq, true_and] at same
      have starts (value : Json) (isValue : value ∈ items ∨ value ∈ others) :=
        exists_mark_ne_bracket (isValue.elim (proper value) (otherProper value))
      obtain ⟨sameItems, sameRest⟩ := tells_intercalate (by simp) starts
        (fun item isItem other isOther => induction item isItem (otherProper other isOther)) same
      rw [plain, plain, plainItems_eq_map, plainItems_eq_map, sameItems]
      exact ⟨rfl, sameRest⟩
  | @obj members distinct proper induction =>
    intro leftRest rightRest leftEnds rightEnds same
    cases sameKind_of_append (.obj distinct proper) rightProper same with
    | obj _ others =>
    cases rightProper with
    | obj _ otherProper =>
      simp only [toList_render_obj, toList_renderMembers, List.cons_append, List.append_assoc,
        List.nil_append, List.cons.injEq, true_and] at same
      have starts (member : String × Json) (_ : member ∈ members ∨ member ∈ others) :
          ∃ mark rest, memberText member = mark :: rest ∧ mark ≠ '\x7d' :=
        ⟨'"', _, by rw [memberText, toList_quote, List.cons_append], by decide⟩
      have tells (member : String × Json) (isMember : member ∈ members) (other : String × Json)
          (isOther : other ∈ others) : Tells memberText (Prod.map id plain) member other := by
        intro leftRest rightRest leftEnds rightEnds same
        simp only [memberText, List.append_assoc, List.cons_append] at same
        obtain ⟨sameName, sameRest⟩ := quote_append_inj same
        obtain ⟨sameValue, sameRest⟩ := induction member isMember (otherProper other isOther)
          leftEnds rightEnds (List.cons.inj sameRest).2
        exact ⟨Prod.ext sameName sameValue, sameRest⟩
      obtain ⟨sameMembers, sameRest⟩ := tells_intercalate (by simp) starts tells same
      rw [plain, plain, plainMembers_eq_map, plainMembers_eq_map, sameMembers]
      exact ⟨rfl, sameRest⟩

theorem plain_eq_of_render_eq {left right : Json} (leftProper : left.Proper Number.IsFinite)
    (rightProper : right.Proper Number.IsFinite) (same : render left = render right) :
    left.plain = right.plain := by
  have texts : (render left).toList ++ [] = (render right).toList ++ [] := by rw [same]
  have ends : Ends [] := trivial
  exact (tells_render leftProper rightProper ends ends texts).1

/-! ## What texts can express -/

mutual

/-- A value as its text can express it: a number that is not finite is absent. -/
def expressible : Json → Json
  | num value => if value.isNaN || value.isInf then null else num value
  | arr items => arr (expressibleItems items)
  | obj members => obj (expressibleMembers members)
  | value => value

/-- Items as their texts can express them. -/
def expressibleItems : List Json → List Json
  | [] => []
  | item :: rest => expressible item :: expressibleItems rest

/-- Members as their texts can express them. -/
def expressibleMembers : List (String × Json) → List (String × Json)
  | [] => []
  | (name, value) :: rest => (name, expressible value) :: expressibleMembers rest

end

theorem expressibleItems_eq_map (items : List Json) :
    expressibleItems items = items.map expressible := by
  induction items with
  | nil => simp only [expressibleItems, List.map_nil]
  | cons item rest induction => simp only [expressibleItems, List.map_cons, induction]

theorem expressibleMembers_eq_map (members : List (String × Json)) :
    expressibleMembers members = members.map (Prod.map id expressible) := by
  induction members with
  | nil => simp only [expressibleMembers, List.map_nil]
  | cons member rest induction =>
    simp only [expressibleMembers, List.map_cons, induction, Prod.map, id]

theorem expressible_arr (items : List Json) :
    (arr items).expressible = arr (items.map expressible) := by
  rw [expressible, expressibleItems_eq_map]

theorem expressible_obj (members : List (String × Json)) :
    (obj members).expressible = obj (members.map (Prod.map id expressible)) := by
  rw [expressible, expressibleMembers_eq_map]

theorem Proper.expressible {isNumber : Float → Prop} {value : Json}
    (proper : value.Proper isNumber) : value.expressible.Proper Number.IsFinite := by
  induction proper with
  | null => simpa only [Json.expressible] using .null
  | bool value => simpa only [Json.expressible] using .bool value
  | @num value _ =>
    rw [Json.expressible]
    split
    case isTrue => exact .null
    case isFalse finite => exact .num (Bool.eq_false_iff.mpr finite)
  | str value => simpa only [Json.expressible] using .str value
  | arr _ induction =>
    rw [expressible_arr]
    exact .arr (List.forall_mem_map.mpr induction)
  | obj distinct _ induction =>
    rw [expressible_obj]
    refine .obj ?_ (List.forall_mem_map.mpr induction)
    rw [List.map_map]
    exact distinct

theorem canonical_arr (items : List Json) :
    canonical (arr items) = "[" ++ ",".intercalate (items.map canonical) ++ "]" := by
  rw [canonical, sorted, sortedItems_eq_map, render, renderItems_eq_intercalate, List.map_map]
  rfl

/-- The canonical text of a member of an object. -/
def canonicalMember (member : String × Json) : String :=
  quote member.1 ++ ":" ++ canonical member.2

theorem canonical_obj (members : List (String × Json)) :
    canonical (obj members) =
      "\x7b" ++ ",".intercalate ((Text.sortBy (·.1) members).map canonicalMember) ++ "\x7d" := by
  rw [canonical, sorted, sortedMembers_eq_map, ← map_sortBy_names, render,
    renderMembers_eq_intercalate, List.map_map]
  rfl

/-- What a text cannot express does not change it. -/
theorem canonical_expressible (value : Json) : canonical value.expressible = canonical value := by
  induction value using Json.induction with
  | null | bool | str => simp only [expressible]
  | num value =>
    rw [expressible]
    split
    case isFalse => rfl
    case isTrue special => simp only [canonical, sorted, render, renderNumber, special, if_true]
  | arr items induction =>
    have same : (items.map expressible).map canonical = items.map canonical := by
      rw [List.map_map]
      exact List.map_congr_left induction
    rw [expressible_arr, canonical_arr, canonical_arr, same]
  | obj members induction =>
    have same : ((Text.sortBy (·.1) members).map (Prod.map id expressible)).map canonicalMember =
        (Text.sortBy (·.1) members).map canonicalMember := by
      rw [List.map_map]
      refine List.map_congr_left fun member isMember => ?_
      exact congrArg (quote member.1 ++ ":" ++ ·) (induction member (Text.mem_sortBy.mp isMember))
    rw [expressible_obj, canonical_obj, canonical_obj, ← map_sortBy_names, same]

/-- Values that are alike as far as texts can express them. -/
def Agree (left right : Json) : Prop := left.expressible.Alike right.expressible

/-- Values have the same canonical text if and only if they agree, whatever their numbers are. -/
theorem canonical_eq_iff {isNumber : Float → Prop} {left right : Json}
    (leftProper : left.Proper isNumber) (rightProper : right.Proper isNumber) :
    canonical left = canonical right ↔ left.Agree right := by
  rw [← canonical_expressible left, ← canonical_expressible right]
  constructor
  · intro same
    exact alike_of_normal_eq (plain_eq_of_render_eq leftProper.expressible.sorted
      rightProper.expressible.sorted same)
  · intro alike
    rw [canonical_eq_render_normal, canonical_eq_render_normal,
      alike.normal_eq leftProper.expressible]

/-! ## Members -/

theorem member?_obj_eq_some_iff {members : List (String × Json)}
    (distinct : (members.map (·.1)).Nodup) {name : String} {value : Json} :
    (obj members).member? name = some value ↔ (name, value) ∈ members :=
  Table.Distinct.get?_eq_some_iff (show (Table.mk members).Distinct from distinct)

theorem Alike.member? {isNumber : Float → Prop} {left right : Json} (alike : left.Alike right)
    (leftProper : left.Proper isNumber) (rightProper : right.Proper isNumber) {name : String}
    {value : Json} (found : left.member? name = some value) :
    ∃ other, right.member? name = some other ∧ value.Alike other := by
  cases leftProper with
  | obj leftDistinct =>
    cases rightProper with
    | obj rightDistinct =>
      rw [member?_obj_eq_some_iff leftDistinct] at found
      obtain ⟨⟨_, other⟩, isOther, rfl, same⟩ := alike.exists_member found
      exact ⟨other, (member?_obj_eq_some_iff rightDistinct).mpr isOther, same⟩
    | _ => cases alike
  | _ => cases found

theorem member?_expressible (value : Json) (name : String) :
    value.expressible.member? name = (value.member? name).map expressible := by
  cases value with
  | null | bool | str | arr => simp only [expressible, member?, Option.map_none]
  | num number =>
    rw [expressible]
    split <;> rfl
  | obj members =>
    rw [expressible_obj, member?, member?, List.find?_map, Option.map_map, Option.map_map]
    rfl

theorem Agree.member? {isNumber : Float → Prop} {left right : Json} (agree : left.Agree right)
    (leftProper : left.Proper isNumber) (rightProper : right.Proper isNumber) {name : String}
    {value : Json} (found : left.member? name = some value) :
    ∃ other, right.member? name = some other ∧ value.Agree other := by
  have expressed : left.expressible.member? name = some value.expressible := by
    rw [member?_expressible, found, Option.map_some]
  obtain ⟨_, present, same⟩ :=
    Alike.member? agree leftProper.expressible rightProper.expressible expressed
  rw [member?_expressible] at present
  obtain ⟨other, isOther, rfl⟩ := Option.map_eq_some_iff.mp present
  exact ⟨other, isOther, same⟩

end Json
end CodeAtlas
