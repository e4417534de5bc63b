/-!
# Tables

A table maps keys to values and keeps its entries in the order in which their keys were first put.
-/

namespace CodeAtlas

/-- Entries by key, in the order in which the keys were first put. -/
structure Table (κ α : Type) where
  /-- The keys with their values. -/
  entries : List (κ × α)
  deriving Repr

namespace Table

variable {κ α : Type} [DecidableEq κ]

/-- The table without entries. -/
def empty : Table κ α := ⟨[]⟩

/-- The value of a key. -/
def get? (table : Table κ α) (key : κ) : Option α :=
  (table.entries.find? (·.1 = key)).map (·.2)

/-- Whether a table has a key. -/
def has (table : Table κ α) (key : κ) : Bool :=
  table.entries.any (·.1 = key)

/-- Gives a key a value. A key that is there keeps its place. -/
def put (table : Table κ α) (key : κ) (value : α) : Table κ α :=
  if table.has key then
    ⟨table.entries.map fun entry => if entry.1 = key then (key, value) else entry⟩
  else
    ⟨table.entries ++ [(key, value)]⟩

/-- Changes the value of a key, given the value it has so far. -/
def update (table : Table κ α) (key : κ) (change : Option α → α) : Table κ α :=
  table.put key (change (table.get? key))

/-- Removes a key. -/
def erase (table : Table κ α) (key : κ) : Table κ α :=
  ⟨table.entries.filter fun entry => !decide (entry.1 = key)⟩

/-- The keys in order. -/
def keys (table : Table κ α) : List κ := table.entries.map (·.1)

/-- The values in order. -/
def values (table : Table κ α) : List α := table.entries.map (·.2)

/-- The number of keys. -/
def size (table : Table κ α) : Nat := table.entries.length

/-- Puts entries one after another. -/
def putAll (table : Table κ α) (entries : List (κ × α)) : Table κ α :=
  entries.foldl (fun table entry => table.put entry.1 entry.2) table

/-- The table of a list of entries; the last entry of a key counts. -/
def ofList (entries : List (κ × α)) : Table κ α := empty.putAll entries

/-- Collects values under their keys, in the given order. -/
def group (key : α → κ) (values : List α) : Table κ (List α) :=
  values.foldl (fun table value => table.update (key value) fun found => found.getD [] ++ [value])
    empty

@[simp]
theorem get?_empty (key : κ) : (empty : Table κ α).get? key = none := rfl

@[simp]
theorem get?_put_self (table : Table κ α) (key : κ) (value : α) :
    (table.put key value).get? key = some value := by
  unfold put
  split
  case isTrue present =>
    obtain ⟨entry, member, same⟩ := List.any_eq_true.mp present
    simp only [get?, List.find?_map, Function.comp_def]
    have found : (table.entries.find? fun entry =>
        decide ((if entry.1 = key then (key, value) else entry).1 = key)).isSome := by
      rw [List.find?_isSome]
      exact ⟨entry, member, by simp_all⟩
    obtain ⟨other, isOther⟩ := Option.isSome_iff_exists.mp found
    have matched := List.find?_some isOther
    rw [isOther]
    by_cases same : other.1 = key <;> simp_all
  case isFalse absent =>
    have none : table.entries.find? (·.1 = key) = none := by
      simp only [has, List.any_eq_true, decide_eq_true_eq, not_exists, not_and] at absent
      simpa using fun other value' member => absent (other, value') member
    simp [get?, List.find?_append, none]

theorem get?_put_of_ne (table : Table κ α) {key other : κ} (different : other ≠ key) (value : α) :
    (table.put key value).get? other = table.get? other := by
  unfold put
  split
  · simp only [get?, List.find?_map, Function.comp_def]
    have same : (fun entry : κ × α =>
        decide ((if entry.1 = key then (key, value) else entry).1 = other)) =
        fun entry => decide (entry.1 = other) := by
      funext entry
      by_cases isKey : entry.1 = key <;> simp [isKey]
    rw [same]
    cases found : table.entries.find? (·.1 = other) with
    | none => rfl
    | some entry =>
      have matched : entry.1 = other := by simpa using List.find?_some found
      simp [matched, different]
  · simp [get?, List.find?_append, different.symm]

end Table

/-- The values of a list, each once, in the order of their first occurrence. -/
def distinct {α : Type} [DecidableEq α] (values : List α) : List α :=
  values.foldl (fun found value => if value ∈ found then found else found ++ [value]) []

end CodeAtlas
