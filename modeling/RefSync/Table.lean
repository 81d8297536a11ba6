/-
Tables from text keys to values, as lists of pairs in insertion order. What a table
means is its `get?`; the lemmas say what each operation does to it. Setting a key
that is present keeps its position.
-/

import RefSync.Sorted

namespace RefSync

abbrev Table (α : Type) := List (String × α)

namespace Table

variable {α : Type}

def get? (table : Table α) (key : String) : Option α :=
  table.lookup key

def contains (table : Table α) (key : String) : Bool :=
  table.any (·.1 == key)

def keys (table : Table α) : List String :=
  table.map (·.1)

/-- A key that is present keeps its position, a new one goes to the end. -/
def set : Table α → String → α → Table α
  | [], key, value => [(key, value)]
  | member :: rest, key, value =>
      if member.1 == key then (key, value) :: rest else member :: set rest key value

def erase (table : Table α) (key : String) : Table α :=
  table.filter (·.1 != key)

/-- Sets a key unless it is there. -/
def setDefault (table : Table α) (key : String) (value : α) : Table α :=
  if table.contains key then table else table.set key value

/-- The entries in the order of their keys. -/
def sortKeys (table : Table α) : Table α :=
  sortBy (fun left right => decide (left.1 ≤ right.1)) table

@[simp] theorem get?_nil (key : String) : get? ([] : Table α) key = none := rfl

theorem get?_cons (member : String × α) (rest : Table α) (key : String) :
    get? (member :: rest) key = if key = member.1 then some member.2 else get? rest key := by
  obtain ⟨other, value⟩ := member
  by_cases same : key = other
  · simp [get?, same]
  · simp [get?, List.lookup_cons, same, beq_false_of_ne same]

theorem get?_set (table : Table α) (key other : String) (value : α) :
    (table.set key value).get? other = if other = key then some value else table.get? other := by
  induction table with
  | nil => simp [set, get?_cons]
  | cons member rest ih =>
      by_cases same : member.1 = key
      · by_cases asked : other = key <;> simp [set, get?_cons, same, asked]
      · by_cases asked : other = member.1
        · have differs : other ≠ key := fun equal => same (asked ▸ equal)
          simp [set, get?_cons, same, asked]
        · simp [set, get?_cons, same, asked, ih]

theorem get?_erase (table : Table α) (key other : String) :
    (table.erase key).get? other = if other = key then none else table.get? other := by
  induction table with
  | nil => simp [erase]
  | cons member rest ih =>
      by_cases same : member.1 = key
      · by_cases asked : other = key
        · simpa [erase, same, asked] using ih
        · have differs : other ≠ member.1 := fun equal => asked (equal.trans same)
          simpa [erase, same, asked, get?_cons, differs] using ih
      · by_cases asked : other = member.1
        · have differs : other ≠ key := fun equal => same (asked ▸ equal)
          simp [erase, get?_cons, same, asked]
        · simpa [erase, get?_cons, same, asked] using ih

theorem contains_iff {table : Table α} {key : String} :
    table.contains key = true ↔ (table.get? key).isSome := by
  induction table with
  | nil => simp [contains]
  | cons member rest ih =>
      by_cases same : key = member.1
      · simp [contains, get?_cons, same]
      · have differs : member.1 ≠ key := fun equal => same equal.symm
        simpa [contains, get?_cons, same, differs] using ih

end Table
end RefSync
