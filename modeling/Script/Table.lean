/-!
# Tables of names

A table binds names to entries and remembers the order in which the names were first bound.
Binding a name again changes its entry and keeps its position.
-/

namespace Script

/-- Names with their entries, in the order in which the names were first bound. -/
structure Table (α : Type) where
  entries : List (String × α)

namespace Table

variable {α : Type}

/-- The table without names. -/
def empty : Table α :=
  ⟨[]⟩

instance : Inhabited (Table α) :=
  ⟨empty⟩

/-- The entry of a name. -/
def get? (table : Table α) (name : String) : Option α :=
  table.entries.lookup name

/-- The name is bound. -/
def contains (table : Table α) (name : String) : Bool :=
  (table.get? name).isSome

/-- Entries with a name bound anew, in its old place or at the end. -/
def insertInto (name : String) (entry : α) : List (String × α) → List (String × α)
  | [] => [(name, entry)]
  | (other, old) :: rest =>
    if name == other then (name, entry) :: rest else (other, old) :: insertInto name entry rest

/-- The table with a name bound to an entry. -/
def insert (table : Table α) (name : String) (entry : α) : Table α :=
  ⟨insertInto name entry table.entries⟩

/-- A name that is bound anew has its new entry, and all other names keep theirs. -/
theorem lookup_insertInto (name other : String) (entry : α) (entries : List (String × α)) :
    (insertInto name entry entries).lookup other =
      if other = name then some entry else entries.lookup other := by
  induction entries with
  | nil => grind [insertInto]
  | cons pair rest ih => grind [insertInto]

@[simp]
theorem get?_empty (name : String) : (empty : Table α).get? name = none :=
  rfl

/-- Looking up a name after binding one. -/
theorem get?_insert (table : Table α) (name other : String) (entry : α) :
    (table.insert name entry).get? other =
      if other = name then some entry else table.get? other :=
  lookup_insertInto name other entry table.entries

/-- The table without a name. -/
def erase (table : Table α) (name : String) : Table α :=
  ⟨table.entries.filter fun pair => pair.1 != name⟩

/-- Looking up a name after erasing one. -/
theorem get?_erase (table : Table α) (name other : String) :
    (table.erase name).get? other = if other = name then none else table.get? other := by
  obtain ⟨entries⟩ := table
  simp only [get?, erase]
  induction entries with
  | nil => simp
  | cons pair rest ih => grind

/-- The names, in order. -/
def names (table : Table α) : List String :=
  table.entries.map (·.1)

/-- The number of names. -/
def size (table : Table α) : Nat :=
  table.entries.length

/-- The table with the names of another bound as there, one after the other. -/
def insertAll (table other : Table α) : Table α :=
  other.entries.foldl (fun merged pair => merged.insert pair.1 pair.2) table

/-- The table that binds pairs one after the other. -/
def ofList (pairs : List (String × α)) : Table α :=
  empty.insertAll ⟨pairs⟩

end Table

end Script
