/-!
# Stores

A store holds the contents of the objects of one sort. An object is named by its number, in the
order of creation. Looking up a number that no object has gives a default, and changing such an
object changes nothing.
-/

namespace Script

/-- The contents of the objects of one sort, by number. -/
structure Store (α : Type) where
  cells : Array α

namespace Store

variable {α : Type}

/-- The store without objects. -/
def empty : Store α :=
  ⟨#[]⟩

instance : Inhabited (Store α) :=
  ⟨empty⟩

/-- The number of the next object. -/
def next (store : Store α) : Nat :=
  store.cells.size

/-- The contents of an object. -/
def get [Inhabited α] (store : Store α) (id : Nat) : α :=
  store.cells.getD id default

/-- The store with a new object, which has the number `store.next`. -/
def push (store : Store α) (contents : α) : Store α :=
  ⟨store.cells.push contents⟩

/-- The store with the contents of an object changed. -/
def modify (store : Store α) (id : Nat) (change : α → α) : Store α :=
  ⟨store.cells.modify id change⟩

@[simp]
theorem next_push (store : Store α) (contents : α) :
    (store.push contents).next = store.next + 1 := by
  simp [next, push]

@[simp]
theorem next_modify (store : Store α) (id : Nat) (change : α → α) :
    (store.modify id change).next = store.next := by
  simp [next, modify]

variable [Inhabited α]

/-- A new object has the contents it was made with, and all others keep theirs. -/
theorem get_push (store : Store α) (contents : α) (id : Nat) :
    (store.push contents).get id = if id = store.next then contents else store.get id := by
  simp only [get, push, next, Array.getD_eq_getD_getElem?, Array.getElem?_push]
  split <;> simp

/-- Changing an object that exists changes that object and no other. -/
theorem get_modify (store : Store α) (id other : Nat) (change : α → α) (h : id < store.next) :
    (store.modify id change).get other =
      if other = id then change (store.get id) else store.get other := by
  simp only [next] at h
  simp only [get, modify, Array.getD_eq_getD_getElem?, Array.getElem?_modify]
  by_cases same : other = id
  · subst same
    simp [h]
  · simp [same, Ne.symm same]

/-- Changing an object that does not exist changes nothing. -/
theorem get_modify_of_le (store : Store α) (id other : Nat) (change : α → α) (h : store.next ≤ id) :
    (store.modify id change).get other = store.get other := by
  simp only [next] at h
  simp only [get, modify, Array.getD_eq_getD_getElem?, Array.getElem?_modify]
  split
  · rename_i same
    subst same
    simp [Array.getElem?_eq_none h]
  · rfl

end Store

end Script
