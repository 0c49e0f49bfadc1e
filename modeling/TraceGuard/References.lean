import Mathlib.Data.List.Basic

/-! A slot that holds a mutable object by reference. Writing changes the object for everything that
refers to it; rebinding leaves it as it is and refers to a new one. -/

structure Slot (α : Type) where
  cells : List α
  ref : Fin cells.length

namespace Slot
variable {α : Type}

def ofValue (a : α) : Slot α := ⟨[a], ⟨0, Nat.zero_lt_one⟩⟩

def get (f : Slot α) : α := f.cells[f.ref]

/-- The object behind any reference. -/
def read (f : Slot α) (r : Nat) : Option α := f.cells[r]?

def write (f : Slot α) (a : α) : Slot α :=
  ⟨f.cells.set f.ref a, ⟨f.ref, by simp⟩⟩

def rebind (f : Slot α) (a : α) : Slot α :=
  ⟨f.cells++[a], ⟨f.cells.length, by simp⟩⟩

/-- Refer to an object that exists already. -/
def refer (f : Slot α) (r : Nat) : Slot α :=
  if h : r<f.cells.length then ⟨f.cells, ⟨r, h⟩⟩ else f

@[simp] theorem get_ofValue (a : α) : (ofValue a).get = a := rfl

@[simp] theorem get_write (f : Slot α) (a : α) : (f.write a).get = a := by
  simp [get, write]

@[simp] theorem get_rebind (f : Slot α) (a : α) : (f.rebind a).get = a := by
  simp [get, rebind]

@[simp] theorem read_ref (f : Slot α) : f.read f.ref = some f.get := by
  simp [read, get]

/-- A write is seen through the slot's own reference and no other. -/
theorem read_write (f : Slot α) (a : α) (r : Nat) :
    (f.write a).read r = if r=f.ref then some a else f.read r := by
  unfold read write
  by_cases h : r=f.ref
  · rw [if_pos h, h, List.getElem?_set_self f.ref.isLt]
  · rw [if_neg h, List.getElem?_set_ne (Ne.symm h)]

/-- A new object is behind no reference that exists. -/
theorem read_rebind (f : Slot α) (a : α) {r : Nat} {b : α} (h : f.read r = some b) :
    (f.rebind a).read r = some b := by
  obtain ⟨hr, -⟩ := List.getElem?_eq_some_iff.mp h
  exact (List.getElem?_append_left hr).trans h

theorem rebind_ref_ne (f : Slot α) (a : α) {r : Nat} {b : α} (h : f.read r = some b) :
    r≠(f.rebind a).ref := by
  obtain ⟨hr, -⟩ := List.getElem?_eq_some_iff.mp h
  exact Nat.ne_of_lt hr

@[simp] theorem get_refer {f : Slot α} {r : Nat} {a : α} (h : f.read r = some a) :
    (f.refer r).get = a := by
  obtain ⟨hr, ha⟩ := List.getElem?_eq_some_iff.mp h
  unfold refer
  rw [dif_pos hr]
  exact ha

end Slot
