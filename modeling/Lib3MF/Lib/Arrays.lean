import Mathlib.Data.List.Basic

/-!
# A memory of arrays

`Arrays α` holds the arrays that were allocated, in this order; an array that was freed leaves
its number unused. A pointer is an array's number and a place in the array. A new array changes
no other (`read_new_of_isSome`), a write changes one place (`read_write`), and freeing one only
takes what was in it (`read_delete`).
-/

namespace Lib

/-- A place in an array. -/
structure Pointer where
  array : Nat
  place : Nat
  deriving DecidableEq

/-- The arrays, `none` where one was freed. -/
structure Arrays (α : Type*) where
  arrays : List (Option (List α))

namespace Arrays

variable {α : Type*}

def empty : Arrays α := ⟨[]⟩

/-- `new T[n]`: a new array, and its number. -/
def new (m : Arrays α) (cells : List α) : Arrays α × Nat :=
  (⟨m.arrays ++ [some cells]⟩, m.arrays.length)

/-- `delete[]`. -/
def delete (m : Arrays α) (b : Nat) : Arrays α := ⟨m.arrays.set b none⟩

/-- The cells of an array that is not freed. -/
def cells (m : Arrays α) (b : Nat) : Option (List α) := m.arrays[b]?.join

/-- What a pointer points to. -/
def read (m : Arrays α) (p : Pointer) : Option α := (m.cells p.array).bind (·[p.place]?)

/-- `*p = a`. -/
def write (m : Arrays α) (p : Pointer) (a : α) : Arrays α :=
  ⟨m.arrays.modify p.array (Option.map (·.set p.place a))⟩

variable {m : Arrays α} {p q : Pointer} {b b' : Nat}

theorem cells_new (m : Arrays α) (l : List α) (b : Nat) :
    (m.new l).1.cells b = if b = (m.new l).2 then some l else m.cells b := by
  change (m.arrays ++ [some l])[b]?.join =
    if b = m.arrays.length then some l else m.arrays[b]?.join
  obtain hlt | rfl | hgt := Nat.lt_trichotomy b m.arrays.length
  · rw [List.getElem?_append_left hlt, if_neg (Nat.ne_of_lt hlt)]
  · simp
  · rw [if_neg (Nat.ne_of_gt hgt), List.getElem?_eq_none (by simp; omega),
      List.getElem?_eq_none (Nat.le_of_lt hgt)]

/-- The number of a new array is not that of another. -/
theorem cells_next (m : Arrays α) (l : List α) : m.cells (m.new l).2 = none := by
  simp [cells, new]

theorem read_new (l : List α) :
    (m.new l).1.read p = if p.array = (m.new l).2 then l[p.place]? else m.read p := by
  simp only [read, cells_new]
  split_ifs <;> rfl

/-- What can be read is read behind a new array too. -/
theorem read_new_of_isSome (h : (m.read p).isSome) (l : List α) :
    (m.new l).1.read p = m.read p := by
  rw [read_new, if_neg]
  intro hp
  rw [read, hp, cells_next] at h
  cases h

theorem cells_delete :
    (m.delete b).cells b' = if b' = b then none else m.cells b' := by
  simp only [delete, cells]
  by_cases hb : b' = b
  · subst hb
    rw [if_pos rfl, List.getElem?_set_self']
    cases m.arrays[b']? <;> rfl
  · rw [if_neg hb, List.getElem?_set_ne (Ne.symm hb)]

theorem read_delete : (m.delete b).read p = if p.array = b then none else m.read p := by
  simp only [read, cells_delete]
  split_ifs <;> rfl

theorem cells_write (a : α) :
    (m.write p a).cells b = if p.array = b then (m.cells b).map (·.set p.place a)
      else m.cells b := by
  simp only [write, cells]
  rw [List.getElem?_modify]
  split_ifs with h
  · cases m.arrays[b]? with
    | none => rfl
    | some x => cases x <;> rfl
  · simp

/-- A write through a pointer to an element changes that element only. -/
theorem read_write (h : (m.read p).isSome) (a : α) :
    (m.write p a).read q = if q = p then some a else m.read q := by
  obtain ⟨x, hx⟩ := Option.isSome_iff_exists.1 h
  obtain ⟨l, hl, hlx⟩ := Option.bind_eq_some_iff.1 hx
  have hlt : p.place < l.length := (List.getElem?_eq_some_iff.1 hlx).1
  rw [read, cells_write]
  by_cases hb : p.array = q.array
  · rw [if_pos hb, ← hb, hl, Option.map_some, Option.bind_some, List.getElem?_set]
    by_cases hp : p.place = q.place
    · have hpq : q = p := by cases p; cases q; simp_all
      rw [if_pos hp, if_pos (by omega), if_pos hpq]
    · rw [if_neg hp, if_neg (by rintro rfl; exact hp rfl), read, ← hb, hl, Option.bind_some]
  · rw [if_neg hb, if_neg (by rintro rfl; exact hb rfl), read]

end Arrays

end Lib
