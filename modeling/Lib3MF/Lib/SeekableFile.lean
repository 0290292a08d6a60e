import Mathlib.Data.List.Basic
import Mathlib.Algebra.Order.Ring.Int

/-!
# Seekable files

A file is a list with a position in it, which never lies behind the end. A seek has a target, an
integer: the call moves there when it lies in the file (`seek_of_within`) and does nothing otherwise
(`seek_of_not_within`). Reading takes what there is from the position on, writing replaces it and
extends the file.
-/

namespace Lib

/-- Where the distance of a seek counts from. -/
inductive Origin where
  | start | current | finish
  deriving DecidableEq

structure SeekableFile (α : Type) where
  data : List α
  position : Nat
  position_le : position ≤ data.length

namespace SeekableFile

variable {α : Type} {f g : SeekableFile α} {o : Origin} {n : Nat} {t : ℤ}

@[ext] theorem ext (hd : f.data = g.data) (hp : f.position = g.position) : f = g := by
  cases f; cases g; cases hd; cases hp; rfl

/-- The place `n` behind the origin, before it at the end. -/
def target (f : SeekableFile α) (o : Origin) (n : Nat) : ℤ :=
  match o with
  | .start => n
  | .current => f.position + n
  | .finish => f.data.length - n

/-- The place is one of the file, its end included. -/
def Within (f : SeekableFile α) (t : ℤ) : Prop := 0 ≤ t ∧ t ≤ f.data.length

instance (f : SeekableFile α) (t : ℤ) : Decidable (f.Within t) :=
  inferInstanceAs (Decidable (_ ∧ _))

theorem within_start : f.Within (f.target .start n) ↔ n ≤ f.data.length := by
  simp only [Within, target]
  omega

theorem within_current :
    f.Within (f.target .current n) ↔ f.position + n ≤ f.data.length := by
  simp only [Within, target]
  omega

theorem within_finish : f.Within (f.target .finish n) ↔ n ≤ f.data.length := by
  simp only [Within, target]
  omega

/-- Moves to the target, if it lies in the file. -/
def seek (f : SeekableFile α) (t : ℤ) : Option (SeekableFile α) :=
  if h : f.Within t then some ⟨f.data, t.toNat, Int.toNat_le.2 h.2⟩ else none

theorem seek_of_within (h : f.Within t) :
    f.seek t = some ⟨f.data, t.toNat, Int.toNat_le.2 h.2⟩ := dif_pos h

theorem seek_of_not_within (h : ¬ f.Within t) : f.seek t = none := dif_neg h

/-- The next `n` items, or what there is of them. -/
def read (f : SeekableFile α) (n : Nat) : List α := (f.data.drop f.position).take n

theorem length_read : (f.read n).length = min n (f.data.length - f.position) := by
  simp [read]

/-- The file behind what was read. -/
def skip (f : SeekableFile α) (n : Nat) : SeekableFile α where
  data := f.data
  position := f.position + (f.read n).length
  position_le := by
    have := f.position_le
    rw [length_read]
    omega

/-- The file after the items at the position are replaced by those given. -/
def write (f : SeekableFile α) (items : List α) : SeekableFile α where
  data := f.data.take f.position ++ items ++ f.data.drop (f.position + items.length)
  position := f.position + items.length
  position_le := by
    have := f.position_le
    simp only [List.length_append, List.length_take, List.length_drop]
    omega

/-- What was written is read back from there. -/
theorem read_write (items : List α) :
    (((f.write items).data.drop f.position).take items.length) = items := by
  have hlen : (f.data.take f.position).length = f.position := by
    rw [List.length_take, Nat.min_eq_left f.position_le]
  show List.take _ (List.drop _ (_ ++ items ++ _)) = items
  rw [List.append_assoc, List.drop_left' hlen, List.take_left' rfl]

end SeekableFile

end Lib
