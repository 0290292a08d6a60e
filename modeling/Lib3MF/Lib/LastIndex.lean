import Mathlib.Data.List.Induction

/-!
# The last position of a key in a list

`lastIndex p l` is the last position of `l` whose item satisfies `p`: what a map holds for a key
after each item of `l` was written to it in turn.
-/

namespace Lib

variable {α : Type} {p : α → Bool} {l l' : List α} {a : α} {i : Nat}

/-- The last position of an item that satisfies `p`. -/
def lastIndex (p : α → Bool) (l : List α) : Option Nat :=
  l.zipIdx.foldl (fun last x => if p x.1 then some x.2 else last) none

@[simp] theorem lastIndex_nil : lastIndex p [] = none := rfl

theorem lastIndex_append_singleton :
    lastIndex p (l ++ [a]) = if p a then some l.length else lastIndex p l := by
  rw [lastIndex, List.zipIdx_append, List.foldl_append, Nat.zero_add]
  rfl

/-- An item at the last position satisfies `p`. -/
theorem lastIndex_eq_some (h : lastIndex p l = some i) : ∃ a, l[i]? = some a ∧ p a := by
  induction l using List.reverseRecOn with
  | nil => cases h
  | append_singleton l b ih =>
    rw [lastIndex_append_singleton] at h
    split_ifs at h with hb
    · cases h
      exact ⟨b, by simp, hb⟩
    · obtain ⟨a, ha, hp⟩ := ih h
      have hi := (List.getElem?_eq_some_iff.1 ha).1
      exact ⟨a, by rw [List.getElem?_append_left hi, ha], hp⟩

theorem lastIndex_lt (h : lastIndex p l = some i) : i < l.length := by
  obtain ⟨a, ha, -⟩ := lastIndex_eq_some h
  exact (List.getElem?_eq_some_iff.1 ha).1

theorem lastIndex_append :
    lastIndex p (l ++ l') = ((lastIndex p l').map (l.length + ·)).or (lastIndex p l) := by
  induction l' using List.reverseRecOn with
  | nil => simp
  | append_singleton l' b ih =>
    rw [← List.append_assoc, lastIndex_append_singleton, lastIndex_append_singleton, ih]
    split_ifs with hb
    · rw [List.length_append]; rfl
    · rfl

/-- A last position in front of `l'` is the last position in front. -/
theorem lastIndex_of_append (h : lastIndex p (l ++ l') = some i) (hi : i < l.length) :
    lastIndex p l = some i := by
  rw [lastIndex_append] at h
  cases hl : lastIndex p l' with
  | none => rwa [hl] at h
  | some j =>
    rw [hl] at h
    simp only [Option.map_some, Option.some_or, Option.some.injEq] at h
    omega

/-- The last position of an item behind `l`. -/
theorem lastIndex_append_right (h : lastIndex p (l ++ l') = some i) (hi : l.length ≤ i) :
    lastIndex p l' = some (i - l.length) := by
  rw [lastIndex_append] at h
  cases hl : lastIndex p l' with
  | none =>
    rw [hl] at h
    have := lastIndex_lt h
    omega
  | some j =>
    rw [hl] at h
    cases h
    simp

end Lib
