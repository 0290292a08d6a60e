import Mathlib.Data.List.Basic

/-!
# Loops that take what goes together

A loop takes an element exactly where it goes with all that were taken before, and throws otherwise.
It takes a list then exactly where any two of its elements go together (`foldlM_pairwise`).
-/

namespace Lib

variable {ε α β : Type} {f : β → α → Except ε β} {l done : List α} {b : β}

/-- The loop, behind the elements `done`. -/
theorem foldlM_pairwise_from (R : α → α → Prop) (Inv : List α → β → Prop) (E : ε → Prop)
    (step : ∀ done b a, Inv done b →
      ((∀ x ∈ done, R x a) ∧ ∃ b', f b a = .ok b' ∧ Inv (done ++ [a]) b') ∨
      (¬ (∀ x ∈ done, R x a) ∧ ∃ e, f b a = .error e ∧ E e))
    (hb : Inv done b) (hdone : done.Pairwise R) :
    ((done ++ l).Pairwise R ∧ ∃ b', l.foldlM f b = .ok b' ∧ Inv (done ++ l) b') ∨
    (¬ (done ++ l).Pairwise R ∧ ∃ e, l.foldlM f b = .error e ∧ E e) := by
  induction l generalizing done b with
  | nil =>
    rw [List.append_nil]
    exact .inl ⟨hdone, b, rfl, hb⟩
  | cons a l ih =>
    have hassoc : done ++ a :: l = done ++ [a] ++ l := by
      rw [List.append_assoc, List.singleton_append]
    rw [hassoc, List.foldlM_cons]
    rcases step done b a hb with ⟨hall, b₁, hf, hb₁⟩ | ⟨hnot, e, hf, he⟩
    · rw [hf]
      refine ih hb₁ (List.pairwise_append.2 ⟨hdone, List.pairwise_singleton _ _, ?_⟩)
      simpa using hall
    · rw [hf]
      refine .inr ⟨fun h => hnot fun x hx => ?_, e, rfl, he⟩
      exact (List.pairwise_append.1 (List.pairwise_append.1 h).1).2.2 x hx a (by simp)

/-- The rule of the loop, with `Inv done b` for the elements taken and the value so far. -/
theorem foldlM_pairwise (R : α → α → Prop) (Inv : List α → β → Prop) (E : ε → Prop)
    (step : ∀ done b a, Inv done b →
      ((∀ x ∈ done, R x a) ∧ ∃ b', f b a = .ok b' ∧ Inv (done ++ [a]) b') ∨
      (¬ (∀ x ∈ done, R x a) ∧ ∃ e, f b a = .error e ∧ E e)) (hb : Inv [] b) :
    (l.Pairwise R ∧ ∃ b', l.foldlM f b = .ok b' ∧ Inv l b') ∨
    (¬ l.Pairwise R ∧ ∃ e, l.foldlM f b = .error e ∧ E e) :=
  foldlM_pairwise_from R Inv E step hb .nil

end Lib
