import Lib3MF.Lib.Acyclic
import Mathlib.Data.List.Basic

/-!
# Traversals with fuel

A recursive visit of a graph that keeps no visited set is a function of the recursion depth it
may use, `none` meaning that it was not enough. A visit of a node folds the visits of its
children, so it returns as soon as all of them do (`foldlM_isSome`), and with a depth that
serves one child after the other there is one that serves all (`exists_depth`).
-/

namespace Lib

variable {α β : Type*}

/-- One depth from which on every member of a list is served. -/
theorem exists_depth (P : α → Nat → Prop) {l : List α}
    (h : ∀ a ∈ l, ∃ n, ∀ k, n ≤ k → P a k) : ∃ n, ∀ k, n ≤ k → ∀ a ∈ l, P a k := by
  induction l with
  | nil => exact ⟨0, fun _ _ _ ha => absurd ha List.not_mem_nil⟩
  | cons a l ih =>
    obtain ⟨n₁, h₁⟩ := h a (by simp)
    obtain ⟨n₂, h₂⟩ := ih fun b hb => h b (List.mem_cons_of_mem _ hb)
    refine ⟨max n₁ n₂, fun k hk b hb => ?_⟩
    rcases List.mem_cons.1 hb with rfl | hb
    · exact h₁ k (le_trans (le_max_left ..) hk)
    · exact h₂ k (le_trans (le_max_right ..) hk) b hb

/-- A fold that keeps `Inv` returns when each of its steps does. -/
theorem foldlM_isSome (Inv : β → Prop) {f : β → α → Option β} {l : List α} {b : β} (hb : Inv b)
    (h : ∀ a ∈ l, ∀ b, Inv b → ∃ b', f b a = some b' ∧ Inv b') :
    ∃ b', l.foldlM f b = some b' ∧ Inv b' := by
  induction l generalizing b with
  | nil => exact ⟨b, rfl, hb⟩
  | cons a l ih =>
    obtain ⟨b₁, h₁, hb₁⟩ := h a (by simp) b hb
    obtain ⟨b₂, h₂, hb₂⟩ := ih hb₁ fun c hc => h c (List.mem_cons_of_mem _ hc)
    refine ⟨b₂, ?_, hb₂⟩
    rw [List.foldlM_cons, h₁]
    exact h₂

/-- A fold that returned has made a step at each member. -/
theorem foldlM_steps (Inv : β → Prop) {f : β → α → Option β} {l : List α} {b b' : β}
    (hr : l.foldlM f b = some b') (hb : Inv b)
    (h : ∀ a ∈ l, ∀ b b', Inv b → f b a = some b' → Inv b') :
    Inv b' ∧ ∀ a ∈ l, ∃ b₁ b₂, Inv b₁ ∧ f b₁ a = some b₂ := by
  induction l generalizing b with
  | nil =>
    cases hr
    exact ⟨hb, fun a ha => absurd ha List.not_mem_nil⟩
  | cons a l ih =>
    rw [List.foldlM_cons] at hr
    cases ha : f b a with
    | none => rw [ha] at hr; cases hr
    | some b₁ =>
      rw [ha] at hr
      have hb₁ : Inv b₁ := h a (by simp) b b₁ hb ha
      obtain ⟨hb', hl⟩ := ih hr hb₁ fun c hc => h c (List.mem_cons_of_mem _ hc)
      refine ⟨hb', fun c hc => ?_⟩
      rcases List.mem_cons.1 hc with rfl | hc
      · exact ⟨b, b₁, hb, ha⟩
      · exact hl c hc

/-- The invariant rule of a fold that returned: `Inv done b` for the members visited. -/
theorem foldlM_some (Inv : List α → β → Prop) {f : β → α → Option β} {l done : List α} {b b' : β}
    (step : ∀ done b a b', a ∈ l → Inv done b → f b a = some b' → Inv (done ++ [a]) b')
    (hb : Inv done b) (h : l.foldlM f b = some b') : Inv (done ++ l) b' := by
  induction l generalizing done b with
  | nil =>
    cases h
    rwa [List.append_nil]
  | cons a l ih =>
    rw [List.foldlM_cons] at h
    cases ha : f b a with
    | none => rw [ha] at h; cases h
    | some b₁ =>
      rw [ha] at h
      have := ih (fun done b x b' hx => step done b x b' (List.mem_cons_of_mem _ hx))
        (step done b a b₁ List.mem_cons_self hb ha) h
      rwa [List.append_assoc] at this

/-- A fold that may also throw returns, with a value or an error, when each of its steps does. -/
theorem foldlM_run_isSome {ε β : Type} {f : β → α → ExceptT ε Option β} {l : List α} {b : β}
    (h : ∀ a ∈ l, ∀ b, (f b a).run.isSome) : (l.foldlM f b).run.isSome := by
  induction l generalizing b with
  | nil => rfl
  | cons a l ih =>
    have ha := h a (by simp) b
    rw [List.foldlM_cons]
    cases hx : (f b a).run with
    | none => rw [hx] at ha; cases ha
    | some x =>
      cases x with
      | error e => simp [ExceptT.run_bind, hx]
      | ok b₁ =>
        have hl : (l.foldlM f b₁).run.isSome := ih fun c hc => h c (List.mem_cons_of_mem _ hc)
        simpa [ExceptT.run_bind, hx] using hl

end Lib
