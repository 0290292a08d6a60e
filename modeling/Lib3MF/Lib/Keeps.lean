import Lib3MF.Lib.Except
import Mathlib.Data.List.Infix

/-!
# What a machine that may throw keeps along its input

`Keeps step P s as` says that reading `as` from `s` throws nowhere and that `P` holds at every
point on the way. `keeps_cons_iff` and `keeps_append_iff` take the input apart.
-/

namespace Lib

variable {ε σ α : Type} {step : σ → α → Except ε σ} {P : σ → Prop} {s : σ}

/-- Reading any part of `as` from `s` goes through and ends in a state with `P`. -/
def Keeps (step : σ → α → Except ε σ) (P : σ → Prop) (s : σ) (as : List α) : Prop :=
  ∀ pre, pre <+: as → ∃ t, pre.foldlM step s = .ok t ∧ P t

theorem Keeps.head {as : List α} (h : Keeps step P s as) : P s := by
  obtain ⟨t, ht, hp⟩ := h [] List.nil_prefix
  cases ht
  exact hp

@[simp] theorem keeps_nil : Keeps step P s [] ↔ P s := by
  constructor
  · exact Keeps.head
  · intro h pre hpre
    rw [List.prefix_nil.1 hpre]
    exact ⟨s, rfl, h⟩

theorem keeps_cons {a : α} {as : List α} :
    Keeps step P s (a :: as) ↔ P s ∧ ∃ t, step s a = .ok t ∧ Keeps step P t as := by
  constructor
  · intro h
    obtain ⟨s', hs', hp⟩ := h [] List.nil_prefix
    cases hs'
    obtain ⟨t, ht, _⟩ := h [a] (List.prefix_append [a] as)
    rw [List.foldlM_cons] at ht
    obtain ⟨t₁, ht₁, _⟩ := bind_eq_ok.1 ht
    refine ⟨hp, t₁, ht₁, fun pre hpre => ?_⟩
    obtain ⟨u, hu, hpu⟩ := h (a :: pre) (List.cons_prefix_cons.2 ⟨rfl, hpre⟩)
    rw [List.foldlM_cons] at hu
    obtain ⟨t₂, ht₂, hu⟩ := bind_eq_ok.1 hu
    cases ht₁.symm.trans ht₂
    exact ⟨u, hu, hpu⟩
  · intro ⟨hp, t, ht, hk⟩ pre hpre
    cases pre with
    | nil => exact ⟨s, rfl, hp⟩
    | cons b pre =>
      obtain ⟨rfl, hrest⟩ := List.cons_prefix_cons.1 hpre
      obtain ⟨u, hu, hpu⟩ := hk pre hrest
      refine ⟨u, ?_, hpu⟩
      rw [List.foldlM_cons, ht]
      exact hu

theorem keeps_append {as bs : List α} :
    Keeps step P s (as ++ bs) ↔
      Keeps step P s as ∧ ∃ t, as.foldlM step s = .ok t ∧ Keeps step P t bs := by
  induction as generalizing s with
  | nil =>
    constructor
    · intro h
      exact ⟨keeps_nil.2 (h.head), s, rfl, h⟩
    · intro ⟨_, t, ht, h⟩
      cases ht
      exact h
  | cons a as ih =>
    rw [List.cons_append, keeps_cons, keeps_cons]
    constructor
    · intro ⟨hp, t, ht, h⟩
      obtain ⟨h₁, u, hu, h₂⟩ := ih.1 h
      refine ⟨⟨hp, t, ht, h₁⟩, u, ?_, h₂⟩
      rw [List.foldlM_cons, ht]
      exact hu
    · intro ⟨⟨hp, t, ht, h₁⟩, u, hu, h₂⟩
      rw [List.foldlM_cons, ht] at hu
      exact ⟨hp, t, ht, ih.2 ⟨h₁, u, hu, h₂⟩⟩

/-- One input, and what the rest of the input then needs. -/
theorem keeps_cons_iff {a : α} {as : List α} {Q : Prop} (hs : P s)
    (h : ∀ t, step s a = .ok t → P t → (Keeps step P t as ↔ Q)) :
    Keeps step P s (a :: as) ↔ (∃ t, step s a = .ok t ∧ P t) ∧ Q := by
  rw [keeps_cons]
  constructor
  · intro ⟨_, t, ht, hk⟩
    exact ⟨⟨t, ht, hk.head⟩, (h t ht hk.head).1 hk⟩
  · intro ⟨⟨t, ht, hp⟩, hq⟩
    exact ⟨hs, t, ht, (h t ht hp).2 hq⟩

/-- A part of the input, and what the rest of it then needs. -/
theorem keeps_append_iff {as bs : List α} {Q : Prop}
    (h : ∀ t, as.foldlM step s = .ok t → P t → (Keeps step P t bs ↔ Q)) :
    Keeps step P s (as ++ bs) ↔ Keeps step P s as ∧ Q := by
  rw [keeps_append]
  constructor
  · intro ⟨hk, t, ht, hb⟩
    exact ⟨hk, (h t ht hb.head).1 hb⟩
  · intro ⟨hk, hq⟩
    obtain ⟨t, ht, hp⟩ := hk as List.prefix_rfl
    exact ⟨hk, t, ht, (h t ht hp).2 hq⟩

/-- The whole input goes through. -/
theorem Keeps.run {as : List α} (h : Keeps step P s as) :
    ∃ t, as.foldlM step s = .ok t ∧ P t := h as List.prefix_rfl

end Lib
