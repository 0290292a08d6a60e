import Mathlib.Data.List.Basic
import Mathlib.Data.Prod.Lex
import Mathlib.Logic.Relation
import Mathlib.Order.Bounds.Basic

/-!
# Depths, and lists sorted by a key

`Steps edge n a b` says that `n` edges lead from `a` to `b`. A list sorted by a key holds two
items in the order of their keys (`pair_sublist_mergeSort_iff`).
-/

namespace Lib

variable {α κ : Type*} {edge : α → α → Prop} {a b c t u : α} {n : Nat} {l : List α}

/-- `n` edges lead from one node to another. -/
inductive Steps (edge : α → α → Prop) : Nat → α → α → Prop where
  | refl (a : α) : Steps edge 0 a a
  | head {n : Nat} {a b c : α} (h : edge a b) (hs : Steps edge n b c) : Steps edge (n + 1) a c

theorem steps_zero : Steps edge 0 a b ↔ a = b := by
  constructor
  · intro h
    cases h
    rfl
  · intro h
    exact h ▸ .refl a

theorem steps_succ : Steps edge (n + 1) a c ↔ ∃ b, edge a b ∧ Steps edge n b c := by
  constructor
  · intro h
    cases h with
    | head h hs => exact ⟨_, h, hs⟩
  · intro ⟨b, h, hs⟩
    exact .head h hs

/-- From a node without edges only itself is reached. -/
theorem Steps.of_leaf (h : Steps edge n a b) (hl : ∀ x, ¬ edge a x) : n = 0 ∧ a = b := by
  cases h with
  | refl => exact ⟨rfl, rfl⟩
  | head h => exact absurd h (hl _)

/-- Two items of a list stand in one order or the other. -/
theorem pair_sublist_or (ht : t ∈ l) (hu : u ∈ l) (hne : t ≠ u) :
    [t, u].Sublist l ∨ [u, t].Sublist l := by
  induction l with
  | nil => exact absurd ht List.not_mem_nil
  | cons x l ih =>
    by_cases hxt : x = t
    · subst hxt
      have hu := (List.mem_cons.1 hu).resolve_left hne.symm
      exact .inl (.cons_cons x (List.singleton_sublist.2 hu))
    · have ht := (List.mem_cons.1 ht).resolve_left fun h => hxt h.symm
      by_cases hxu : x = u
      · subst hxu
        exact .inr (.cons_cons x (List.singleton_sublist.2 ht))
      · have hu := (List.mem_cons.1 hu).resolve_left fun h => hxu h.symm
        exact (ih ht hu).imp (.cons x) (.cons x)

/-- A list sorted by a key has its keys in order. -/
theorem pairwise_mergeSort_key [LinearOrder κ] (key : α → κ) {less : α → α → Bool}
    (hless : ∀ a b, less a b = true ↔ key a < key b) (l : List α) :
    (l.mergeSort fun a b => ¬ less b a).Pairwise fun a b => key a ≤ key b := by
  have hle (a b : α) : (decide ¬ less b a = true) = true ↔ key a ≤ key b := by
    rw [decide_eq_true_iff, hless, not_lt]
  refine (List.pairwise_mergeSort (fun a b c hab hbc => ?_) (fun a b => ?_) l).imp
    fun {a b} h => (hle a b).1 h
  · rw [hle] at hab hbc ⊢
    exact hab.trans hbc
  · rw [Bool.or_eq_true, hle, hle]
    exact le_total _ _

/-- **A list sorted by a key**, where two items with different keys stand. -/
theorem pair_sublist_mergeSort_iff [LinearOrder κ] (key : α → κ) {less : α → α → Bool}
    (hless : ∀ a b, less a b = true ↔ key a < key b) (ht : t ∈ l) (hu : u ∈ l)
    (hne : key t ≠ key u) :
    [t, u].Sublist (l.mergeSort fun a b => ¬ less b a) ↔ key t < key u := by
  have hpair (a b : α) (h : [a, b].Sublist (l.mergeSort fun a b => ¬ less b a)) :
      key a ≤ key b := by
    have hp := (pairwise_mergeSort_key key hless l).sublist h
    exact List.rel_of_pairwise_cons hp List.mem_cons_self
  constructor
  · intro h
    exact lt_of_le_of_ne (hpair t u h) hne
  · intro h
    rcases pair_sublist_or (List.mem_mergeSort.2 ht) (List.mem_mergeSort.2 hu)
      (fun he => hne (he ▸ rfl)) with hs | hs
    · exact hs
    · exact absurd (hpair u t hs) (not_le.2 h)

/-! ## Longer and shorter ways -/

theorem Steps.trans {k : Nat} (h : Steps edge n a b) (h' : Steps edge k b c) :
    Steps edge (n + k) a c := by
  induction h with
  | refl a => rwa [Nat.zero_add]
  | head hab _ ih =>
    rw [Nat.add_right_comm]
    exact .head hab (ih h')

/-- A node that is led to is so by some number of edges. -/
theorem exists_steps_of_transGen (h : Relation.TransGen edge a b) :
    ∃ n, 0 < n ∧ Steps edge n a b := by
  induction h with
  | single h => exact ⟨1, Nat.one_pos, .head h (.refl _)⟩
  | tail _ h ih =>
    obtain ⟨n, -, hs⟩ := ih
    exact ⟨n + 1, Nat.succ_pos n, hs.trans (.head h (.refl _))⟩

/-- Where edges from some nodes lead to these nodes only, a way from one of them has a shorter one
from another as its end. -/
theorem Steps.suffix {p : α → Prop} (hclosed : ∀ a b, p a → edge a b → p b)
    (h : Steps edge n a b) (ha : p a) {k : Nat} (hk : k ≤ n) : ∃ a', p a' ∧ Steps edge k a' b := by
  induction h with
  | refl a =>
    obtain rfl := Nat.le_zero.1 hk
    exact ⟨a, ha, .refl a⟩
  | @head n a c b hac hs ih =>
    rcases Nat.lt_or_eq_of_le hk with hlt | rfl
    · exact ih (hclosed a c ha hac) (Nat.le_of_lt_succ hlt)
    · exact ⟨a, ha, .head hac hs⟩

end Lib
