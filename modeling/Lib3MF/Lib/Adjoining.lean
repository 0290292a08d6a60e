import Mathlib.Data.List.Basic

/-!
# Adjoining ranges

Ranges of numbers, each from its first number to the one behind its last, are adjoining from `a`
to `b` when the first begins at `a`, every other where the one before it ends, and the last ends
at `b`. They are disjoint then, and cover the numbers from `a` to `b`.
-/

namespace Lib

/-- The ranges follow each other from `a` to `b`. -/
def Adjoining (a : Nat) : List (Nat × Nat) → Nat → Prop
  | [], b => a = b
  | r :: rs, b => r.1 = a ∧ r.1 ≤ r.2 ∧ Adjoining r.2 rs b

namespace Adjoining

variable {a b c : Nat} {rs rs' : List (Nat × Nat)}

theorem append (h : Adjoining a rs b) (h' : Adjoining b rs' c) : Adjoining a (rs ++ rs') c := by
  induction rs generalizing a with
  | nil =>
    cases h
    exact h'
  | cons r rs ih =>
    obtain ⟨h1, h2, h3⟩ := h
    exact ⟨h1, h2, ih h3⟩

theorem le (h : Adjoining a rs b) : a ≤ b := by
  induction rs generalizing a with
  | nil => exact Nat.le_of_eq h
  | cons r rs ih =>
    obtain ⟨h1, h2, h3⟩ := h
    have := ih h3
    omega

theorem bounds (h : Adjoining a rs b) : ∀ r ∈ rs, a ≤ r.1 ∧ r.1 ≤ r.2 ∧ r.2 ≤ b := by
  induction rs generalizing a with
  | nil => exact nofun
  | cons r rs ih =>
    obtain ⟨h1, h2, h3⟩ := h
    intro r' hr
    obtain rfl | hr := List.mem_cons.1 hr
    · exact ⟨Nat.le_of_eq h1.symm, h2, h3.le⟩
    · obtain ⟨h4, h5, h6⟩ := ih h3 r' hr
      exact ⟨by omega, h5, h6⟩

/-- Adjoining ranges are disjoint, in their order. -/
theorem disjoint (h : Adjoining a rs b) : rs.Pairwise fun r r' => r.2 ≤ r'.1 := by
  induction rs generalizing a with
  | nil => exact List.Pairwise.nil
  | cons r rs ih =>
    obtain ⟨-, -, h3⟩ := h
    exact List.pairwise_cons.2 ⟨fun r' hr => (h3.bounds r' hr).1, ih h3⟩

/-- Adjoining ranges cover what lies between their ends. -/
theorem cover (h : Adjoining a rs b) {i : Nat} (ha : a ≤ i) (hb : i < b) :
    ∃ r ∈ rs, r.1 ≤ i ∧ i < r.2 := by
  induction rs generalizing a with
  | nil =>
    have : a = b := h
    omega
  | cons r rs ih =>
    obtain ⟨h1, h2, h3⟩ := h
    by_cases hi : i < r.2
    · exact ⟨r, List.mem_cons_self, by omega, hi⟩
    · obtain ⟨r', hr, hri⟩ := ih h3 (by omega)
      exact ⟨r', List.mem_cons_of_mem _ hr, hri⟩

end Adjoining

end Lib
