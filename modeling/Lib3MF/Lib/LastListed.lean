import Mathlib.Data.List.Dedup
import Mathlib.Data.List.Nodup

/-!
# Lists ordered by the last listing

`touch l a` lists `a` once more: it moves to the back of `l`, or is appended. The list that a
sequence of such calls leaves holds its items in the order of their last calls: it is
`List.dedup` of the sequence, call by call (`dedup_append_singleton`), and one item stands before
another exactly when the other is listed after its last listing (`sublist_dedup_iff`).
-/

namespace Lib

variable {α : Type*} {l : List α} {a b : α}

/-- In `l`, `b` is listed after the last listing of `a`. -/
def ListedAfter (l : List α) (a b : α) : Prop :=
  ∃ pre post, l = pre ++ a :: post ∧ a ∉ post ∧ b ∈ post

theorem listedAfter_cons (hab : a ≠ b) {c : α} :
    ListedAfter (c :: l) a b ↔ ListedAfter l a b ∨ (c = a ∧ a ∉ l ∧ b ∈ l) := by
  constructor
  · intro ⟨pre, post, hl, ha, hb⟩
    cases pre with
    | nil =>
      obtain ⟨rfl, rfl⟩ := List.cons.inj hl
      exact .inr ⟨rfl, ha, hb⟩
    | cons x pre =>
      obtain ⟨rfl, rfl⟩ := List.cons.inj hl
      exact .inl ⟨pre, post, rfl, ha, hb⟩
  · intro h
    rcases h with ⟨pre, post, rfl, ha, hb⟩ | ⟨rfl, ha, hb⟩
    · exact ⟨c :: pre, post, rfl, ha, hb⟩
    · exact ⟨[], l, rfl, ha, hb⟩

theorem ListedAfter.mem (h : ListedAfter l a b) : a ∈ l ∧ b ∈ l := by
  obtain ⟨pre, post, rfl, -, hb⟩ := h
  simp [hb]

/-- A pair of a prefix of a list without repetitions stands in it in the order of the list. -/
theorem sublist_take_iff (hl : l.Nodup) {n : Nat} (ha : a ∈ l.take n) (hb : b ∈ l.take n) :
    [a, b].Sublist (l.take n) ↔ [a, b].Sublist l := by
  refine ⟨fun h => h.trans (List.take_sublist n l), fun h => ?_⟩
  rw [← List.take_append_drop n l] at h hl
  have hdis := List.disjoint_of_nodup_append hl
  obtain ⟨l₁, l₂, he, h₁, h₂⟩ := List.sublist_append_iff.1 h
  have hnil : l₂ = [] := List.eq_nil_iff_forall_not_mem.2 fun x hx => by
    have hmem : x ∈ [a, b] := by
      rw [he]
      exact List.mem_append_right _ hx
    have htake : x ∈ l.take n := by
      rcases List.mem_pair.1 hmem with rfl | rfl
      · exact ha
      · exact hb
    exact hdis htake (h₂.subset hx)
  rw [hnil, List.append_nil] at he
  rwa [he]

/-- A pair of items that a filter keeps stands in the order of the list. -/
theorem sublist_filter_iff {q : α → Bool} (ha : q a = true) (hb : q b = true) :
    [a, b].Sublist (l.filter q) ↔ [a, b].Sublist l := by
  refine ⟨fun h => h.trans List.filter_sublist, fun h => ?_⟩
  have hf := h.filter q
  rwa [List.filter_cons_of_pos ha, List.filter_cons_of_pos hb, List.filter_nil] at hf

variable [DecidableEq α]

/-- List `a` once more. -/
def touch (l : List α) (a : α) : List α := l.erase a ++ [a]

theorem erase_dedup_cons : ((b :: l).dedup).erase a =
    if b ∈ l ∨ b = a then l.dedup.erase a else b :: l.dedup.erase a := by
  by_cases hb : b ∈ l
  · rw [List.dedup_cons_of_mem hb, if_pos (.inl hb)]
  · rw [List.dedup_cons_of_notMem hb]
    by_cases hab : b = a
    · subst hab
      rw [if_pos (.inr rfl), List.erase_cons_head, List.erase_of_not_mem (by simpa using hb)]
    · rw [if_neg (by simp [hb, hab]), List.erase_cons_tail (by simpa using hab)]

/-- **One call more** is one item more in the sequence. -/
theorem dedup_append_singleton : (l ++ [a]).dedup = touch l.dedup a := by
  induction l with
  | nil => rfl
  | cons b l ih =>
    rw [touch, erase_dedup_cons, List.cons_append]
    by_cases hb : b ∈ l ∨ b = a
    · rw [if_pos hb, List.dedup_cons_of_mem (by simpa using hb), ih, touch]
    · rw [if_neg hb, List.dedup_cons_of_notMem (by simpa using hb), ih, touch, List.cons_append]

/-- **The order of the list** is the order of the last listings. -/
theorem sublist_dedup_iff (hab : a ≠ b) : [a, b].Sublist l.dedup ↔ ListedAfter l a b := by
  induction l with
  | nil =>
    refine ⟨fun h => ?_, fun h => absurd h.mem.1 List.not_mem_nil⟩
    cases List.sublist_nil.1 h
  | cons c l ih =>
    rw [listedAfter_cons hab, ← ih]
    by_cases hc : c ∈ l
    · rw [List.dedup_cons_of_mem hc]
      exact ⟨.inl, fun h => h.elim id fun ⟨he, hn, _⟩ => absurd (he ▸ hc) hn⟩
    · rw [List.dedup_cons_of_notMem hc]
      by_cases hca : c = a
      · subst hca
        rw [List.cons_sublist_cons, List.singleton_sublist, List.mem_dedup]
        refine ⟨fun h => .inr ⟨rfl, hc, h⟩, fun h => h.elim (fun hs => ?_) (·.2.2)⟩
        exact absurd (List.mem_dedup.1 (hs.subset List.mem_cons_self)) hc
      · have hne : ¬ a = c := fun h => hca h.symm
        simp [List.sublist_cons_iff, hca, hne]

end Lib
