import Mathlib.Data.List.Nodup
import Mathlib.Data.List.Perm.Subperm

/-!
# Numbering values by their keys

A scan over values that keeps the first one of each key: `find` gives the number of a key, and
`firsts` lists what was kept, in the order of the numbers. `FirstSeen key seen firsts find` is
its invariant after the values `seen`. A value of a known key changes nothing (`known`), one of a
new key gets the next number (`fresh`).
-/

namespace Lib

/-- The values `firsts` are the first ones of their keys among `seen`, numbered by `find`. -/
structure FirstSeen {α κ : Type*} [DecidableEq κ] (key : α → κ) (seen firsts : List α)
    (find : κ → Option Nat) : Prop where
  find_iff : ∀ k i, find k = some i ↔ ∃ v, firsts[i]? = some v ∧ key v = k
  first : ∀ v ∈ firsts, seen.find? (fun a => key a = key v) = some v
  covered : ∀ a ∈ seen, ∃ v ∈ firsts, key v = key a

namespace FirstSeen

variable {α κ : Type*} [DecidableEq κ] {key : α → κ} {seen firsts all : List α}
  {find find' : κ → Option Nat} {a : α} {i : Nat}

theorem nil (h : ∀ k, find k = none) : FirstSeen key [] [] find := by
  refine ⟨fun k i => ?_, fun v hv => by simp at hv, fun a ha => by simp at ha⟩
  simp [h]

/-- A key is known exactly when a value of it was seen. -/
theorem find_eq_none (h : FirstSeen key seen firsts find) :
    find (key a) = none ↔ ∀ b ∈ seen, key b ≠ key a := by
  rw [Option.eq_none_iff_forall_ne_some]
  apply Iff.intro
  · intro hn b hb he
    obtain ⟨v, hv, hk⟩ := h.covered b hb
    obtain ⟨i, hi⟩ := List.getElem?_of_mem hv
    exact hn i ((h.find_iff _ i).2 ⟨v, hi, hk.trans he⟩)
  · intro hn i hi
    obtain ⟨v, hv, hk⟩ := (h.find_iff _ i).1 hi
    exact hn v (List.mem_of_find?_eq_some (h.first v (List.mem_of_getElem? hv))) hk

/-- One more value of a known key. -/
theorem known (h : FirstSeen key seen firsts find) (ha : find (key a) = some i) :
    FirstSeen key (seen ++ [a]) firsts find := by
  refine ⟨h.find_iff, fun v hv => ?_, fun b hb => ?_⟩
  · rw [List.find?_append, h.first v hv, Option.some_or]
  · rcases List.mem_append.1 hb with hb | hb
    · exact h.covered b hb
    · obtain ⟨v, hv, hk⟩ := (h.find_iff _ i).1 ha
      rw [List.mem_singleton.1 hb]
      exact ⟨v, List.mem_of_getElem? hv, hk⟩

/-- One value of a new key, which gets the next number. -/
theorem fresh (h : FirstSeen key seen firsts find) (ha : find (key a) = none)
    (hf : ∀ k, find' k = if k = key a then some firsts.length else find k) :
    FirstSeen key (seen ++ [a]) (firsts ++ [a]) find' := by
  have hnew : ∀ b ∈ seen, key b ≠ key a := h.find_eq_none.1 ha
  refine ⟨fun k i => ?_, fun v hv => ?_, fun b hb => ?_⟩
  · rw [hf]
    by_cases hk : k = key a
    · subst hk
      rw [if_pos rfl]
      apply Iff.intro
      · intro he
        obtain rfl := Option.some.inj he
        exact ⟨a, by simp, rfl⟩
      · rintro ⟨v, hv, hkv⟩
        -- an older value has another key
        by_cases hi : i < firsts.length
        · rw [List.getElem?_append_left hi] at hv
          exact absurd ((h.find_iff _ i).2 ⟨v, hv, hkv⟩) (by simp [ha])
        · have hlt : i < (firsts ++ [a]).length := (List.getElem?_eq_some_iff.1 hv).1
          rw [List.length_append, List.length_singleton] at hlt
          rw [show i = firsts.length by omega]
    · rw [if_neg hk, h.find_iff]
      apply exists_congr
      intro v
      by_cases hi : i < firsts.length
      · rw [List.getElem?_append_left hi]
      · rw [List.getElem?_append_right (by omega), List.getElem?_eq_none (by omega)]
        refine ⟨fun hc => by simp at hc, fun ⟨hv, hkv⟩ => ?_⟩
        have hva : v = a := List.mem_singleton.1 (List.mem_of_getElem? hv)
        exact absurd (hva ▸ hkv).symm hk
  · rw [List.find?_append]
    rcases List.mem_append.1 hv with hv | hv
    · rw [h.first v hv, Option.some_or]
    · have hnone : seen.find? (fun b => key b = key a) = none := by
        rw [List.find?_eq_none]
        intro b hb
        simpa using hnew b hb
      rw [List.mem_singleton.1 hv, hnone]
      simp
  · rcases List.mem_append.1 hb with hb | hb
    · obtain ⟨v, hv, hk⟩ := h.covered b hb
      exact ⟨v, List.mem_append_left _ hv, hk⟩
    · rw [List.mem_singleton.1 hb]
      exact ⟨a, by simp, rfl⟩

/-- Values of different places have different keys. -/
theorem nodup (h : FirstSeen key seen firsts find) : firsts.Nodup := by
  rw [List.nodup_iff_getElem?_ne_getElem?]
  intro i j hij hj he
  obtain ⟨v, hv⟩ : ∃ v, firsts[j]? = some v := ⟨_, List.getElem?_eq_getElem hj⟩
  have h1 := (h.find_iff (key v) i).2 ⟨v, he.trans hv, rfl⟩
  have h2 := (h.find_iff (key v) j).2 ⟨v, hv, rfl⟩
  rw [h1] at h2
  exact absurd (Option.some.inj h2) (Nat.ne_of_lt hij)

/-- There is room for a new key among values that are all known. -/
theorem length_lt (h : FirstSeen key seen firsts find) (hall : ∀ v ∈ firsts, v ∈ all)
    (hm : a ∈ all) (ha : find (key a) = none) : firsts.length < all.length := by
  have hn : (a :: firsts).Nodup := by
    refine List.nodup_cons.2 ⟨fun hv => ?_, h.nodup⟩
    obtain ⟨i, hi⟩ := List.getElem?_of_mem hv
    have hs := (h.find_iff (key a) i).2 ⟨a, hi, rfl⟩
    rw [ha] at hs
    cases hs
  have hs : a :: firsts ⊆ all := by
    intro v hv
    rcases List.mem_cons.1 hv with rfl | hv
    · exact hm
    · exact hall v hv
  exact (hn.subperm hs).length_le

/-- The number of a value that was seen, and what is kept for it. -/
theorem find_seen (h : FirstSeen key seen firsts find) (ha : a ∈ seen) :
    ∃ i, find (key a) = some i ∧ firsts[i]? = seen.find? fun b => key b = key a := by
  obtain ⟨v, hv, hk⟩ := h.covered a ha
  obtain ⟨i, hi⟩ := List.getElem?_of_mem hv
  refine ⟨i, (h.find_iff _ i).2 ⟨v, hi, hk⟩, ?_⟩
  rw [hi, ← hk, h.first v hv]

end FirstSeen

end Lib
