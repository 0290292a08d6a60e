import Mathlib.Order.Lattice
import Mathlib.Data.List.Basic
import Mathlib.Data.List.Lookmap
import Mathlib.Order.Basic

/-!
# Maps iterated in key order

`SortedMap κ β` is an association list with strictly increasing keys, the invariant being a
field: the value of an ordered map whose iteration order is the order of its keys. `insert`
leaves an entry that is already there, `set` overwrites it, `erase` drops it, `modify` changes
the value of an entry. Lookups after each operation are `find?_insert`, `find?_set`,
`find?_erase` and `find?_modify`; a key above all others goes to the end
(`insert_entries_of_lt`).
-/

namespace Lib

/-- An ordered map: keys strictly increasing. -/
structure SortedMap (κ β : Type*) [LinearOrder κ] where
  entries : List (κ × β)
  sorted : (entries.map Prod.fst).Pairwise (· < ·)
  deriving DecidableEq

namespace SortedMap

variable {κ β : Type*} [LinearOrder κ]

/-! ## Entry lists -/

/-- Put `v` at key `k`, `f` joining it with a value that is already there. -/
def insertEntries (f : β → β) (k : κ) (v : β) : List (κ × β) → List (κ × β)
  | [] => [(k, v)]
  | (k', v') :: es =>
    if k < k' then (k, v) :: (k', v') :: es
    else if k = k' then (k', f v') :: es
    else (k', v') :: insertEntries f k v es

/-- The value at the first entry with key `k`. -/
def findEntry (k : κ) (es : List (κ × β)) : Option β :=
  (es.find? fun e => decide (e.1 = k)).map Prod.snd

variable {f : β → β} {k k' : κ} {v : β} {es : List (κ × β)}

@[simp] theorem findEntry_nil : findEntry k ([] : List (κ × β)) = none := rfl

theorem findEntry_cons (e : κ × β) (es : List (κ × β)) :
    findEntry k (e :: es) = if e.1 = k then some e.2 else findEntry k es := by
  by_cases h : e.1 = k <;> simp [findEntry, h]

theorem keys_insertEntries (x : κ) :
    x ∈ (insertEntries f k v es).map Prod.fst ↔ x = k ∨ x ∈ es.map Prod.fst := by
  induction es with
  | nil => simp [insertEntries]
  | cons e es ih =>
    obtain ⟨k', v'⟩ := e
    simp only [insertEntries]
    split_ifs with h1 h2
    · simp
    · subst h2; simp
    · simp only [List.map_cons, List.mem_cons, ih]
      tauto

theorem insertEntries_sorted (h : (es.map Prod.fst).Pairwise (· < ·)) :
    ((insertEntries f k v es).map Prod.fst).Pairwise (· < ·) := by
  induction es with
  | nil => simp [insertEntries]
  | cons e es ih =>
    obtain ⟨k', v'⟩ := e
    simp only [List.map_cons, List.pairwise_cons] at h
    simp only [insertEntries]
    split_ifs with h1 h2
    · refine List.pairwise_cons.2 ⟨fun x hx => ?_, List.pairwise_cons.2 h⟩
      rcases List.mem_cons.1 hx with rfl | hx
      · exact h1
      · exact h1.trans (h.1 x hx)
    · exact List.pairwise_cons.2 h
    · refine List.pairwise_cons.2 ⟨fun x hx => ?_, ih h.2⟩
      rcases (keys_insertEntries x).1 hx with rfl | hx
      · exact lt_of_le_of_ne (not_lt.1 h1) fun he => h2 he.symm
      · exact h.1 x hx

theorem findEntry_none (h : k ∉ es.map Prod.fst) : findEntry k es = none := by
  induction es with
  | nil => rfl
  | cons e es ih =>
    simp only [List.map_cons, List.mem_cons, not_or] at h
    rw [findEntry_cons, if_neg (Ne.symm h.1), ih h.2]

theorem findEntry_isSome : (findEntry k es).isSome ↔ k ∈ es.map Prod.fst := by
  induction es with
  | nil => simp
  | cons e es ih =>
    rw [findEntry_cons]
    split_ifs with h
    · simp [h]
    · simp only [ih, List.map_cons, List.mem_cons, Ne.symm (fun e => h e), false_or]

theorem mem_of_findEntry (h : findEntry k es = some v) : (k, v) ∈ es := by
  induction es with
  | nil => simp at h
  | cons e es ih =>
    rw [findEntry_cons] at h
    split_ifs at h with he
    · subst he
      simp only [Option.some.injEq] at h
      subst h
      simp
    · exact List.mem_cons_of_mem _ (ih h)

theorem findEntry_of_mem (hs : (es.map Prod.fst).Pairwise (· < ·)) (h : (k, v) ∈ es) :
    findEntry k es = some v := by
  induction es with
  | nil => simp at h
  | cons e es ih =>
    simp only [List.map_cons, List.pairwise_cons] at hs
    rw [findEntry_cons]
    rcases List.mem_cons.1 h with rfl | h
    · simp
    · have hne : e.1 ≠ k := ne_of_lt (hs.1 k (List.mem_map.2 ⟨_, h, rfl⟩))
      rw [if_neg hne, ih hs.2 h]

theorem findEntry_insertEntries (hs : (es.map Prod.fst).Pairwise (· < ·)) :
    findEntry k' (insertEntries f k v es) =
      if k' = k then some (((findEntry k es).map f).getD v) else findEntry k' es := by
  induction es with
  | nil =>
    simp only [insertEntries, findEntry_cons, findEntry_nil, Option.map_none, Option.getD_none,
      eq_comm]
  | cons e es ih =>
    obtain ⟨k₁, v₁⟩ := e
    simp only [List.map_cons, List.pairwise_cons] at hs
    simp only [insertEntries]
    by_cases hk : k' = k
    · subst hk
      rw [if_pos rfl]
      split_ifs with h1 h2
      · -- in front of the first entry: the key is new
        have hn : findEntry k' ((k₁, v₁) :: es) = none := findEntry_none (by
          simp only [List.map_cons, List.mem_cons, not_or]
          exact ⟨ne_of_lt h1, fun hm => absurd (h1.trans (hs.1 _ hm)) (lt_irrefl _)⟩)
        rw [hn, findEntry_cons, if_pos rfl]; rfl
      · simp [findEntry_cons, h2]
      · have hne : k₁ ≠ k' := fun e => h2 e.symm
        simp [findEntry_cons, hne, ih hs.2]
    · rw [if_neg hk]
      split_ifs with h1 h2
      · rw [findEntry_cons, if_neg fun e => hk (Eq.symm e)]
      · subst h2
        simp only [findEntry_cons, if_neg fun e => hk (Eq.symm e)]
      · simp only [findEntry_cons, ih hs.2, if_neg hk]

theorem insertEntries_of_lt (h : ∀ x ∈ es.map Prod.fst, x < k) :
    insertEntries f k v es = es ++ [(k, v)] := by
  induction es with
  | nil => rfl
  | cons e es ih =>
    obtain ⟨k', v'⟩ := e
    simp only [List.map_cons, List.mem_cons, forall_eq_or_imp] at h
    simp only [insertEntries, if_neg (lt_asymm h.1), if_neg (ne_of_gt h.1), ih h.2,
      List.cons_append]

/-! ## Maps -/

/-- The empty map. -/
def empty : SortedMap κ β := ⟨[], List.Pairwise.nil⟩

instance : Inhabited (SortedMap κ β) := ⟨empty⟩

/-- The keys, in increasing order. -/
def keys (m : SortedMap κ β) : List κ := m.entries.map Prod.fst

/-- The values, in the order of their keys. -/
def values (m : SortedMap κ β) : List β := m.entries.map Prod.snd

/-- The number of entries. -/
def size (m : SortedMap κ β) : Nat := m.entries.length

/-- The value at key `k`. -/
def find? (m : SortedMap κ β) (k : κ) : Option β := findEntry k m.entries

/-- Add an entry unless the key is there. -/
def insert (m : SortedMap κ β) (k : κ) (v : β) : SortedMap κ β :=
  ⟨insertEntries id k v m.entries, insertEntries_sorted m.sorted⟩

/-- Add an entry, overwriting the one that is there. -/
def set (m : SortedMap κ β) (k : κ) (v : β) : SortedMap κ β :=
  ⟨insertEntries (fun _ => v) k v m.entries, insertEntries_sorted m.sorted⟩

/-- Drop the entry at key `k`. -/
def erase (m : SortedMap κ β) (k : κ) : SortedMap κ β :=
  ⟨m.entries.filter fun e => decide (e.1 ≠ k),
    m.sorted.sublist (List.filter_sublist.map _)⟩

/-- Change the value at key `k`, if there is one. -/
def modify (m : SortedMap κ β) (k : κ) (f : β → β) : SortedMap κ β :=
  ⟨m.entries.map fun e => if e.1 = k then (e.1, f e.2) else e, by
    have h : (m.entries.map fun e => if e.1 = k then (e.1, f e.2) else e).map Prod.fst
        = m.entries.map Prod.fst := by
      rw [List.map_map]
      refine List.map_congr_left fun e _ => ?_
      simp only [Function.comp]
      split_ifs <;> rfl
    rw [h]; exact m.sorted⟩

/-- The largest key. -/
def lastKey? (m : SortedMap κ β) : Option κ := m.keys.getLast?

variable {m : SortedMap κ β}

@[simp] theorem keys_empty : (empty : SortedMap κ β).keys = [] := rfl
@[simp] theorem find?_empty : (empty : SortedMap κ β).find? k = none := rfl
@[simp] theorem size_empty : (empty : SortedMap κ β).size = 0 := rfl

theorem size_keys (m : SortedMap κ β) : m.keys.length = m.size := List.length_map ..

theorem length_values (m : SortedMap κ β) : m.values.length = m.size := List.length_map ..

theorem find?_isSome : (m.find? k).isSome ↔ k ∈ m.keys := findEntry_isSome

theorem find?_eq_none : m.find? k = none ↔ k ∉ m.keys := by
  rw [← find?_isSome]
  cases m.find? k <;> simp

theorem find?_eq_some : m.find? k = some v ↔ (k, v) ∈ m.entries :=
  ⟨mem_of_findEntry, findEntry_of_mem m.sorted⟩

theorem mem_keys_of_find? (h : m.find? k = some v) : k ∈ m.keys :=
  find?_isSome.1 (by rw [h]; rfl)

theorem mem_keys_insert {x : κ} : x ∈ (m.insert k v).keys ↔ x = k ∨ x ∈ m.keys :=
  keys_insertEntries x

theorem mem_keys_set {x : κ} : x ∈ (m.set k v).keys ↔ x = k ∨ x ∈ m.keys :=
  keys_insertEntries x

@[simp] theorem keys_modify (f : β → β) : (m.modify k f).keys = m.keys := by
  simp only [keys, modify, List.map_map]
  refine List.map_congr_left fun e _ => ?_
  simp only [Function.comp]
  split_ifs <;> rfl

theorem find?_insert : (m.insert k v).find? k' =
    if k' = k then some ((m.find? k).getD v) else m.find? k' := by
  have h := @findEntry_insertEntries κ β _ id k k' v m.entries m.sorted
  rw [Option.map_id_fun, id] at h
  exact h

theorem find?_set : (m.set k v).find? k' = if k' = k then some v else m.find? k' := by
  have h := @findEntry_insertEntries κ β _ (fun _ => v) k k' v m.entries m.sorted
  have hv : ((findEntry k m.entries).map fun _ => v).getD v = v := by
    cases findEntry k m.entries <;> rfl
  rw [hv] at h
  exact h

theorem find?_erase : (m.erase k).find? k' = if k' = k then none else m.find? k' := by
  have h : ∀ es : List (κ × β), findEntry k' (es.filter fun e => decide (e.1 ≠ k)) =
      if k' = k then none else findEntry k' es := by
    intro es
    induction es with
    | nil => simp
    | cons e es ih =>
      by_cases he : e.1 = k
      · simp only [List.filter_cons, he, ne_eq, not_true_eq_false, decide_false,
          Bool.false_eq_true, if_false, ih, findEntry_cons]
        split_ifs with h1 h2
        · rfl
        · exact absurd h2.symm h1
        · rfl
      · simp only [List.filter_cons, ne_eq, he, not_false_eq_true, decide_true, if_true,
          findEntry_cons, ih]
        split_ifs with h1 h2
        · exact absurd (h1.trans h2) he
        · rfl
        · rfl
        · rfl
  exact h m.entries

theorem find?_modify (f : β → β) :
    (m.modify k f).find? k' = if k' = k then (m.find? k).map f else m.find? k' := by
  have h : ∀ es : List (κ × β),
      findEntry k' (es.map fun e => if e.1 = k then (e.1, f e.2) else e) =
        if k' = k then (findEntry k es).map f else findEntry k' es := by
    intro es
    induction es with
    | nil => simp
    | cons e es ih =>
      simp only [List.map_cons, findEntry_cons, ih]
      by_cases he : e.1 = k <;> by_cases hk : k' = k
      · subst hk; simp [he]
      · have : ¬ k = k' := fun e => hk e.symm
        simp [he, hk, this]
      · subst hk; simp [he]
      · simp [he, hk]
  exact h m.entries

theorem find?_insert_same (h : k ∉ m.keys) : (m.insert k v).find? k = some v := by
  rw [find?_insert, if_pos rfl, find?_eq_none.2 h]; rfl

theorem length_insertEntries (h : k ∉ es.map Prod.fst) :
    (insertEntries f k v es).length = es.length + 1 := by
  induction es with
  | nil => rfl
  | cons e es ih =>
    obtain ⟨k', v'⟩ := e
    simp only [List.map_cons, List.mem_cons, not_or] at h
    simp only [insertEntries, if_neg h.1]
    split_ifs
    · rfl
    · simp only [List.length_cons, ih h.2]

theorem size_insert (h : k ∉ m.keys) : (m.insert k v).size = m.size + 1 := length_insertEntries h

/-- A new entry, in its place. -/
theorem perm_insertEntries (h : k ∉ es.map Prod.fst) :
    (insertEntries f k v es).Perm ((k, v) :: es) := by
  induction es with
  | nil => exact .refl _
  | cons e es ih =>
    obtain ⟨hne, hes⟩ := not_or.1 (List.mem_cons.not.1 h)
    rw [insertEntries]
    split_ifs
    · exact .refl _
    · exact ((ih hes).cons e).trans (.swap _ _ _)

theorem perm_insert (h : k ∉ m.keys) : (m.insert k v).entries.Perm ((k, v) :: m.entries) :=
  perm_insertEntries h

theorem insertEntries_of_mem (hs : (es.map Prod.fst).Pairwise (· < ·)) (h : k ∈ es.map Prod.fst) :
    insertEntries id k v es = es := by
  induction es with
  | nil => cases h
  | cons e es ih =>
    obtain ⟨k', v'⟩ := e
    simp only [List.map_cons, List.pairwise_cons] at hs
    simp only [insertEntries]
    rcases List.mem_cons.1 h with rfl | hm
    · rw [if_neg (lt_irrefl _), if_pos rfl]; rfl
    · have hlt : k' < k := hs.1 k hm
      rw [if_neg (lt_asymm hlt), if_neg (ne_of_gt hlt), ih hs.2 hm]

/-- An entry that is there stays. -/
theorem insert_of_mem (h : k ∈ m.keys) : m.insert k v = m := by
  have he : (m.insert k v).entries = m.entries := insertEntries_of_mem m.sorted h
  cases m
  simpa [insert] using he

/-- A key above all others goes to the end. -/
theorem insert_entries_of_lt (h : ∀ x ∈ m.keys, x < k) :
    (m.insert k v).entries = m.entries ++ [(k, v)] :=
  insertEntries_of_lt h

theorem lastKey?_eq_none : m.lastKey? = none ↔ m.keys = [] := List.getLast?_eq_none_iff

/-- The largest key is a key, and no key is larger. -/
theorem lastKey?_eq_some (h : m.lastKey? = some k) : k ∈ m.keys ∧ ∀ x ∈ m.keys, x ≤ k := by
  obtain ⟨init, hi⟩ := List.getLast?_eq_some_iff.1 h
  have hs : m.keys.Pairwise (· < ·) := m.sorted
  rw [hi] at hs ⊢
  refine ⟨by simp, fun x hx => ?_⟩
  rcases List.mem_append.1 hx with hx | hx
  · exact ((List.pairwise_append.1 hs).2.2 x hx k (by simp)).le
  · exact (List.mem_singleton.1 hx).le

end SortedMap

end Lib
