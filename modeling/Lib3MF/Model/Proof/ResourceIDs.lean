import Lib3MF.Model.Proof.Store

/-!
# The issued IDs

The handler's model IDs, the number of unique IDs it issued and the largest one in the resource
map, in which `generateResourceID_eq` and the lemmas on constructing a resource are stated.
-/

namespace NMR

open Lib

/-- The model IDs that are registered in some path. -/
def ResourceHandler.modelIDs (h : ResourceHandler) : List Nat :=
  h.idAndPathToResourceIDs.keys.map fun k => (ofLex k).1

namespace Model

/-- The number of IDs issued. -/
def issued (m : Model) : Nat := m.resourceHandler.resourceIDs.size

/-- The largest unique ID in the resource map, `0` for none. -/
def lastID (m : Model) : Nat := m.resourceMap.lastKey?.getD 0

theorem mem_modelIDs {h : ResourceHandler} {path : String} {id : Nat}
    (hr : h.Registered path id) : id ∈ h.modelIDs :=
  List.mem_map.2 ⟨_, SortedMap.find?_isSome.1 hr, rfl⟩

theorem mem_modelIDs_getNewResourceID {h h' : ResourceHandler} {path : String} {id : Nat}
    {p : PackageResourceID} (hn : h.getNewResourceID path id = .ok (h', p)) (x : Nat) :
    x ∈ h'.modelIDs ↔ x = id ∨ x ∈ h.modelIDs := by
  obtain ⟨-, rfl, rfl⟩ := ResourceHandler.getNewResourceID_spec hn
  simp only [ResourceHandler.modelIDs, List.mem_map, SortedMap.mem_keys_insert]
  constructor
  · rintro ⟨k, rfl | hk, rfl⟩
    · exact .inl rfl
    · exact .inr ⟨k, hk, rfl⟩
  · rintro (rfl | ⟨k, hk, rfl⟩)
    · exact ⟨_, .inl rfl, rfl⟩
    · exact ⟨k, .inr hk, rfl⟩

theorem generateResourceID_eq (m : Model) :
    m.generateResourceID = (m.lastID + 1) % 2 ^ 32 := by
  unfold generateResourceID lastID
  cases m.resourceMap.lastKey? <;> rfl

theorem le_lastKey? {s : SortedMap Nat ResourceRef} {k : Nat} (hk : k ∈ s.keys) :
    k ≤ s.lastKey?.getD 0 := by
  cases hl : s.lastKey? with
  | none => rw [SortedMap.lastKey?_eq_none.1 hl] at hk; cases hk
  | some k' => exact (SortedMap.lastKey?_eq_some hl).2 k hk

theorem lastKey?_mem (s : SortedMap Nat ResourceRef) :
    s.lastKey?.getD 0 = 0 ∨ s.lastKey?.getD 0 ∈ s.keys := by
  cases hl : s.lastKey? with
  | none => exact .inl rfl
  | some k => exact .inr (SortedMap.lastKey?_eq_some hl).1

theorem lastKey?_insert {s : SortedMap Nat ResourceRef} {k : Nat} {v : ResourceRef} :
    (s.insert k v).lastKey?.getD 0 = max (s.lastKey?.getD 0) k := by
  apply le_antisymm
  · rcases lastKey?_mem (s.insert k v) with h | h
    · rw [h]; exact Nat.zero_le _
    · rcases SortedMap.mem_keys_insert.1 h with h | h
      · rw [h]; exact le_max_right ..
      · exact (le_lastKey? h).trans (le_max_left ..)
  · refine max_le ?_ (le_lastKey? (SortedMap.mem_keys_insert.2 (.inl rfl)))
    rcases lastKey?_mem s with h | h
    · rw [h]; exact Nat.zero_le _
    · exact le_lastKey? (SortedMap.mem_keys_insert.2 (.inr h))

end Model

end NMR
