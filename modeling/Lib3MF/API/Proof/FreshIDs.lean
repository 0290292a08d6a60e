import Lib3MF.Model.Proof.ResourceIDs

/-!
# Fresh resource IDs

`generateResourceID` returns one more than the largest *unique* ID in the resource map, and the
new resource is registered under that number as a *model* ID. With `n` IDs issued and `k` the
largest unique ID in the map, a registered model ID collides sooner or later when it is `k + 1`
or beyond `n + 1` (`FreshInv`). A call that keeps clear of that keeps the generated ID fresh in
every path (`generateResourceID_fresh`); a file whose only resource is numbered `2` does not
(`generateResourceID_taken`).
-/

namespace NMR

open Lib

namespace Model

/-- The generated ID can be registered under the current path, and `Add*` calls succeed. -/
def Fresh (m : Model) : Prop :=
  (∃ p, m.resourceHandler.getNewResourceID m.curPath m.generateResourceID = .ok p) ∧
    ∀ new, (m.step (.add new)).2 = none

/-- The calls that keep generated IDs fresh. -/
def FreshGuard (m : Model) : Call → Prop
  | .clearAll => 1 ∉ m.resourceHandler.modelIDs
  | .readResource id _ => m.issued + 2 < 2 ^ 32 ∧ id ≤ m.issued + 1
  | .construct id _ => m.issued + 2 < 2 ^ 32 ∧ id ≤ m.issued + 2 ∧ id ≠ m.lastID + 1
  | .add _ => m.issued + 2 < 2 ^ 32
  | _ => True

instance (m : Model) : DecidablePred m.FreshGuard := fun c => by
  unfold FreshGuard
  split <;> infer_instance

/-- Unique IDs are issued in order, and no model ID is far beyond them. -/
structure Numbered (m : Model) : Prop where
  small : m.issued + 1 < 2 ^ 32
  ids : ∀ k ∈ m.resourceHandler.resourceIDs.keys, k ≤ m.issued
  stored : ∀ res ∈ m.store, res.resourceID.uniqueID ≤ m.issued
  mapped : ∀ k ∈ m.resourceMap.keys, k ≤ m.issued
  modelIDs : ∀ id ∈ m.resourceHandler.modelIDs, id ≤ m.issued + 1

/-- What keeps the generated IDs fresh: the next one is not registered either. -/
structure FreshInv (m : Model) : Prop extends Numbered m where
  safe : m.lastID + 1 ∉ m.resourceHandler.modelIDs

variable {m m' : Model} {c : Call} {r : Nat}

/-! ## Constructing and adding a resource -/

theorem Numbered.lastID_le (hi : Numbered m) : m.lastID ≤ m.issued := by
  rcases lastKey?_mem m.resourceMap with h | h
  · rw [lastID, h]; exact Nat.zero_le _
  · exact hi.mapped _ h

theorem Numbered.generateResourceID (hi : Numbered m) :
    m.generateResourceID = m.lastID + 1 := by
  rw [generateResourceID_eq]
  exact Nat.mod_eq_of_lt (by have := hi.small; have := hi.lastID_le; omega)

/-- A constructed resource gets the next unique ID. -/
theorem Numbered.construct {id : Nat} {data : ResourceData} (hi : Numbered m)
    (hs : m.issued + 2 < 2 ^ 32) (hid : id ≤ m.issued + 2)
    (hc : m.construct id data = .ok (m', r)) :
    Numbered m' ∧ m'.issued = m.issued + 1 ∧ r = m.store.length ∧
      (∃ p, p.uniqueID = m.issued + 1 ∧ m'.store = m.store ++ [⟨p, data⟩]) ∧
      m'.resourceMap = m.resourceMap ∧
      ∀ x, x ∈ m'.resourceHandler.modelIDs ↔ x = id ∨ x ∈ m.resourceHandler.modelIDs := by
  obtain ⟨hd, p, hn, rfl, rfl⟩ := construct_spec hc
  have hmem := mem_modelIDs_getNewResourceID hn
  obtain ⟨-, hp, hh⟩ := ResourceHandler.getNewResourceID_spec hn
  have hu : p.uniqueID = m.issued + 1 := by
    rw [hp]
    exact Nat.mod_eq_of_lt hi.small
  have hnew : p.uniqueID ∉ m.resourceHandler.resourceIDs.keys := fun hk => by
    have := hi.ids _ hk
    omega
  have hiss : hd.resourceIDs.size = m.issued + 1 := by
    rw [hh]
    exact SortedMap.size_insert hnew
  refine ⟨⟨?_, ?_, ?_, ?_, ?_⟩, hiss, rfl, ⟨p, hu, rfl⟩, rfl, hmem⟩
  · rw [issued, hiss]; omega
  · intro k hk
    rw [issued, hiss]
    have hk' : k ∈ (m.resourceHandler.resourceIDs.insert p.uniqueID p).keys := by
      rw [hh] at hk; exact hk
    rcases SortedMap.mem_keys_insert.1 hk' with rfl | hk'
    · exact hu.le
    · exact (hi.ids k hk').trans (Nat.le_succ _)
  · intro res hres
    rw [issued, hiss]
    rcases List.mem_append.1 hres with hres | hres
    · exact (hi.stored res hres).trans (Nat.le_succ _)
    · rw [List.mem_singleton.1 hres]
      exact hu.le
  · intro k hk
    rw [issued, hiss]
    exact (hi.mapped k hk).trans (Nat.le_succ _)
  · intro x hx
    rw [issued, hiss]
    rcases (hmem x).1 hx with rfl | hx
    · exact hid
    · exact (hi.modelIDs x hx).trans (Nat.le_succ _)

/-- An added resource may become the last one of the map. -/
theorem Numbered.addResource {res : Resource} (hi : Numbered m) (hr : m.store[r]? = some res)
    (ha : m.addResource r = .ok m') :
    Numbered m' ∧ m'.resourceHandler = m.resourceHandler ∧
      m'.lastID = max m.lastID res.resourceID.uniqueID := by
  obtain ⟨res', hr', hk, rfl⟩ := addResource_spec ha
  rw [hr] at hr'
  cases hr'
  obtain ⟨hst, hh, hmap, -, -⟩ := addResourceToLookupTable_frame { m with
    resourceMap := m.resourceMap.insert res.resourceID.uniqueID r
    resources := m.resources ++ [r] } r res.data
  refine ⟨⟨?_, ?_, ?_, ?_, ?_⟩, hh, ?_⟩
  · rw [issued, hh]; exact hi.small
  · rw [issued, hh]; exact hi.ids
  · rw [issued, hh, hst]; exact hi.stored
  · rw [issued, hh, hmap]
    intro k hk
    rcases SortedMap.mem_keys_insert.1 hk with rfl | hk
    · exact hi.stored res (List.mem_of_getElem? hr)
    · exact hi.mapped k hk
  · rw [issued, hh]; exact hi.modelIDs
  · rw [lastID, hmap]
    exact lastKey?_insert

/-! ## Calls -/

/-- The generated ID is registered nowhere. -/
theorem FreshInv.not_registered (hi : FreshInv m) (path : String) :
    ¬ m.resourceHandler.Registered path m.generateResourceID := by
  intro h
  rw [hi.generateResourceID] at h
  exact hi.safe (mem_modelIDs h)

/-- Constructing and adding a resource under a free number succeeds. -/
theorem Numbered.addNew_ok {id : Nat} (hi : Numbered m) (new : NewResource)
    (hid : ¬ m.resourceHandler.Registered m.curPath id) :
    ∃ m₁ m₂ p, m.construct id new.data = .ok (m₁, m.store.length) ∧
      p.uniqueID = m.issued + 1 ∧ m₁.store[m.store.length]? = some ⟨p, new.data⟩ ∧
      m₁.addResource m.store.length = .ok m₂ ∧ m.addNew id new = (m₂, none) := by
  obtain ⟨⟨hd, p⟩, hp⟩ := ResourceHandler.getNewResourceID_isOk.2 hid
  obtain ⟨-, hpu, -⟩ := ResourceHandler.getNewResourceID_spec hp
  have hu : p.uniqueID = m.issued + 1 := by
    rw [hpu]
    exact Nat.mod_eq_of_lt hi.small
  obtain ⟨m₁, hm₁⟩ : ∃ m₁ : Model, m₁ = { m with
    resourceHandler := hd, store := m.store ++ [Resource.mk p new.data] } := ⟨_, rfl⟩
  have hc : m.construct id new.data = .ok (m₁, m.store.length) := by
    simp only [Model.construct, hp, hm₁]; rfl
  have hr : m₁.store[m.store.length]? = some ⟨p, new.data⟩ := by simp [hm₁]
  -- the unique ID is new, so `addResource` accepts the resource
  have hk : m₁.resourceMap.find? p.uniqueID = none := SortedMap.find?_eq_none.2 fun hk => by
    have := hi.mapped _ (by rw [hm₁] at hk; exact hk)
    omega
  obtain ⟨m₂, ha⟩ : ∃ m₂, m₁.addResource m.store.length = .ok m₂ := by
    simp only [Model.addResource, hr, hk, Option.isSome_none, Bool.false_eq_true, if_false]
    exact ⟨_, rfl⟩
  exact ⟨m₁, m₂, p, hc, hu, hr, ha, by simp only [addNew, hc, ha, orThrow]⟩

/-- The resource is the last of the map then, and its successor beyond all model IDs. -/
theorem Numbered.addNew {id : Nat} (hi : Numbered m) (hs : m.issued + 2 < 2 ^ 32)
    (new : NewResource) (hle : id ≤ m.issued + 1)
    (hid : ¬ m.resourceHandler.Registered m.curPath id) : FreshInv (m.addNew id new).1 := by
  obtain ⟨m₁, m₂, p, hc, hu, hr, ha, hadd⟩ := hi.addNew_ok new hid
  rw [hadd]
  obtain ⟨hn₁, hiss, -, -, hmap, hmem⟩ := hi.construct hs (by omega) hc
  obtain ⟨hn₂, hh, hlast⟩ := hn₁.addResource hr ha
  refine ⟨hn₂, fun hx => ?_⟩
  have hl := hi.lastID_le
  have hl₁ : m₁.lastID = m.lastID := by rw [lastID, hmap, lastID]
  rw [hlast, hl₁, max_eq_right (by rw [hu]; omega), hu, hh] at hx
  rcases (hmem _).1 hx with hx | hx
  · omega
  · have := hi.modelIDs _ hx
    omega

theorem FreshInv.congr (hi : FreshInv m) (hh : m'.resourceHandler = m.resourceHandler)
    (hst : m'.store.map (·.resourceID) = m.store.map (·.resourceID))
    (hmap : m'.resourceMap = m.resourceMap) : FreshInv m' := by
  refine ⟨⟨?_, ?_, ?_, ?_, ?_⟩, ?_⟩
  · rw [issued, hh]; exact hi.small
  · rw [issued, hh]; exact hi.ids
  · rw [issued, hh]
    intro res hres
    have hm : res.resourceID ∈ m.store.map (·.resourceID) := hst ▸ List.mem_map.2 ⟨res, hres, rfl⟩
    obtain ⟨res', hres', he⟩ := List.mem_map.1 hm
    rw [← he]
    exact hi.stored res' hres'
  · rw [issued, hh, hmap]; exact hi.mapped
  · rw [issued, hh]; exact hi.modelIDs
  · rw [lastID, hmap, hh]; exact hi.safe

theorem resourceIDs_setData {d : ResourceData} :
    (m.setData r d).store.map (·.resourceID) = m.store.map (·.resourceID) := by
  refine List.ext_getElem? fun i => ?_
  simp only [setData, List.getElem?_map, List.getElem?_modify]
  cases m.store[i]? with
  | none => rfl
  | some res => simp only [Option.map_eq_map, Option.map_some]; split_ifs <;> rfl

/-- **A guarded call keeps the generated IDs fresh.** -/
theorem FreshInv.next (hi : FreshInv m) (hg : m.FreshGuard c) : FreshInv (m.next c) := by
  by_cases hc : IsEdit c
  · rcases edit_next m hc with h | ⟨r, d, d', -, -, h⟩
    · rw [h]; exact hi
    · rw [h]
      exact hi.congr rfl resourceIDs_setData rfl
  cases c with
  | clearAll =>
    refine ⟨⟨hi.small, hi.ids, hi.stored, fun k hk => ?_, hi.modelIDs⟩, hg⟩
    simp [Model.next, step, clearAll] at hk
  | setCurPath path => exact hi.congr rfl rfl rfl
  | setRootPath path => exact hi.congr rfl rfl rfl
  | construct id new =>
    obtain ⟨hs, hid, hne⟩ := hg
    simp only [Model.next, step]
    cases hn : m.construct id new.data with
    | error e => exact hi
    | ok x =>
      obtain ⟨m', r⟩ := x
      obtain ⟨hn', -, -, -, hmap, hmem⟩ := hi.construct hs hid hn
      refine ⟨hn', fun hx => ?_⟩
      have hl : m'.lastID = m.lastID := by rw [lastID, hmap, lastID]
      simp only [Except.map, orThrow] at hx
      rw [hl] at hx
      rcases (hmem _).1 hx with hx | hx
      · exact hne hx.symm
      · exact hi.safe hx
  | readResource id new =>
    by_cases hid : m.resourceHandler.Registered m.curPath id
    · -- the number is taken: the file is rejected
      have hc : m.construct id new.data = .error .duplicateResourceID := by
        have hid' : (m.resourceHandler.findResourceIDByPath m.curPath id).isSome := hid
        simp only [Model.construct, ResourceHandler.getNewResourceID, hid', if_true]
        rfl
      have hn : m.next (.readResource id new) = m := by
        simp only [Model.next, step, Model.addNew, hc]
      rw [hn]; exact hi
    · exact hi.addNew hg.1 new hg.2 hid
  | add new =>
    have hl := hi.lastID_le
    exact hi.addNew hg new (by rw [hi.generateResourceID]; omega) (hi.not_registered m.curPath)
  | addBuildItem objectID t =>
    obtain ⟨n, items, h⟩ := m.apiAddBuildItem_frame objectID t
    simp only [Model.next, step, h]
    exact hi.congr rfl rfl rfl
  | _ => exact absurd trivial hc

theorem freshInv_new : FreshInv Model.new := by
  refine ⟨⟨by decide, ?_, ?_, ?_, ?_⟩, by decide⟩ <;> intro x hx <;> cases hx

theorem FreshInv.fresh (hi : FreshInv m) : m.Fresh := by
  refine ⟨ResourceHandler.getNewResourceID_isOk.2 (hi.not_registered m.curPath), fun new => ?_⟩
  obtain ⟨m₁, m₂, p, -, -, -, -, hadd⟩ := hi.addNew_ok new (hi.not_registered m.curPath)
  simp only [step, hadd]

/-- **In a session whose calls meet `FreshGuard`, the generated ID is always free.** -/
theorem generateResourceID_fresh (calls : List Call) (hg : Guarded Model.next FreshGuard .new calls)
    (m : Model) (hm : Reaches Model.next .new calls m) : m.Fresh :=
  (hm.inv FreshInv freshInv_new (fun _ _ => FreshInv.next) hg).fresh

/-- Reading a file that numbers its only resource `id`. -/
def readCalls (id : Nat) : List Call :=
  [.clearAll, .setRootPath "/3D/3dmodel.model", .setCurPath "/3D/3dmodel.model",
    .readResource id (.meshObject .empty)]

theorem generateResourceID_fresh_read : (run Model.next .new (readCalls 1)).Fresh := by
  refine generateResourceID_fresh (readCalls 1) ?_ _ (reaches_run _ _)
  simp only [readCalls, guarded_cons, guarded_nil]
  exact ⟨by decide, by decide, by decide, by decide, trivial⟩

/-- After reading a resource numbered `2` the generated ID is `2` again. -/
theorem generateResourceID_taken :
    ¬ ∀ calls m, Reaches Model.next .new calls m → m.Fresh := by
  intro h
  obtain ⟨⟨p, hp⟩, -⟩ := h (readCalls 2) _ (reaches_run _ _)
  have hd : (run Model.next .new (readCalls 2)).resourceHandler.Registered
      (run Model.next .new (readCalls 2)).curPath
      (run Model.next .new (readCalls 2)).generateResourceID := by decide
  exact ResourceHandler.getNewResourceID_isOk.1 ⟨p, hp⟩ hd

end Model

end NMR
