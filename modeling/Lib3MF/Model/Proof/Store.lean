import Lib3MF.API.Session

/-!
# What a call does to the store

`store_next` splits a call by its effect on the resources: the store is as before, a resource
was constructed (`new`), or the data of one resource became what `Edits` says the call makes of
it. Everything about a resource that only some calls touch follows from it.
-/

namespace NMR

open Lib

namespace Model

variable {m m' : Model} {r r' : Nat} {d : ResourceData}

/-! ## Reading and writing the store -/

theorem data?_congr (h : m'.store = m.store) : m'.data? r = m.data? r := by
  simp only [data?, h]

theorem data?_setData :
    (m.setData r d).data? r' = if r = r' then (m.data? r').map fun _ => d else m.data? r' := by
  simp only [data?, setData, List.getElem?_modify]
  split_ifs with h
  · cases m.store[r']? <;> rfl
  · cases m.store[r']? <;> rfl

theorem data?_setData_same (h : (m.data? r).isSome) : (m.setData r d).data? r = some d := by
  rw [data?_setData, if_pos rfl]
  cases hd : m.data? r with
  | none => rw [hd] at h; cases h
  | some _ => rfl

theorem data?_setData_ne (h : r ≠ r') : (m.setData r d).data? r' = m.data? r' := by
  rw [data?_setData, if_neg h]

@[simp] theorem length_setData : (m.setData r d).store.length = m.store.length := by
  simp [setData]

theorem uniqueID?_setData : (m.setData r d).uniqueID? r' = m.uniqueID? r' := by
  simp only [uniqueID?, setData, List.getElem?_modify]
  cases m.store[r']? with
  | none => rfl
  | some res => simp only [Option.map_some]; split_ifs <;> rfl

theorem data?_append {res : Resource} (h : m'.store = m.store ++ [res]) :
    m'.data? r = if r = m.store.length then some res.data else m.data? r := by
  simp only [data?, h]
  split_ifs with hr
  · subst hr; simp
  · by_cases hlt : r < m.store.length
    · rw [List.getElem?_append_left hlt]
    · rw [List.getElem?_eq_none (by simp; omega), List.getElem?_eq_none (by omega)]

/-- Filling the last resource. -/
theorem setData_concat {l : List Resource} {res : Resource} (h : m.store = l ++ [res]) :
    m.setData l.length d = { m with store := l ++ [{ res with data := d }] } := by
  simp [setData, h, List.modify_eq_take_cons_drop]

theorem data?_of_length_le (h : m.store.length ≤ r) : m.data? r = none := by
  simp only [data?, List.getElem?_eq_none h, Option.map_none]

theorem lt_of_data? (h : m.data? r = some d) : r < m.store.length := by
  by_contra hr
  rw [data?_of_length_le (by omega)] at h
  cases h

/-! ## The store after each function -/

theorem construct_spec {id : Nat} {data : ResourceData} (h : m.construct id data = .ok (m', r)) :
    ∃ hd p, m.resourceHandler.getNewResourceID m.curPath id = .ok (hd, p) ∧
      r = m.store.length ∧
      m' = { m with resourceHandler := hd, store := m.store ++ [⟨p, data⟩] } := by
  unfold construct at h
  cases hn : m.resourceHandler.getNewResourceID m.curPath id with
  | error e => rw [hn] at h; cases h
  | ok x =>
    obtain ⟨hd, p⟩ := x
    rw [hn] at h
    cases h
    exact ⟨hd, p, rfl, rfl, rfl⟩

/-- The lookup tables are all that `addResourceToLookupTable` changes. -/
theorem addResourceToLookupTable_frame (m : Model) (r : ResourceRef) (d : ResourceData) :
    let m' := m.addResourceToLookupTable r d
    m'.store = m.store ∧ m'.resourceHandler = m.resourceHandler ∧
      m'.resourceMap = m.resourceMap ∧ m'.curPath = m.curPath ∧ m'.resources = m.resources := by
  cases d <;> exact ⟨rfl, rfl, rfl, rfl, rfl⟩

theorem addResource_spec (h : m.addResource r = .ok m') :
    ∃ res, m.store[r]? = some res ∧ res.resourceID.uniqueID ∉ m.resourceMap.keys ∧
      m' = addResourceToLookupTable { m with
        resourceMap := m.resourceMap.insert res.resourceID.uniqueID r
        resources := m.resources ++ [r] } r res.data := by
  unfold addResource at h
  cases hr : m.store[r]? with
  | none => rw [hr] at h; cases h
  | some res =>
    rw [hr] at h
    dsimp only at h
    split_ifs at h with hk
    cases h
    exact ⟨res, rfl, fun hm => hk (SortedMap.find?_isSome.2 hm), rfl⟩

theorem store_addResource (h : m.addResource r = .ok m') : m'.store = m.store := by
  obtain ⟨res, -, -, rfl⟩ := addResource_spec h
  exact (addResourceToLookupTable_frame _ _ _).1

/-- A resource added is the one constructed. -/
theorem store_addNew (m : Model) (id : Nat) (new : NewResource) :
    (m.addNew id new).1.store = m.store ∨
      ∃ p, (m.addNew id new).1.store = m.store ++ [⟨p, new.data⟩] := by
  unfold addNew
  cases hc : m.construct id new.data with
  | error e => exact .inl rfl
  | ok x =>
    obtain ⟨m₁, r⟩ := x
    obtain ⟨hd, p, -, -, rfl⟩ := construct_spec hc
    refine .inr ⟨p, ?_⟩
    dsimp only
    rcases orThrow_fst _ (addResource { m with
        resourceHandler := hd, store := m.store ++ [⟨p, new.data⟩] } r) with h | ⟨m₂, h, he⟩
    · rw [h]
    · rw [he, store_addResource h]

/-! ## The store after a call -/

/-- `c` constructs a resource as `new`. -/
def Constructs (c : Call) (new : NewResource) : Prop :=
  c = .add new ∨ ∃ id, c = .construct id new ∨ c = .readResource id new

/-- What the call `c` makes of the data `d` of the resource `r`, with the conditions under which
it is accepted. -/
inductive Edits (m : Model) : Call → ResourceRef → ResourceData → ResourceData → Prop where
  | component {r objectID o : Nat} {t info cs} (hr : m.uniqueID? r ≠ some objectID)
      (ho : m.findObject objectID = .ok (some o)) (hne : m.uniqueID? o ≠ m.uniqueID? r) :
      Edits m (.addComponent r objectID t) r (.componentsObject info cs)
        (.componentsObject info (cs ++ [⟨o, t⟩]))
  | readComponent {r objectID o : Nat} {t info cs} (ho : m.findObject objectID = .ok (some o))
      (hne : m.uniqueID? o ≠ m.uniqueID? r) :
      Edits m (.readComponent r objectID t) r (.componentsObject info cs)
        (.componentsObject info (cs ++ [⟨o, t⟩]))
  | slice {r : Nat} {z s s'} (h : s.addSlice z = .ok s') :
      Edits m (.addSlice r z) r (.sliceStack s) (.sliceStack s')
  | sliceRef {r stackID o : Nat} {s t : SliceStack} (ho : m.findResource stackID = some o)
      (ht : m.stack? o = some t) (hs : s.slices = []) (hne : r ≠ o) (hl : t.sliceRefs = [])
      (hz : ¬ Double.lt t.zBottom (m.getHighestZ r)) :
      Edits m (.addSliceStackReference r stackID) r (.sliceStack s)
        (.sliceStack { s with sliceRefs := s.sliceRefs ++ [o] })
  | collapse {r : Nat} {s : SliceStack} :
      Edits m (.collapseSliceReferences r) r (.sliceStack s)
        (.sliceStack { s with slices := m.collapsedSlices r s })
  | ownPath {r : Nat} {path} {s : SliceStack} (path') :
      Edits m (.setOwnPath r path) r (.sliceStack s) (.sliceStack { s with ownPath := path' })
  | zBottom {r : Nat} {z} {s : SliceStack}
      (hs : ∀ slice ∈ s.slices.head?, ¬ Double.le slice.topZ z)
      (hr : ∀ o ∈ s.sliceRefs.head?.bind m.stack?, ¬ Double.lt o.zBottom z) :
      Edits m (.setZBottom r z) r (.sliceStack s) (.sliceStack { s with zBottom := z })
  | info {r : Nat} {i} {d : ResourceData} : Edits m (.setObjectInfo r i) r d (d.setInfo i)
  | edit {r : Nat} {d d' : ResourceData} : Edits m (.edit r d') r d (d.editTo d')

/-- A function that throws or leaves what `Edits` says. -/
def EditsStore (m : Model) (c : Call) (m' : Model) : Prop :=
  ∃ r d d', m.data? r = some d ∧ Edits m c r d d' ∧ m' = m.setData r d'

theorem stack?_data? {s : SliceStack} :
    m.stack? r = some s ↔ m.data? r = some (.sliceStack s) := by
  simp only [stack?]
  constructor
  · intro h
    cases hd : m.data? r with
    | none => rw [hd] at h; cases h
    | some d =>
      rw [hd] at h
      cases d <;> simp_all [ResourceData.stack?]
  · intro h
    rw [h]; rfl

theorem addComponent_spec {c : Component} (h : m.addComponent r c = .ok m') :
    ∃ info cs, m.data? r = some (.componentsObject info cs) ∧
      m.uniqueID? c.object ≠ m.uniqueID? r ∧
      m' = m.setData r (.componentsObject info (cs ++ [c])) := by
  unfold addComponent at h
  split at h
  · rename_i info cs hd
    split_ifs at h with hu
    cases h
    exact ⟨info, cs, hd, hu, rfl⟩
  · cases h

theorem apiAddComponent_edits {objectID : Nat} {t : Matrix3}
    (h : m.apiAddComponent r objectID t = .ok m') :
    EditsStore m (.addComponent r objectID t) m' := by
  unfold apiAddComponent at h
  split at h
  · split_ifs at h with hu
    split at h
    · cases h
    · cases h
    · rename_i o ho
      obtain ⟨info, cs, hd, hne, rfl⟩ := addComponent_spec h
      exact ⟨r, _, _, hd, .component hu ho hne, rfl⟩
  · cases h

theorem readComponent_edits {objectID : Nat} {t : Matrix3}
    (h : m.readComponent r objectID t = .ok m') :
    EditsStore m (.readComponent r objectID t) m' := by
  unfold readComponent at h
  split at h
  · cases h
  · cases h
  · rename_i o ho
    obtain ⟨info, cs, hd, hne, rfl⟩ := addComponent_spec h
    exact ⟨r, _, _, hd, .readComponent ho hne, rfl⟩

theorem addSlice_edits {z : Double} (h : m.addSlice r z = .ok m') :
    EditsStore m (.addSlice r z) m' := by
  unfold addSlice at h
  split at h
  · cases h
  · rename_i s hs
    cases ha : s.addSlice z with
    | error e => rw [ha] at h; cases h
    | ok s' =>
      rw [ha] at h
      cases h
      exact ⟨r, _, _, stack?_data?.1 hs, .slice ha, rfl⟩

theorem addSliceStackReference_edits {stackID : Nat}
    (h : m.addSliceStackReference r stackID = .ok m') :
    EditsStore m (.addSliceStackReference r stackID) m' := by
  unfold addSliceStackReference at h
  cases ho : m.findResource stackID with
  | none => rw [ho] at h; cases h
  | some o =>
    rw [ho] at h
    dsimp only at h
    cases ht : m.stack? o with
    | none => rw [ht] at h; cases h
    | some t =>
      rw [ht] at h
      dsimp only at h
      unfold addSliceRef at h
      cases hs : m.stack? r with
      | none => rw [hs] at h; cases h
      | some s =>
        rw [hs, ht] at h
        dsimp only at h
        split_ifs at h with h1 h2 h3 h4
        cases h
        refine ⟨r, _, _, stack?_data?.1 hs, .sliceRef ho ht ?_ h2 ?_ h4, rfl⟩
        · simpa [SliceStack.allowsReferences] using h1
        · simpa using h3

theorem collapseSliceReferences_edits (h : m.collapseSliceReferences r = .ok m') :
    EditsStore m (.collapseSliceReferences r) m' := by
  unfold collapseSliceReferences at h
  cases hs : m.stack? r with
  | none => rw [hs] at h; cases h
  | some s =>
    rw [hs] at h
    cases h
    exact ⟨r, _, _, stack?_data?.1 hs, .collapse, rfl⟩

theorem setOwnPath_edits {path : String} (h : m.setOwnPath r path = .ok m') :
    EditsStore m (.setOwnPath r path) m' := by
  unfold setOwnPath at h
  cases hs : m.stack? r with
  | none => rw [hs] at h; cases h
  | some s =>
    rw [hs] at h
    cases h
    exact ⟨r, _, _, stack?_data?.1 hs, .ownPath _, rfl⟩

theorem setZBottom_edits {z : Double} (h : m.setZBottom r z = .ok m') :
    EditsStore m (.setZBottom r z) m' := by
  unfold setZBottom at h
  cases hs : m.stack? r with
  | none => rw [hs] at h; cases h
  | some s =>
    rw [hs] at h
    dsimp only at h
    split_ifs at h with h1 h2
    cases h
    refine ⟨r, _, _, stack?_data?.1 hs, .zBottom (fun slice hm hle => h1 ?_)
      (fun o hm hlt => h2 ?_), rfl⟩
    · rw [Option.mem_def.1 hm]; simpa using hle
    · rw [Option.mem_def.1 hm]; simpa using hlt

theorem update_edits {c : Call} {f : ResourceData → ResourceData}
    (hf : ∀ d, Edits m c r d (f d)) (h : m.update r f = .ok m') : EditsStore m c m' := by
  unfold update at h
  cases hd : m.data? r with
  | none => rw [hd] at h; cases h
  | some d =>
    rw [hd] at h
    cases h
    exact ⟨r, d, _, hd, hf d, rfl⟩

theorem apiAddBuildItem_frame (m : Model) (objectID : Nat) (t : Matrix3) :
    ∃ n items, (m.apiAddBuildItem objectID t).1 =
      { m with handleCounter := n, buildItems := items } := by
  unfold apiAddBuildItem
  split
  · exact ⟨_, _, rfl⟩
  · exact ⟨_, _, rfl⟩
  · unfold createHandle addBuildItem
    by_cases hc : maxHandle ≤ m.handleCounter
    · rw [if_pos hc]
      exact ⟨_, _, rfl⟩
    · rw [if_neg hc]
      by_cases hb : maxBuildItemCount ≤ m.buildItems.length
      · simp only [if_pos hb]
        exact ⟨_, _, rfl⟩
      · simp only [if_neg hb]
        exact ⟨_, _, rfl⟩

/-- The calls that edit one resource and leave everything else. -/
def IsEdit : Call → Prop
  | .addComponent .. | .readComponent .. | .addSlice .. | .addSliceStackReference ..
  | .collapseSliceReferences _ | .setOwnPath .. | .setZBottom .. | .setObjectInfo .. | .edit .. =>
    True
  | _ => False

/-- An editing call throws or edits. -/
theorem edit_next (m : Model) {c : Call} (hc : IsEdit c) :
    m.next c = m ∨ EditsStore m c (m.next c) := by
  have throwing (x : Except Error Model) (hx : ∀ m', x = .ok m' → EditsStore m c m') :
      (orThrow m x).1 = m ∨ EditsStore m c (orThrow m x).1 := by
    rcases orThrow_fst m x with h | ⟨m', h, he⟩
    · exact .inl h
    · exact .inr (by rw [he]; exact hx m' h)
  cases c with
  | addComponent r objectID t => exact throwing _ fun m' h => apiAddComponent_edits h
  | readComponent r objectID t => exact throwing _ fun m' h => readComponent_edits h
  | addSlice r z => exact throwing _ fun m' h => addSlice_edits h
  | addSliceStackReference r stackID =>
    exact throwing _ fun m' h => addSliceStackReference_edits h
  | collapseSliceReferences r => exact throwing _ fun m' h => collapseSliceReferences_edits h
  | setOwnPath r path => exact throwing _ fun m' h => setOwnPath_edits h
  | setZBottom r z => exact throwing _ fun m' h => setZBottom_edits h
  | setObjectInfo r i => exact throwing _ fun m' h => update_edits (fun d => .info) h
  | edit r d => exact throwing _ fun m' h => update_edits (fun d' => .edit) h
  | _ => exact hc.elim

/-- **What a call does to the store.** -/
theorem store_next (m : Model) (c : Call) :
    (m.next c).store = m.store ∨
      (∃ new p, Constructs c new ∧ (m.next c).store = m.store ++ [⟨p, new.data⟩]) ∨
      EditsStore m c (m.next c) := by
  by_cases hc : IsEdit c
  · rcases edit_next m hc with h | h
    · exact .inl (by rw [h])
    · exact .inr (.inr h)
  cases c with
  | clearAll => exact .inl rfl
  | setCurPath path => exact .inl rfl
  | setRootPath path => exact .inl rfl
  | construct id new =>
    simp only [next, step]
    cases hn : m.construct id new.data with
    | error e => exact .inl rfl
    | ok x =>
      obtain ⟨m', r⟩ := x
      obtain ⟨hd, p, -, -, rfl⟩ := construct_spec hn
      exact .inr (.inl ⟨new, p, .inr ⟨id, .inl rfl⟩, rfl⟩)
  | readResource id new =>
    rcases m.store_addNew id new with h | ⟨p, h⟩
    · exact .inl h
    · exact .inr (.inl ⟨new, p, .inr ⟨id, .inr rfl⟩, h⟩)
  | add new =>
    rcases m.store_addNew m.generateResourceID new with h | ⟨p, h⟩
    · exact .inl h
    · exact .inr (.inl ⟨new, p, .inl rfl, h⟩)
  | addBuildItem objectID t =>
    obtain ⟨n, items, h⟩ := m.apiAddBuildItem_frame objectID t
    exact .inl (by simp only [next, step, h])
  | _ => exact absurd trivial hc

end Model

end NMR
