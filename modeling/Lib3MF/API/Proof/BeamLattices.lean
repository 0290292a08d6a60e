import Lib3MF.API.Proof.Containers
import Lib3MF.API.Proof.ObjectDepth

/-!
# References of beam lattices are written backwards

The setters and the reader let a mesh object refer to itself, and look at the order of creation
only: a component added later may nest the user deeper than the mesh it refers to, and then it is
written first. A mesh object may even be its own clipping mesh (`clips_itself`). Every state of a
session has its references in order exactly when no call sets a reference that is out of order, and
no component takes one out of it (`latticeOrdered_iff`).
-/

namespace NMR

open Lib Model

/-- The unique IDs the attributes refer to. -/
def BeamLatticeAttributes.targets (a : BeamLatticeAttributes) : List Nat :=
  a.clippingMesh.toList ++ a.representationMesh.toList

namespace LatticeModel

variable {s s' : LatticeModel} {m m' : Model} {c : LatticeCall} {r t u : ResourceRef} {id : Nat}

/-- The mesh object `t` is the clipping or representation mesh of `u`. -/
structure UsesMesh (s : LatticeModel) (u t : ResourceRef) : Prop where
  user : u ∈ s.model.objects
  userMesh : s.model.isMeshObject u = true
  mesh : t ∈ s.model.objects
  isMesh : s.model.isMeshObject t = true
  refers : ∃ id ∈ (s.getBeamLatticeAttributes u).targets, s.model.uniqueID? t = some id

/-- No object is its own clipping or representation mesh, and each such mesh stands before the
object that uses it in the list that is written. -/
def LatticeOrdered (s : LatticeModel) : Prop :=
  ∀ u t, s.UsesMesh u t → t ≠ u ∧
    ∀ fuel l, s.model.getSortedObjectList fuel = some l → [t, u].Sublist l

/-- The call lets `r` refer to the unique ID `uid`. -/
def Sets (s : LatticeModel) : LatticeCall → ResourceRef → Nat → Prop
  | .model _, _, _ => False
  | .setClipping r clipMode id, r', uid => r' = r ∧ s.model.isMeshObject r ∧ clipMode ≠ .none ∧
    id ≠ 0 ∧ ∃ o, s.findReference r id = .ok o ∧ s.model.uniqueID? o = some uid
  | .setRepresentation r id, r', uid => r' = r ∧ s.model.isMeshObject r ∧ id ≠ 0 ∧
    ∃ o, s.findReference r id = .ok o ∧ s.model.uniqueID? o = some uid
  | .readBeamLattice r clipMode c o, r', uid => r' = r ∧ s.model.isMeshObject r ∧
    ∃ a, s.readClippingMesh (s.getBeamLatticeAttributes r) clipMode c = .ok a ∧
      ((∃ id, c = some id ∧ s.readReference id = .ok (some (some uid))) ∨
        ∃ id, o = some id ∧ id ≠ 0 ∧ s.readReference id = .ok (some (some uid)))

/-- A mesh object that a call lets another refer to is another one and written before it; and
with a component that a call adds, each mesh used is still written before its users. -/
def Allowed (s : LatticeModel) (c : LatticeCall) : Prop :=
  match c with
  | .model c => ∀ r o, s.model.AddsComponent c r o → ∀ u t, s.UsesMesh u t →
    Grounded (AddEdge s.model.References r o) s.model.objects →
      s.model.Precedes (AddEdge s.model.References r o) t u
  | c => ∀ u uid, s.Sets c u uid → u ∈ s.model.objects → ∀ t ∈ s.model.objects,
    s.model.isMeshObject t = true → s.model.uniqueID? t = some uid →
      t ≠ u ∧ (Grounded s.model.References s.model.objects →
        s.model.Precedes s.model.References t u)

/-! ## The order in one state -/

/-- What every call keeps. -/
structure Listed (s : LatticeModel) : Prop where
  found : ∀ r ∈ s.model.objectLookup, ∃ id, s.model.uniqueID? r = some id ∧
    s.model.resourceMap.find? id = some r
  known : ∀ r ∈ s.attributes.keys, r < s.model.store.length
  targets : ∀ u ∈ s.model.objectLookup, ∀ id ∈ (s.getBeamLatticeAttributes u).targets,
    (s.model.resourceMap.find? id).isSome
  components : ∀ a b, s.model.References a b → b < s.model.store.length
  ids : ∀ id p, s.model.resourceHandler.findResourceID id = some p → p.uniqueID = id

theorem mem_lookup (h : r ∈ m.objects) : r ∈ m.objectLookup := (List.mem_filter.1 h).1

theorem lt_of_uniqueID? (h : m.uniqueID? r = some id) : r < m.store.length := by
  by_contra hr
  rw [uniqueID?, List.getElem?_eq_none (not_lt.1 hr)] at h
  cases h

theorem Listed.lt (hs : Listed s) (h : r ∈ s.model.objectLookup) : r < s.model.store.length := by
  obtain ⟨id, hid, -⟩ := hs.found r h
  exact lt_of_uniqueID? hid

/-- Two objects have two IDs. -/
theorem Listed.uniqueID_ne (hs : Listed s) (ht : t ∈ s.model.objects) (hu : u ∈ s.model.objects)
    (hne : t ≠ u) : (s.model.uniqueID? t).getD 0 ≠ (s.model.uniqueID? u).getD 0 := by
  obtain ⟨i, hi, hti⟩ := hs.found t (mem_lookup ht)
  obtain ⟨j, hj, huj⟩ := hs.found u (mem_lookup hu)
  rw [hi, hj]
  intro he
  change i = j at he
  rw [he, huj] at hti
  exact hne (Option.some.inj hti).symm

/-- **The order in one state**, in terms of the components. -/
theorem Listed.ordered_iff (hs : Listed s) : s.LatticeOrdered ↔
    ∀ u t, s.UsesMesh u t → t ≠ u ∧ (Grounded s.model.References s.model.objects →
      s.model.Precedes s.model.References t u) := by
  refine forall₃_congr fun u t h => and_congr_right fun hne => ?_
  exact getSortedObjectList_iff h.mesh h.user (hs.uniqueID_ne h.mesh h.user hne)

/-! ## Setting references -/

@[simp] theorem getBeamLatticeAttributes_setAttributes {a : BeamLatticeAttributes} :
    (s.setAttributes r a).getBeamLatticeAttributes u =
      if u = r then a else s.getBeamLatticeAttributes u := by
  unfold getBeamLatticeAttributes setAttributes
  rw [SortedMap.find?_set]
  split_ifs <;> rfl

/-- What a call that sets references does to them. -/
structure SetsTargets (s : LatticeModel) (c : LatticeCall) (s' : LatticeModel) : Prop where
  model : s'.model = s.model
  targets : ∀ u id, id ∈ (s'.getBeamLatticeAttributes u).targets →
    id ∈ (s.getBeamLatticeAttributes u).targets ∨ s.Sets c u id
  sets : ∀ u id, s.Sets c u id → id ∈ (s'.getBeamLatticeAttributes u).targets
  keys : ∀ r ∈ s'.attributes.keys, r ∈ s.attributes.keys ∨ s.model.isMeshObject r = true

theorem SetsTargets.refl (h : ∀ u id, ¬ s.Sets c u id) : SetsTargets s c s :=
  ⟨rfl, fun _ _ h => .inl h, fun u id hs => absurd hs (h u id), fun _ h => .inl h⟩

/-- The references of one mesh object are set. -/
theorem setsTargets_setAttributes {a : BeamLatticeAttributes} (hr : s.model.isMeshObject r = true)
    (hc : ∀ u id, s.Sets c u id → u = r)
    (ha : ∀ id, id ∈ a.targets → id ∈ (s.getBeamLatticeAttributes r).targets ∨ s.Sets c r id)
    (hset : ∀ id, s.Sets c r id → id ∈ a.targets) : SetsTargets s c (s.setAttributes r a) := by
  refine ⟨rfl, fun u id hid => ?_, fun u id hs => ?_, fun x hx => ?_⟩
  · rw [getBeamLatticeAttributes_setAttributes] at hid
    split_ifs at hid with hu
    · rw [hu]
      exact ha id hid
    · exact .inl hid
  · have hu := hc u id hs
    rw [getBeamLatticeAttributes_setAttributes, if_pos hu]
    exact hset id (hu ▸ hs)
  · rcases SortedMap.mem_keys_set.1 hx with rfl | hx
    · exact .inr hr
    · exact .inl hx

theorem mem_targets {a : BeamLatticeAttributes} :
    id ∈ a.targets ↔ a.clippingMesh = some id ∨ a.representationMesh = some id := by
  simp [BeamLatticeAttributes.targets]

theorem setClipping_sets (s : LatticeModel) (r : ResourceRef) (clipMode : ClipMode) (id : Nat) :
    SetsTargets s (.setClipping r clipMode id) (s.next (.setClipping r clipMode id)) := by
  simp only [next, step, setClipping]
  split_ifs with hr hn
  · refine setsTargets_setAttributes hr (fun u uid h => h.1) (fun uid h => ?_) fun uid h => ?_
    · rw [mem_targets] at h ⊢
      rcases h with h | h
      · cases h
      · exact .inl (.inr h)
    · exact hn.elim (fun h' => absurd h' h.2.2.1) fun h' => absurd h' h.2.2.2.1
  · cases hf : s.findReference r id with
    | error e =>
      refine .refl fun u uid h => ?_
      obtain ⟨o, ho, -⟩ := h.2.2.2.2
      rw [hf] at ho
      cases ho
    | ok o =>
      refine setsTargets_setAttributes hr (fun u uid h => h.1) (fun uid h => ?_) fun uid h => ?_
      · rw [mem_targets] at h ⊢
        rcases h with h | h
        · exact .inr ⟨rfl, hr, fun h' => hn (.inl h'), fun h' => hn (.inr h'), o, hf, h⟩
        · exact .inl (.inr h)
      · obtain ⟨o', ho', hu⟩ := h.2.2.2.2
        rw [hf] at ho'
        cases ho'
        exact mem_targets.2 (.inl hu)
  · exact .refl fun u uid h => hr h.2.1

theorem setRepresentation_sets (s : LatticeModel) (r : ResourceRef) (id : Nat) :
    SetsTargets s (.setRepresentation r id) (s.next (.setRepresentation r id)) := by
  simp only [next, step, setRepresentation]
  split_ifs with hr hn
  · refine setsTargets_setAttributes hr (fun u uid h => h.1) (fun uid h => ?_)
      fun uid h => absurd hn h.2.2.1
    rw [mem_targets] at h ⊢
    rcases h with h | h
    · exact .inl (.inl h)
    · cases h
  · cases hf : s.findReference r id with
    | error e =>
      refine .refl fun u uid h => ?_
      obtain ⟨o, ho, -⟩ := h.2.2.2
      rw [hf] at ho
      cases ho
    | ok o =>
      refine setsTargets_setAttributes hr (fun u uid h => h.1) (fun uid h => ?_) fun uid h => ?_
      · rw [mem_targets] at h ⊢
        rcases h with h | h
        · exact .inl (.inl h)
        · exact .inr ⟨rfl, hr, hn, o, hf, h⟩
      · obtain ⟨o', ho', hu⟩ := h.2.2.2
        rw [hf] at ho'
        cases ho'
        exact mem_targets.2 (.inr hu)
  · exact .refl fun u uid h => hr h.2.1

/-- What `readClippingMesh` leaves. -/
theorem readClippingMesh_spec {a a' : BeamLatticeAttributes} {clipMode : ClipMode}
    {c : Option Nat} (h : s.readClippingMesh a clipMode c = .ok a') :
    a'.representationMesh = a.representationMesh ∧
      (∀ uid, a'.clippingMesh = some uid → a.clippingMesh = some uid ∨
        ∃ id, c = some id ∧ s.readReference id = .ok (some (some uid))) ∧
      ∀ id uid, c = some id → s.readReference id = .ok (some (some uid)) →
        a'.clippingMesh = some uid := by
  unfold readClippingMesh at h
  cases c with
  | none =>
    cases h
    exact ⟨rfl, fun uid h => .inl h, nofun⟩
  | some id =>
    dsimp only at h
    cases hr : s.readReference id with
    | error e =>
      rw [hr] at h
      cases h
    | ok x =>
      rw [hr] at h
      rcases x with - | (- | uid)
      · cases h
        refine ⟨rfl, fun uid h => .inl h, fun id' uid hid hu => ?_⟩
        cases hid
        rw [hr] at hu
        cases hu
      · cases h
        refine ⟨rfl, nofun, fun id' uid hid hu => ?_⟩
        cases hid
        rw [hr] at hu
        cases hu
      · cases h
        refine ⟨rfl, fun uid' h => ?_, fun id' uid' hid hu => ?_⟩
        · cases h
          exact .inr ⟨id, rfl, hr⟩
        · cases hid
          rw [hr] at hu
          cases hu
          rfl

/-- What `readRepresentationMesh` leaves. -/
theorem readRepresentationMesh_spec {a a' : BeamLatticeAttributes} {o : Option Nat}
    (h : s.readRepresentationMesh a o = .ok a') :
    a'.clippingMesh = a.clippingMesh ∧
      (∀ uid, a'.representationMesh = some uid → a.representationMesh = some uid ∨
        ∃ id, o = some id ∧ id ≠ 0 ∧ s.readReference id = .ok (some (some uid))) ∧
      ∀ id uid, o = some id → id ≠ 0 → s.readReference id = .ok (some (some uid)) →
        a'.representationMesh = some uid := by
  unfold readRepresentationMesh at h
  split at h
  · cases h
    exact ⟨rfl, fun uid h => .inl h, nofun⟩
  · cases h
    refine ⟨rfl, fun uid h => .inl h, fun id uid hid h0 => ?_⟩
    cases hid
    exact absurd rfl h0
  · rename_i id hid
    have hne : id ≠ 0 := hid
    cases hr : s.readReference id with
    | error e =>
      rw [hr] at h
      cases h
    | ok x =>
      rw [hr] at h
      cases x with
      | none =>
        cases h
        refine ⟨rfl, fun uid h => .inl h, fun id' uid hid _ hu => ?_⟩
        cases hid
        rw [hr] at hu
        cases hu
      | some x =>
        cases h
        refine ⟨rfl, fun uid h => ?_, fun id' uid hid _ hu => ?_⟩
        · change x = some uid at h
          subst h
          exact .inr ⟨id, rfl, hne, hr⟩
        · cases hid
          rw [hr] at hu
          cases hu
          rfl

theorem readRepresentationMesh_ok {a : BeamLatticeAttributes} {x : Option (Option Nat)}
    (h : s.readReference id = .ok x) :
    ∃ a', s.readRepresentationMesh a (some id) = .ok a' := by
  unfold readRepresentationMesh
  split
  · exact ⟨_, rfl⟩
  · exact ⟨_, rfl⟩
  · rename_i id' _ he
    cases he
    rw [h]
    cases x with
    | none => exact ⟨_, rfl⟩
    | some x => exact ⟨_, rfl⟩

theorem readBeamLattice_sets (s : LatticeModel) (r : ResourceRef) (clipMode : ClipMode)
    (c o : Option Nat) : SetsTargets s (.readBeamLattice r clipMode c o)
      (s.next (.readBeamLattice r clipMode c o)) := by
  simp only [next, step, readBeamLattice]
  split_ifs with hr
  · cases hc : s.readClippingMesh (s.getBeamLatticeAttributes r) clipMode c with
    | error e =>
      refine .refl fun u uid h => ?_
      obtain ⟨-, -, a, ha, -⟩ := h
      rw [hc] at ha
      cases ha
    | ok a =>
      obtain ⟨hrep, hclip, hset⟩ := readClippingMesh_spec hc
      have hsets (uid : Nat) (h : (∃ id, c = some id ∧ s.readReference id = .ok (some (some uid))) ∨
          ∃ id, o = some id ∧ id ≠ 0 ∧ s.readReference id = .ok (some (some uid))) :
          s.Sets (.readBeamLattice r clipMode c o) r uid := ⟨rfl, hr, a, hc, h⟩
      dsimp only
      cases ho : s.readRepresentationMesh a o with
      | error e =>
        refine setsTargets_setAttributes hr (fun u uid h => h.1) (fun uid h => ?_) fun uid h => ?_
        · rw [mem_targets] at h ⊢
          rcases h with h | h
          · exact (hclip uid h).imp .inl fun h => hsets uid (.inl h)
          · exact .inl (.inr (hrep ▸ h))
        · obtain ⟨-, -, a₁, -, h⟩ := h
          rcases h with ⟨id, hid, h⟩ | ⟨id, rfl, h0, h⟩
          · exact mem_targets.2 (.inl (hset id uid hid h))
          · obtain ⟨a₂, h₂⟩ := readRepresentationMesh_ok (a := a) h
            rw [ho] at h₂
            cases h₂
      | ok a' =>
        obtain ⟨hclip', hrep', hset'⟩ := readRepresentationMesh_spec ho
        refine setsTargets_setAttributes hr (fun u uid h => h.1) (fun uid h => ?_) fun uid h => ?_
        · rw [mem_targets] at h ⊢
          rcases h with h | h
          · exact (hclip uid (hclip' ▸ h)).imp .inl fun h => hsets uid (.inl h)
          · exact (hrep' uid h).imp (fun h => .inr (hrep ▸ h)) fun h => hsets uid (.inr h)
        · obtain ⟨-, -, a₁, -, h⟩ := h
          rw [mem_targets, hclip']
          rcases h with ⟨id, hid, h⟩ | ⟨id, hid, h0, h⟩
          · exact .inl (hset id uid hid h)
          · exact .inr (hset' id uid hid h0 h)
  · exact .refl fun u uid h => hr h.2.1

theorem isMeshObject_lt (h : m.isMeshObject r = true) : r < m.store.length := by
  unfold isMeshObject at h
  cases hd : m.data? r with
  | none => rw [hd] at h; cases h
  | some d => exact lt_of_data? hd

theorem mem_of_compareObjects {o : ResourceRef} {i : Int}
    (h : m.compareObjectsByResourceID o r = .ok i) : o ∈ m.objectLookup := by
  unfold compareObjectsByResourceID at h
  split at h
  · rename_i i j hi hj
    obtain ⟨a, ha, he⟩ := lastIndex_eq_some hi
    rw [← of_decide_eq_true he]
    exact List.mem_of_getElem? ha
  · cases h

theorem findReference_mem {o : ResourceRef} (h : s.findReference r id = .ok o) :
    o ∈ s.model.objectLookup := by
  unfold findReference at h
  obtain ⟨x, -, h⟩ := bind_eq_ok.1 h
  cases x with
  | none => cases h
  | some o' =>
    dsimp only at h
    split_ifs at h with hm
    · obtain ⟨i, hi, h⟩ := bind_eq_ok.1 h
      split_ifs at h
      · cases h
      · cases h
        exact mem_of_compareObjects hi
    · cases h

/-- What a call sets is the ID of a resource of the model. -/
theorem Listed.sets_found (hs : Listed s) {uid : Nat} (h : s.Sets c u uid) :
    (s.model.resourceMap.find? uid).isSome := by
  have href {id : Nat} {o : ResourceRef} (ho : s.findReference u id = .ok o)
      (hu : s.model.uniqueID? o = some uid) : (s.model.resourceMap.find? uid).isSome := by
    obtain ⟨i, hi, hf⟩ := hs.found o (findReference_mem ho)
    rw [hi] at hu
    cases hu
    rw [hf]
    rfl
  have hread {id : Nat} (h : s.readReference id = .ok (some (some uid))) :
      (s.model.resourceMap.find? uid).isSome := by
    unfold readReference at h
    split at h
    · cases h
    · rename_i p hp
      obtain ⟨x, hx, h⟩ := bind_eq_ok.1 h
      cases x with
      | none => cases h
      | some o =>
        cases h
        unfold findObject findResource at hx
        cases hf : s.model.resourceHandler.findResourceID p.uniqueID with
        | none => rw [hf] at hx; cases hx
        | some p' =>
          rw [hf] at hx
          dsimp only at hx
          rw [← hs.ids _ _ hf]
          cases hm : s.model.resourceMap.find? p'.uniqueID with
          | none => rw [hm] at hx; cases hx
          | some _ => rfl
  cases c with
  | model c => exact h.elim
  | setClipping r clipMode id =>
    obtain ⟨rfl, -, -, -, o, ho, hu⟩ := h
    exact href ho hu
  | setRepresentation r id =>
    obtain ⟨rfl, -, -, o, ho, hu⟩ := h
    exact href ho hu
  | readBeamLattice r clipMode c o =>
    obtain ⟨rfl, -, a, -, ⟨id, -, h⟩ | ⟨id, -, -, h⟩⟩ := h
    · exact hread h
    · exact hread h

theorem Listed.setsTargets (hs : Listed s) (h : SetsTargets s c s') : Listed s' := by
  refine ⟨?_, fun r hr => ?_, fun u hu id hid => ?_, ?_, ?_⟩
  · rw [h.model]
    exact hs.found
  · rw [h.model]
    exact (h.keys r hr).elim (hs.known r) isMeshObject_lt
  · rw [h.model] at hu ⊢
    exact (h.targets u id hid).elim (hs.targets u hu id) hs.sets_found
  · rw [h.model]
    exact hs.components
  · rw [h.model]
    exact hs.ids

/-- **A call that sets references** keeps the order exactly when what it sets is in order. -/
theorem setsTargets_iff (hs : Listed s) (ho : s.LatticeOrdered) (h : SetsTargets s c s') :
    s'.LatticeOrdered ↔ ∀ u uid, s.Sets c u uid → u ∈ s.model.objects → ∀ t ∈ s.model.objects,
      s.model.isMeshObject t = true → s.model.uniqueID? t = some uid →
        t ≠ u ∧ (Grounded s.model.References s.model.objects →
          s.model.Precedes s.model.References t u) := by
  rw [(hs.setsTargets h).ordered_iff]
  constructor
  · intro hall u uid hset hu t ht hmesh huid
    have hum : s.model.isMeshObject u = true := by
      cases c with
      | model c => exact hset.elim
      | setClipping r clipMode id => exact hset.1 ▸ hset.2.1
      | setRepresentation r id => exact hset.1 ▸ hset.2.1
      | readBeamLattice r clipMode c o => exact hset.1 ▸ hset.2.1
    have huse : s'.UsesMesh u t := by
      refine ⟨?_, ?_, ?_, ?_, uid, h.sets u uid hset, ?_⟩
      · rwa [h.model]
      · rwa [h.model]
      · rwa [h.model]
      · rwa [h.model]
      · rwa [h.model]
    have hut := hall u t huse
    rwa [h.model] at hut
  · intro hall u t huse
    obtain ⟨hu, hum, ht, htm, uid, huid, hid⟩ := huse
    rw [h.model] at hu hum ht htm hid ⊢
    rcases h.targets u uid huid with hold | hset
    · exact hs.ordered_iff.1 ho u t ⟨hu, hum, ht, htm, uid, hold, hid⟩
    · exact hall u uid hset hu t ht htm hid

/-! ## Calls on the model -/

/-- What a call other than an edit and `clearAll` does: the model may get one more resource. -/
structure Grows (m m' : Model) : Prop where
  uniqueID : ∀ r < m.store.length, m'.uniqueID? r = m.uniqueID? r
  data : ∀ r < m.store.length, m'.data? r = m.data? r
  length : m.store.length ≤ m'.store.length
  map : ∀ id r, m.resourceMap.find? id = some r → m'.resourceMap.find? id = some r
  lookup : m'.objectLookup = m.objectLookup ∨ ∃ id,
    m'.objectLookup = m.objectLookup ++ [m.store.length] ∧ m.resourceMap.find? id = none ∧
    m'.uniqueID? m.store.length = some id ∧ m'.resourceMap.find? id = some m.store.length
  ids : (∀ id p, m.resourceHandler.findResourceID id = some p → p.uniqueID = id) →
    ∀ id p, m'.resourceHandler.findResourceID id = some p → p.uniqueID = id

theorem grows_of_frame (hstore : m'.store = m.store) (hlookup : m'.objectLookup = m.objectLookup)
    (hmap : m'.resourceMap = m.resourceMap) (hhand : m'.resourceHandler = m.resourceHandler) :
    Grows m m' := by
  refine ⟨fun r _ => ?_, fun r _ => data?_congr hstore, le_of_eq (by rw [hstore]), fun id r h => ?_,
    .inl hlookup, ?_⟩
  · rw [uniqueID?, hstore, uniqueID?]
  · rwa [hmap]
  · rw [hhand]
    exact id

theorem grows_construct {id : Nat} {data : ResourceData} (h : m.construct id data = .ok (m', r)) :
    Grows m m' ∧ r = m.store.length ∧ m'.objectLookup = m.objectLookup ∧
      m'.resourceMap = m.resourceMap := by
  obtain ⟨hd, p, hn, hr, rfl⟩ := construct_spec h
  refine ⟨⟨fun r hr => ?_, fun r hr => ?_, by simp, fun _ _ h => h, .inl rfl, fun hids id q hq => ?_⟩,
    hr, rfl, rfl⟩
  · simp only [uniqueID?, List.getElem?_append_left hr]
  · simp only [data?, List.getElem?_append_left hr]
  · obtain ⟨-, -, rfl⟩ := ResourceHandler.getNewResourceID_spec hn
    simp only [ResourceHandler.findResourceID, SortedMap.find?_insert] at hq
    split_ifs at hq with he
    · cases hf : m.resourceHandler.resourceIDs.find? p.uniqueID with
      | none =>
        rw [hf] at hq
        cases hq
        exact he.symm
      | some q' =>
        rw [hf] at hq
        cases hq
        exact (hids _ _ hf).trans he.symm
    · exact hids _ _ hq

theorem grows_addNew (id : Nat) (new : NewResource) : Grows m (m.addNew id new).1 := by
  unfold addNew
  cases hc : m.construct id new.data with
  | error e => exact grows_of_frame rfl rfl rfl rfl
  | ok x =>
    obtain ⟨m₁, r⟩ := x
    obtain ⟨h₁, rfl, hlook, hmap⟩ := grows_construct hc
    change Grows m (orThrow m₁ (m₁.addResource m.store.length)).1
    cases ha : m₁.addResource m.store.length with
    | error e => exact h₁
    | ok m₂ =>
      obtain ⟨res, hres, hfree, rfl⟩ := addResource_spec ha
      set m₃ : Model := { m₁ with
        resourceMap := m₁.resourceMap.insert res.resourceID.uniqueID m.store.length
        resources := m₁.resources ++ [m.store.length] }
      obtain ⟨hstore, hhand, hmap₃, -, -⟩ :=
        addResourceToLookupTable_frame m₃ m.store.length res.data
      have hnone : m₁.resourceMap.find? res.resourceID.uniqueID = none :=
        SortedMap.find?_eq_none.2 hfree
      have hins : ∀ id, (m₃.addResourceToLookupTable m.store.length res.data).resourceMap.find? id =
          if id = res.resourceID.uniqueID then some m.store.length else m.resourceMap.find? id := by
        intro id
        rw [hmap₃]
        change (m₁.resourceMap.insert _ _).find? id = _
        rw [SortedMap.find?_insert, hnone, hmap]
        rfl
      have huid : ∀ r, (m₃.addResourceToLookupTable m.store.length res.data).uniqueID? r =
          m₁.uniqueID? r := by
        intro r
        rw [uniqueID?, hstore]
        rfl
      refine ⟨fun r hr => (huid r).trans (h₁.uniqueID r hr),
        fun r hr => (data?_congr hstore).trans (h₁.data r hr),
        (by change _ ≤ (Model.addResourceToLookupTable _ _ _).store.length; rw [hstore]; exact h₁.length),
        fun id r h => ?_, ?_, ?_⟩
      · change (m₃.addResourceToLookupTable m.store.length res.data).resourceMap.find? id = some r
        rw [hins]
        split_ifs with he
        · rw [he, ← hmap, hnone] at h
          cases h
        · exact h
      · change (m₃.addResourceToLookupTable m.store.length res.data).objectLookup = _ ∨ ∃ id,
          (m₃.addResourceToLookupTable m.store.length res.data).objectLookup = _ ∧ _ ∧
          (m₃.addResourceToLookupTable m.store.length res.data).uniqueID? _ = _ ∧
          (m₃.addResourceToLookupTable m.store.length res.data).resourceMap.find? _ = _
        have hnew : (m₃.addResourceToLookupTable m.store.length res.data).objectLookup =
            m.objectLookup ∨ (m₃.addResourceToLookupTable m.store.length res.data).objectLookup =
            m.objectLookup ++ [m.store.length] := by
          rw [← hlook]
          cases res.data with
          | meshObject => exact .inr rfl
          | componentsObject => exact .inr rfl
          | _ => exact .inl rfl
        refine hnew.imp (fun h => h) fun hl => ⟨res.resourceID.uniqueID, hl, ?_, ?_, ?_⟩
        · rw [← hmap]
          exact hnone
        · rw [huid, uniqueID?, hres]
          rfl
        · rw [hins, if_pos rfl]
      · change _ → ∀ id p, (m₃.addResourceToLookupTable m.store.length res.data).resourceHandler.findResourceID id = some p → _
        rw [hhand]
        exact h₁.ids

theorem grows_next {c : Call} (he : ¬ IsEdit c) (hc : c ≠ .clearAll) : Grows m (m.next c) := by
  cases c with
  | clearAll => exact absurd rfl hc
  | setCurPath path => exact grows_of_frame rfl rfl rfl rfl
  | setRootPath path => exact grows_of_frame rfl rfl rfl rfl
  | construct id new =>
    simp only [Model.next, Model.step]
    cases hn : m.construct id new.data with
    | error e => exact grows_of_frame rfl rfl rfl rfl
    | ok x => exact (grows_construct hn).1
  | readResource id new => exact grows_addNew id new
  | add new => exact grows_addNew m.generateResourceID new
  | addBuildItem objectID t =>
    obtain ⟨n, items, h⟩ := m.apiAddBuildItem_frame objectID t
    simp only [Model.next, Model.step, h]
    exact grows_of_frame rfl rfl rfl rfl
  | _ => exact absurd trivial he

/-- The objects after a call that grows the model: at most one more. -/
theorem Grows.objects (h : Grows m m') (hlt : ∀ r ∈ m.objectLookup, r < m.store.length) :
    ∃ extra, m'.objects = m.objects ++ extra ∧ ∀ x ∈ extra, x = m.store.length := by
  have hold : m.objectLookup.filter (fun r => (m'.data? r).any (·.isObject)) = m.objects :=
    List.filter_congr fun r hr => by rw [h.data r (hlt r hr)]
  rcases h.lookup with hl | ⟨id, hl, -⟩
  · refine ⟨[], ?_, fun x hx => absurd hx List.not_mem_nil⟩
    rw [Model.objects, hl, hold, List.append_nil]
  · refine ⟨[m.store.length].filter fun r => (m'.data? r).any (·.isObject), ?_, fun x hx => ?_⟩
    · rw [Model.objects, hl, List.filter_append, hold]
    · exact List.mem_singleton.1 (List.mem_filter.1 hx).1

/-- A start that leads nowhere changes the levels of nothing else. -/
theorem levels_append {edge : ResourceRef → ResourceRef → Prop} {starts extra : List ResourceRef}
    (hx : ∀ r ∈ extra, (∀ o, ¬ edge r o) ∧ r ≠ t) : levels edge (starts ++ extra) t = levels edge starts t := by
  ext k
  constructor
  · intro ⟨r, hr, n, hs, hk⟩
    rcases List.mem_append.1 hr with hr | hr
    · exact ⟨r, hr, n, hs, hk⟩
    · exact absurd (hs.of_leaf (hx r hr).1).2 (hx r hr).2
  · intro ⟨r, hr, n, hs, hk⟩
    exact ⟨r, List.mem_append_left _ hr, n, hs, hk⟩

theorem grounded_append {edge : ResourceRef → ResourceRef → Prop} {starts extra : List ResourceRef}
    (hx : ∀ r ∈ extra, ∀ o, ¬ edge r o) :
    Grounded edge (starts ++ extra) ↔ Grounded edge starts := by
  constructor
  · exact fun h r hr => h r (List.mem_append_left _ hr)
  · intro h r hr
    rcases List.mem_append.1 hr with hr | hr
    · exact h r hr
    · exact Acc.intro r fun o ho => absurd ho (hx r hr o)

theorem not_references_new (o : ResourceRef) : ¬ m.References m.store.length o :=
  not_references (fun info cs h => by rw [data?_of_length_le le_rfl] at h; cases h) o

theorem addsComponent_isEdit {c : Call} {o : ResourceRef} (h : m.AddsComponent c r o) :
    IsEdit c := by
  obtain ⟨objectID, t, hc, -⟩ := h
  rcases hc with ⟨rfl, -⟩ | rfl
  · trivial
  · trivial

/-- The invariant after a call that grows the model. -/
theorem Listed.grows (hs : Listed s) (h : Grows s.model m') (hr : m'.References = s.model.References) :
    Listed { s with model := m' } := by
  refine ⟨fun r hr => ?_, fun r hr => ?_, fun u hu id hid => ?_, fun a b hab => ?_, h.ids hs.ids⟩
  · have hold : r ∈ s.model.objectLookup → ∃ id, m'.uniqueID? r = some id ∧
        m'.resourceMap.find? id = some r := fun hr => by
      obtain ⟨id, hid, hf⟩ := hs.found r hr
      exact ⟨id, (h.uniqueID r (hs.lt hr)).trans hid, h.map id r hf⟩
    change r ∈ m'.objectLookup at hr
    rcases h.lookup with hl | ⟨id, hl, -, hid, hf⟩
    · exact hold (hl ▸ hr)
    · rw [hl] at hr
      rcases List.mem_append.1 hr with hr | hr
      · exact hold hr
      · rw [List.mem_singleton.1 hr]
        exact ⟨id, hid, hf⟩
  · exact lt_of_lt_of_le (hs.known r hr) h.length
  · have hmono : (s.model.resourceMap.find? id).isSome → (m'.resourceMap.find? id).isSome :=
      fun hsome => by
        obtain ⟨r, hr⟩ := Option.isSome_iff_exists.1 hsome
        rw [h.map id r hr]
        rfl
    change u ∈ m'.objectLookup at hu
    rcases h.lookup with hl | ⟨id', hl, -⟩
    · exact hmono (hs.targets u (hl ▸ hu) id hid)
    · rw [hl] at hu
      rcases List.mem_append.1 hu with hu | hu
      · exact hmono (hs.targets u hu id hid)
      · -- a new object has no references
        rw [List.mem_singleton.1 hu] at hid
        have hnone : s.attributes.find? s.model.store.length = none :=
          SortedMap.find?_eq_none.2 fun hk => lt_irrefl _ (hs.known _ hk)
        have hattr : ({ s with model := m' } : LatticeModel).getBeamLatticeAttributes
            s.model.store.length = .new := by
          unfold getBeamLatticeAttributes
          rw [hnone]
          rfl
        rw [hattr] at hid
        exact absurd hid List.not_mem_nil
  · change m'.References a b at hab
    rw [hr] at hab
    exact lt_of_lt_of_le (hs.components a b hab) h.length

/-- What grows keeps the order. -/
theorem latticeOrdered_grows (hs : Listed s) (ho : s.LatticeOrdered) (h : Grows s.model m')
    (hr : m'.References = s.model.References) : LatticeOrdered { s with model := m' } := by
  rw [(hs.grows h hr).ordered_iff]
  obtain ⟨extra, hobj, hextra⟩ := h.objects fun r hr => hs.lt hr
  have hleaf : ∀ r ∈ extra, ∀ o, ¬ s.model.References r o := fun r hr o => by
    rw [hextra r hr]
    exact not_references_new o
  intro u t huse
  obtain ⟨hu, hum, ht, htm, id, hid, hut⟩ := huse
  change u ∈ m'.objects at hu
  change t ∈ m'.objects at ht
  change m'.isMeshObject u = true at hum
  change m'.isMeshObject t = true at htm
  change m'.uniqueID? t = some id at hut
  change id ∈ (s.getBeamLatticeAttributes u).targets at hid
  rw [hobj] at hu ht
  have hu' : u ∈ s.model.objects := by
    rcases List.mem_append.1 hu with hu | hu
    · exact hu
    · rw [hextra u hu] at hid
      have hnone : s.attributes.find? s.model.store.length = none :=
        SortedMap.find?_eq_none.2 fun hk => lt_irrefl _ (hs.known _ hk)
      rw [getBeamLatticeAttributes, hnone] at hid
      exact absurd hid List.not_mem_nil
  have hult := hs.lt (mem_lookup hu')
  have ht' : t ∈ s.model.objects := by
    rcases List.mem_append.1 ht with ht | ht
    · exact ht
    · rw [hextra t ht] at hut
      have hsome := hs.targets u (mem_lookup hu') id hid
      rcases h.lookup with hl | ⟨id', hl, hfree, hnew, -⟩
      · have hmem : t ∈ m'.objectLookup := mem_lookup (hobj ▸ List.mem_append_right _ ht)
        rw [hl, hextra t ht] at hmem
        exact absurd (hs.lt hmem) (lt_irrefl _)
      · rw [hnew] at hut
        cases hut
        rw [hfree] at hsome
        cases hsome
  have htlt := hs.lt (mem_lookup ht')
  have hold : s.UsesMesh u t := by
    refine ⟨hu', ?_, ht', ?_, id, hid, ?_⟩
    · rwa [isMeshObject, h.data u hult] at hum
    · rwa [isMeshObject, h.data t htlt] at htm
    · rwa [h.uniqueID t htlt] at hut
  obtain ⟨hne, hprec⟩ := hs.ordered_iff.1 ho u t hold
  refine ⟨hne, fun hg => ?_⟩
  change Grounded m'.References m'.objects at hg
  rw [hr, hobj, grounded_append hleaf] at hg
  obtain ⟨a, b, ha, hb, hlt⟩ := hprec hg
  change m'.Precedes m'.References t u
  unfold Precedes
  rw [hr, hobj, levels_append fun r hr => ⟨hleaf r hr, (hextra r hr).trans_ne htlt.ne'⟩,
    levels_append fun r hr => ⟨hleaf r hr, (hextra r hr).trans_ne hult.ne'⟩,
    h.uniqueID t htlt, h.uniqueID u hult]
  exact ⟨a, b, ha, hb, hlt⟩

/-! ## Edits -/

/-- No call changes the class of a resource. -/
theorem edits_class {c : Call} {d d' : ResourceData} (h : Edits m c r d d') :
    d'.isObject = d.isObject ∧ d'.isMeshObject = d.isMeshObject := by
  cases h with
  | @info _ i => cases d <;> exact ⟨rfl, rfl⟩
  | @edit _ _ d' => cases d <;> cases d' <;> exact ⟨rfl, rfl⟩
  | _ => exact ⟨rfl, rfl⟩

/-- What an edit leaves. -/
structure SameObjects (m m' : Model) : Prop where
  lookup : m'.objectLookup = m.objectLookup
  map : m'.resourceMap = m.resourceMap
  handler : m'.resourceHandler = m.resourceHandler
  length : m'.store.length = m.store.length
  uniqueID : ∀ x, m'.uniqueID? x = m.uniqueID? x
  isObject : ∀ x, (m'.data? x).any (·.isObject) = (m.data? x).any (·.isObject)
  isMesh : ∀ x, m'.isMeshObject x = m.isMeshObject x

theorem sameObjects_next {c : Call} (he : IsEdit c) : SameObjects m (m.next c) := by
  rcases edit_next m he with h | ⟨r, d, d', hd, hed, h⟩
  · rw [h]
    exact ⟨rfl, rfl, rfl, rfl, fun _ => rfl, fun _ => rfl, fun _ => rfl⟩
  · rw [h]
    obtain ⟨hobj, hmesh⟩ := edits_class hed
    refine ⟨rfl, rfl, rfl, length_setData, fun _ => uniqueID?_setData,
      fun x => isObject_setData hd hobj, fun x => ?_⟩
    unfold isMeshObject
    rw [data?_setData]
    split_ifs with hr
    · rw [← hr, hd]
      exact hmesh
    · rfl

theorem SameObjects.objects (h : SameObjects m m') : m'.objects = m.objects := by
  rw [Model.objects, h.lookup]
  exact List.filter_congr fun x _ => by rw [h.isObject]

theorem findObject_lt {objectID o : Nat} (h : m.findObject objectID = .ok (some o)) :
    o < m.store.length := by
  unfold findObject at h
  split at h
  · cases h
  · split at h
    · rename_i d hd
      split_ifs at h
      cases h
      exact lt_of_data? hd
    · cases h

theorem Listed.edit (hs : Listed s) (h : SameObjects s.model m')
    (hc : ∀ a b, m'.References a b → b < s.model.store.length) :
    Listed { s with model := m' } := by
  refine ⟨fun r hr => ?_, fun r hr => ?_, fun u hu id hid => ?_, fun a b hab => ?_, ?_⟩
  · change r ∈ m'.objectLookup at hr
    obtain ⟨id, hid, hf⟩ := hs.found r (h.lookup ▸ hr)
    exact ⟨id, (h.uniqueID r).trans hid, (congrArg (·.find? id) h.map).trans hf⟩
  · exact lt_of_lt_of_eq (hs.known r hr) h.length.symm
  · change u ∈ m'.objectLookup at hu
    have hsome := hs.targets u (h.lookup ▸ hu) id hid
    change (m'.resourceMap.find? id).isSome
    rwa [h.map]
  · exact lt_of_lt_of_eq (hc a b hab) h.length.symm
  · change ∀ id p, m'.resourceHandler.findResourceID id = some p → p.uniqueID = id
    rw [h.handler]
    exact hs.ids

theorem usesMesh_edit (h : SameObjects s.model m') :
    UsesMesh { s with model := m' } u t ↔ s.UsesMesh u t := by
  constructor
  · intro ⟨hu, hum, ht, htm, id, hid, hut⟩
    exact ⟨h.objects ▸ hu, (h.isMesh u).symm.trans hum, h.objects ▸ ht, (h.isMesh t).symm.trans htm,
      id, hid, (h.uniqueID t).symm.trans hut⟩
  · intro ⟨hu, hum, ht, htm, id, hid, hut⟩
    exact ⟨h.objects.symm ▸ hu, (h.isMesh u).trans hum, h.objects.symm ▸ ht,
      (h.isMesh t).trans htm, id, hid, (h.uniqueID t).trans hut⟩

theorem precedes_edit (h : SameObjects m m') (edge : ResourceRef → ResourceRef → Prop) :
    m'.Precedes edge t u ↔ m.Precedes edge t u := by
  unfold Precedes
  rw [h.objects, h.uniqueID, h.uniqueID]

/-- **An edit** keeps the order exactly when the component it adds, if any, does. -/
theorem edit_iff (hs : Listed s) (ho : s.LatticeOrdered) {c : Call} (he : IsEdit c) :
    Listed (s.next (.model c)) ∧
      ((s.next (.model c)).LatticeOrdered ↔ s.Allowed (.model c)) := by
  have h := sameObjects_next (m := s.model) he
  have hnext : s.next (.model c) = { s with model := s.model.next c } := rfl
  rw [hnext]
  have hold := hs.ordered_iff.1 ho
  rcases references_next s.model c with ⟨hr, hno⟩ | ⟨r, o, ha, huniq, hr⟩
  · have hl := hs.edit h fun a b hab => hs.components a b (hr ▸ hab)
    refine ⟨hl, iff_of_true (hl.ordered_iff.2 fun u t huse => ?_)
      fun r o ha => absurd ha (hno r o)⟩
    obtain ⟨hne, hp⟩ := hold u t ((usesMesh_edit h).1 huse)
    refine ⟨hne, fun hg => (precedes_edit h _).2 ?_⟩
    change Grounded (s.model.next c).References (s.model.next c).objects at hg
    change s.model.Precedes (s.model.next c).References t u
    rw [hr] at hg ⊢
    exact hp (h.objects ▸ hg)
  · have hfo : o < s.model.store.length := by
      obtain ⟨objectID, tr, -, -, hfo, -⟩ := ha
      exact findObject_lt hfo
    have hl := hs.edit h fun a b hab => by
      rw [hr] at hab
      rcases hab with hab | ⟨-, rfl⟩
      · exact hs.components a b hab
      · exact hfo
    refine ⟨hl, hl.ordered_iff.trans ?_⟩
    constructor
    · intro hall r' o' ha' u t huse hg
      obtain ⟨rfl, rfl⟩ := huniq r' o' ha'
      obtain ⟨-, hp⟩ := hall u t ((usesMesh_edit h).2 huse)
      have hp := (precedes_edit h _).1 (hp ?_)
      · rwa [hr] at hp
      · change Grounded (s.model.next c).References (s.model.next c).objects
        rw [hr, h.objects]
        exact hg
    · intro hall u t huse
      have huse := (usesMesh_edit h).1 huse
      refine ⟨(hold u t huse).1, fun hg => (precedes_edit h _).2 ?_⟩
      change Grounded (s.model.next c).References (s.model.next c).objects at hg
      change s.model.Precedes (s.model.next c).References t u
      rw [hr, h.objects] at hg
      rw [hr]
      exact hall r o ha u t huse hg

/-! ## Sessions -/

/-- **One call** keeps the order exactly when it is allowed. -/
theorem next_iff (hs : Listed s) (ho : s.LatticeOrdered) (c : LatticeCall) :
    Listed (s.next c) ∧ ((s.next c).LatticeOrdered ↔ s.Allowed c) := by
  cases c with
  | model c =>
    by_cases he : IsEdit c
    · exact edit_iff hs ho he
    · have hno : s.Allowed (.model c) := fun r o ha => absurd (addsComponent_isEdit ha) he
      have hr : (s.model.next c).References = s.model.References := by
        rcases references_next s.model c with ⟨hr, -⟩ | ⟨r, o, ha, -⟩
        · exact hr
        · exact absurd (addsComponent_isEdit ha) he
      by_cases hc : c = .clearAll
      · subst hc
        have hnil : (s.next (.model .clearAll)).model.objects = [] := rfl
        refine ⟨⟨nofun, hs.known, nofun, fun a b hab => ?_, hs.ids⟩,
          iff_of_true (fun u t huse => ?_) hno⟩
        · exact hs.components a b (hr ▸ hab)
        · exact absurd huse.user (by rw [hnil]; exact List.not_mem_nil)
      · have hg := grows_next (m := s.model) he hc
        exact ⟨hs.grows hg hr, iff_of_true (latticeOrdered_grows hs ho hg hr) hno⟩
  | setClipping r clipMode id =>
    have h := setClipping_sets s r clipMode id
    exact ⟨hs.setsTargets h, setsTargets_iff hs ho h⟩
  | setRepresentation r id =>
    have h := setRepresentation_sets s r id
    exact ⟨hs.setsTargets h, setsTargets_iff hs ho h⟩
  | readBeamLattice r clipMode c o =>
    have h := readBeamLattice_sets s r clipMode c o
    exact ⟨hs.setsTargets h, setsTargets_iff hs ho h⟩

/-- Merging leaves no components, and IDs in order. -/
theorem mergeMeshToModel_leaves {source : Model} {mesh : Mesh} {out : MergeResult}
    (h : source.mergeMeshToModel mesh = .ok out) :
    Sequential out.target ∧ ∀ r, out.target.components r = [] := by
  simp only [mergeMeshToModel, bind_eq_ok, pure_eq_ok] at h
  obtain ⟨⟨m, oldToNew⟩, hres, mesh', -, ⟨m₁, r⟩, hc, m₂, ha, ⟨src, handle⟩, -, m₃, hb, rfl⟩ := h
  have hm := mergeResources_spec hres
  obtain ⟨hh, p, hn, rfl, rfl⟩ := construct_spec hc
  have hadds := hm.sequential.adds hn ha
  have hcomp : ∀ r, m₂.components r = [] := by
    intro r
    unfold Model.components
    rw [hadds.data?]
    split_ifs with hr
    · rfl
    · cases hd : m.data? r with
      | none => rfl
      | some d =>
        have hlt := lt_of_data? hd
        rw [hm.length] at hlt
        obtain ⟨e, e', -, he', hcopy⟩ := hm.copies r _ (List.getElem?_eq_getElem hlt)
        rw [hd] at he'
        cases he'
        cases hcopy <;> rfl
  unfold addBuildItem at hb
  split_ifs at hb
  cases hb
  have hseq := hadds.sequential
  exact ⟨⟨hseq.path, hseq.size, hseq.length_le, hseq.ids, hseq.registered, hseq.mapped, hseq.found,
    hseq.stored⟩, hcomp⟩

/-- A session starts with a new model or a merged one, and no references. -/
def start (m : Model) : LatticeModel := ⟨m, .empty⟩

theorem listed_start (h : Starts m) : Listed (start m) := by
  have hm := (containers_starts h).1
  have hleaf : (∀ r, m.components r = []) ∧
      ∀ id p, m.resourceHandler.findResourceID id = some p → p.uniqueID = id := by
    cases h with
    | new => exact ⟨fun _ => rfl, nofun⟩
    | merged h =>
      obtain ⟨mesh, -, h⟩ := run_bind_eq_ok.1 h
      change some (Model.mergeMeshToModel _ mesh) = _ at h
      rw [Option.some.injEq] at h
      obtain ⟨hseq, hcomp⟩ := mergeMeshToModel_leaves h
      exact ⟨hcomp, fun id p hp => (hseq.ids id p hp).1⟩
  refine ⟨fun r hr => ?_, nofun, fun u _ id hid => absurd hid List.not_mem_nil,
    fun a b ⟨c, hc, _⟩ => ?_, hleaf.2⟩
  · have hr : r ∈ m.table .object := hr
    rw [hm.tables] at hr
    have hr := (List.mem_filter.1 hr).1
    obtain ⟨id, hid⟩ := uniqueID?_isSome (hm.known r hr)
    exact ⟨id, hid, (hm.map id r).2 ⟨hr, hid⟩⟩
  · change c ∈ m.components a at hc
    rw [hleaf.1] at hc
    cases hc

theorem latticeOrdered_start : LatticeOrdered (start m) :=
  fun _ _ huse => by
    obtain ⟨id, hid, -⟩ := huse.refers
    exact absurd hid List.not_mem_nil

/-- **References of beam lattices are in order** in every state of a session exactly when no call
lets a mesh object refer to itself or to one written after it, and no component nests an object
deeper than a mesh it refers to. -/
theorem latticeOrdered_iff (h : Starts m) (calls : List LatticeCall) :
    (∀ s, Reaches next (start m) calls s → s.LatticeOrdered) ↔
      Guarded next Allowed (start m) calls := by
  rw [← guarded_iff (fun s => Listed s ∧ s.LatticeOrdered) ⟨listed_start h, latticeOrdered_start⟩
    fun s c hs => ⟨fun hn => (next_iff hs.1 hs.2 c).2.1 hn.2,
      fun ha => ⟨(next_iff hs.1 hs.2 c).1, (next_iff hs.1 hs.2 c).2.2 ha⟩⟩]
  constructor
  · intro hall s hr
    refine ⟨?_, hall s hr⟩
    exact hr.inv_of Listed LatticeOrdered hall (listed_start h) fun s c hs ho => (next_iff hs ho c).1
  · exact fun hall s hr => (hall s hr).2

/-- A session that clips a mesh object by one before it. -/
theorem latticeOrdered_iff_new :
    Starts new ∧ ((∀ s, Reaches next (start new) [.model (.add (.meshObject .empty)),
        .model (.add (.meshObject .empty)), .setClipping 1 .inside 1] s → s.LatticeOrdered) ↔
      Guarded next Allowed (start new) [.model (.add (.meshObject .empty)),
        .model (.add (.meshObject .empty)), .setClipping 1 .inside 1]) :=
  ⟨.new, latticeOrdered_iff .new _⟩

/-- A mesh object may be set as its own clipping mesh. -/
theorem clips_itself : ¬ ∀ s, Reaches next (start new)
    [.model (.add (.meshObject .empty)), .setClipping 0 .inside 1] s → s.LatticeOrdered := by
  intro h
  have hend := h _ (reaches_run _ _)
  have huse : (run next (start new)
      [.model (.add (.meshObject .empty)), .setClipping 0 .inside 1]).UsesMesh 0 0 :=
    ⟨by decide, by decide, by decide, by decide, 1, by decide, by decide⟩
  exact (hend 0 0 huse).1 rfl

end LatticeModel

end NMR
