import Lib3MF.Model.Proof.Merge

/-!
# The containers of resources

A model keeps its resources in a map, in a list and in a lookup table for each class. `Mirrors`
says that they agree; every call but `clearAll` keeps that, and keeps the registry of IDs in step
with the resources constructed. `clearAll` forgets the table of texture groups and the registry,
so it does what it should only where no resource was constructed before (`containers_iff`).
-/

namespace NMR

open Lib

/-- The lookup tables of a model. -/
inductive LookupTable where
  | object | baseMaterial | colorGroup | texture | texture2DGroup | compositeMaterials
  | multiPropertyGroup | sliceStack
  deriving DecidableEq

/-- The table of a class of resources; a toolpath is in none. -/
def ResourceData.table? : ResourceData → Option LookupTable
  | .meshObject .. | .componentsObject .. => some .object
  | .baseMaterials _ => some .baseMaterial
  | .colorGroup _ => some .colorGroup
  | .texture2D _ => some .texture
  | .texture2DGroup .. => some .texture2DGroup
  | .compositeMaterials .. => some .compositeMaterials
  | .multiPropertyGroup .. => some .multiPropertyGroup
  | .sliceStack _ => some .sliceStack
  | .toolpath _ => none

namespace Model

variable {m m' : Model} {r : ResourceRef} {c : Call} {d d' : ResourceData}

/-- A lookup table. -/
def table (m : Model) : LookupTable → List ResourceRef
  | .object => m.objectLookup
  | .baseMaterial => m.baseMaterialLookup
  | .colorGroup => m.colorGroupLookup
  | .texture => m.textureLookup
  | .texture2DGroup => m.texture2DGroupLookup
  | .compositeMaterials => m.compositeMaterialsLookup
  | .multiPropertyGroup => m.multiPropertyGroupLookup
  | .sliceStack => m.sliceStackLookup

/-- The table a resource belongs in. -/
def tableOf? (m : Model) (r : ResourceRef) : Option LookupTable :=
  (m.data? r).bind (·.table?)

/-- The map and the list hold the same resources, under distinct unique IDs, and every table is
the part of the list that belongs in it. -/
structure Mirrors (m : Model) : Prop where
  map : ∀ id r, m.resourceMap.find? id = some r ↔ r ∈ m.resources ∧ m.uniqueID? r = some id
  known : ∀ r ∈ m.resources, r < m.store.length
  nodup : (m.resources.map m.uniqueID?).Nodup
  tables : ∀ t, m.table t = m.resources.filter fun r => m.tableOf? r = some t

/-- Every ID of a resource constructed is registered, and no other before the first. -/
structure Registers (m : Model) : Prop where
  registered : ∀ res ∈ m.store, m.resourceHandler.Registered res.resourceID.path res.resourceID.id
  empty : m.store = [] → m.resourceHandler = .empty

/-- After `clearAll` every ID is accepted, under every path, as in a new model. -/
def Answers (m : Model) : Call → Prop
  | .clearAll => ∀ path id new, (((m.next .clearAll).setCurPath path).addNew id new).2 = none
  | _ => True

/-- `clearAll` is called only while no resource was constructed. -/
def Allowed (m : Model) : Call → Prop
  | .clearAll => m.store = []
  | _ => True

/-! ## Calls that leave the containers -/

theorem uniqueID?_isSome (h : r < m.store.length) : ∃ id, m.uniqueID? r = some id := by
  rw [uniqueID?, List.getElem?_eq_getElem h]
  exact ⟨_, rfl⟩

/-- The containers are the same, and so are the IDs and the classes of their resources. -/
theorem Mirrors.congr (hm : Mirrors m) (hr : m'.resources = m.resources)
    (hmap : m'.resourceMap = m.resourceMap) (ht : ∀ t, m'.table t = m.table t)
    (hlen : m.store.length ≤ m'.store.length)
    (hid : ∀ r < m.store.length, m'.uniqueID? r = m.uniqueID? r)
    (hd : ∀ r < m.store.length, m'.tableOf? r = m.tableOf? r) : Mirrors m' := by
  refine ⟨fun id r => ?_, fun r h => ?_, ?_, fun t => ?_⟩
  · rw [hmap, hr, hm.map]
    exact and_congr_right fun h => by rw [hid r (hm.known r h)]
  · rw [hr] at h
    exact lt_of_lt_of_le (hm.known r h) hlen
  · have he : m.resources.map m'.uniqueID? = m.resources.map m.uniqueID? :=
      List.map_congr_left fun r h => hid r (hm.known r h)
    rw [hr, he]
    exact hm.nodup
  · rw [ht, hr, hm.tables t]
    exact List.filter_congr fun r h => by rw [hd r (hm.known r h)]

theorem table?_setInfo {i : ObjectInfo} : (d.setInfo i).table? = d.table? := by
  cases d <;> rfl

theorem table?_editTo : (d.editTo d').table? = d.table? := by
  cases d <;> cases d' <;> rfl

/-- No call changes the class of a resource. -/
theorem Edits.table? (h : Edits m c r d d') : d'.table? = d.table? := by
  cases h with
  | info => exact table?_setInfo
  | edit => exact table?_editTo
  | _ => rfl

theorem tableOf?_setData (hd : m.data? r = some d) (h : d'.table? = d.table?) (r' : ResourceRef) :
    (m.setData r d').tableOf? r' = m.tableOf? r' := by
  rw [tableOf?, tableOf?, data?_setData]
  split_ifs with he
  · rw [← he, hd]
    exact h
  · rfl

theorem mirrors_setData (hm : Mirrors m) (hd : m.data? r = some d) (h : d'.table? = d.table?) :
    Mirrors (m.setData r d') := by
  refine hm.congr rfl rfl (fun t => ?_) (le_of_eq length_setData.symm)
    (fun _ _ => uniqueID?_setData) fun r' _ => tableOf?_setData hd h r'
  cases t <;> rfl

theorem registers_setData (hm : Registers m) : Registers (m.setData r d') := by
  refine ⟨fun res hres => ?_, fun he => hm.empty ?_⟩
  · obtain ⟨i, hi⟩ := List.mem_iff_getElem?.1 hres
    simp only [setData, List.getElem?_modify] at hi
    obtain ⟨x, hx, hxr⟩ := Option.map_eq_some_iff.1 hi
    have := hm.registered x (List.mem_of_getElem? hx)
    split_ifs at hxr
    · subst hxr
      exact this
    · exact hxr ▸ this
  · have hl := length_setData (m := m) (r := r) (d := d')
    rw [he, List.length_nil] at hl
    exact List.eq_nil_of_length_eq_zero hl.symm

/-! ## Constructing and adding -/

theorem mirrors_construct (hm : Mirrors m) {id : Nat} {data : ResourceData}
    (h : m.construct id data = .ok (m', r)) : Mirrors m' := by
  obtain ⟨hd, p, -, -, rfl⟩ := construct_spec h
  refine hm.congr rfl rfl (fun t => by cases t <;> rfl) (by simp) (fun r hr => ?_) fun r hr => ?_
  · simp only [uniqueID?, List.getElem?_append_left hr]
  · simp only [tableOf?, data?, List.getElem?_append_left hr]

theorem registers_construct (hm : Registers m) {id : Nat} {data : ResourceData}
    (h : m.construct id data = .ok (m', r)) : Registers m' := by
  obtain ⟨hd, p, hn, -, rfl⟩ := construct_spec h
  obtain ⟨-, hp, -⟩ := ResourceHandler.getNewResourceID_spec hn
  refine ⟨fun res hres => ?_, fun he => ?_⟩
  · rw [ResourceHandler.registered_getNewResourceID hn]
    rcases List.mem_append.1 hres with hres | hres
    · exact .inr (hm.registered res hres)
    · rw [List.mem_singleton.1 hres, hp]
      exact .inl ⟨rfl, rfl⟩
  · exact absurd he (by simp)

theorem table_addResourceToLookupTable (t : LookupTable) :
    (m.addResourceToLookupTable r d).table t =
      if d.table? = some t then m.table t ++ [r] else m.table t := by
  cases d <;> cases t <;> rfl

theorem mirrors_addResource (hm : Mirrors m) (h : m.addResource r = .ok m') : Mirrors m' := by
  obtain ⟨res, hres, hfree, rfl⟩ := addResource_spec h
  set m₁ : Model := { m with
      resourceMap := m.resourceMap.insert res.resourceID.uniqueID r
      resources := m.resources ++ [r] }
  obtain ⟨hstore, -, hmap, -, hlist⟩ := addResourceToLookupTable_frame m₁ r res.data
  have hid : ∀ x, (m₁.addResourceToLookupTable r res.data).uniqueID? x = m.uniqueID? x := by
    intro x
    rw [uniqueID?, hstore]
    rfl
  have htab : ∀ x, (m₁.addResourceToLookupTable r res.data).tableOf? x = m.tableOf? x := by
    intro x
    rw [tableOf?, data?_congr hstore]
    rfl
  have hidr : m.uniqueID? r = some res.resourceID.uniqueID := by rw [uniqueID?, hres]; rfl
  have hfree' : m.resourceMap.find? res.resourceID.uniqueID = none := SortedMap.find?_eq_none.2 hfree
  refine ⟨fun id x => ?_, fun x hx => ?_, ?_, fun t => ?_⟩
  · rw [hmap, hlist, hid]
    change (m.resourceMap.insert _ _).find? id = some x ↔ x ∈ m.resources ++ [r] ∧ _
    rw [SortedMap.find?_insert, List.mem_append, List.mem_singleton]
    split_ifs with he
    · rw [he, hfree', Option.getD_none, Option.some.injEq]
      constructor
      · intro hx
        subst hx
        exact ⟨.inr rfl, hidr⟩
      · rintro ⟨hx, hu⟩
        rcases hx with hx | hx
        · rw [(hm.map _ _).2 ⟨hx, hu⟩] at hfree'
          cases hfree'
        · exact hx.symm
    · rw [hm.map]
      constructor
      · rintro ⟨hx, hu⟩
        exact ⟨.inl hx, hu⟩
      · rintro ⟨hx, hu⟩
        rcases hx with hx | hx
        · exact ⟨hx, hu⟩
        · rw [hx, hidr, Option.some.injEq] at hu
          exact absurd hu.symm he
  · rw [hlist] at hx
    rw [hstore]
    rcases List.mem_append.1 hx with hx | hx
    · exact hm.known x hx
    · rw [List.mem_singleton.1 hx]
      exact (List.getElem?_eq_some_iff.1 hres).1
  · rw [hlist]
    change ((m.resources ++ [r]).map _).Nodup
    rw [List.map_congr_left fun x _ => hid x, List.map_append, List.nodup_append]
    refine ⟨hm.nodup, List.nodup_singleton _, fun u hu v hv => ?_⟩
    obtain ⟨x, hx, hxu⟩ := List.mem_map.1 hu
    rw [List.map_singleton, List.mem_singleton, hidr] at hv
    intro he
    rw [he, hv] at hxu
    rw [(hm.map _ _).2 ⟨hx, hxu⟩] at hfree'
    cases hfree'
  · rw [table_addResourceToLookupTable, hlist]
    change _ = (m.resources ++ [r]).filter _
    have htr : m.tableOf? r = res.data.table? := by
      rw [tableOf?, data?, hres]
      rfl
    rw [List.filter_congr fun x _ => by rw [htab x], List.filter_append, ← hm.tables t]
    have hsame : m₁.table t = m.table t := by cases t <;> rfl
    rw [hsame, List.filter_singleton, htr]
    split_ifs with ht
    · simp [ht]
    · simp [ht]

theorem registers_addResource (hm : Registers m) (h : m.addResource r = .ok m') : Registers m' := by
  obtain ⟨res, -, -, rfl⟩ := addResource_spec h
  obtain ⟨hstore, hhand, -⟩ := addResourceToLookupTable_frame { m with
      resourceMap := m.resourceMap.insert res.resourceID.uniqueID r
      resources := m.resources ++ [r] } r res.data
  refine ⟨fun x hx => ?_, fun he => ?_⟩
  · rw [hstore] at hx
    rw [hhand]
    exact hm.registered x hx
  · rw [hstore] at he
    rw [hhand]
    exact hm.empty he

theorem containers_addNew (hm : Mirrors m ∧ Registers m) (id : Nat) (new : NewResource) :
    Mirrors (m.addNew id new).1 ∧ Registers (m.addNew id new).1 := by
  unfold addNew
  cases hc : m.construct id new.data with
  | error e => exact hm
  | ok x =>
    obtain ⟨m₁, r⟩ := x
    have h₁ := mirrors_construct hm.1 hc
    have h₂ := registers_construct hm.2 hc
    change Mirrors (orThrow m₁ (m₁.addResource r)).1 ∧ Registers (orThrow m₁ (m₁.addResource r)).1
    cases ha : m₁.addResource r with
    | error e => exact ⟨h₁, h₂⟩
    | ok m₂ => exact ⟨mirrors_addResource h₁ ha, registers_addResource h₂ ha⟩

/-! ## Every call -/

theorem containers_of_frame (hm : Mirrors m ∧ Registers m) (hstore : m'.store = m.store)
    (hhand : m'.resourceHandler = m.resourceHandler) (hmap : m'.resourceMap = m.resourceMap)
    (hlist : m'.resources = m.resources) (ht : ∀ t, m'.table t = m.table t) :
    Mirrors m' ∧ Registers m' := by
  refine ⟨hm.1.congr hlist hmap ht (le_of_eq (by rw [hstore])) (fun r _ => ?_) fun r _ => ?_,
    fun x hx => ?_, fun he => ?_⟩
  · rw [uniqueID?, hstore, uniqueID?]
  · rw [tableOf?, data?_congr hstore, tableOf?]
  · rw [hstore] at hx
    rw [hhand]
    exact hm.2.registered x hx
  · rw [hstore] at he
    rw [hhand]
    exact hm.2.empty he

/-- A call other than `clearAll` keeps the containers. -/
theorem containers_next (hm : Mirrors m ∧ Registers m) (hc : c ≠ .clearAll) :
    Mirrors (m.next c) ∧ Registers (m.next c) := by
  by_cases he : IsEdit c
  · rcases edit_next m he with h | ⟨r, d, d', hd, hed, h⟩
    · rw [h]
      exact hm
    · rw [h]
      exact ⟨mirrors_setData hm.1 hd hed.table?, registers_setData hm.2⟩
  cases c with
  | clearAll => exact absurd rfl hc
  | setCurPath path => exact containers_of_frame hm rfl rfl rfl rfl fun t => by cases t <;> rfl
  | setRootPath path => exact containers_of_frame hm rfl rfl rfl rfl fun t => by cases t <;> rfl
  | construct id new =>
    simp only [next, step]
    cases hn : m.construct id new.data with
    | error e => exact hm
    | ok x => exact ⟨mirrors_construct hm.1 hn, registers_construct hm.2 hn⟩
  | readResource id new => exact containers_addNew hm id new
  | add new => exact containers_addNew hm m.generateResourceID new
  | addBuildItem objectID t =>
    obtain ⟨n, items, h⟩ := m.apiAddBuildItem_frame objectID t
    simp only [next, step, h]
    exact containers_of_frame hm rfl rfl rfl rfl fun t => by cases t <;> rfl
  | _ => exact absurd trivial he

/-- A model without resources accepts every ID. -/
theorem addNew_of_empty (hh : m.resourceHandler = .empty) (hmap : m.resourceMap = .empty)
    (id : Nat) (new : NewResource) : (m.addNew id new).2 = none := by
  have hnot : ¬ m.resourceHandler.Registered m.curPath id := by
    rw [hh]
    exact ResourceHandler.not_registered_empty
  obtain ⟨⟨hd, p⟩, hn⟩ := ResourceHandler.getNewResourceID_isOk.2 hnot
  have hc : m.construct id new.data = .ok ({ m with
      resourceHandler := hd, store := m.store ++ [⟨p, new.data⟩] }, m.store.length) := by
    rw [construct, hn]
    rfl
  simp [addNew, hc, addResource, hmap, orThrow]

theorem clearAll_iff (hm : Mirrors m ∧ Registers m) :
    (Mirrors m.clearAll ∧ Registers m.clearAll) ∧ Answers m .clearAll ↔ m.store = [] := by
  constructor
  · intro ⟨_, h⟩
    by_contra hne
    obtain ⟨res, hres⟩ := List.exists_mem_of_ne_nil _ hne
    have hreg := hm.2.registered res hres
    -- the ID of a resource constructed before is not accepted
    have hnone := h res.resourceID.path res.resourceID.id .baseMaterials
    have herr : (m.clearAll.setCurPath res.resourceID.path).construct res.resourceID.id
        (NewResource.baseMaterials).data = .error .duplicateResourceID := by
      have hn : m.resourceHandler.getNewResourceID res.resourceID.path res.resourceID.id =
          .error .duplicateResourceID := by
        unfold ResourceHandler.getNewResourceID
        exact if_pos hreg
      unfold construct
      change (m.resourceHandler.getNewResourceID res.resourceID.path res.resourceID.id >>= _) = _
      rw [hn]
      rfl
    change ((m.clearAll.setCurPath res.resourceID.path).addNew res.resourceID.id _).2 = none at hnone
    rw [addNew, herr] at hnone
    cases hnone
  · intro he
    have hlist : m.resources = [] := List.eq_nil_iff_forall_not_mem.2 fun r hr => by
      have hlt := hm.1.known r hr
      rw [he] at hlt
      exact absurd hlt (Nat.not_lt_zero r)
    have htable : m.table .texture2DGroup = [] := by rw [hm.1.tables, hlist]; rfl
    have hhand := hm.2.empty he
    refine ⟨⟨⟨fun id r => ?_, nofun, List.nodup_nil, fun t => ?_⟩, ⟨fun res hres => ?_, fun _ => hhand⟩⟩,
      fun path id new => addNew_of_empty (m := m.clearAll.setCurPath path) hhand rfl id new⟩
    · simp [clearAll]
    · cases t with
      | texture2DGroup => exact htable
      | _ => rfl
    · change res ∈ m.store at hres
      rw [he] at hres
      cases hres

/-- **One call** keeps the containers, and `clearAll` makes the model accept what a new one does,
exactly when it is not a `clearAll` after the first resource. -/
theorem containers_next_iff (m : Model) (c : Call) (hm : Mirrors m ∧ Registers m) :
    (Mirrors (m.next c) ∧ Registers (m.next c)) ∧ Answers m c ↔ Allowed m c := by
  by_cases hc : c = .clearAll
  · subst hc
    exact clearAll_iff hm
  · have hn := containers_next hm hc
    cases c with
    | clearAll => exact absurd rfl hc
    | _ => exact ⟨fun _ => trivial, fun _ => ⟨hn, trivial⟩⟩

theorem containers_new : Mirrors new ∧ Registers new := by
  refine ⟨⟨fun id r => ?_, nofun, List.nodup_nil, fun t => ?_⟩, nofun, fun _ => rfl⟩
  · simp [new]
  · cases t <;> rfl

/-! ## Merging -/

section Merging

variable {s s' : Model × UniqueResourceIDMapping} {old : Resource} {source : Model}

/-- A resource that is not in the list yet may become anything. -/
theorem mirrors_setData_new (hm : Mirrors m) (hr : r ∉ m.resources) :
    Mirrors (m.setData r d') := by
  refine ⟨fun id r' => ?_, fun r' h => ?_, ?_, fun t => ?_⟩
  · rw [uniqueID?_setData]
    exact hm.map id r'
  · rw [length_setData]
    exact hm.known r' h
  · have he : m.resources.map (m.setData r d').uniqueID? = m.resources.map m.uniqueID? :=
      List.map_congr_left fun r' _ => uniqueID?_setData
    change (m.resources.map _).Nodup
    rw [he]
    exact hm.nodup
  · have ht : (m.setData r d').table t = m.table t := by cases t <;> rfl
    rw [ht, hm.tables t]
    refine List.filter_congr fun r' h => ?_
    have hne : r ≠ r' := fun he => hr (he ▸ h)
    rw [tableOf?, tableOf?, data?_setData, if_neg hne]

/-- A copied resource is constructed, filled and added. -/
theorem containers_mergeResource {p : PackageResourceID} {new : ResourceData}
    {mergeFrom : Model → Except Error ResourceData} (hm : Mirrors s.1 ∧ Registers s.1)
    (h : mergeResource p new mergeFrom s = .ok s') : Mirrors s'.1 ∧ Registers s'.1 := by
  simp only [mergeResource, bind_eq_ok, pure_eq_ok] at h
  obtain ⟨⟨m₁, r⟩, hc, d, -, m₂, ha, rfl⟩ := h
  have hnew : r ∉ m₁.resources := by
    obtain ⟨hd, p, -, rfl, rfl⟩ := construct_spec hc
    exact fun h => lt_irrefl _ (hm.1.known _ h)
  exact ⟨mirrors_addResource (mirrors_setData_new (mirrors_construct hm.1 hc) hnew) ha,
    registers_addResource (registers_setData (registers_construct hm.2 hc)) ha⟩

/-- The copy of a resource of any of the six kinds is made by `mergeResource`. -/
def ByMergeResource (merge : Model × UniqueResourceIDMapping → Resource →
    Except Error (Model × UniqueResourceIDMapping)) : Prop :=
  ∀ s old s', merge s old = .ok s' →
    ∃ p new mergeFrom, mergeResource p new mergeFrom s = .ok s'

theorem mergeTexture2D_by : ByMergeResource mergeTexture2D := by
  intro s old s' h
  unfold mergeTexture2D at h
  split at h
  · simp only [bind_eq_ok] at h
    obtain ⟨a, -, t, -, h⟩ := h
    exact ⟨_, _, _, h⟩
  · cases h

theorem mergeBaseMaterial_by : ByMergeResource mergeBaseMaterial := by
  intro s old s' h
  unfold mergeBaseMaterial at h
  split at h
  · exact ⟨_, _, _, h⟩
  · cases h

theorem mergeColorGroup_by : ByMergeResource mergeColorGroup := by
  intro s old s' h
  unfold mergeColorGroup at h
  split at h
  · exact ⟨_, _, _, h⟩
  · cases h

theorem mergeTexture2DGroup_by : ByMergeResource (mergeTexture2DGroup source) := by
  intro s old s' h
  unfold mergeTexture2DGroup at h
  split at h
  · simp only [bind_eq_ok] at h
    obtain ⟨id, -, x, -, h⟩ := h
    split at h
    · cases h
    · exact ⟨_, _, _, h⟩
  · cases h

theorem mergeCompositeMaterial_by : ByMergeResource (mergeCompositeMaterial source) := by
  intro s old s' h
  unfold mergeCompositeMaterial at h
  split at h
  · simp only [bind_eq_ok] at h
    obtain ⟨id, -, x, -, h⟩ := h
    split at h
    · cases h
    · exact ⟨_, _, _, h⟩
  · cases h

theorem mergeMultiPropertyGroup_by : ByMergeResource mergeMultiPropertyGroup := by
  intro s old s' h
  unfold mergeMultiPropertyGroup at h
  split at h
  · exact ⟨_, _, _, h⟩
  · cases h

theorem containers_mergeLookup {merge} {l : List ResourceRef} (hb : ByMergeResource merge)
    (hm : Mirrors s.1 ∧ Registers s.1) (h : mergeLookup source merge l s = .ok s') :
    Mirrors s'.1 ∧ Registers s'.1 := by
  refine @foldlM_ok _ _ _ (fun _ s => Mirrors s.1 ∧ Registers s.1) _ _ [] _ _
    (fun _ s r s₁ _ hi hs => ?_) hm h
  cases hr : source.store[r]? with
  | none => rw [hr] at hs; cases hs
  | some old =>
    rw [hr] at hs
    obtain ⟨p, new, mergeFrom, h⟩ := hb s old s₁ hs
    exact containers_mergeResource hi h

theorem containers_mergeModelAttachments (hm : Mirrors m ∧ Registers m)
    (h : m.mergeModelAttachments source = .ok m') : Mirrors m' ∧ Registers m' := by
  refine @foldlM_ok _ _ _ (fun _ m => Mirrors m ∧ Registers m) _ _ [] _ _
    (fun _ m a m₁ _ hi ha => ?_) hm h
  unfold addAttachment at ha
  dsimp only at ha
  split_ifs at ha
  cases ha
  exact containers_of_frame hi rfl rfl rfl rfl fun t => by cases t <;> rfl

/-- **Merging** leaves a model whose containers agree. -/
theorem containers_mergeToModel {uninit : FaceProperties} {fuel : Nat} {out : MergeResult}
    (h : (source.mergeToModel uninit fuel).run = some (.ok out)) :
    Mirrors out.target ∧ Registers out.target := by
  obtain ⟨mesh, -, h⟩ := run_bind_eq_ok.1 h
  change some (source.mergeMeshToModel mesh) = _ at h
  simp only [Option.some.injEq, mergeMeshToModel, mergeResources, bind_eq_ok, pure_eq_ok] at h
  obtain ⟨⟨m, oldToNew⟩, ⟨m₀, h₀, s₁, h₁, s₂, h₂, s₃, h₃, s₄, h₄, s₅, h₅, h₆⟩, mesh', -,
    ⟨m₁, r⟩, hc, m₂, ha, ⟨src, handle⟩, -, m₃, hb, rfl⟩ := h
  have hm₀ := containers_mergeModelAttachments containers_new h₀
  have hm₁ := containers_mergeLookup mergeTexture2D_by hm₀ h₁
  have hm₂ := containers_mergeLookup mergeBaseMaterial_by hm₁ h₂
  have hm₃ := containers_mergeLookup mergeColorGroup_by hm₂ h₃
  have hm₄ := containers_mergeLookup mergeTexture2DGroup_by hm₃ h₄
  have hm₅ := containers_mergeLookup mergeCompositeMaterial_by hm₄ h₅
  have hm₆ := containers_mergeLookup mergeMultiPropertyGroup_by hm₅ h₆
  have hm₇ : Mirrors m₂ ∧ Registers m₂ :=
    ⟨mirrors_addResource (mirrors_construct hm₆.1 hc) ha,
      registers_addResource (registers_construct hm₆.2 hc) ha⟩
  unfold addBuildItem at hb
  split_ifs at hb
  cases hb
  exact containers_of_frame hm₇ rfl rfl rfl rfl fun t => by cases t <;> rfl

end Merging

/-- A new model, or what merging a model leaves. -/
inductive Starts : Model → Prop where
  | new : Starts new
  | merged {source : Model} {uninit : FaceProperties} {fuel : Nat} {out : MergeResult}
      (h : (source.mergeToModel uninit fuel).run = some (.ok out)) : Starts out.target

theorem containers_starts (h : Starts m) : Mirrors m ∧ Registers m := by
  cases h with
  | new => exact containers_new
  | merged h => exact containers_mergeToModel h

/-- **The containers agree** in every state of a session, on a new model or on a merged one, and
every `clearAll` makes the model accept the IDs that a new one accepts, exactly when `clearAll` is
called only before the first resource. -/
theorem containers_iff {m₀ : Model} (h : Starts m₀) (calls : List Call) :
    (∀ m, Reaches next m₀ calls m → Mirrors m ∧ Registers m) ∧ Guarded next Answers m₀ calls ↔
      Guarded next Allowed m₀ calls :=
  guarded_and_iff (fun m => Mirrors m ∧ Registers m) (containers_starts h) containers_next_iff

/-- A model read twice into. -/
theorem containers_iff_new :
    Starts new ∧ ((∀ m, Reaches next new [.clearAll, .readResource 1 .colorGroup] m →
        Mirrors m ∧ Registers m) ∧
        Guarded next Answers new [.clearAll, .readResource 1 .colorGroup] ↔
      Guarded next Allowed new [.clearAll, .readResource 1 .colorGroup]) :=
  ⟨.new, containers_iff .new _⟩

/-- A texture and a group of it are read, and the model is cleared. -/
def readThenCleared : List Call :=
  [.readResource 1 (.texture2D (.new ⟨"/3D/Textures/a.png", "", []⟩)),
    .readResource 2 (.texture2DGroup 0), .clearAll]

/-- The group stays in its table. -/
theorem clearAll_keeps_texture2DGroup :
    ¬ ((∀ m, Reaches next new readThenCleared m → Mirrors m ∧ Registers m) ∧
        Guarded next Answers new readThenCleared) := by
  intro ⟨h, _⟩
  have hend := (h _ (reaches_run _ _)).1.tables .texture2DGroup
  exact absurd hend (by decide +kernel)

end Model

end NMR
