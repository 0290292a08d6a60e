import Lib3MF.Lib.LastIndex
import Lib3MF.Model.Classes.Merge
import Lib3MF.Model.Classes.MultiPropertyGroup
import Lib3MF.Model.Proof.ResourceIDs

/-!
# What merging copies

The resources of the new model are the copies of the resources of the source in `mergeOrder`,
copy `i` at position `i` under the unique ID `i + 1` (`Sequential`), and the mapping leads an ID
of the source to the copy of the last resource that has it (`Merged`). `Copy` says what a copy
is. `mergeResources_spec` puts the six kinds together.
-/

namespace NMR

open Lib

/-- The class of a resource with properties. -/
def ResourceData.kind : ResourceData → Option PropertyResourceKind
  | .baseMaterials _ => some .baseMaterials
  | .colorGroup _ => some .colorGroup
  | .texture2DGroup .. => some .texture2DGroup
  | .compositeMaterials .. => some .compositeMaterials
  | .multiPropertyGroup .. => some .multiPropertyGroup
  | _ => none

namespace Model

/-! ## A model that issues its IDs in order -/

/-- The unique ID of the resource at position `i`. -/
def idOf (i : Nat) : Nat := (i + 1) % 2 ^ 32

/-- All resources so far were constructed under fresh IDs in the empty path and added. -/
structure Sequential (m : Model) : Prop where
  path : m.curPath = ""
  size : m.resourceHandler.resourceIDs.size = m.store.length
  length_le : m.store.length ≤ 2 ^ 32
  ids : ∀ k p, m.resourceHandler.resourceIDs.find? k = some p →
    p.uniqueID = k ∧ ∃ i, i < m.store.length ∧ k = idOf i
  registered : ∀ id, m.resourceHandler.Registered "" id ↔ ∃ i, i < m.store.length ∧ id = idOf i
  mapped : ∀ k, k ∈ m.resourceMap.keys → ∃ i, i < m.store.length ∧ k = idOf i
  found : ∀ i, i < m.store.length → m.findResource (idOf i) = some i
  stored : ∀ i, i < m.store.length → m.uniqueID? i = some (idOf i)

variable {m m' m₁ : Model} {r : Nat} {d d' : ResourceData}

theorem idOf_inj {i j : Nat} (hi : i < 2 ^ 32) (hj : j < 2 ^ 32) (h : idOf i = idOf j) :
    i = j := by
  unfold idOf at h
  omega

theorem sequential_of_empty (hp : m.curPath = "") (hh : m.resourceHandler = .empty)
    (hs : m.store = []) (hm : m.resourceMap = .empty) : Sequential m where
  path := hp
  size := by rw [hh, hs]; rfl
  length_le := by rw [hs]; exact Nat.zero_le _
  ids := fun k p h => by rw [hh] at h; cases h
  registered := fun id => by simp [hh, hs]
  mapped := fun k h => by rw [hm] at h; cases h
  found := fun i h => by rw [hs] at h; cases h
  stored := fun i h => by rw [hs] at h; cases h

theorem Sequential.mem_mapped (hs : Sequential m) {i : Nat} (hi : i < m.store.length) :
    idOf i ∈ m.resourceMap.keys := by
  have hf := hs.found i hi
  unfold findResource at hf
  cases hp : m.resourceHandler.findResourceID (idOf i) with
  | none => rw [hp] at hf; cases hf
  | some p =>
    rw [hp] at hf
    have hu := (hs.ids _ _ hp).1
    rw [← hu]
    exact SortedMap.mem_keys_of_find? hf

/-- The generated ID, unless all IDs are taken. -/
theorem Sequential.generateResourceID (hs : Sequential m) :
    (m.store.length < 2 ^ 32 → m.generateResourceID = idOf m.store.length) ∧
      (m.store.length = 2 ^ 32 → m.generateResourceID = 0) := by
  rw [generateResourceID_eq]
  have hle : ∀ k ∈ m.resourceMap.keys, k ≤ m.lastID := fun k hk => le_lastKey? hk
  refine ⟨fun hlt => ?_, fun heq => ?_⟩
  · -- the IDs are `1, …, n`, except that the last of `2 ^ 32` would be `0`
    have hlast : m.lastID = m.store.length := by
      rcases lastKey?_mem m.resourceMap with h0 | hm
      · by_contra hne
        have hpos : 0 < m.store.length := by
          rw [lastID, h0] at hne
          omega
        have hk := hle _ (hs.mem_mapped (show m.store.length - 1 < m.store.length by omega))
        rw [lastID, h0, idOf] at hk
        omega
      · obtain ⟨i, hi, he⟩ := hs.mapped _ hm
        have hk := hle _ (hs.mem_mapped (show m.store.length - 1 < m.store.length by omega))
        rw [lastID, he] at hk ⊢
        unfold idOf at hk ⊢
        omega
    rw [hlast, idOf]
  · have hk := hle _ (hs.mem_mapped (show 2 ^ 32 - 2 < m.store.length by omega))
    have hlast : m.lastID = 2 ^ 32 - 1 := by
      rcases lastKey?_mem m.resourceMap with h0 | hm
      · rw [lastID, h0, idOf] at hk
        omega
      · obtain ⟨i, hi, he⟩ := hs.mapped _ hm
        rw [lastID, he] at hk ⊢
        unfold idOf at hk ⊢
        omega
    rw [hlast]
    rfl

/-- What constructing the next resource, filling it as `d` and adding it does. -/
structure Adds (m : Model) (d : ResourceData) (m' : Model) : Prop where
  lt : m.store.length < 2 ^ 32
  sequential : Sequential m'
  store : ∃ p, p.uniqueID = idOf m.store.length ∧ m'.store = m.store ++ [⟨p, d⟩]
  buildItems : m'.buildItems = m.buildItems

/-- The next resource gets the next ID. -/
theorem Sequential.adds (hs : Sequential m) {p : PackageResourceID} {h : ResourceHandler}
    (hn : m.resourceHandler.getNewResourceID m.curPath m.generateResourceID = .ok (h, p))
    (ha : addResource { m with resourceHandler := h, store := m.store ++ [⟨p, d⟩] }
      m.store.length = .ok m') : Adds m d m' := by
  obtain ⟨hnr, hp, hh⟩ := ResourceHandler.getNewResourceID_spec hn
  rw [hs.path] at hnr
  obtain ⟨hgen, hfull⟩ := hs.generateResourceID
  have hlt : m.store.length < 2 ^ 32 := by
    by_contra hge
    have heq : m.store.length = 2 ^ 32 := le_antisymm hs.length_le (not_lt.1 hge)
    refine hnr ((hs.registered _).2 ⟨2 ^ 32 - 1, by omega, ?_⟩)
    rw [hfull heq]
    rfl
  have hu : p.uniqueID = idOf m.store.length := by rw [hp, hs.size]; rfl
  have hne : ∀ i, i < m.store.length → idOf i ≠ idOf m.store.length := fun i hi he => by
    have := idOf_inj (by omega) hlt he
    omega
  obtain ⟨res, hres, -, rfl⟩ := addResource_spec ha
  simp only [List.getElem?_concat_length, Option.some.injEq] at hres
  subst hres
  obtain ⟨hst, hhd, hmap, hpath, -⟩ := addResourceToLookupTable_frame
    { m with
      resourceHandler := h
      store := m.store ++ [Resource.mk p d]
      resourceMap := m.resourceMap.insert p.uniqueID m.store.length
      resources := m.resources ++ [m.store.length] } m.store.length d
  have hlen : (m.store ++ [Resource.mk p d]).length = m.store.length + 1 := by simp
  have hnew : idOf m.store.length ∉ m.resourceHandler.resourceIDs.keys := fun hk => by
    obtain ⟨q, hq⟩ := Option.isSome_iff_exists.1 (SortedMap.find?_isSome.2 hk)
    obtain ⟨-, i, hi, he⟩ := hs.ids _ _ hq
    exact hne i hi he.symm
  have hnewmap : idOf m.store.length ∉ m.resourceMap.keys := fun hk => by
    obtain ⟨i, hi, he⟩ := hs.mapped _ hk
    exact hne i hi he.symm
  have hfind : ∀ k, h.resourceIDs.find? k =
      if k = idOf m.store.length then some p else m.resourceHandler.resourceIDs.find? k := by
    intro k
    rw [hh, hu, SortedMap.find?_insert, SortedMap.find?_eq_none.2 hnew]
    rfl
  refine ⟨hlt, ⟨?_, ?_, ?_, ?_, ?_, ?_, ?_, ?_⟩, ⟨p, hu, hst⟩, by cases d <;> rfl⟩
  · rw [hpath]; exact hs.path
  · rw [hhd, hst, hlen, hh, hu]
    exact (SortedMap.size_insert hnew).trans (by rw [hs.size])
  · rw [hst, hlen]; omega
  · intro k q hq
    rw [hhd, hfind] at hq
    rw [hst, hlen]
    split_ifs at hq with hk
    · cases hq
      exact ⟨by rw [hu, hk], m.store.length, by omega, hk⟩
    · obtain ⟨hqu, i, hi, he⟩ := hs.ids k q hq
      exact ⟨hqu, i, by omega, he⟩
  · intro id
    rw [hhd, hst, hlen, ResourceHandler.registered_getNewResourceID hn, hs.path, hs.registered,
      hgen hlt]
    constructor
    · rintro (⟨-, rfl⟩ | ⟨i, hi, he⟩)
      · exact ⟨m.store.length, by omega, rfl⟩
      · exact ⟨i, by omega, he⟩
    · intro ⟨i, hi, he⟩
      rcases Nat.lt_succ_iff_lt_or_eq.1 hi with hi | rfl
      · exact .inr ⟨i, hi, he⟩
      · exact .inl ⟨rfl, he⟩
  · intro k hk
    rw [hmap] at hk
    rw [hst, hlen]
    rcases SortedMap.mem_keys_insert.1 hk with rfl | hk
    · exact ⟨m.store.length, by omega, hu⟩
    · obtain ⟨i, hi, he⟩ := hs.mapped k hk
      exact ⟨i, by omega, he⟩
  · intro i hi
    rw [hst, hlen] at hi
    have hval : (m.resourceMap.insert p.uniqueID m.store.length).find? p.uniqueID =
        some m.store.length := SortedMap.find?_insert_same (by rw [hu]; exact hnewmap)
    simp only [findResource, ResourceHandler.findResourceID, hhd, hmap, hfind]
    rcases Nat.lt_succ_iff_lt_or_eq.1 hi with hi | rfl
    · rw [if_neg (hne i hi)]
      have hf := hs.found i hi
      unfold findResource at hf
      cases hq : m.resourceHandler.findResourceID (idOf i) with
      | none => rw [hq] at hf; cases hf
      | some q =>
        rw [hq] at hf
        rw [ResourceHandler.findResourceID] at hq
        have hqu : q.uniqueID = idOf i := (hs.ids _ _ hq).1
        dsimp only at hf
        simp only [hq]
        rw [SortedMap.find?_insert, if_neg (by rw [hqu, hu]; exact hne i hi), hf]
    · rw [if_pos rfl]
      exact hval
  · intro i hi
    rw [hst, hlen] at hi
    simp only [uniqueID?, hst]
    rcases Nat.lt_succ_iff_lt_or_eq.1 hi with hi | rfl
    · rw [List.getElem?_append_left hi]
      exact hs.stored i hi
    · rw [List.getElem?_concat_length, Option.map_some, hu]

theorem Adds.length (ha : Adds m d m') : m'.store.length = m.store.length + 1 := by
  obtain ⟨p, -, hst⟩ := ha.store
  simp [hst]

theorem Adds.data? (ha : Adds m d m') :
    m'.data? r = if r = m.store.length then some d else m.data? r := by
  obtain ⟨p, -, hst⟩ := ha.store
  exact data?_append hst

theorem Adds.data?_old (ha : Adds m d m') (h : m.data? r = some d') : m'.data? r = some d' := by
  rw [ha.data?, if_neg (by have := lt_of_data? h; omega), h]

/-! ## Copies -/

/-- The resources in the order in which they are copied. -/
def mergeOrder (m : Model) : List ResourceRef :=
  m.textureLookup ++ (m.baseMaterialLookup ++ (m.colorGroupLookup ++ (m.texture2DGroupLookup ++
    (m.compositeMaterialsLookup ++ m.multiPropertyGroupLookup))))

/-- The position of the last of the resources `l` whose unique ID is `id`. -/
def lastWithID (m : Model) (id : Nat) (l : List ResourceRef) : Option Nat :=
  lastIndex (fun r => m.uniqueID? r = some id) l

/-- `d'` is the copy of the resource `d` of the source. -/
inductive Copy (source : Model) : ResourceData → ResourceData → Prop where
  | texture2D {t : Texture2D} : Copy source (.texture2D t) (.texture2D { t with filter := .auto })
  | baseMaterials {g g' : PropertyGroup BaseMaterial} (h : g.Renumbers g') :
      Copy source (.baseMaterials g) (.baseMaterials g')
  | colorGroup {g g' : PropertyGroup Nat} (h : g.Renumbers g') :
      Copy source (.colorGroup g) (.colorGroup g')
  | texture2DGroup {t i id : Nat} {g g' : PropertyGroup UVCoordinate}
      (hid : source.uniqueID? t = some id)
      (hi : source.lastWithID id source.textureLookup = some i) (h : g.Renumbers g') :
      Copy source (.texture2DGroup t g) (.texture2DGroup i g')
  | compositeMaterials {b i id : Nat} {g g' : PropertyGroup Composite}
      (hid : source.uniqueID? b = some id)
      (hi : source.lastWithID id source.baseMaterialLookup = some i) (h : g.Renumbers g') :
      Copy source (.compositeMaterials b g)
        (.compositeMaterials (source.textureLookup.length + i) g')
  | multiPropertyGroup {layers : List MultiPropertyLayer} {g g' : PropertyGroup MultiProperty}
      (h : g.Renumbers g') :
      Copy source (.multiPropertyGroup layers g) (.multiPropertyGroup layers g')

/-- The state of the merge after the resources `done`. -/
structure Merged (source : Model) (done : List ResourceRef)
    (s : Model × UniqueResourceIDMapping) : Prop where
  sequential : Sequential s.1
  length : s.1.store.length = done.length
  copies : ∀ i r, done[i]? = some r →
    ∃ d d', source.data? r = some d ∧ s.1.data? i = some d' ∧ Copy source d d'
  mapping : ∀ id, s.2.find? id = (source.lastWithID id done).map idOf
  buildItems : s.1.buildItems = []

variable {source : Model} {done l : List ResourceRef} {s s' : Model × UniqueResourceIDMapping}
  {old : Resource}

theorem data?_of_store (h : m.store[r]? = some old) : m.data? r = some old.data := by
  rw [data?, h]; rfl

theorem uniqueID?_of_store (h : m.store[r]? = some old) :
    m.uniqueID? r = some old.resourceID.uniqueID := by
  rw [uniqueID?, h]; rfl

theorem mergeResource_spec {new : ResourceData} {mergeFrom : Model → Except Error ResourceData}
    (hs : Sequential s.1) (h : mergeResource old.resourceID new mergeFrom s = .ok s') :
    ∃ m₁ d, mergeFrom m₁ = .ok d ∧ Adds s.1 d s'.1 ∧
      (∃ h p, s.1.resourceHandler.getNewResourceID s.1.curPath s.1.generateResourceID
          = .ok (h, p) ∧
        m₁ = { s.1 with resourceHandler := h, store := s.1.store ++ [⟨p, new⟩] }) ∧
      s'.2 = s.2.set old.resourceID.uniqueID (idOf s.1.store.length) := by
  simp only [mergeResource, bind_eq_ok, pure_eq_ok] at h
  obtain ⟨⟨m₁, r⟩, hc, d, hd, m₂, ha, rfl⟩ := h
  obtain ⟨hh, p, hn, rfl, rfl⟩ := construct_spec hc
  have hset : setData { s.1 with resourceHandler := hh, store := s.1.store ++ [⟨p, new⟩] }
      s.1.store.length d =
      { s.1 with resourceHandler := hh, store := s.1.store ++ [⟨p, d⟩] } :=
    @setData_concat { s.1 with resourceHandler := hh, store := s.1.store ++ [⟨p, new⟩] } d
      s.1.store ⟨p, new⟩ rfl
  dsimp only at ha hd
  rw [hset] at ha
  have hadds := hs.adds hn ha
  refine ⟨_, d, hd, hadds, ⟨hh, p, hn, rfl⟩, ?_⟩
  dsimp only
  rw [hadds.sequential.stored _ (by rw [hadds.length]; omega)]
  rfl

/-- One copy more. -/
theorem Merged.snoc {new : ResourceData} {mergeFrom : Model → Except Error ResourceData}
    (hm : Merged source done s) (hr : source.store[r]? = some old)
    (h : mergeResource old.resourceID new mergeFrom s = .ok s')
    (hcopy : ∀ m₁ d, mergeFrom m₁ = .ok d → Copy source old.data d) :
    Merged source (done ++ [r]) s' := by
  obtain ⟨m₁, d, hd, ha, -, hmap⟩ := mergeResource_spec hm.sequential h
  refine ⟨ha.sequential, ?_, fun i r' hi => ?_, fun id => ?_, by rw [ha.buildItems, hm.buildItems]⟩
  · rw [ha.length, hm.length, List.length_append]; rfl
  · rcases lt_trichotomy i done.length with hlt | rfl | hgt
    · rw [List.getElem?_append_left hlt] at hi
      obtain ⟨e, e', he, he', hc⟩ := hm.copies i r' hi
      exact ⟨e, e', he, ha.data?_old he', hc⟩
    · rw [List.getElem?_concat_length] at hi
      cases hi
      refine ⟨old.data, d, data?_of_store hr, ?_, hcopy m₁ d hd⟩
      rw [ha.data?, if_pos hm.length.symm]
    · have hge : (done ++ [r]).length ≤ i := by
        rw [List.length_append, List.length_singleton]
        exact hgt
      rw [List.getElem?_eq_none hge] at hi
      cases hi
  · rw [hmap, SortedMap.find?_set, lastWithID, lastIndex_append_singleton, uniqueID?_of_store hr,
      ← hm.length]
    by_cases hid : id = old.resourceID.uniqueID
    · subst hid
      simp
    · have hne : ¬ old.resourceID.uniqueID = id := fun h => hid h.symm
      simp only [Option.some.injEq, hne, hid, decide_false, Bool.false_eq_true, if_false]
      exact hm.mapping id

/-- The invariant rule of copying a lookup table, for a kind of resources. -/
theorem mergeLookup_spec {pre : List ResourceRef} (kind : ResourceData → Prop)
    {merge : Model × UniqueResourceIDMapping → Resource →
      Except Error (Model × UniqueResourceIDMapping)}
    (step : ∀ (done : List ResourceRef) s old s' r, source.store[r]? = some old →
      (∀ r' ∈ done, ∃ d, source.data? r' = some d ∧ kind d) → Merged source (pre ++ done) s →
      merge s old = .ok s' → kind old.data ∧ Merged source (pre ++ done ++ [r]) s')
    (hm : Merged source pre s) (h : mergeLookup source merge l s = .ok s') :
    (∀ r ∈ l, ∃ d, source.data? r = some d ∧ kind d) ∧ Merged source (pre ++ l) s' := by
  have h0 : (∀ r ∈ ([] : List ResourceRef), ∃ d, source.data? r = some d ∧ kind d) ∧
      Merged source (pre ++ []) s :=
    ⟨fun r hr => (nomatch hr), by rwa [List.append_nil]⟩
  refine foldlM_ok (fun done s => (∀ r ∈ done, ∃ d, source.data? r = some d ∧ kind d) ∧
    Merged source (pre ++ done) s) (fun done s r s₁ _ hi hs => ?_) h0 h
  cases hr : source.store[r]? with
  | none => rw [hr] at hs; cases hs
  | some old =>
    rw [hr] at hs
    obtain ⟨hk, hm⟩ := step done s old s₁ r hr hi.1 hi.2 hs
    refine ⟨fun r' hr' => ?_, by rwa [List.append_assoc] at hm⟩
    rcases List.mem_append.1 hr' with hr' | hr'
    · exact hi.1 r' hr'
    · rw [List.mem_singleton.1 hr']
      exact ⟨old.data, data?_of_store hr, hk⟩

/-! ## The six kinds -/

/-- A copied texture differs in its filter at most. -/
theorem copyFrom_make {t t₀ t' : Texture2D} {a : Attachment} (ha : t.getAttachment = .ok a)
    (hm : Texture2D.make a = .ok t₀) (hc : t₀.copyFrom t = .ok t') :
    t' = { t with filter := .auto } := by
  simp only [Texture2D.copyFrom, bind_eq_ok, pure_eq_ok] at hc
  obtain ⟨a', ha', rfl⟩ := hc
  unfold Texture2D.getAttachment at ha ha'
  split_ifs at ha with hr
  rw [if_neg hr] at ha'
  cases ha
  cases ha'
  unfold Texture2D.make at hm
  rw [if_neg hr] at hm
  cases hm
  rfl

theorem mergeTexture2D_spec (hm : Merged source done s) (hr : source.store[r]? = some old)
    (h : mergeTexture2D s old = .ok s') :
    (∃ t, old.data = .texture2D t) ∧ Merged source (done ++ [r]) s' := by
  unfold mergeTexture2D at h
  split at h
  · rename_i t ht
    simp only [bind_eq_ok] at h
    obtain ⟨a, ha, t₀, ht₀, h⟩ := h
    refine ⟨⟨t, ht⟩, hm.snoc hr h fun m₁ d hd => ?_⟩
    simp only [bind_eq_ok, pure_eq_ok] at hd
    obtain ⟨t', hc, rfl⟩ := hd
    rw [ht, copyFrom_make ha ht₀ hc]
    exact .texture2D
  · cases h

theorem mergeBaseMaterial_spec (hm : Merged source done s) (hr : source.store[r]? = some old)
    (h : mergeBaseMaterial s old = .ok s') :
    (∃ g, old.data = .baseMaterials g) ∧ Merged source (done ++ [r]) s' := by
  unfold mergeBaseMaterial at h
  split at h
  · rename_i g hg
    refine ⟨⟨g, hg⟩, hm.snoc hr h fun m₁ d hd => ?_⟩
    simp only [bind_eq_ok, pure_eq_ok] at hd
    obtain ⟨g', hc, rfl⟩ := hd
    rw [hg]
    exact .baseMaterials (PropertyGroup.mergeFrom_empty hc)
  · cases h

theorem mergeColorGroup_spec (hm : Merged source done s) (hr : source.store[r]? = some old)
    (h : mergeColorGroup s old = .ok s') :
    (∃ g, old.data = .colorGroup g) ∧ Merged source (done ++ [r]) s' := by
  unfold mergeColorGroup at h
  split at h
  · rename_i g hg
    refine ⟨⟨g, hg⟩, hm.snoc hr h fun m₁ d hd => ?_⟩
    simp only [bind_eq_ok, pure_eq_ok] at hd
    obtain ⟨g', hc, rfl⟩ := hd
    rw [hg]
    exact .colorGroup (PropertyGroup.mergeFrom_empty hc)
  · cases h

theorem mappedID_spec {oldToNew : UniqueResourceIDMapping} {id : Nat}
    (h : source.mappedID oldToNew r = .ok id) :
    ∃ old, source.uniqueID? r = some old ∧ id = (oldToNew.find? old).getD 0 := by
  unfold mappedID at h
  cases hu : source.uniqueID? r with
  | none => rw [hu] at h; cases h
  | some old =>
    rw [hu] at h
    cases h
    exact ⟨old, rfl, rfl⟩

/-- The IDs in use are found at their positions only. -/
theorem Sequential.findResource_idOf (hs : Sequential m) {k : Nat}
    (h : m.findResource k = some r) : r < m.store.length ∧ k = idOf r := by
  have hf := h
  unfold findResource at hf
  cases hp : m.resourceHandler.findResourceID k with
  | none => rw [hp] at hf; cases hf
  | some p =>
    obtain ⟨-, i, hi, rfl⟩ := hs.ids k p hp
    rw [hs.found i hi] at h
    cases h
    exact ⟨hi, rfl⟩

/-- While not all IDs are taken, what the mapping leads to is the copy of the last resource with
the ID. -/
theorem Merged.lastWithID (hm : Merged source done s) (hlt : s.1.store.length < 2 ^ 32)
    {old i : Nat} (h : s.1.findResource ((s.2.find? old).getD 0) = some i) :
    source.lastWithID old done = some i := by
  obtain ⟨hi, hid⟩ := hm.sequential.findResource_idOf h
  rw [hm.mapping old] at hid
  cases hl : source.lastWithID old done with
  | none =>
    rw [hl] at hid
    have h0 : 0 = (i + 1) % 2 ^ 32 := hid
    omega
  | some j =>
    rw [hl] at hid
    have hj : j < s.1.store.length := by rw [hm.length]; exact lastIndex_lt hl
    rw [idOf_inj (by omega) (by omega) (show idOf j = idOf i from hid)]

/-- Where no later resource is a texture, a texture found is the copy of one of the textures. -/
theorem Merged.lastTexture {rest : List ResourceRef} {t : Texture2D}
    (hm : Merged source (source.textureLookup ++ rest) s) (hlt : s.1.store.length < 2 ^ 32)
    (hrest : ∀ r ∈ rest, ∀ t, source.data? r ≠ some (.texture2D t)) {old i : Nat}
    (h : s.1.findTexture2D ((s.2.find? old).getD 0) = .ok (some (i, t))) :
    source.lastWithID old source.textureLookup = some i := by
  unfold findTexture2D at h
  split at h
  · cases h
  · rename_i i' hi
    split at h
    · rename_i t' ht
      cases h
      have hl := hm.lastWithID hlt hi
      obtain ⟨r, hr, -⟩ := lastIndex_eq_some hl
      refine lastIndex_of_append hl (not_le.1 fun hge => ?_)
      rw [List.getElem?_append_right hge] at hr
      obtain ⟨d, d', hd, hd', hc⟩ := hm.copies i r (by rwa [List.getElem?_append_right hge])
      rw [ht] at hd'
      cases hd'
      cases hc
      exact hrest r (List.mem_of_getElem? hr) _ hd
    · cases h

/-- Where only `baseMaterialLookup` holds base materials, base materials found are the copy of
one of them. -/
theorem Merged.lastBaseMaterials {rest : List ResourceRef} {g : PropertyGroup BaseMaterial}
    (hm : Merged source (source.textureLookup ++ (source.baseMaterialLookup ++ rest)) s)
    (hlt : s.1.store.length < 2 ^ 32)
    (htex : ∀ r ∈ source.textureLookup, ∀ g, source.data? r ≠ some (.baseMaterials g))
    (hrest : ∀ r ∈ rest, ∀ g, source.data? r ≠ some (.baseMaterials g)) {old i : Nat}
    (h : s.1.findBaseMaterial ((s.2.find? old).getD 0) = .ok (some (i, g))) :
    ∃ j, source.lastWithID old source.baseMaterialLookup = some j ∧
      i = source.textureLookup.length + j := by
  unfold findBaseMaterial at h
  split at h
  · cases h
  · rename_i i' hi
    split at h
    · rename_i g' hg
      cases h
      have hl := hm.lastWithID hlt hi
      obtain ⟨r, hr, -⟩ := lastIndex_eq_some hl
      -- what stands at position `i` of the source are base materials
      obtain ⟨d, d', hd, hd', hc⟩ := hm.copies i r hr
      rw [hg] at hd'
      cases hd'
      cases hc
      have hge : source.textureLookup.length ≤ i := not_lt.1 fun hlt => by
        rw [List.getElem?_append_left hlt] at hr
        exact htex r (List.mem_of_getElem? hr) _ hd
      have hl' := lastIndex_append_right hl hge
      rw [List.getElem?_append_right hge] at hr
      refine ⟨i - source.textureLookup.length, lastIndex_of_append hl' (not_le.1 fun hge' => ?_),
        by omega⟩
      rw [List.getElem?_append_right hge'] at hr
      exact hrest r (List.mem_of_getElem? hr) _ hd
    · cases h

theorem mergeTexture2DGroup_spec {rest : List ResourceRef}
    (hm : Merged source (source.textureLookup ++ rest) s) (hr : source.store[r]? = some old)
    (hrest : ∀ r ∈ rest, ∀ t, source.data? r ≠ some (.texture2D t))
    (h : mergeTexture2DGroup source s old = .ok s') :
    (∃ t g, old.data = .texture2DGroup t g) ∧
      Merged source (source.textureLookup ++ rest ++ [r]) s' := by
  unfold mergeTexture2DGroup at h
  split at h
  · rename_i t g hg
    simp only [bind_eq_ok] at h
    obtain ⟨id, hid, x, hx, h⟩ := h
    obtain ⟨oldID, hold, rfl⟩ := mappedID_spec hid
    split at h
    · cases h
    · rename_i i tex
      obtain ⟨_, _, -, ha, -⟩ := mergeResource_spec hm.sequential h
      have hi := hm.lastTexture ha.lt hrest hx
      refine ⟨⟨t, g, hg⟩, hm.snoc hr h fun m₁ d hd => ?_⟩
      simp only [bind_eq_ok, pure_eq_ok] at hd
      obtain ⟨g', hc, rfl⟩ := hd
      rw [hg]
      exact .texture2DGroup hold hi (PropertyGroup.mergeFrom_empty hc)
  · cases h

theorem mergeCompositeMaterial_spec {rest : List ResourceRef}
    (hm : Merged source (source.textureLookup ++ (source.baseMaterialLookup ++ rest)) s)
    (hr : source.store[r]? = some old)
    (htex : ∀ r ∈ source.textureLookup, ∀ g, source.data? r ≠ some (.baseMaterials g))
    (hrest : ∀ r ∈ rest, ∀ g, source.data? r ≠ some (.baseMaterials g))
    (h : mergeCompositeMaterial source s old = .ok s') :
    (∃ b g, old.data = .compositeMaterials b g) ∧
      Merged source (source.textureLookup ++ (source.baseMaterialLookup ++ rest) ++ [r]) s' := by
  unfold mergeCompositeMaterial at h
  split at h
  · rename_i b g hg
    simp only [bind_eq_ok] at h
    obtain ⟨id, hid, x, hx, h⟩ := h
    obtain ⟨oldID, hold, rfl⟩ := mappedID_spec hid
    split at h
    · cases h
    · rename_i i materials
      obtain ⟨_, _, -, ha, -⟩ := mergeResource_spec hm.sequential h
      obtain ⟨j, hj, rfl⟩ := hm.lastBaseMaterials ha.lt htex hrest hx
      refine ⟨⟨b, g, hg⟩, hm.snoc hr h fun m₁ d hd => ?_⟩
      simp only [bind_eq_ok, pure_eq_ok] at hd
      obtain ⟨g', hc, rfl⟩ := hd
      rw [hg]
      exact .compositeMaterials hold hj (PropertyGroup.mergeFrom_empty hc)
  · cases h

/-- The class of the resource of a layer. -/
def kindOf (m : Model) (uniqueID : Nat) : Option PropertyResourceKind :=
  ((m.findResource uniqueID).bind m.data?).bind ResourceData.kind

theorem isMaterial_eq (m : Model) (uniqueID : Nat) : m.isMaterial uniqueID =
    (decide (m.kindOf uniqueID = some .baseMaterials) ||
      decide (m.kindOf uniqueID = some .compositeMaterials)) := by
  unfold isMaterial kindOf
  cases (m.findResource uniqueID).bind m.data? with
  | none => rfl
  | some d => cases d <;> rfl

theorem isColorGroup_eq (m : Model) (uniqueID : Nat) :
    m.isColorGroup uniqueID = decide (m.kindOf uniqueID = some .colorGroup) := by
  unfold isColorGroup kindOf
  cases (m.findResource uniqueID).bind m.data? with
  | none => rfl
  | some d => cases d <;> rfl

/-- `addLayer` sees the classes of the resources only. -/
theorem addLayer_eq (m : Model) (layers : List MultiPropertyLayer) (l : MultiPropertyLayer) :
    m.addLayer layers l = NMR.addLayer m.kindOf layers l := by
  have hkind : m.kindOf l.resourceID =
      ((m.findResource l.resourceID).bind m.data?).bind ResourceData.kind := rfl
  unfold addLayer NMR.addLayer
  simp only [isMaterial_eq, isColorGroup_eq]
  rw [hkind]
  cases (m.findResource l.resourceID).bind m.data? with
  | none => rfl
  | some d => cases d <;> rfl

theorem mergeMultiPropertyGroup_spec (hm : Merged source done s)
    (hr : source.store[r]? = some old) (h : mergeMultiPropertyGroup s old = .ok s') :
    (∃ layers g, old.data = .multiPropertyGroup layers g) ∧
      Merged source (done ++ [r]) s' := by
  unfold mergeMultiPropertyGroup at h
  split at h
  · rename_i layers g hg
    refine ⟨⟨layers, g, hg⟩, hm.snoc hr h fun m₁ d hd => ?_⟩
    simp only [bind_eq_ok, pure_eq_ok] at hd
    obtain ⟨g', hc, layers', hl, rfl⟩ := hd
    have hlayers : layers' = layers := by
      refine foldlM_ok (fun done l => l = done) (fun done l x l' _ hl hx => ?_) rfl hl
      rw [addLayer_eq] at hx
      rw [addLayer_append hx, hl]
    rw [hg, hlayers]
    exact .multiPropertyGroup (PropertyGroup.mergeFrom_empty hc)
  · cases h

/-! ## All of them -/

theorem mergeModelAttachments_spec (h : new.mergeModelAttachments source = .ok m) :
    Sequential m ∧ m.store = [] ∧ m.buildItems = [] := by
  have h0 : new.curPath = "" ∧ new.resourceHandler = .empty ∧ new.store = [] ∧
      new.resourceMap = .empty ∧ new.buildItems = [] := ⟨rfl, rfl, rfl, rfl, rfl⟩
  have hm := @foldlM_ok _ _ _ (fun _ m => m.curPath = "" ∧ m.resourceHandler = .empty ∧
      m.store = [] ∧ m.resourceMap = .empty ∧ m.buildItems = []) _ _ [] _ _
    (fun _ m a m' _ hm ha => by
      unfold addAttachment at ha
      dsimp only at ha
      split_ifs at ha
      cases ha
      exact hm) h0 h
  exact ⟨sequential_of_empty hm.1 hm.2.1 hm.2.2.1 hm.2.2.2.1, hm.2.2.1, hm.2.2.2.2⟩

theorem ne_of_kind {kind : ResourceData → Prop}
    (hl : ∀ r ∈ l, ∃ d, source.data? r = some d ∧ kind d) (hd : ¬ kind d) :
    ∀ r ∈ l, source.data? r ≠ some d := fun r hr h => by
  obtain ⟨d', hd', hk⟩ := hl r hr
  rw [h] at hd'
  cases hd'
  exact hd hk

/-- **The copied resources are the copies of the resources of the source, in their order.** -/
theorem mergeResources_spec (h : source.mergeResources = .ok s) :
    Merged source source.mergeOrder s := by
  simp only [mergeResources, bind_eq_ok] at h
  obtain ⟨m, hm, s₁, h₁, s₂, h₂, s₃, h₃, s₄, h₄, s₅, h₅, h₆⟩ := h
  obtain ⟨hseq, hstore, hitems⟩ := mergeModelAttachments_spec hm
  have hm₀ : Merged source [] (m, .empty) :=
    ⟨hseq, by rw [hstore]; rfl, fun i r hr => by simp at hr, fun id => rfl, hitems⟩
  obtain ⟨htex, hm₁⟩ := mergeLookup_spec (fun d => ∃ t, d = .texture2D t)
    (fun done s old s' r hr _ hm h => mergeTexture2D_spec hm hr h) hm₀ h₁
  obtain ⟨hbase, hm₂⟩ := mergeLookup_spec (fun d => ∃ g, d = .baseMaterials g)
    (fun done s old s' r hr _ hm h => mergeBaseMaterial_spec hm hr h) hm₁ h₂
  obtain ⟨hcol, hm₃⟩ := mergeLookup_spec (fun d => ∃ g, d = .colorGroup g)
    (fun done s old s' r hr _ hm h => mergeColorGroup_spec hm hr h) hm₂ h₃
  rw [List.nil_append, List.append_assoc] at hm₃
  -- no textures behind the textures, as `lastTexture` asks
  have ntex (t : Texture2D) : ∀ r ∈ source.baseMaterialLookup ++ source.colorGroupLookup,
      source.data? r ≠ some (.texture2D t) := fun r hr => by
    rcases List.mem_append.1 hr with hr | hr
    · exact ne_of_kind hbase (by simp) r hr
    · exact ne_of_kind hcol (by simp) r hr
  obtain ⟨hgroup, hm₄⟩ := mergeLookup_spec (fun d => ∃ t g, d = .texture2DGroup t g)
    (fun done s old s' r hr hdone hm h => by
      rw [List.append_assoc] at hm
      have := mergeTexture2DGroup_spec hm hr (fun r' hr' t => by
        rcases List.mem_append.1 hr' with hr' | hr'
        · exact ntex t r' hr'
        · exact ne_of_kind hdone (by simp) r' hr') h
      simpa only [List.append_assoc] using this) hm₃ h₄
  rw [List.append_assoc, List.append_assoc] at hm₄
  -- and base materials among the base materials only
  have nbase (g : PropertyGroup BaseMaterial) :
      ∀ r ∈ source.colorGroupLookup ++ source.texture2DGroupLookup,
      source.data? r ≠ some (.baseMaterials g) := fun r hr => by
    rcases List.mem_append.1 hr with hr | hr
    · exact ne_of_kind hcol (by simp) r hr
    · exact ne_of_kind hgroup (by simp) r hr
  obtain ⟨-, hm₅⟩ := mergeLookup_spec (fun d => ∃ b g, d = .compositeMaterials b g)
    (fun done s old s' r hr hdone hm h => by
      rw [List.append_assoc, List.append_assoc] at hm
      have := mergeCompositeMaterial_spec hm hr
        (fun r' hr' g => ne_of_kind htex (by simp) r' hr')
        (fun r' hr' g => by
          rcases List.mem_append.1 hr' with hr' | hr'
          · exact nbase g r' hr'
          · exact ne_of_kind hdone (by simp) r' hr') h
      simpa only [List.append_assoc] using this) hm₄ h₅
  obtain ⟨-, hm₆⟩ := mergeLookup_spec (fun d => ∃ layers g, d = .multiPropertyGroup layers g)
    (fun done s old s' r hr _ hm h => mergeMultiPropertyGroup_spec hm hr h) hm₅ h₆
  simpa only [mergeOrder, List.append_assoc] using hm₆

/-- What `MergeToModel` returns for the merged mesh `mesh`. -/
structure MergedTo (source : Model) (mesh : Mesh) (out : MergeResult) : Prop where
  mapping : ∀ id, out.oldToNewUniqueResourceIDs.find? id =
    (source.lastWithID id source.mergeOrder).map idOf
  copies : ∀ i r, source.mergeOrder[i]? = some r → ∃ d d', source.data? r = some d ∧
    out.target.data? i = some d' ∧ Copy source d d' ∧ out.target.findResource (idOf i) = some i
  mesh : ∃ mesh' b, mesh.patchMeshInformationResources
      (fun id => (out.oldToNewUniqueResourceIDs.find? id).getD 0) = .ok mesh' ∧
    out.target.buildItems = [b] ∧ out.target.data? b.object = some (.meshObject .new mesh')

/-- **The new model holds the copies and the patched mesh.** -/
theorem mergeMeshToModel_spec {mesh : Mesh} {out : MergeResult}
    (h : source.mergeMeshToModel mesh = .ok out) : MergedTo source mesh out := by
  simp only [mergeMeshToModel, bind_eq_ok, pure_eq_ok] at h
  obtain ⟨⟨m, oldToNew⟩, hres, mesh', hpatch, ⟨m₁, r⟩, hc, m₂, ha, ⟨src, handle⟩, -,
    m₃, hb, rfl⟩ := h
  have hm := mergeResources_spec hres
  obtain ⟨hh, p, hn, rfl, rfl⟩ := construct_spec hc
  have hadds := hm.sequential.adds hn ha
  unfold addBuildItem at hb
  split_ifs at hb
  cases hb
  refine ⟨hm.mapping, fun i r hr => ?_, mesh', ⟨m.store.length, .identity, handle⟩, hpatch, ?_, ?_⟩
  · obtain ⟨d, d', hd, hd', hcopy⟩ := hm.copies i r hr
    have hi := (List.getElem?_eq_some_iff.1 hr).1
    refine ⟨d, d', hd, hadds.data?_old hd', hcopy, hadds.sequential.found i ?_⟩
    rw [hadds.length, hm.length]
    omega
  · show m₂.buildItems ++ _ = _
    rw [hadds.buildItems, hm.buildItems]
    rfl
  · show m₂.data? _ = _
    rw [hadds.data?, if_pos rfl]

end Model

end NMR
