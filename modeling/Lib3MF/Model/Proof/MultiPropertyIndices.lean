import Lib3MF.Model.Proof.MaterialProperties

/-!
# Indices of multi-properties

A group is written with its layers and, for each multi-property, the indices its properties have in
the resources of the layers (`LayerIndices`, `writeMaterials_ok`). In the resources as they are read
these indices stand for the properties at the same places (`resolvePIndices_ok`).
-/

namespace NMR

open Lib

variable {V : Type} {m : MaterialModel V} {reading : PropertyReading V}

/-! ## Resources -/

theorem find?_resource {R : List (PropertyResource V)} (hn : (R.map (·.uniqueID)).Nodup)
    {r : PropertyResource V} (hr : r ∈ R) :
    R.find? (fun r' => r'.uniqueID = r.uniqueID) = some r := by
  induction R with
  | nil => simp at hr
  | cons r' R ih =>
    rw [List.map_cons, List.nodup_cons] at hn
    rw [List.find?_cons]
    by_cases he : r'.uniqueID = r.uniqueID
    · rcases List.mem_cons.1 hr with rfl | hr
      · simp
      · exact absurd (he ▸ List.mem_map_of_mem hr) hn.1
    · simp only [he, decide_false]
      exact ih hn.2 ((List.mem_cons.1 hr).resolve_left fun h => he (by rw [h]))

/-- The layers refer to the property resources of the model. -/
theorem MaterialModel.Valid.layer_resource (hm : m.Valid) {g : MultiPropertyGroup}
    (hg : g ∈ m.multiPropertyGroups) {l : MultiPropertyLayer} (hl : l ∈ g.layers) :
    ∃ r ∈ m.propertyResources, r.uniqueID = l.resourceID := by
  obtain ⟨kind, hk, hne⟩ := (hm.layers g hg).exist _ (List.mem_map_of_mem hl)
  unfold MaterialModel.kindOf at hk
  cases hf : m.propertyResources.find? fun r => r.uniqueID = l.resourceID with
  | some r => exact ⟨r, List.mem_of_find?_eq_some hf, by simpa using List.find?_some hf⟩
  | none =>
    simp only [hf] at hk
    split_ifs at hk
    exact absurd (Option.some.inj hk).symm hne

theorem MaterialModel.Valid.resources_nodup (hm : m.Valid) :
    (m.propertyResources.map (·.uniqueID)).Nodup := (List.nodup_append.1 hm.nodup).1

/-! ## Indices -/

/-- The indices of a multi-property in the resources its layers refer to. -/
inductive LayerIndices (R : List (PropertyResource V)) :
    List MultiPropertyLayer → MultiProperty → List Nat → Prop
  | nil (multi : MultiProperty) : LayerIndices R [] multi []
  | cons {r : PropertyResource V} {l : MultiPropertyLayer} {k i : Nat}
      {layers : List MultiPropertyLayer} {multi : MultiProperty} {indices : List Nat}
      (hr : r ∈ R) (hid : r.uniqueID = l.resourceID)
      (hk : r.group.buildResourceIndexMap[i]? = some k)
      (rest : LayerIndices R layers multi indices) :
      LayerIndices R (l :: layers) (k :: multi) (i :: indices)

/-- The mapping has the indices of the properties of `R`, and perhaps those of other resources. -/
def Indexes (mapping : PropertyIndexMapping) (R : List (PropertyResource V)) : Prop :=
  ∀ r ∈ R, ∀ k i, mapping.idMap.find? (toLex (r.uniqueID, k)) = some i ↔
    r.group.buildResourceIndexMap[i]? = some k

theorem Mapped.indexes {mapping : PropertyIndexMapping} {R : List (PropertyResource V)}
    (hn : (R.map (·.uniqueID)).Nodup) (h : Mapped mapping R) : Indexes mapping R := by
  intro r hr k i
  rw [h]
  constructor
  · intro ⟨r', hr', hid, hk⟩
    have hf := find?_resource hn hr'
    rw [hid, find?_resource hn hr] at hf
    rw [Option.some.inj hf]
    exact hk
  · intro hk
    exact ⟨r, hr, rfl, hk⟩

/-- The indices the writer finds are those of the properties. -/
theorem layerIndices_of_pindices {mapping : PropertyIndexMapping} {R : List (PropertyResource V)}
    (hi : Indexes mapping R) {layers : List MultiPropertyLayer} {multi : MultiProperty}
    {indices : List Nat} (hl : ∀ l ∈ layers, ∃ r ∈ R, r.uniqueID = l.resourceID)
    (h : Writer.pindices mapping layers multi = .ok indices) : LayerIndices R layers multi indices := by
  induction layers generalizing multi indices with
  | nil =>
    rw [← Except.ok.inj h]
    exact .nil multi
  | cons l layers ih =>
    cases multi with
    | nil => simp [Writer.pindices] at h
    | cons k multi =>
      unfold Writer.pindices at h
      obtain ⟨index, hindex, h⟩ := bind_eq_ok.1 h
      obtain ⟨rest, hrest, h⟩ := bind_eq_ok.1 h
      obtain rfl := Except.ok.inj h
      obtain ⟨r, hr, hid⟩ := hl l List.mem_cons_self
      unfold PropertyIndexMapping.mapPropertyIDToIndex at hindex
      split_ifs at hindex
      split at hindex
      · exact absurd hindex (by simp)
      · rename_i i hf
        rw [← Except.ok.inj hindex]
        rw [← hid] at hf
        exact .cons hr hid ((hi r hr k i).1 hf)
          (ih (fun l' hl' => hl l' (List.mem_cons_of_mem _ hl')) hrest)

/-- The indices of a multi-property. -/
def MaterialModel.pindices (m : MaterialModel V) (layers : List MultiPropertyLayer)
    (multi : MultiProperty) : List Nat :=
  List.zipWith (fun l k => (m.propertyIndex l.resourceID k).getD 0) layers multi

theorem LayerIndices.eq_pindices (hm : m.Valid) {layers : List MultiPropertyLayer}
    {multi : MultiProperty} {indices : List Nat}
    (h : LayerIndices m.propertyResources layers multi indices) : indices = m.pindices layers multi := by
  induction h with
  | nil multi => rfl
  | @cons r l k i layers multi indices hr hid hk rest ih =>
    have hindex : m.propertyIndex l.resourceID k = some i := by
      unfold MaterialModel.propertyIndex MaterialModel.findGroup
      rw [← hid, find?_resource hm.resources_nodup hr]
      exact idxOf?_eq_some (keys_nodup r.group) hk
    rw [MaterialModel.pindices, List.zipWith_cons_cons, hindex, ih]
    rfl

/-! ## Layers and values -/

/-- The layers refer to the resources at the same places. -/
def SameLayers (R R' : List (PropertyResource V)) (layers layers' : List MultiPropertyLayer) :
    Prop :=
  List.Forall₂ (fun l l' => ∃ (i : Nat) (r r' : PropertyResource V), R[i]? = some r ∧
    R'[i]? = some r' ∧ r.uniqueID = l.resourceID ∧ r'.uniqueID = l'.resourceID ∧ r'.kind = r.kind)
    layers layers'

/-- The multi-properties have, in each layer, the properties at the same place. -/
def SameProperties (R R' : List (PropertyResource V)) (layers layers' : List MultiPropertyLayer)
    (multi multi' : MultiProperty) : Prop :=
  ∀ (j : Nat) (l l' : MultiPropertyLayer), layers[j]? = some l → layers'[j]? = some l' →
    ∃ (place index k : Nat) (r r' : PropertyResource V), R[place]? = some r ∧
      R'[place]? = some r' ∧ r.uniqueID = l.resourceID ∧ r'.uniqueID = l'.resourceID ∧
      r.group.buildResourceIndexMap[index]? = some k ∧ multi[j]? = some k ∧
      multi'[j]? = some (index + 1)

/-- **The indices a multi-property was written with are resolved to the properties at the places of
those it had.** -/
theorem resolvePIndices_ok (hm : m.Valid) {m' : MaterialModel V}
    (hr : Reread reading m.propertyResources m'.propertyResources)
    {layers layers' : List MultiPropertyLayer} {multi : MultiProperty} {indices : List Nat}
    (hl : SameLayers m.propertyResources m'.propertyResources layers layers')
    (h : LayerIndices m.propertyResources layers multi indices) :
    ∃ multi', Reader.resolvePIndices m' layers' indices = .ok multi' ∧
      SameProperties m.propertyResources m'.propertyResources layers layers' multi multi' := by
  induction h generalizing layers' with
  | nil multi =>
    rw [List.forall₂_nil_left_iff.1 hl]
    exact ⟨[], rfl, fun j l l' hj => by simp at hj⟩
  | @cons r l k i layers multi indices hmem hid hk rest ih =>
    obtain ⟨l', layers₁, ⟨place, r₁, r', hR, hR', h1, h2, h3⟩, hrest, rfl⟩ :=
      List.forall₂_cons_left_iff.1 hl
    -- the resource of the layer is the one at the place
    obtain rfl : r = r₁ := by
      have hf := find?_resource hm.resources_nodup hmem
      rw [hid, ← h1, find?_resource hm.resources_nodup (List.mem_of_getElem? hR)] at hf
      exact (Option.some.inj hf).symm
    obtain ⟨x, r₂, hfind, hR'', hx⟩ := hr.find? hR
    obtain rfl := Option.some.inj (hR'.symm.trans hR'')
    have hgroup : m'.findGroup l'.resourceID = some r'.group := by
      rw [MaterialModel.findGroup, ← h2, hx.uniqueID, hfind]
      rfl
    obtain ⟨multi', hres, hsame⟩ := ih hrest
    refine ⟨(i + 1) :: multi', ?_, ?_⟩
    · unfold Reader.resolvePIndices
      simp only [hgroup, List.headD_cons, hx.getElem?_keys hk, List.tail_cons, hres]
      rfl
    · intro j l₁ l₁' hj hj'
      cases j with
      | zero =>
        obtain rfl : l = l₁ := Option.some.inj hj
        obtain rfl : l' = l₁' := Option.some.inj hj'
        exact ⟨place, i, k, r, r', hR, hR', hid, h2, hk, rfl, rfl⟩
      | succ j => exact hsame j l₁ l₁' hj hj'

/-! ## Writing a group -/

/-- The `multi` element of a multi-property. -/
def MaterialModel.multiElement (m : MaterialModel V) (layers : List MultiPropertyLayer)
    (multi : MultiProperty) : List (String × String) :=
  [("pindices", Writer.indicesText (m.pindices layers multi))]

/-- The element of a group. -/
def MaterialModel.groupElement (m : MaterialModel V) (g : MultiPropertyGroup) :
    MultiPropertiesElement where
  attributes := [("id", toString (writeIntAttribute g.uniqueID)), ("pids", Writer.pidsText g.layers),
    ("blendmethods", Writer.blendMethodsText g.layers)]
  multis := g.group.entries.values.map (m.multiElement g.layers)

/-- The multi-properties of the group have their indices. -/
def MaterialModel.HasIndices (m : MaterialModel V) (g : MultiPropertyGroup) : Prop :=
  ∀ multi ∈ g.group.entries.values,
    LayerIndices m.propertyResources g.layers multi (m.pindices g.layers multi)

/-- The properties of another resource leave the indices. -/
theorem Indexes.registerPropertyID {mapping mapping' : PropertyIndexMapping}
    {R : List (PropertyResource V)} (hi : Indexes mapping R) {id k i : Nat}
    (hid : ∀ r ∈ R, r.uniqueID ≠ id) (h : mapping.registerPropertyID id k i = .ok mapping') :
    Indexes mapping' R := by
  unfold PropertyIndexMapping.registerPropertyID at h
  split_ifs at h
  obtain rfl := Except.ok.inj h
  intro r hr k' i'
  have hne : toLex (r.uniqueID, k') ≠ toLex (id, k) := by
    intro he
    exact hid r hr (Prod.mk.inj (toLex.injective he)).1
  rw [SortedMap.find?_insert, if_neg hne]
  exact hi r hr k' i'

/-- **A group is written with its layers and the indices of its multi-properties.** -/
theorem writeMultiPropertyGroup_ok (hm : m.Valid) {g : MultiPropertyGroup}
    (hg : g ∈ m.multiPropertyGroups)
    {written written' : PropertyIndexMapping × List MultiPropertiesElement}
    (hi : Indexes written.1 m.propertyResources)
    (h : Writer.writeMultiPropertyGroup written g = .ok written') :
    Indexes written'.1 m.propertyResources ∧ written'.2 = written.2 ++ [m.groupElement g] ∧
      m.HasIndices g := by
  have hid : ∀ r ∈ m.propertyResources, r.uniqueID ≠ g.uniqueID := fun r hr =>
    (List.nodup_append.1 hm.nodup).2.2 _ (List.mem_map_of_mem hr) _ (List.mem_map_of_mem hg)
  have hl : ∀ l ∈ g.layers, ∃ r ∈ m.propertyResources, r.uniqueID = l.resourceID :=
    fun l => hm.layer_resource hg
  unfold Writer.writeMultiPropertyGroup at h
  obtain ⟨attributes, ha, h⟩ := bind_eq_ok.1 h
  obtain ⟨multis, hmultis, h⟩ := bind_eq_ok.1 h
  obtain rfl := Except.ok.inj h
  have hattributes : attributes = (m.groupElement g).attributes := by
    unfold Writer.writeMultiPropertyAttributes at ha
    obtain ⟨id, h1, ha⟩ := bind_eq_ok.1 ha
    obtain ⟨pids, h2, ha⟩ := bind_eq_ok.1 ha
    obtain ⟨blendMethods, h3, ha⟩ := bind_eq_ok.1 ha
    rw [← Except.ok.inj ha, writeEscaped_ok h1, writeEscaped_ok h2, writeEscaped_ok h3]
    rfl
  have h0 : Indexes written.1 m.propertyResources ∧ List.Forall₂ (fun k e => ∃ multi,
      g.group.entries.find? k = some multi ∧ e = m.multiElement g.layers multi ∧
      LayerIndices m.propertyResources g.layers multi (m.pindices g.layers multi)) [] [] :=
    ⟨hi, .nil⟩
  obtain ⟨hi', hall⟩ := foldlM_zipIdx_ok (fun done w => Indexes w.1 m.propertyResources ∧
    List.Forall₂ (fun k e => ∃ multi, g.group.entries.find? k = some multi ∧
      e = m.multiElement g.layers multi ∧
      LayerIndices m.propertyResources g.layers multi (m.pindices g.layers multi)) done w.2)
    (fun done w k w' ⟨hw, hall⟩ hs => by
      unfold Writer.writeMulti at hs
      obtain ⟨mapping, hmap, hs⟩ := bind_eq_ok.1 hs
      obtain ⟨multi, hget, hs⟩ := bind_eq_ok.1 hs
      obtain ⟨indices, hind, hs⟩ := bind_eq_ok.1 hs
      obtain ⟨text, ht, hs⟩ := bind_eq_ok.1 hs
      obtain rfl := Except.ok.inj hs
      have hw' := hw.registerPropertyID hid hmap
      have hli := layerIndices_of_pindices hw' hl hind
      refine ⟨hw', List.rel_append hall (.cons ⟨multi, PropertyGroup.get_eq_ok.1 hget, ?_, ?_⟩ .nil)⟩
      · rw [writeEscaped_ok ht, hli.eq_pindices hm]
        rfl
      · rw [← hli.eq_pindices hm]
        exact hli) h0 hmultis
  rw [PropertyGroup.buildResourceIndexMap, SortedMap.keys, List.forall₂_map_left_iff] at hall
  have hvalue : ∀ e ∈ g.group.entries.entries, g.group.entries.find? e.1 = some e.2 :=
    fun e he => SortedMap.find?_eq_some.2 he
  refine ⟨hi', ?_, fun multi hmulti => ?_⟩
  · have hmap := forall₂_eq_map (g := fun e => m.multiElement g.layers e.2) (fun e x he hx => by
      obtain ⟨multi, hf, hx, -⟩ := hx
      rw [hvalue e he] at hf
      rw [hx, ← Option.some.inj hf]) hall
    rw [hattributes, hmap]
    unfold MaterialModel.groupElement SortedMap.values
    rw [List.map_map]
    rfl
  · obtain ⟨e, he, rfl⟩ := List.mem_map.1 hmulti
    obtain ⟨x, -, multi', hf, -, hli⟩ := forall₂_mem hall he
    rw [hvalue e he] at hf
    rwa [Option.some.inj hf]

/-- **The property resources and the multi-property groups are written in order.** -/
theorem writeMaterials_ok {m : MaterialModel ModelProperty} {printed : PrintedNumbers} (hm : m.Valid)
    {doc : MaterialsElement} (h : Writer.writeMaterials printed m = .ok doc) :
    WrittenElements (Writer.writeProperties printed) m.propertyResources doc.propertyResources ∧
      doc.multiProperties = m.multiPropertyGroups.map m.groupElement ∧
      ∀ g ∈ m.multiPropertyGroups, m.HasIndices g := by
  unfold Writer.writeMaterials at h
  obtain ⟨resources, hr, h⟩ := bind_eq_ok.1 h
  obtain ⟨multis, hmultis, h⟩ := bind_eq_ok.1 h
  obtain rfl := Except.ok.inj h
  obtain ⟨hmapped, hres⟩ := writePropertyResources_ok hm.resources_nodup hr
  have h0 : Indexes resources.1 m.propertyResources ∧
      ([] : List MultiPropertiesElement) = ([] : List MultiPropertyGroup).map m.groupElement ∧
      ∀ g ∈ ([] : List MultiPropertyGroup), m.HasIndices g :=
    ⟨hmapped.indexes hm.resources_nodup, rfl, by simp⟩
  obtain ⟨-, he, hind⟩ := foldlM_ok (fun done w => Indexes w.1 m.propertyResources ∧
    w.2 = done.map m.groupElement ∧ ∀ g ∈ done, m.HasIndices g)
    (fun done w g w' hg ⟨hw, he, hind⟩ hs => by
      obtain ⟨hw', he', hg'⟩ := writeMultiPropertyGroup_ok hm hg hw hs
      refine ⟨hw', by rw [he', he, List.map_append]; rfl, fun g' hg'' => ?_⟩
      rcases List.mem_append.1 hg'' with hd | hd
      · exact hind g' hd
      · rw [List.mem_singleton.1 hd]
        exact hg') h0 hmultis
  exact ⟨hres, he, hind⟩

end NMR
