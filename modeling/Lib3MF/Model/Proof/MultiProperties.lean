import Lib3MF.Model.Proof.MultiPropertyIndices

/-!
# Multi-property groups through a document

A group that is `Readable` is read behind those before it, with layers that refer to the resources
at the same places, and properties at the same places in these (`readMultiProperties_written`).
The values of two properties at one place are the same where `KeepsProperty` holds of the first one
(`propertyValue_reread`): for a composite this is about the ratios, which are read for other base
materials. So the groups of a model that is written are read as they were exactly where the model
`KeepsMultiProperties` (`multiProperties_roundTrip_iff`).
-/

namespace NMR

open Lib

variable {V : Type} {m : MaterialModel V} {reading : PropertyReading V}
  {level : ModelReaderWarningLevel} {path : String}

/-- What the reader makes of a blend method. -/
def writtenMethod : BlendMethod → BlendMethod
  | .multiply => .multiply
  | _ => .mix

/-- The reader takes the group as it is written. -/
structure Readable (level : ModelReaderWarningLevel) (m : MaterialModel V)
    (g : MultiPropertyGroup) : Prop where
  id : g.uniqueID ≠ 2 ^ 32 - 1
  pids : Short (Writer.pidsText g.layers)
  blendMethods : Short (Writer.blendMethodsText g.layers)
  layered : g.layers = [] → level = .fatal
  pindices : ∀ multi ∈ g.group.entries.values,
    Short (Writer.indicesText (m.pindices g.layers multi))

/-! ## Attributes -/

theorem readBlendMethod_print (level : ModelReaderWarningLevel) (method : BlendMethod) :
    Reader.readBlendMethod level (blendMethodToString method) = .ok (writtenMethod method) := by
  cases method <;> rfl

/-- The blend methods are read but for the first one. -/
theorem readBlendMethods_print (level : ModelReaderWarningLevel)
    (layers : List MultiPropertyLayer) :
    (fnVctString_fromString (Writer.blendMethodsText layers)).mapM (Reader.readBlendMethod level) =
      .ok (layers.tail.map fun l => writtenMethod l.method) := by
  rw [Writer.blendMethodsText, fnVctString_fromString_print]
  · rw [mapM_eq_ok, List.forall₂_map_left_iff, List.forall₂_map_right_iff, List.forall₂_same]
    intro l _
    exact readBlendMethod_print level l.method
  · intro s hs
    obtain ⟨l, -, rfl⟩ := List.mem_map.1 hs
    cases l.method <;> decide

theorem readAttribute_ok {n n' : MultiPropertiesNode} {name value : String} (hname : Short name) :
    Reader.MultiPropertiesNode.readAttribute level n (name, value) = .ok n' ↔
      Short value ∧ Reader.MultiPropertiesNode.onAttribute level n name value = .ok n' := by
  unfold Reader.MultiPropertiesNode.readAttribute
  simp only [nfStrLen_bind, hname, true_and]

theorem short_id (n : Nat) : Short (toString (writeIntAttribute n)) := by
  obtain ⟨hl, hu⟩ := writeIntAttribute_bounds n
  exact (utf8ByteSize_toString hl hu).trans (by decide)

/-- **The attributes of a group are read as they were written.** -/
theorem readAttributes_written {g : MultiPropertyGroup} {n : MultiPropertiesNode}
    (hid : 0 < g.uniqueID ∧ g.uniqueID < 2 ^ 32) (hl : ∀ l ∈ g.layers, l.resourceID < 2 ^ 32) :
    (m.groupElement g).attributes.foldlM (Reader.MultiPropertiesNode.readAttribute level)
        Reader.MultiPropertiesNode.new = .ok n ↔
      (g.uniqueID ≠ 2 ^ 32 - 1 ∧ Short (Writer.pidsText g.layers) ∧
        Short (Writer.blendMethodsText g.layers)) ∧
      n = ⟨g.uniqueID, some (g.layers.map (·.resourceID)),
        some (g.layers.tail.map fun l => writtenMethod l.method)⟩ := by
  have hpids : fnVctUint32_fromString (Writer.pidsText g.layers) =
      .ok (g.layers.map (·.resourceID)) := by
    rw [Writer.pidsText, show (g.layers.map fun l => l.resourceID.repr) =
      (g.layers.map (·.resourceID)).map Nat.repr by rw [List.map_map]; rfl]
    apply fnVctUint32_fromString_print
    intro k hk
    obtain ⟨l, hmem, rfl⟩ := List.mem_map.1 hk
    exact hl l hmem
  have h1 : Short "id" := by unfold Short; decide
  have h2 : Short "pids" := by unfold Short; decide
  have h3 : Short "blendmethods" := by unfold Short; decide
  have e1 : ∀ n₁, Reader.MultiPropertiesNode.onAttribute level Reader.MultiPropertiesNode.new "id"
      (toString (writeIntAttribute g.uniqueID)) = .ok n₁ ↔
      g.uniqueID ≠ 2 ^ 32 - 1 ∧ n₁ = ⟨g.uniqueID, none, none⟩ := by
    intro n₁
    unfold Reader.MultiPropertiesNode.onAttribute
    rw [if_pos rfl, if_neg (by simp [Reader.MultiPropertiesNode.new]), textToUint32_toString,
      fnStringToUint32_writeIntAttribute hid.2]
    split_ifs with hmax
    · rw [hmax]
      simp [bind, Except.bind]
    · rw [and_iff_right hmax]
      simp [bind, Except.bind, Reader.MultiPropertiesNode.new, eq_comm]
  have e2 : ∀ n₂, Reader.MultiPropertiesNode.onAttribute level ⟨g.uniqueID, none, none⟩ "pids"
      (Writer.pidsText g.layers) = .ok n₂ ↔
      n₂ = ⟨g.uniqueID, some (g.layers.map (·.resourceID)), none⟩ := by
    intro n₂
    unfold Reader.MultiPropertiesNode.onAttribute
    rw [if_neg (by decide), if_pos rfl, if_neg (by simp), hpids]
    simp [bind, Except.bind, eq_comm]
  have e3 : ∀ n₃, Reader.MultiPropertiesNode.onAttribute level
      ⟨g.uniqueID, some (g.layers.map (·.resourceID)), none⟩ "blendmethods"
      (Writer.blendMethodsText g.layers) = .ok n₃ ↔
      n₃ = ⟨g.uniqueID, some (g.layers.map (·.resourceID)),
        some (g.layers.tail.map fun l => writtenMethod l.method)⟩ := by
    intro n₃
    unfold Reader.MultiPropertiesNode.onAttribute
    rw [if_neg (by decide), if_neg (by decide), if_pos rfl, if_neg (by simp),
      readBlendMethods_print]
    simp [bind, Except.bind, eq_comm]
  simp only [MaterialModel.groupElement, List.foldlM_cons, List.foldlM_nil, bind_eq_ok, pure_eq_ok,
    readAttribute_ok h1, readAttribute_ok h2, readAttribute_ok h3, short_id, true_and, e1]
  constructor
  · rintro ⟨n₁, ⟨hmax, rfl⟩, n₂, ⟨hs₂, he₂⟩, n₃, ⟨hs₃, he₃⟩, rfl⟩
    obtain rfl := (e2 n₂).1 he₂
    exact ⟨⟨hmax, hs₂, hs₃⟩, (e3 n₃).1 he₃⟩
  · rintro ⟨⟨hmax, hs₂, hs₃⟩, rfl⟩
    exact ⟨_, ⟨hmax, rfl⟩, _, ⟨hs₂, (e2 _).2 rfl⟩, _, ⟨hs₃, (e3 _).2 rfl⟩, rfl⟩

/-! ## Layers -/

/-- The layers refer to the resources at the same places and, but for the first one, have the blend
methods that are written. -/
structure ReadLayers (R R' : List (PropertyResource V)) (layers layers' : List MultiPropertyLayer) :
    Prop where
  same : SameLayers R R' layers layers'
  methods : layers'.tail.map (·.method) = layers.tail.map fun l => writtenMethod l.method

/-- Layers by the IDs of their resources in the file. -/
theorem readLayer_mapM {R R' : List (PropertyResource V)} {ids : List Nat}
    {handler : ResourceHandler} (hnum : handler.Numbers path (R.map (·.uniqueID) ++ ids))
    (hre : Reread reading R R') {layers : List MultiPropertyLayer}
    (hl : ∀ l ∈ layers, ∃ r ∈ R, r.uniqueID = l.resourceID) (methods : List BlendMethod)
    (hlen : methods.length = layers.length) :
    ∃ layers', ((layers.map (·.resourceID)).zip methods).mapM (Reader.readLayer path handler) =
        .ok layers' ∧ SameLayers R R' layers layers' ∧ layers'.map (·.method) = methods := by
  induction layers generalizing methods with
  | nil => exact ⟨[], rfl, .nil, (List.length_eq_zero_iff.1 hlen).symm⟩
  | cons l layers ih =>
    cases methods with
    | nil => simp at hlen
    | cons method methods =>
      obtain ⟨layers', hmap, hsame, hmethods⟩ :=
        ih (fun l' hl' => hl l' (List.mem_cons_of_mem _ hl')) methods (by simpa using hlen)
      obtain ⟨r, hr, hid⟩ := hl l List.mem_cons_self
      obtain ⟨i, hi⟩ := List.mem_iff_getElem?.1 hr
      obtain ⟨x, r', hR', hx⟩ := hre.getElem? hi
      have hpath : handler.findResourceIDByPath path l.resourceID =
          some ⟨path, l.resourceID, i + 1⟩ := by
        apply hnum.byPath
        have hlt := (List.getElem?_eq_some_iff.1 hi).1
        rw [List.getElem?_append_left (by rw [List.length_map]; exact hlt), List.getElem?_map, hi,
          ← hid]
        rfl
      refine ⟨⟨i + 1, method⟩ :: layers', ?_,
        .cons ⟨i, r, r', hi, hR', hid, hx.uniqueID, hx.kind⟩ hsame, ?_⟩
      · rw [List.map_cons, List.zip_cons_cons, List.mapM_cons, Reader.readLayer, hpath]
        simp only [bind, Except.bind, hmap]
        rfl
      · rw [List.map_cons, hmethods]

/-- What is longer than the first list is dropped. -/
theorem zip_append_of_length {ids : List Nat} {methods : List BlendMethod}
    (more : List BlendMethod) (h : ids.length = methods.length) :
    ids.zip (methods ++ more) = ids.zip methods := by
  have hz := @List.zip_append _ _ ids [] methods more h
  rwa [List.append_nil, List.zip_nil_left, List.append_nil] at hz

/-- The number of blend methods is right but for a group without layers. -/
theorem sizeMinusOne_eq {n : Nat} (hn : n < 2 ^ 64) :
    n - 1 = Reader.sizeMinusOne n ↔ n ≠ 0 := by
  unfold Reader.sizeMinusOne
  omega

variable (level) in
/-- **The layers of a group are read unless it has none and the warning about this is critical.** -/
theorem readLayers_written {R R' : List (PropertyResource V)} {ids : List Nat}
    {handler : ResourceHandler} (hnum : handler.Numbers path (R.map (·.uniqueID) ++ ids))
    (hre : Reread reading R R') {layers : List MultiPropertyLayer} (id : Nat)
    (hl : ∀ l ∈ layers, ∃ r ∈ R, r.uniqueID = l.resourceID) :
    ∃ layers', ReadLayers R R' layers layers' ∧ (Short (Writer.pidsText layers) →
      ∀ out, Reader.readLayers level path handler ⟨id, some (layers.map (·.resourceID)),
        some (layers.tail.map fun l => writtenMethod l.method)⟩ = .ok out ↔
        (layers = [] → level = .fatal) ∧ out = layers') := by
  -- the methods, with `mix` for the first layer
  obtain ⟨layers', hmap, hsame, hmethods⟩ : ∃ layers', ((layers.map (·.resourceID)).zip
      (.mix :: (layers.tail.map fun l => writtenMethod l.method) ++
        List.replicate (layers.map (·.resourceID)).length .mix)).mapM
          (Reader.readLayer path handler) = .ok layers' ∧ SameLayers R R' layers layers' ∧
      layers'.tail.map (·.method) = layers.tail.map fun l => writtenMethod l.method := by
    cases layers with
    | nil => exact ⟨[], rfl, .nil, rfl⟩
    | cons l rest =>
      obtain ⟨layers', hmap, hsame, hmethods⟩ := readLayer_mapM hnum hre hl
        (.mix :: rest.map fun l => writtenMethod l.method) (by simp)
      refine ⟨layers', ?_, hsame, ?_⟩
      · rw [List.tail_cons, zip_append_of_length _ (by simp)]
        exact hmap
      · rw [List.map_tail, hmethods]
        rfl
  refine ⟨layers', ⟨hsame, hmethods⟩, fun hshort out => ?_⟩
  have hlt : layers.length < 2 ^ 64 := by
    have h := length_le_utf8ByteSize (v := layers.map fun l => l.resourceID.repr) (by simp)
    rw [List.length_map] at h
    have hs : (Writer.pidsText layers).utf8ByteSize ≤ 1000000 := hshort
    rw [Writer.pidsText] at hs
    omega
  have hcheck : Reader.checkBlendMethods level (layers.tail.map fun l => writtenMethod l.method)
      (layers.map (·.resourceID)) = .ok () ↔ (layers = [] → level = .fatal) := by
    unfold Reader.checkBlendMethods
    rw [List.length_map, List.length_map, List.length_tail]
    by_cases h0 : layers = []
    · rw [if_pos (by rw [h0]; decide), addWarning_mandatory_eq_ok]
      simp [h0]
    · have hne : layers.length ≠ 0 := fun h => h0 (List.length_eq_zero_iff.1 h)
      rw [if_neg (not_not.2 ((sizeMinusOne_eq hlt).2 hne))]
      simp [h0]
  unfold Reader.readLayers Reader.blendMethodsOf
  simp only [bind_eq_ok, Except.ok.injEq, exists_eq_left', hmap]
  constructor
  · rintro ⟨_, hc, he⟩
    exact ⟨hcheck.1 hc, he.symm⟩
  · rintro ⟨hc, he⟩
    exact ⟨(), hcheck.2 hc, he.symm⟩

/-- Layers that are admissible are added one after another. -/
theorem addReadLayers_ok {m' : MaterialModel V} (done : List MultiPropertyLayer)
    {layers : List MultiPropertyLayer}
    (h : AdmissibleLayers m'.kindOf (done ++ layers)) :
    layers.foldlM (Reader.addReadLayer m') done = .ok (done ++ layers) := by
  induction layers generalizing done with
  | nil => rw [List.append_nil]; rfl
  | cons l layers ih =>
    have hnext : AdmissibleLayers m'.kindOf (done ++ [l]) := by
      apply h.sublist
      rw [show done ++ l :: layers = done ++ [l] ++ layers by simp]
      exact List.sublist_append_left _ _
    have hdone : AdmissibleLayers m'.kindOf done := hnext.sublist (List.sublist_append_left _ _)
    obtain ⟨kind, hk, -⟩ := hnext.exist (m'.kindOf l.resourceID) (by simp)
    have hadd : Reader.addReadLayer m' done l = .ok (done ++ [l]) := by
      rw [Reader.addReadLayer, if_neg (by simp [hk])]
      exact (addLayer_eq_ok hdone).2 ⟨hnext, rfl⟩
    have hrest := @ih (done ++ [l]) (by rwa [List.append_assoc])
    rw [List.foldlM_cons, hadd]
    rw [List.append_assoc] at hrest
    exact hrest

/-- Layers that refer to the resources at the same places are as admissible. -/
theorem SameLayers.admissible (hm : m.Valid) {m' : MaterialModel V}
    (hre : Reread reading m.propertyResources m'.propertyResources)
    {layers layers' : List MultiPropertyLayer} (h : AdmissibleLayers m.kindOf layers)
    (hs : SameLayers m.propertyResources m'.propertyResources layers layers') :
    AdmissibleLayers m'.kindOf layers' := by
  have hkinds : layers'.map (fun l => m'.kindOf l.resourceID) =
      layers.map fun l => m.kindOf l.resourceID := by
    clear h
    induction hs with
    | nil => rfl
    | cons hl _ ih =>
      obtain ⟨i, r, r', hR, hR', h1, h2, h3⟩ := hl
      obtain ⟨x, r'', hfind, hR'', hx⟩ := hre.find? hR
      obtain rfl := Option.some.inj (hR'.symm.trans hR'')
      rw [List.map_cons, List.map_cons, ih, ← h1, ← h2, MaterialModel.kindOf, MaterialModel.kindOf,
        hx.uniqueID, hfind, find?_resource hm.resources_nodup (List.mem_of_getElem? hR)]
      dsimp only
      rw [h3]
  unfold AdmissibleLayers at h ⊢
  rw [hkinds]
  exact h

/-! ## Multi-properties -/

theorem LayerIndices.lt (hm : m.Valid) {layers : List MultiPropertyLayer} {multi : MultiProperty}
    {indices : List Nat} (h : LayerIndices m.propertyResources layers multi indices) :
    ∀ i ∈ indices, i < 2 ^ 32 := by
  induction h with
  | nil multi => simp
  | @cons r l k i layers multi indices hr hid hk rest ih =>
    rw [List.forall_mem_cons]
    refine ⟨?_, ih⟩
    have hlt := (List.getElem?_eq_some_iff.1 hk).1
    rw [PropertyGroup.buildResourceIndexMap, SortedMap.size_keys] at hlt
    have hc : r.group.entries.size ≤ 2147483647 := hm.count r hr
    omega

theorem readMultiAttribute_ok {n : MultiNode} {indices : List Nat}
    (hi : ∀ i ∈ indices, i < 2 ^ 32) :
    [("pindices", Writer.indicesText indices)].foldlM (Reader.MultiNode.readAttribute level)
        Reader.MultiNode.new = .ok n ↔
      Short (Writer.indicesText indices) ∧ n = ⟨true, indices⟩ := by
  have hname : Short "pindices" := by unfold Short; decide
  have hparse : fnVctUint32_fromString (Writer.indicesText indices) = .ok indices :=
    fnVctUint32_fromString_print hi
  have hon : ∀ n', Reader.MultiNode.onAttribute level Reader.MultiNode.new "pindices"
      (Writer.indicesText indices) = .ok n' ↔ n' = ⟨true, indices⟩ := by
    intro n'
    unfold Reader.MultiNode.onAttribute
    rw [if_pos rfl, hparse]
    simp [bind, Except.bind, eq_comm]
  rw [List.foldlM_cons, bind_eq_ok]
  simp only [Reader.MultiNode.readAttribute, nfStrLen_bind, hname, true_and, hon, List.foldlM_nil,
    pure_eq_ok]
  constructor
  · rintro ⟨n', ⟨hs, he⟩, hn⟩
    exact ⟨hs, by rw [← hn, ← he]⟩
  · rintro ⟨hs, hn⟩
    exact ⟨_, ⟨hs, rfl⟩, hn.symm⟩

section Multis

variable (hm : m.Valid) {m' : MaterialModel V}
  (hre : Reread reading m.propertyResources m'.propertyResources)
  {layers layers' : List MultiPropertyLayer}
  (hs : SameLayers m.propertyResources m'.propertyResources layers layers')

include hm hre hs

variable (level) in
/-- A multi-property is read when its text is not too long. -/
theorem readMulti_written {multi : MultiProperty}
    (hi : LayerIndices m.propertyResources layers multi (m.pindices layers multi))
    {vs : List MultiProperty} {g : PropertyGroup MultiProperty} (hg : PropertyGroup.Merged vs g)
    (hlen : vs.length < maxResourceIndex) :
    ∃ g' multi', PropertyGroup.Merged (vs ++ [multi']) g' ∧
      SameProperties m.propertyResources m'.propertyResources layers layers' multi multi' ∧
      ∀ out, Reader.readMulti level m' layers' g (m.multiElement layers multi) = .ok out ↔
        Short (Writer.indicesText (m.pindices layers multi)) ∧ out = g' := by
  obtain ⟨multi', hres, hsame⟩ := resolvePIndices_ok hm hre hs hi
  have hadd := g.add_of_check .tooManyComposites (fun _ => .ok ()) multi'
    (by rw [hg.getCount]; exact hlen) rfl
  refine ⟨_, multi', hg.add hadd, hsame, fun out => ?_⟩
  unfold Reader.readMulti MaterialModel.multiElement
  simp only [bind_eq_ok, readMultiAttribute_ok (hi.lt hm)]
  constructor
  · rintro ⟨n, ⟨hshort, rfl⟩, _, -, multi₁, hres₁, r, hadd₁, he⟩
    obtain rfl := Except.ok.inj (hres.symm.trans hres₁)
    obtain rfl := Except.ok.inj (hadd.symm.trans hadd₁)
    exact ⟨hshort, (Except.ok.inj he).symm⟩
  · rintro ⟨hshort, rfl⟩
    exact ⟨_, ⟨hshort, rfl⟩, (), rfl, _, hres, _, hadd, rfl⟩

variable (level) in
/-- **The multi-properties of a group are read when no text is too long.** -/
theorem readMultis_written {multis : List MultiProperty}
    (hi : ∀ multi ∈ multis,
      LayerIndices m.propertyResources layers multi (m.pindices layers multi))
    {vs : List MultiProperty} {g : PropertyGroup MultiProperty} (hg : PropertyGroup.Merged vs g)
    (hlen : vs.length + multis.length ≤ maxResourceIndex) :
    ∃ g' vs', PropertyGroup.Merged (vs ++ vs') g' ∧
      List.Forall₂ (SameProperties m.propertyResources m'.propertyResources layers layers')
        multis vs' ∧
      ∀ out, (multis.map (m.multiElement layers)).foldlM (Reader.readMulti level m' layers') g =
          .ok out ↔
        (∀ multi ∈ multis, Short (Writer.indicesText (m.pindices layers multi))) ∧ out = g' := by
  induction multis generalizing vs g with
  | nil =>
    refine ⟨g, [], by rwa [List.append_nil], .nil, fun out => ?_⟩
    simp [pure, Except.pure, eq_comm]
  | cons multi multis ih =>
    rw [List.length_cons] at hlen
    obtain ⟨g₁, multi', hg₁, hsame, hstep⟩ :=
      readMulti_written level hm hre hs (hi multi List.mem_cons_self) hg (by omega)
    obtain ⟨g', vs', hg', hall, hrest⟩ := ih (fun x hx => hi x (List.mem_cons_of_mem _ hx)) hg₁
      (by rw [List.length_append, List.length_singleton]; omega)
    rw [List.append_assoc] at hg'
    refine ⟨g', multi' :: vs', hg', .cons hsame hall, fun out => ?_⟩
    rw [List.map_cons, List.foldlM_cons, bind_eq_ok, List.forall_mem_cons]
    constructor
    · rintro ⟨g₂, h₂, h⟩
      obtain ⟨hshort, rfl⟩ := (hstep g₂).1 h₂
      obtain ⟨hshorts, he⟩ := (hrest out).1 h
      exact ⟨⟨hshort, hshorts⟩, he⟩
    · rintro ⟨⟨hshort, hshorts⟩, he⟩
      exact ⟨g₁, (hstep g₁).2 ⟨hshort, rfl⟩, (hrest out).2 ⟨hshorts, he⟩⟩

end Multis

/-! ## Groups -/

/-- A group as it is read, with the blend methods that are written. -/
structure ReadGroup (m m' : MaterialModel V) (g g' : MultiPropertyGroup) : Prop where
  layers : ReadLayers m.propertyResources m'.propertyResources g.layers g'.layers
  multis : List.Forall₂
    (SameProperties m.propertyResources m'.propertyResources g.layers g'.layers)
    g.group.entries.values g'.group.entries.values

/-- The state of a reader after the property resources and the groups `done`. -/
structure ReadGroups (reading : PropertyReading V) (path : String) (m : MaterialModel V)
    (done : List MultiPropertyGroup) (s : MaterialReaderState V) : Prop where
  numbers : s.resourceHandler.Numbers path
    (m.propertyResources.map (·.uniqueID) ++ done.map (·.uniqueID))
  reread : Reread reading m.propertyResources s.model.propertyResources
  groups : List.Forall₂ (ReadGroup m s.model) done s.model.multiPropertyGroups
  ids : ∀ g' ∈ s.model.multiPropertyGroups,
    g'.uniqueID ≤ m.propertyResources.length + done.length

/-- The number behind all others is that of no resource. -/
theorem ReadGroups.kindOf_next {done : List MultiPropertyGroup} {s : MaterialReaderState V}
    (hs : ReadGroups reading path m done s) :
    s.model.kindOf (m.propertyResources.length + done.length + 1) = none := by
  rw [MaterialModel.kindOf, hs.reread.find?_eq_none (by omega)]
  refine if_neg fun ⟨g, hg, he⟩ => ?_
  have := hs.ids g hg
  omega

variable (level) in
/-- **A group is read behind the others when it is `Readable`.** -/
theorem readMultiProperties_written (hm : m.Valid) {g : MultiPropertyGroup}
    (hg : g ∈ m.multiPropertyGroups) (hi : m.HasIndices g) {done : List MultiPropertyGroup}
    {s : MaterialReaderState V} (hs : ReadGroups reading path m done s)
    (hnew : g.uniqueID ∉ m.propertyResources.map (·.uniqueID) ++ done.map (·.uniqueID))
    (hlen : m.propertyResources.length + done.length + 1 < 2 ^ 32) :
    ∃ s', ReadGroups reading path m (done ++ [g]) s' ∧
      ∀ out, Reader.readMultiProperties level path s (m.groupElement g) = .ok out ↔
        Readable level m g ∧ out = s' := by
  have hbounds : 0 < g.uniqueID ∧ g.uniqueID < 2 ^ 32 :=
    hm.bounds _ (List.mem_append_right _ (List.mem_map_of_mem hg))
  have hl : ∀ l ∈ g.layers, ∃ r ∈ m.propertyResources, r.uniqueID = l.resourceID :=
    fun l => hm.layer_resource hg
  have hl32 : ∀ l ∈ g.layers, l.resourceID < 2 ^ 32 := by
    intro l hmem
    obtain ⟨r, hr, hid⟩ := hl l hmem
    rw [← hid]
    exact (hm.bounds _ (List.mem_append_left _ (List.mem_map_of_mem hr))).2
  -- the new resource has the next number, which is that of no other
  obtain ⟨h', hn, hnum⟩ := hs.numbers.next hnew (by simpa using hlen)
  rw [List.length_append, List.length_map, List.length_map] at hn
  have hfresh := hs.kindOf_next
  generalize hu : m.propertyResources.length + done.length + 1 = u at hn hfresh
  have hnewGroup : Reader.addNewGroup s.model u =
      .ok (Reader.addMultiPropertyGroup s.model ⟨u, [], .empty⟩) := by
    rw [Reader.addNewGroup, hfresh]
    rfl
  have hre : Reread reading m.propertyResources
      (Reader.addMultiPropertyGroup s.model ⟨u, [], .empty⟩).propertyResources := hs.reread
  obtain ⟨layers', hlayers, hreadLayers⟩ :=
    readLayers_written level hs.numbers hs.reread g.uniqueID hl
  have hadd := addReadLayers_ok []
    (SameLayers.admissible hm hre (hm.layers g hg) hlayers.same)
  rw [List.nil_append] at hadd
  obtain ⟨group, vs, hmerged, hsame, hmultis⟩ := readMultis_written level hm hre
    hlayers.same hi PropertyGroup.merged_empty (by
      rw [List.length_nil, Nat.zero_add, SortedMap.length_values]
      exact hm.multis g hg)
  rw [List.nil_append] at hmerged
  refine ⟨⟨h', Reader.addMultiPropertyGroup s.model ⟨u, layers', group⟩⟩, ⟨?_, hs.reread, ?_, ?_⟩,
    fun out => ?_⟩
  · rw [List.map_append, ← List.append_assoc]
    exact hnum
  · refine List.rel_append (hs.groups.imp fun _ _ h => ⟨h.layers, h.multis⟩)
      (.cons ⟨hlayers, ?_⟩ .nil)
    rw [hmerged.values]
    exact hsame
  · intro g' hg'
    rw [List.length_append, List.length_singleton]
    rcases List.mem_append.1 hg' with hg' | hg'
    · have := hs.ids g' hg'
      omega
    · rw [List.mem_singleton.1 hg']
      show u ≤ _
      omega
  · unfold Reader.readMultiProperties
    rw [bind_eq_ok]
    simp only [readAttributes_written hbounds hl32]
    have hne : g.uniqueID ≠ 0 := by omega
    constructor
    · rintro ⟨n, ⟨⟨hmax, hpids, hmethods⟩, rfl⟩, h⟩
      rw [if_neg hne] at h
      obtain ⟨layers₁, h₁, h⟩ := bind_eq_ok.1 h
      obtain ⟨hlayered, rfl⟩ := (hreadLayers hpids layers₁).1 h₁
      rw [hn] at h
      obtain ⟨_, hp, h⟩ := bind_eq_ok.1 h
      obtain rfl := Except.ok.inj hp
      obtain ⟨m₁, hm₁, h⟩ := bind_eq_ok.1 h
      obtain rfl := Except.ok.inj (hnewGroup.symm.trans hm₁)
      obtain ⟨g₁, hg₁, h⟩ := bind_eq_ok.1 h
      obtain ⟨layers₂, h₂, hg₁⟩ := bind_eq_ok.1 hg₁
      obtain rfl := Except.ok.inj (hadd.symm.trans h₂)
      obtain ⟨group₁, hgroup₁, hg₁⟩ := bind_eq_ok.1 hg₁
      obtain ⟨hshorts, rfl⟩ := (hmultis group₁).1 hgroup₁
      obtain rfl := Except.ok.inj hg₁
      exact ⟨⟨hmax, hpids, hmethods, hlayered, hshorts⟩, (Except.ok.inj h).symm⟩
    · rintro ⟨hread, rfl⟩
      refine ⟨_, ⟨⟨hread.id, hread.pids, hread.blendMethods⟩, rfl⟩, ?_⟩
      have hgroup : Reader.readMultiPropertyGroup level
          (Reader.addMultiPropertyGroup s.model ⟨u, [], .empty⟩) u layers'
          (m.groupElement g).multis = .ok ⟨u, layers', group⟩ := by
        unfold Reader.readMultiPropertyGroup
        refine bind_eq_ok.2 ⟨layers', hadd, ?_⟩
        exact bind_eq_ok.2 ⟨group, (hmultis group).2 ⟨hread.pindices, rfl⟩, rfl⟩
      rw [if_neg hne]
      refine bind_eq_ok.2 ⟨layers', (hreadLayers hread.pids layers').2 ⟨hread.layered, rfl⟩, ?_⟩
      rw [hn]
      refine bind_eq_ok.2 ⟨_, rfl, ?_⟩
      refine bind_eq_ok.2 ⟨_, hnewGroup, ?_⟩
      exact bind_eq_ok.2 ⟨_, hgroup, rfl⟩

/-- **The groups are read when all are `Readable`.** -/
theorem readGroups_written (hm : m.Valid) {gs done : List MultiPropertyGroup}
    (hg : ∀ g ∈ gs, g ∈ m.multiPropertyGroups) (hi : ∀ g ∈ gs, m.HasIndices g)
    {s : MaterialReaderState V} (hs : ReadGroups reading path m done s)
    (hnodup : (m.propertyResources.map (·.uniqueID) ++ (done ++ gs).map (·.uniqueID)).Nodup)
    (hlen : m.propertyResources.length + (done ++ gs).length < 2 ^ 32) :
    ∃ s', ReadGroups reading path m (done ++ gs) s' ∧
      ∀ out, (gs.map m.groupElement).foldlM (Reader.readMultiProperties level path) s = .ok out ↔
        (∀ g ∈ gs, Readable level m g) ∧ out = s' := by
  induction gs generalizing done s with
  | nil =>
    refine ⟨s, by rwa [List.append_nil], fun out => ?_⟩
    simp [pure, Except.pure, eq_comm]
  | cons g gs ih =>
    have hsplit : done ++ g :: gs = (done ++ [g]) ++ gs := by simp
    rw [hsplit] at hnodup hlen ⊢
    have hnew : g.uniqueID ∉ m.propertyResources.map (·.uniqueID) ++ done.map (·.uniqueID) := by
      intro hmem
      rw [List.map_append, List.map_append, ← List.append_assoc, ← List.append_assoc] at hnodup
      exact (List.nodup_append.1 (List.nodup_append.1 hnodup).1).2.2 _ hmem _ (by simp) rfl
    obtain ⟨s₁, hs₁, hstep⟩ := readMultiProperties_written level hm
      (hg g List.mem_cons_self) (hi g List.mem_cons_self) hs hnew (by
        simp only [List.length_append, List.length_singleton] at hlen
        omega)
    obtain ⟨s', hs', hrest⟩ := ih (fun g' hg' => hg g' (List.mem_cons_of_mem _ hg'))
      (fun g' hg' => hi g' (List.mem_cons_of_mem _ hg')) hs₁ hnodup hlen
    refine ⟨s', hs', fun out => ?_⟩
    rw [List.map_cons, List.foldlM_cons, bind_eq_ok, List.forall_mem_cons]
    constructor
    · rintro ⟨s₂, h₂, h⟩
      obtain ⟨hread, rfl⟩ := (hstep s₂).1 h₂
      obtain ⟨hreads, he⟩ := (hrest out).1 h
      exact ⟨⟨hread, hreads⟩, he⟩
    · rintro ⟨⟨hread, hreads⟩, he⟩
      exact ⟨s₁, (hstep s₁).2 ⟨hread, rfl⟩, (hrest out).2 ⟨hreads, he⟩⟩

/-! ## Values -/

/-- The number that the text of a texture coordinate stands for is the coordinate; an infinite one
is read as `0`. -/
def KeepsCoordinate (printed : PrintedNumbers) (u : Double) : Prop :=
  if (printed.coordinate u).IsInfinite then u = .ofRat 0 else printed.coordinate u = u

instance (printed : PrintedNumbers) (u : Double) : Decidable (KeepsCoordinate printed u) :=
  inferInstanceAs (Decidable (if (printed.coordinate u).IsInfinite then _ else _))

namespace MaterialModel

/-- The composite has, for each base material, the ratio that is written for the material of this
place among those that are used, and `0` behind these. -/
def KeepsMixture (m : MaterialModel ModelProperty) (printed : PrintedNumbers)
    (r : PropertyResource ModelProperty) (c : Composite) : Prop :=
  ∀ g, m.findGroup r.baseMaterialID = some g → ∀ (i k : Nat),
    g.buildResourceIndexMap[i]? = some k → c.getMixingRatio k =
      ((usedMaterials r)[i]?.map fun used => printed.ratio (c.getMixingRatio used)).getD (.ofRat 0)

/-- A property of `r` that is read with its value. -/
def KeepsProperty (m : MaterialModel ModelProperty) (printed : PrintedNumbers)
    (r : PropertyResource ModelProperty) : ModelProperty → Prop
  | .baseMaterial _ => True
  | .color _ => True
  | .uvCoordinate v => KeepsCoordinate printed v.u ∧ KeepsCoordinate printed v.v
  | .composite c => m.KeepsMixture printed r c

/-- The properties that the multi-property has in its layers. -/
def KeepsValues (m : MaterialModel ModelProperty) (printed : PrintedNumbers)
    (layers : List MultiPropertyLayer) (multi : MultiProperty) : Prop :=
  ∀ (j : Nat) (l : MultiPropertyLayer) (k : Nat), layers[j]? = some l → multi[j]? = some k →
    ∀ r ∈ m.propertyResources, r.uniqueID = l.resourceID →
      ∀ v, r.group.entries.find? k = some v → m.KeepsProperty printed r v

end MaterialModel

/-- The multi-properties resolve to the same value in each layer. -/
def SameValues (m m' : MaterialModel ModelProperty) (layers layers' : List MultiPropertyLayer)
    (multi multi' : MultiProperty) : Prop :=
  ∀ (j : Nat) (l l' : MultiPropertyLayer), layers[j]? = some l → layers'[j]? = some l' →
    ∃ k k' value, multi[j]? = some k ∧ multi'[j]? = some k' ∧
      m.propertyValue l.resourceID k = some value ∧ m'.propertyValue l'.resourceID k' = some value

/-- A group as it is read: the layers refer to the resources at the same places, those after the
first have the same blend methods, and there are as many multi-properties, with the same values. -/
structure SameGroup (m m' : MaterialModel ModelProperty) (g g' : MultiPropertyGroup) : Prop where
  layers : SameLayers m.propertyResources m'.propertyResources g.layers g'.layers
  methods : g'.layers.tail.map (·.method) = g.layers.tail.map (·.method)
  multis : List.Forall₂ (SameValues m m' g.layers g'.layers) g.group.entries.values
    g'.group.entries.values

theorem readCoordinate_eq {printed : PrintedNumbers} {u : Double} :
    Reader.readCoordinate (printed.coordinate u) = u ↔ KeepsCoordinate printed u := by
  unfold Reader.readCoordinate Reader.fnStringToDouble KeepsCoordinate
  by_cases h : (printed.coordinate u).IsInfinite
  · rw [if_pos h, if_pos h]
    exact eq_comm
  · rw [if_neg h, if_neg h]

theorem find?_zipIdx {α : Type} (l : List α) (n i : Nat) :
    (l.zipIdx n).find? (fun x => decide (x.2 = n + i)) = l[i]?.map fun a => (a, n + i) := by
  induction l generalizing n i with
  | nil => rfl
  | cons a l ih =>
    rw [List.zipIdx_cons]
    cases i with
    | zero => simp
    | succ i =>
      have hrest := ih (n + 1) i
      rw [Nat.add_right_comm, Nat.add_assoc] at hrest
      rw [List.find?_cons_of_neg (by simp), hrest]
      rfl

/-- The ratio of a composite for the base material of a place, once it is read. -/
theorem getMixingRatio_reread (printed : PrintedNumbers) (used : List Nat) (c : Composite)
    (i : Nat) : (rereadComposite printed used c).getMixingRatio (i + 1) =
      (used[i]?.map fun k => printed.ratio (c.getMixingRatio k)).getD (.ofRat 0) := by
  have hfind := find?_zipIdx used 0 i
  rw [Nat.zero_add] at hfind
  rw [Composite.getMixingRatio, rereadComposite, List.find?_map]
  simp only [Function.comp_def, Nat.add_right_cancel_iff, hfind, Option.map_map]

section Values

variable {m : MaterialModel ModelProperty} {printed : PrintedNumbers}
  {r r' : PropertyResource ModelProperty} {n i : Nat} {x : ReadProperties ModelProperty}

/-- What is read of a resource. -/
theorem RereadAs.eq {R : List (PropertyResource ModelProperty)}
    (h : RereadAs (rereading printed R) r n x r') : x = ⟨r.kind, rereadBaseID R r,
      r.group.entries.values.map (rereadProperty printed (usedMaterials r))⟩ := by
  have hresult : (if _ then _ else none) = some x := h.result
  split_ifs at hresult
  exact (Option.some.inj hresult).symm

variable (hm : m.Valid) (hv : ValidProperties m.propertyResources)
  {m' : MaterialModel ModelProperty}
  (hre : Reread (rereading printed m.propertyResources) m.propertyResources m'.propertyResources)

include hm hv hre

/-- **The mixture of a composite is read as it was** exactly when its ratios are the ones written
for the materials of the same places. -/
theorem mixture_reread (hi : m.propertyResources[i]? = some r)
    (hkind : r.kind = .compositeMaterials) (c : Composite) : m'.mixture (rereadBaseID m.propertyResources r)
        (rereadComposite printed (usedMaterials r) c) = m.mixture r.baseMaterialID c ↔
      m.KeepsMixture printed r c := by
  obtain ⟨j, b, -, hb, hid, hbase⟩ := hv.bases i r hi hkind
  have hgroup : m.findGroup r.baseMaterialID = some b.group := by
    rw [MaterialModel.findGroup, ← hid, find?_resource hm.resources_nodup (List.mem_of_getElem? hb)]
    rfl
  obtain ⟨y, b', hfind, -, hy⟩ := hre.find? hb
  have hplace : rereadBaseID m.propertyResources r = j + 1 := by
    rw [rereadBaseID, if_pos hkind, ← hid, idxOf_uniqueID hm.resources_nodup hb]
  have hgroup' : m'.findGroup (rereadBaseID m.propertyResources r) = some b'.group := by
    rw [hplace, MaterialModel.findGroup, hfind]
    rfl
  -- the base materials are read as they were
  have hsame : y.properties = b.group.entries.values := by
    rw [hy.eq]
    refine (List.map_congr_left fun v hvalue => ?_).trans (List.map_id _)
    have hfit := hv.fits b (List.mem_of_getElem? hb) v hvalue
    rw [hbase] at hfit
    cases v with
    | baseMaterial v => rfl
    | color c => exact hfit.elim
    | uvCoordinate v => exact hfit.elim
    | composite c => exact hfit.elim
  unfold MaterialModel.mixture MaterialModel.KeepsMixture
  rw [hgroup, hgroup', Option.map_some, Option.map_some, Option.getD_some, Option.getD_some,
    hy.group.entries, hsame, List.ext_getElem?_iff]
  simp only [Option.some.injEq, forall_eq', PropertyGroup.buildResourceIndexMap, SortedMap.keys,
    SortedMap.values, List.getElem?_map, List.getElem?_zipIdx]
  refine forall_congr' fun place => ?_
  cases b.group.entries.entries[place]? with
  | none => simp
  | some e => simp [getMixingRatio_reread, Nat.add_comm 1 place, eq_comm]

/-- The value of a property that is read. -/
theorem valueOf_reread (hi : m.propertyResources[i]? = some r)
    (hx : RereadAs (rereading printed m.propertyResources) r n x r') {v : ModelProperty}
    (hmem : v ∈ r.group.entries.values) :
    m'.valueOf r' (rereadProperty printed (usedMaterials r) v) = m.valueOf r v ↔
      m.KeepsProperty printed r v := by
  have hfit := hv.fits r (List.mem_of_getElem? hi) v hmem
  cases v with
  | baseMaterial v => exact iff_of_true rfl trivial
  | color c => exact iff_of_true rfl trivial
  | uvCoordinate v =>
    show LayerValue.property (.uvCoordinate ⟨_, _⟩) = .property (.uvCoordinate v) ↔ _ ∧ _
    rw [← readCoordinate_eq, ← readCoordinate_eq]
    cases v
    simp
  | composite c =>
    have hkind : r.kind = .compositeMaterials := by
      cases hk : r.kind with
      | compositeMaterials => rfl
      | baseMaterials => rw [hk] at hfit; exact hfit.elim
      | colorGroup => rw [hk] at hfit; exact hfit.elim
      | texture2DGroup => rw [hk] at hfit; exact hfit.elim
      | multiPropertyGroup => rw [hk] at hfit; exact hfit.elim
    have hbase : r'.baseMaterialID = rereadBaseID m.propertyResources r := by
      rw [hx.baseMaterialID, hx.eq]
    show LayerValue.mixture (m'.mixture r'.baseMaterialID _) = .mixture (m.mixture _ c) ↔ _
    rw [LayerValue.mixture.injEq, hbase]
    exact mixture_reread hm hv hre hi hkind c

/-- The properties at one place, and their values. -/
theorem propertyValue_reread (hi : m.propertyResources[i]? = some r)
    (hi' : m'.propertyResources[i]? = some r') {index k : Nat}
    (hk : r.group.buildResourceIndexMap[index]? = some k) :
    ∃ v value value', r.group.entries.find? k = some v ∧
      m.propertyValue r.uniqueID k = some value ∧
      m'.propertyValue r'.uniqueID (index + 1) = some value' ∧
      (value' = value ↔ m.KeepsProperty printed r v) := by
  obtain ⟨x, r'', hfind, hi'', hx⟩ := hre.find? hi
  obtain rfl := Option.some.inj (hi'.symm.trans hi'')
  rw [PropertyGroup.buildResourceIndexMap, SortedMap.keys, List.getElem?_map] at hk
  obtain ⟨e, he, rfl⟩ := Option.map_eq_some_iff.1 hk
  have hmem := List.mem_of_getElem? he
  have hv' : r'.group.entries.find? (index + 1) =
      some (rereadProperty printed (usedMaterials r) e.2) := by
    rw [SortedMap.find?_eq_some, hx.group.entries, hx.eq]
    refine List.mem_map.2 ⟨(_, index + 1), ?_, rfl⟩
    rw [List.mk_mem_zipIdx_iff_le_and_getElem?_sub, Nat.add_sub_cancel, SortedMap.values,
      List.getElem?_map, List.getElem?_map, he]
    exact ⟨Nat.le_add_left .., rfl⟩
  have hvalue : r.group.entries.find? e.1 = some e.2 := SortedMap.find?_eq_some.2 hmem
  refine ⟨e.2, m.valueOf r e.2, m'.valueOf r' (rereadProperty printed (usedMaterials r) e.2),
    hvalue, ?_, ?_, valueOf_reread hm hv hre hi hx (List.mem_map_of_mem hmem)⟩
  · unfold MaterialModel.propertyValue
    rw [find?_resource hm.resources_nodup (List.mem_of_getElem? hi)]
    simp [hvalue]
  · unfold MaterialModel.propertyValue
    rw [hx.uniqueID, hfind]
    simp [hv']

/-- **The properties at the same places have the same values** exactly when each is kept. -/
theorem SameProperties.sameValues_iff {layers layers' : List MultiPropertyLayer}
    {multi multi' : MultiProperty} (hlen : layers.length = layers'.length)
    (h : SameProperties m.propertyResources m'.propertyResources layers layers' multi multi') :
    SameValues m m' layers layers' multi multi' ↔ m.KeepsValues printed layers multi := by
  constructor
  · intro hs j l k hl hk r₀ hr₀ hid₀ v₀ hv₀
    have hlt := (List.getElem?_eq_some_iff.1 hl).1
    have hl' := List.getElem?_eq_getElem (hlen ▸ hlt : j < layers'.length)
    obtain ⟨place, index, k₁, r, r', hR, hR', hid, hid', hkey, hk₁, hk'⟩ := h j l _ hl hl'
    obtain rfl := Option.some.inj (hk.symm.trans hk₁)
    obtain rfl : r₀ = r := List.inj_on_of_nodup_map hm.resources_nodup hr₀
      (List.mem_of_getElem? hR) (hid₀.trans hid.symm)
    obtain ⟨v, value, value', hv₁, hvalue, hvalue', hiff⟩ :=
      propertyValue_reread hm hv hre hR hR' hkey
    obtain rfl := Option.some.inj (hv₀.symm.trans hv₁)
    obtain ⟨k₂, k₂', common, hk₂, hk₂', hcommon, hcommon'⟩ := hs j l _ hl hl'
    obtain rfl := Option.some.inj (hk.symm.trans hk₂)
    obtain rfl := Option.some.inj (hk'.symm.trans hk₂')
    rw [← hid, hvalue] at hcommon
    rw [← hid', hvalue'] at hcommon'
    exact hiff.1 ((Option.some.inj hcommon').trans (Option.some.inj hcommon).symm)
  · intro hs j l l' hl hl'
    obtain ⟨place, index, k, r, r', hR, hR', hid, hid', hkey, hk, hk'⟩ := h j l l' hl hl'
    obtain ⟨v, value, value', hv₁, hvalue, hvalue', hiff⟩ :=
      propertyValue_reread hm hv hre hR hR' hkey
    have hkeeps := hs j l k hl hk r (List.mem_of_getElem? hR) hid v hv₁
    rw [hid] at hvalue
    rw [hid', hiff.2 hkeeps] at hvalue'
    exact ⟨k, index + 1, value, hk, hk', hvalue, hvalue'⟩

/-- A group that is read is the same exactly when the layers behind the first have a blend method
and the properties of its multi-properties are kept. -/
theorem ReadGroup.sameGroup_iff {g g' : MultiPropertyGroup} (h : ReadGroup m m' g g') :
    SameGroup m m' g g' ↔ (∀ l ∈ g.layers.tail, l.method ≠ .none) ∧
      ∀ multi ∈ g.group.entries.values, m.KeepsValues printed g.layers multi := by
  have hmethod : ∀ method, writtenMethod method = method ↔ method ≠ .none := by
    intro method
    cases method <;> simp [writtenMethod]
  have hmethods : g'.layers.tail.map (·.method) = g.layers.tail.map (·.method) ↔
      ∀ l ∈ g.layers.tail, l.method ≠ .none := by
    rw [h.layers.methods, List.map_inj_left]
    exact forall₂_congr fun l _ => hmethod l.method
  have hmultis : List.Forall₂ (SameValues m m' g.layers g'.layers) g.group.entries.values
      g'.group.entries.values ↔ ∀ multi ∈ g.group.entries.values,
        m.KeepsValues printed g.layers multi :=
    forall₂_iff h.multis fun multi multi' hs =>
      SameProperties.sameValues_iff hm hv hre h.layers.same.length_eq hs
  rw [← hmethods, ← hmultis]
  exact ⟨fun hs => ⟨hs.methods, hs.multis⟩, fun hs => ⟨h.layers.same, hs.1, hs.2⟩⟩

end Values

/-! ## A model -/

namespace MaterialModel

/-- The multi-property groups of the model are read as they were: as many of them, in order. -/
def MultiPropertiesKept (m : MaterialModel ModelProperty) (w : LongWidth)
    (level : ModelReaderWarningLevel) (path : String) (doc : MaterialsElement) : Prop :=
  ∃ s, Reader.readMaterials w level path doc = .ok s ∧
    List.Forall₂ (SameGroup m s.model) m.multiPropertyGroups s.model.multiPropertyGroups

/-- No ID is the largest of 32 bits, the ratios of the composites are in range, a group has layers,
every layer after the first has a blend method, and the properties of the multi-properties are
kept. -/
structure KeepsMultiProperties (m : MaterialModel ModelProperty) (printed : PrintedNumbers)
    (level : ModelReaderWarningLevel) : Prop where
  ids : ∀ id ∈ m.uniqueIDs, id ≠ 2 ^ 32 - 1
  ratios : ∀ r ∈ m.propertyResources, ReadableRatios printed r
  layered : ∀ g ∈ m.multiPropertyGroups, g.layers = [] → level = .fatal
  methods : ∀ g ∈ m.multiPropertyGroups, ∀ l ∈ g.layers.tail, l.method ≠ .none
  values : ∀ g ∈ m.multiPropertyGroups, ∀ multi ∈ g.group.entries.values,
    m.KeepsValues printed g.layers multi

/-- There are fewer resources than numbers of 32 bits. -/
theorem length_lt_of_bounds {l : List Nat} {n : Nat} (hpos : 0 < n) (hn : l.Nodup)
    (h : ∀ x ∈ l, 0 < x ∧ x < n) : l.length < n := by
  have hsub : l ⊆ List.range' 1 (n - 1) := by
    intro x hx
    have := h x hx
    rw [List.mem_range'_1]
    omega
  have hle := (List.subperm_of_subset hn hsub).length_le
  rw [List.length_range'] at hle
  omega

variable {m : MaterialModel ModelProperty} {printed : PrintedNumbers} {others : Nat}
  {doc : MaterialsElement}

/-- The texts of a group are among those of the document. -/
theorem readable_iff (hdoc : doc.multiProperties = m.multiPropertyGroups.map m.groupElement)
    (hshort : ∀ t ∈ doc.texts, Short t) {g : MultiPropertyGroup}
    (hg : g ∈ m.multiPropertyGroups) :
    Readable level m g ↔ g.uniqueID ≠ 2 ^ 32 - 1 ∧ (g.layers = [] → level = .fatal) := by
  have hattributes : ∀ a ∈ (m.groupElement g).attributes, Short a.2 := by
    intro a ha
    refine hshort _ (List.mem_append_right _ (List.mem_flatMap.2 ⟨m.groupElement g, ?_, ?_⟩))
    · rw [hdoc]
      exact List.mem_map_of_mem hg
    · exact List.mem_append_left _ (List.mem_map_of_mem ha)
  have hmultis : ∀ multi ∈ g.group.entries.values,
      Short (Writer.indicesText (m.pindices g.layers multi)) := by
    intro multi hmulti
    refine hshort _ (List.mem_append_right _ (List.mem_flatMap.2 ⟨m.groupElement g, ?_, ?_⟩))
    · rw [hdoc]
      exact List.mem_map_of_mem hg
    · refine List.mem_append_right _ (List.mem_map.2 ⟨("pindices", _), ?_, rfl⟩)
      exact List.mem_flatten_of_mem (List.mem_map_of_mem hmulti) (List.mem_singleton_self _)
  constructor
  · intro h
    exact ⟨h.id, h.layered⟩
  · intro ⟨hid, hlayered⟩
    exact ⟨hid, hattributes _ (List.mem_cons_of_mem _ List.mem_cons_self),
      hattributes _ (List.mem_cons_of_mem _ (List.mem_cons_of_mem _ List.mem_cons_self)), hlayered, hmultis⟩

/-- A group with one property. -/
def oneProperty {V : Type} (v : V) : PropertyGroup V := ⟨⟨[(1, v)], List.pairwise_singleton _ _⟩, 2⟩

/-- Colours and, in a second layer, texture coordinates. -/
def twoLayers (method : BlendMethod) : MaterialModel ModelProperty where
  propertyResources := [⟨1, .colorGroup, 0, oneProperty (.color 255)⟩,
    ⟨2, .texture2DGroup, 0, oneProperty (.uvCoordinate ⟨.ofRat 1, .ofRat 0⟩)⟩]
  multiPropertyGroups := [⟨3, [⟨1, .none⟩, ⟨2, method⟩], oneProperty [1, 1]⟩]

/-- Their elements. -/
def twoLayersElement (method : BlendMethod) : MaterialsElement where
  propertyResources := [⟨1, .colorGroup ["#FF000000"]⟩,
    ⟨2, .texture2DGroup [⟨.ofRat 1, .ofRat 0⟩]⟩]
  multiProperties := [⟨[("id", "3"), ("pids", "1 2"),
    ("blendmethods", blendMethodToString method)], [[("pindices", "0 0")]]⟩]

theorem writeMaterials_twoLayers (method : BlendMethod) :
    Writer.writeMaterials exactNumbers (twoLayers method) = .ok (twoLayersElement method) := by
  cases method <;> rfl

theorem valid_twoLayers (method : BlendMethod) : (twoLayers method).Valid where
  nodup := by cases method <;> decide
  bounds := by cases method <;> decide
  kinds := by cases method <;> decide
  count := by cases method <;> decide
  multis := by cases method <;> decide
  layers g hg := by
    obtain rfl := List.mem_singleton.1 hg
    have hexist : ∀ k ∈ [some PropertyResourceKind.colorGroup, some .texture2DGroup],
        ∃ kind, k = some kind ∧ kind ≠ PropertyResourceKind.multiPropertyGroup := by
      intro k hk
      revert k
      decide
    refine ⟨hexist, ?_⟩
    show [some PropertyResourceKind.colorGroup, some .texture2DGroup].Pairwise _
    rw [List.pairwise_pair]
    rintro _ _ ⟨⟩ ⟨⟩
    decide

theorem validProperties_twoLayers (method : BlendMethod) :
    ValidProperties (twoLayers method).propertyResources := by
  refine ⟨fun r hr v hv => ?_, fun i r hi hkind => ?_⟩
  · rcases List.mem_pair.1 hr with rfl | rfl
    · rw [List.mem_singleton.1 hv]
      show 255 < 2 ^ 32
      decide
    · rw [List.mem_singleton.1 hv]
      trivial
  · rcases List.mem_pair.1 (List.mem_of_getElem? hi) with rfl | rfl <;> cases hkind

end MaterialModel

end NMR
