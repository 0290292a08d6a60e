import Lib3MF.API.Proof.MergeFaces

/-!
# Layers after a merge

`mergeFrom` of a multi-property group adds the layers of the source as they are: a layer of the
copy refers by its number to whatever has that number in the new model. That is the copy of the
resource the source layer refers to exactly when this resource is copied under the number it
already has (`mergeToModel_layers`); resources that were added in another order than the one they
are merged in exchange their places (`mergeToModel_exchanges_layers`).
-/

namespace NMR

open Lib

namespace Model

/-- The indices of a multi-property have the values in the layers `layers'` of `target` that they
had in the layers of `m`. -/
def IndicesKeepValues (m : Model) (layers : List MultiPropertyLayer) (target : Model)
    (layers' : List MultiPropertyLayer) (p p' : MultiProperty) : Prop :=
  p'.length = p.length ∧ ∀ (n : Nat) (l l' : MultiPropertyLayer) (k k' : Nat), layers[n]? = some l →
    layers'[n]? = some l' → p[n]? = some k → p'[n]? = some k' → ∀ v,
    m.propertyValue l.resourceID k = some v → target.propertyValue l'.resourceID k' = some v

/-- Every multi-property group of `m` has its copy in the new model: the layers refer to the
copies of the resources they referred to, blend as before, and the properties keep the values of
their indices. -/
def LayersCopied (m : Model) (out : MergeResult) : Prop :=
  ∀ i r layers g, m.mergeOrder[i]? = some r → m.data? r = some (.multiPropertyGroup layers g) →
    ∃ layers' g', out.target.data? i = some (.multiPropertyGroup layers' g') ∧
      List.Forall₂ (fun l l' => out.oldToNewUniqueResourceIDs.find? l.resourceID =
        some l'.resourceID ∧ l'.method = l.method) layers layers' ∧
      List.Forall₂ (m.IndicesKeepValues layers out.target layers') g.entries.values
        g'.entries.values

/-- The resource with the unique ID `id` is copied under the same ID. -/
def KeepsID (m : Model) (id : Nat) : Prop := (m.lastWithID id m.mergeOrder).map idOf = some id

instance (m : Model) (id : Nat) : Decidable (m.KeepsID id) :=
  inferInstanceAs (Decidable (_ = _))

/-- The layers of the multi-property groups refer to resources that keep their IDs, and each index
has the value of the property at the position it names. -/
def LayersKeepIDs (m : Model) : Prop :=
  ∀ r ∈ m.mergeOrder, ∀ layers g, m.data? r = some (.multiPropertyGroup layers g) →
    (∀ l ∈ layers, m.KeepsID l.resourceID) ∧
    ∀ p ∈ g.entries.values, ∀ (n : Nat) (l : MultiPropertyLayer) (k : Nat),
      layers[n]? = some l → p[n]? = some k → ∀ v,
      m.propertyValue l.resourceID k = some v → m.renumberedValue l.resourceID k = some v

variable {source : Model} {mesh : Mesh} {out : MergeResult} {layers : List MultiPropertyLayer}

/-- A layer is as it was, which is right if its resource keeps its ID. -/
theorem MergedTo.layers_iff (h : MergedTo source mesh out) :
    List.Forall₂ (fun (l l' : MultiPropertyLayer) => out.oldToNewUniqueResourceIDs.find?
        l.resourceID = some l'.resourceID ∧ l'.method = l.method) layers layers ↔
      ∀ l ∈ layers, source.KeepsID l.resourceID := by
  rw [List.forall₂_same]
  refine forall₂_congr fun l _ => ?_
  rw [h.mapping, KeepsID]
  exact and_iff_left rfl

/-- Under the IDs they keep, the indices have the renumbered values. -/
theorem MergedTo.indices_iff (h : MergedTo source mesh out)
    (hl : ∀ l ∈ layers, source.KeepsID l.resourceID) (p : MultiProperty) :
    source.IndicesKeepValues layers out.target layers p p ↔
      ∀ (n : Nat) (l : MultiPropertyLayer) (k : Nat), layers[n]? = some l → p[n]? = some k → ∀ v,
        source.propertyValue l.resourceID k = some v →
        source.renumberedValue l.resourceID k = some v := by
  have hval : ∀ l ∈ layers, ∀ k, out.target.propertyValue l.resourceID k =
      source.renumberedValue l.resourceID k := by
    intro l hm k
    obtain ⟨i, hi, hid⟩ := Option.map_eq_some_iff.1 (hl l hm)
    have hv := h.propertyValue hi k
    rwa [hid] at hv
  constructor
  · intro ⟨_, hk⟩ n l k hn hp v hv
    rw [← hval l (List.mem_of_getElem? hn)]
    exact hk n l l k k hn hn hp hp v hv
  · intro hk
    refine ⟨rfl, fun n l l' k k' hn hn' hp hp' v hv => ?_⟩
    rw [hn] at hn'
    cases hn'
    rw [hp] at hp'
    cases hp'
    rw [hval l (List.mem_of_getElem? hn)]
    exact hk n l k hn hp v hv

/-- **The layers of the groups of a merged model are right if and only if they refer to resources
that keep their IDs and their indices name the positions of the properties.** -/
theorem mergeToModel_layers (uninit : FaceProperties) (m : Model) (fuel : Nat)
    (out : MergeResult) (h : (m.mergeToModel uninit fuel).run = some (.ok out)) :
    m.LayersCopied out ↔ m.LayersKeepIDs := by
  obtain ⟨mesh, -, hto⟩ := mergeToModel_spec h
  constructor
  · intro hc r hr layers g hd
    obtain ⟨i, hi⟩ := List.mem_iff_getElem?.1 hr
    obtain ⟨layers', g', hd', hlayers, hvals⟩ := hc i r layers g hi hd
    -- the copy has the layers of the source and its properties in their order
    obtain ⟨d, d', he, he', hcopy, -⟩ := hto.copies i r hi
    rw [hd] at he
    rw [hd'] at he'
    cases he
    cases he'
    cases hcopy with
    | multiPropertyGroup hg =>
      have hl := hto.layers_iff.1 hlayers
      rw [hg.values, List.forall₂_same] at hvals
      exact ⟨hl, fun p hp => (hto.indices_iff hl p).1 (hvals p hp)⟩
  · intro hk i r layers g hi hd
    obtain ⟨hl, hp⟩ := hk r (List.mem_of_getElem? hi) layers g hd
    obtain ⟨d, d', he, he', hcopy, -⟩ := hto.copies i r hi
    rw [hd] at he
    cases he
    cases hcopy with
    | multiPropertyGroup hg =>
      refine ⟨layers, _, he', hto.layers_iff.2 hl, ?_⟩
      rw [hg.values, List.forall₂_same]
      exact fun p hm => (hto.indices_iff hl p).2 (hp p hm)

/-- One base material. -/
def oneMaterial : PropertyGroup BaseMaterial := ⟨⟨[(1, ⟨"PLA", 0xffffffff⟩)], by decide⟩, 2⟩

/-- A layer on the resource with the unique ID `1`, and a property that takes its property `1`. -/
def layered : ResourceData := .multiPropertyGroup [⟨1, .none⟩] ⟨⟨[(1, [1])], by decide⟩, 2⟩

/-- Base materials with the ID `1`, colours with the ID `2`, and the layer. -/
def materialLayerCalls : List Call :=
  [.add .baseMaterials, .edit 0 (.baseMaterials oneMaterial), .add .colorGroup,
    .edit 1 (.colorGroup twoColors), .add .multiPropertyGroup, .edit 2 layered]

/-- Colours with the ID `1`, base materials with the ID `2`, and the layer. -/
def colorLayerCalls : List Call :=
  [.add .colorGroup, .edit 0 (.colorGroup twoColors), .add .baseMaterials,
    .edit 1 (.baseMaterials oneMaterial), .add .multiPropertyGroup, .edit 2 layered]

/-- Base materials are merged before colours, so that these keep their IDs. -/
theorem mergeToModel_layers_material : ∃ out, merged materialLayerCalls = some out ∧
    (run Model.next .new materialLayerCalls).LayersCopied out := by
  obtain ⟨out, hout, hrun⟩ := @merged_spec materialLayerCalls (by decide +kernel)
  refine ⟨out, hout, (mergeToModel_layers .invalid _ 1 out hrun).2 fun r hr layers g hd => ?_⟩
  have horder : (run Model.next .new materialLayerCalls).mergeOrder = [0, 1, 2] := by
    decide +kernel
  have hdata : (run Model.next .new materialLayerCalls).data? 0 =
        some (.baseMaterials oneMaterial) ∧
      (run Model.next .new materialLayerCalls).data? 1 = some (.colorGroup twoColors) ∧
      (run Model.next .new materialLayerCalls).data? 2 = some layered := by decide +kernel
  have hkeeps : (run Model.next .new materialLayerCalls).KeepsID 1 := by decide +kernel
  have hval : (run Model.next .new materialLayerCalls).propertyValue 1 1 =
      (run Model.next .new materialLayerCalls).renumberedValue 1 1 := by decide +kernel
  rw [horder] at hr
  have h2 : some layered = some (.multiPropertyGroup layers g) := by
    simp only [List.mem_cons, List.not_mem_nil, or_false] at hr
    rcases hr with rfl | rfl | rfl
    · rw [hdata.1] at hd; cases hd
    · rw [hdata.2.1] at hd; cases hd
    · rw [← hdata.2.2, hd]
  cases h2
  refine ⟨fun l hl => ?_, fun p hp n l k hn hk v hv => ?_⟩
  · cases List.mem_singleton.1 hl
    exact hkeeps
  · cases List.mem_singleton.1 hp
    cases n with
    | zero =>
      cases hn
      cases hk
      rw [← hval]
      exact hv
    | succ n => cases hn

/-- The colours get the ID `2` and the base materials `1`: the layer then refers to these. -/
theorem mergeToModel_exchanges_layers :
    ¬ ∀ calls m, Reaches Model.next .new calls m → ∀ uninit fuel out,
      (m.mergeToModel uninit fuel).run = some (.ok out) → m.LayersCopied out := by
  intro h
  obtain ⟨out, hout, hrun⟩ := @merged_spec colorLayerCalls (by decide +kernel)
  obtain ⟨layers', g', hd', hl, -⟩ := h _ _ (reaches_run _ colorLayerCalls) .invalid 1 out hrun
    2 2 [⟨1, .none⟩] ⟨⟨[(1, [1])], by decide⟩, 2⟩ (by decide +kernel) (by decide +kernel)
  have hmerged : (merged colorLayerCalls).map (fun out =>
      (out.target.data? 2, out.oldToNewUniqueResourceIDs.find? 1)) =
      some (some layered, some 2) := by decide +kernel
  rw [hout, Option.map_some] at hmerged
  simp only [Option.some.injEq, Prod.mk.injEq] at hmerged
  rw [hd'] at hmerged
  cases hmerged.1
  cases hl with
  | cons hl _ =>
    have h1 : out.oldToNewUniqueResourceIDs.find? 1 = some 1 := hl.1
    rw [hmerged.2] at h1
    cases h1

end Model

end NMR
