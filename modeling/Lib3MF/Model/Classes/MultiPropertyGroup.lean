import Lib3MF.Model.Classes.MeshModel
import Lib3MF.Model.Classes.ModelTypes

/-!
# Multi-property groups

`CModelMultiPropertyGroupResource` and the resources its layers refer to: base materials, colour
groups, texture coordinate groups and composite materials, each a `PropertyResource`. What a
property of these is stays open where it does not matter, as in `MeshModel`; otherwise it is a
`ModelProperty`. A property of a multi-property group has a property ID per layer. The texture of a
texture coordinate group is left out.
-/

namespace NMR

open Lib

/-- A property of a resource with base materials, colours, texture coordinates or composites. -/
inductive ModelProperty where
  | baseMaterial (v : BaseMaterial)
  | color (c : Nat)
  | uvCoordinate (v : UVCoordinate)
  | composite (v : Composite)
  deriving DecidableEq

/-- The property is one of the class; colours have 32 bits. -/
def ModelProperty.Fits : ModelProperty → PropertyResourceKind → Prop
  | .baseMaterial v, .baseMaterials => v.displayColor < 2 ^ 32
  | .color c, .colorGroup => c < 2 ^ 32
  | .uvCoordinate _, .texture2DGroup => True
  | .composite _, .compositeMaterials => True
  | _, _ => False

/-- `GetMixingRatio`. -/
def Composite.getMixingRatio (c : Composite) (propertyID : Nat) : Double :=
  ((c.find? fun x => x.propertyID = propertyID).map (·.mixingRatio)).getD (.ofRat 0)

/-- What a property stands for: a composite has a ratio for each base material, in their order. -/
inductive LayerValue where
  | property (v : ModelProperty)
  | mixture (ratios : List (ModelProperty × Double))
  deriving DecidableEq

/-- `CModelMultiPropertyGroupResource`. -/
structure MultiPropertyGroup where
  uniqueID : Nat
  layers : List MultiPropertyLayer
  group : PropertyGroup MultiProperty
  deriving DecidableEq

/-- The property resources and the multi-property groups of a `CModel`. -/
structure MaterialModel (V : Type) where
  propertyResources : List (PropertyResource V)
  multiPropertyGroups : List MultiPropertyGroup
  deriving DecidableEq

/-- `addLayer`, where `kindOf` finds the class of a resource by its unique ID. -/
def addLayer (kindOf : Nat → Option PropertyResourceKind) (layers : List MultiPropertyLayer)
    (l : MultiPropertyLayer) : Except Error (List MultiPropertyLayer) :=
  let hasMaterial := layers.any fun l => decide (kindOf l.resourceID = some .baseMaterials) ||
    decide (kindOf l.resourceID = some .compositeMaterials)
  let hasColorGroup := layers.any fun l => decide (kindOf l.resourceID = some .colorGroup)
  match kindOf l.resourceID with
  | none => .error .multiPropertiesInvalidResource
  | some .multiPropertyGroup => .error .multiPropertiesMustNotContainMultiProperties
  | some .texture2DGroup => .ok (layers ++ [l])
  | some .baseMaterials | some .compositeMaterials =>
    if hasMaterial then .error .multiPropertiesMustNotContainMultipleMaterials
    else .ok (layers ++ [l])
  | some .colorGroup =>
    if hasColorGroup then .error .multiPropertiesMustNotContainMultipleColorGroups
    else .ok (layers ++ [l])

/-- `m_vctLayers.size() - 1`, which wraps for no layers. -/
def lastLayerIndex (layers : List MultiPropertyLayer) : Nat :=
  if layers.length = 0 then 2 ^ 64 - 1 else layers.length - 1

/-- `getLayer`. -/
def getLayer (layers : List MultiPropertyLayer) (index : UInt32) : Access MultiPropertyLayer :=
  if lastLayerIndex layers < index.toNat then .throws .invalidIndex
  else match layers[index.toNat]? with
    | some l => .ok l
    | none => .undefined

/-- `setLayer`. -/
def setLayer (layers : List MultiPropertyLayer) (index : UInt32) (l : MultiPropertyLayer) :
    Access (List MultiPropertyLayer) :=
  if lastLayerIndex layers < index.toNat then .throws .invalidIndex
  else if index.toNat < layers.length then .ok (layers.set index.toNat l)
  else .undefined

/-- `removeLayer`. -/
def removeLayer (layers : List MultiPropertyLayer) (index : UInt32) :
    Access (List MultiPropertyLayer) :=
  if lastLayerIndex layers < index.toNat then .throws .invalidIndex
  else if index.toNat < layers.length then .ok (layers.eraseIdx index.toNat)
  else .undefined

/-- The classes of two layers of one group. -/
def PropertyResourceKind.Compatible (k k' : PropertyResourceKind) : Prop :=
  k ≠ .multiPropertyGroup ∧ k' ≠ .multiPropertyGroup ∧
    ¬ ((k = .baseMaterials ∨ k = .compositeMaterials) ∧
      (k' = .baseMaterials ∨ k' = .compositeMaterials)) ∧ ¬ (k = .colorGroup ∧ k' = .colorGroup)

instance (k k' : PropertyResourceKind) : Decidable (k.Compatible k') :=
  inferInstanceAs (Decidable (_ ∧ _))

/-- What holds of the classes of the layers of a group: none is a multi-property group, at most
one is a material, at most one is a colour group. -/
structure AdmissibleKinds (kinds : List (Option PropertyResourceKind)) : Prop where
  exist : ∀ k ∈ kinds, ∃ kind, k = some kind ∧ kind ≠ .multiPropertyGroup
  compatible : kinds.Pairwise fun k k' => ∀ kind kind', k = some kind → k' = some kind' →
    kind.Compatible kind'

/-- The layers of a group are admissible. -/
def AdmissibleLayers (kindOf : Nat → Option PropertyResourceKind)
    (layers : List MultiPropertyLayer) : Prop :=
  AdmissibleKinds (layers.map fun l => kindOf l.resourceID)

theorem admissibleLayers_nil (kindOf : Nat → Option PropertyResourceKind) :
    AdmissibleLayers kindOf [] := ⟨by simp, List.Pairwise.nil⟩

/-- **A layer is added exactly when the layers stay admissible.** -/
theorem addLayer_eq_ok {kindOf : Nat → Option PropertyResourceKind}
    {layers layers' : List MultiPropertyLayer} {l : MultiPropertyLayer}
    (h : AdmissibleLayers kindOf layers) :
    addLayer kindOf layers l = .ok layers' ↔
      AdmissibleLayers kindOf (layers ++ [l]) ∧ layers' = layers ++ [l] := by
  have hsplit : AdmissibleLayers kindOf (layers ++ [l]) ↔
      (∃ kind, kindOf l.resourceID = some kind ∧ kind ≠ .multiPropertyGroup) ∧
        ∀ l' ∈ layers, ∀ kind' kind, kindOf l'.resourceID = some kind' →
          kindOf l.resourceID = some kind → kind'.Compatible kind := by
    constructor
    · intro ⟨he, hc⟩
      rw [List.map_append, List.pairwise_append] at hc
      refine ⟨he _ (by simp), fun l' hl' kind' kind h' hk => ?_⟩
      exact hc.2.2 _ (List.mem_map_of_mem hl') _ (List.mem_singleton.2 rfl) kind' kind h' hk
    · intro ⟨he, hc⟩
      refine ⟨fun k hk => ?_, ?_⟩
      · rw [List.map_append, List.mem_append] at hk
        rcases hk with hk | hk
        · exact h.exist k hk
        · rw [List.mem_singleton.1 hk]
          exact he
      · rw [List.map_append, List.pairwise_append]
        refine ⟨h.compatible, List.pairwise_singleton _ _, fun k hk k' hk' kind kind' e e' => ?_⟩
        obtain ⟨l', hl', rfl⟩ := List.mem_map.1 hk
        rw [List.mem_singleton.1 hk'] at e'
        exact hc l' hl' kind kind' e e'
  have hother : ∀ l' ∈ layers, ∃ kind', kindOf l'.resourceID = some kind' ∧
      kind' ≠ .multiPropertyGroup := fun l' hl' => h.exist _ (List.mem_map_of_mem hl')
  rw [hsplit]
  unfold addLayer
  cases hk : kindOf l.resourceID with
  | none => simp
  | some kind =>
    have hmaterial : (layers.any fun l => decide (kindOf l.resourceID = some .baseMaterials) ||
        decide (kindOf l.resourceID = some .compositeMaterials)) = true ↔
        ∃ l' ∈ layers, kindOf l'.resourceID = some .baseMaterials ∨
          kindOf l'.resourceID = some .compositeMaterials := by simp
    have hcolor : (layers.any fun l => decide (kindOf l.resourceID = some .colorGroup)) = true ↔
        ∃ l' ∈ layers, kindOf l'.resourceID = some .colorGroup := by simp
    simp only [Option.some.injEq, exists_eq_left', hmaterial, hcolor]
    cases kind with
    | multiPropertyGroup => simp
    | texture2DGroup => grind [PropertyResourceKind.Compatible]
    | baseMaterials => grind [PropertyResourceKind.Compatible]
    | compositeMaterials => grind [PropertyResourceKind.Compatible]
    | colorGroup => grind [PropertyResourceKind.Compatible]

/-- A layer that is added is added as it is. -/
theorem addLayer_append {kindOf : Nat → Option PropertyResourceKind}
    {layers layers' : List MultiPropertyLayer} {l : MultiPropertyLayer}
    (h : addLayer kindOf layers l = .ok layers') : layers' = layers ++ [l] := by
  unfold addLayer at h
  dsimp only at h
  cases hk : kindOf l.resourceID with
  | none =>
    rw [hk] at h
    cases h
  | some kind =>
    rw [hk] at h
    cases kind with
    | multiPropertyGroup => cases h
    | texture2DGroup => exact (Except.ok.inj h).symm
    | baseMaterials | compositeMaterials | colorGroup =>
      dsimp only at h
      split_ifs at h
      exact (Except.ok.inj h).symm

theorem AdmissibleLayers.sublist {kindOf : Nat → Option PropertyResourceKind}
    {layers layers' : List MultiPropertyLayer} (h : AdmissibleLayers kindOf layers)
    (hs : layers'.Sublist layers) : AdmissibleLayers kindOf layers' := by
  have hsub := hs.map fun l => kindOf l.resourceID
  exact ⟨fun k hk => h.exist k (hsub.subset hk), h.compatible.sublist hsub⟩

/-- Removing a layer leaves the others admissible. -/
theorem removeLayer_admissible {kindOf : Nat → Option PropertyResourceKind}
    {layers layers' : List MultiPropertyLayer} {index : UInt32} (h : AdmissibleLayers kindOf layers)
    (hr : removeLayer layers index = .ok layers') : AdmissibleLayers kindOf layers' := by
  unfold removeLayer at hr
  split_ifs at hr
  rw [← Access.ok.inj hr]
  exact h.sublist (List.eraseIdx_sublist ..)

namespace MaterialModel

variable {V : Type}

/-- `findResource`, by unique ID, and the class of what it finds. -/
def kindOf (m : MaterialModel V) (uniqueID : Nat) : Option PropertyResourceKind :=
  match m.propertyResources.find? fun r => r.uniqueID = uniqueID with
  | some r => some r.kind
  | none => if ∃ g ∈ m.multiPropertyGroups, g.uniqueID = uniqueID then some .multiPropertyGroup
    else none

/-- The properties of the resource with a unique ID. -/
def findGroup (m : MaterialModel V) (uniqueID : Nat) : Option (PropertyGroup V) :=
  (m.propertyResources.find? fun r => r.uniqueID = uniqueID).map PropertyResource.group

/-- The index of property `k` of the resource with unique ID `id`. -/
def propertyIndex (m : MaterialModel V) (id k : Nat) : Option Nat :=
  (m.findGroup id).bind fun g => g.buildResourceIndexMap.idxOf? k

/-- The unique IDs of the model. -/
def uniqueIDs (m : MaterialModel V) : List Nat :=
  m.propertyResources.map (·.uniqueID) ++ m.multiPropertyGroups.map (·.uniqueID)

/-- What holds of the models one can build: the unique IDs are distinct, positive and of 32 bits,
the groups are within their limits, and the layers are admissible. -/
structure Valid (m : MaterialModel V) : Prop where
  nodup : m.uniqueIDs.Nodup
  bounds : ∀ id ∈ m.uniqueIDs, 0 < id ∧ id < 2 ^ 32
  kinds : ∀ r ∈ m.propertyResources, r.kind ≠ .multiPropertyGroup
  count : ∀ r ∈ m.propertyResources, r.group.getCount ≤ maxResourceIndex
  multis : ∀ g ∈ m.multiPropertyGroups, g.group.getCount ≤ maxResourceIndex
  layers : ∀ g ∈ m.multiPropertyGroups, AdmissibleLayers m.kindOf g.layers

/-- The ratios of a composite, for each of the base materials. -/
def mixture (m : MaterialModel ModelProperty) (baseMaterialID : Nat) (c : Composite) :
    List (ModelProperty × Double) :=
  ((m.findGroup baseMaterialID).map fun g =>
    g.entries.entries.map fun e => (e.2, c.getMixingRatio e.1)).getD []

/-- The value of a property of `r`. -/
def valueOf (m : MaterialModel ModelProperty) (r : PropertyResource ModelProperty) :
    ModelProperty → LayerValue
  | .composite c => .mixture (m.mixture r.baseMaterialID c)
  | v => .property v

/-- The value of property `k` of the resource with unique ID `id`. -/
def propertyValue (m : MaterialModel ModelProperty) (id k : Nat) : Option LayerValue := do
  let r ← m.propertyResources.find? fun r => r.uniqueID = id
  let v ← r.group.entries.find? k
  return m.valueOf r v

end MaterialModel

/-- What holds of the properties of the models one can build: they are of the class of their
resource, and composite materials come behind their base materials. -/
structure ValidProperties (R : List (PropertyResource ModelProperty)) : Prop where
  fits : ∀ r ∈ R, ∀ v ∈ r.group.entries.values, v.Fits r.kind
  bases : ∀ (i : Nat) (r : PropertyResource ModelProperty), R[i]? = some r →
    r.kind = .compositeMaterials → ∃ (j : Nat) (b : PropertyResource ModelProperty), j < i ∧
      R[j]? = some b ∧ b.uniqueID = r.baseMaterialID ∧ b.kind = .baseMaterials

end NMR
