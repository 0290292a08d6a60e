import Lib3MF.API.Session
import Lib3MF.Common.Mesh.Proof.EffectiveProperties
import Lib3MF.Model.Proof.Merge

/-!
# Face properties after a merge

The copy of a group numbers its properties anew, the faces keep their property IDs. A face of
the merged mesh therefore resolves to what `renumberedValue` reads off the source: property `k`
is the `k`-th one of the group that is left. The faces keep their values exactly when that is the
value they had (`mergeToModel_faces`); after a removal it need not be
(`mergeToModel_loses_color`).
-/

namespace NMR

open Lib

/-- What a property of a face stands for. -/
inductive PropertyValue where
  | baseMaterial (material : BaseMaterial)
  | color (color : Nat)
  | textureCoordinate (texture : Texture2D) (coordinate : UVCoordinate)
  | composite (mixture : List (BaseMaterial × Double))
  deriving DecidableEq

/-- A way to look up properties and what resources point to. -/
structure PropertyLookup where
  find : ∀ {α : Type}, PropertyGroup α → Nat → Option α
  texture? : ResourceRef → Option Texture2D
  materials? : ResourceRef → Option (PropertyGroup BaseMaterial)

/-- The texture a resource is. -/
def ResourceData.texture? : ResourceData → Option Texture2D
  | .texture2D t => some t
  | _ => none

/-- The base materials a resource holds. -/
def ResourceData.materials? : ResourceData → Option (PropertyGroup BaseMaterial)
  | .baseMaterials g => some g
  | _ => none

/-- The mesh of a mesh object. -/
def ResourceData.mesh? : ResourceData → Option Mesh
  | .meshObject _ mesh => some mesh
  | _ => none

/-- The value of property `k` of a resource. -/
def ResourceData.value (l : PropertyLookup) (k : Nat) : ResourceData → Option PropertyValue
  | .baseMaterials g => (l.find g k).map .baseMaterial
  | .colorGroup g => (l.find g k).map .color
  | .texture2DGroup t g =>
    (l.texture? t).bind fun t => (l.find g k).map (.textureCoordinate t)
  | .compositeMaterials b g =>
    (l.materials? b).bind fun materials => (l.find g k).bind fun c =>
      (c.mapM fun x => (l.find materials x.propertyID).map fun m => (m, x.mixingRatio)).map
        .composite
  | _ => none

namespace Model

/-- Properties by their IDs. -/
def lookup (m : Model) : PropertyLookup where
  find := fun g k => g.entries.find? k
  texture? := fun r => (m.data? r).bind ResourceData.texture?
  materials? := fun r => (m.data? r).bind ResourceData.materials?

/-- The value a face record with resource `id` has for property `k`. -/
def propertyValue (m : Model) (id k : Nat) : Option PropertyValue :=
  ((m.findResource id).bind m.data?).bind (ResourceData.value m.lookup k)

/-- The resource of `l` that has the unique ID of `r`, the last one. -/
def lastWithIDOf (m : Model) (r : ResourceRef) (l : List ResourceRef) : Option ResourceData :=
  ((m.uniqueID? r).bind fun id => (m.lastWithID id l).bind fun i => l[i]?).bind m.data?

/-- Properties by their positions in their groups, and textures without their filters. -/
def renumberedLookup (m : Model) : PropertyLookup where
  find := PropertyGroup.nth
  texture? := fun r => ((m.lastWithIDOf r m.textureLookup).bind ResourceData.texture?).map
    fun t => { t with filter := .auto }
  materials? := fun r => (m.lastWithIDOf r m.baseMaterialLookup).bind ResourceData.materials?

/-- The value of the `k`-th property of the resource with the unique ID `id`. -/
def renumberedValue (m : Model) (id k : Nat) : Option PropertyValue :=
  ((m.lastWithID id m.mergeOrder).bind fun i => (m.mergeOrder[i]?).bind m.data?).bind
    (ResourceData.value m.renumberedLookup k)

/-- The records of the faces an object brings to a merged mesh. -/
def objectRecords (m : Model) : Nat → ResourceRef → List FaceProperties
  | 0, _ => []
  | fuel + 1, r =>
    match m.data? r with
    | some (.meshObject _ src) => src.mergedRecords
    | some (.componentsObject _ cs) => cs.flatMap fun c => m.objectRecords fuel c.object
    | _ => []

/-- The records of the faces of all build items, in the order of the merged mesh. -/
def builtRecords (m : Model) (fuel : Nat) : List FaceProperties :=
  m.buildItems.flatMap fun b => m.objectRecords fuel b.object

/-- The mesh of the only build item. -/
def builtMesh? (m : Model) : Option Mesh :=
  match m.buildItems with
  | [b] => (m.data? b.object).bind ResourceData.mesh?
  | _ => none

/-- The faces of the mesh built by `target` have the values that the records `rs` have in `m`. -/
def FacesKeepValues (m : Model) (rs : List FaceProperties) (target : Model) : Prop :=
  ∃ mesh, target.builtMesh? = some mesh ∧
    List.Forall₂ (fun r r' => r.resourceID ≠ 0 → ∀ j v,
      m.propertyValue r.resourceID (r.propertyIDs j) = some v →
      target.propertyValue r'.resourceID (r'.propertyIDs j) = some v) rs mesh.records

/-- A property a record refers to has the value of the property at the position its ID names. -/
def RenumberingKeepsValues (m : Model) (rs : List FaceProperties) : Prop :=
  ∀ r ∈ rs, r.resourceID ≠ 0 → ∀ j v,
    m.propertyValue r.resourceID (r.propertyIDs j) = some v →
    m.renumberedValue r.resourceID (r.propertyIDs j) = some v

variable {m source : Model} {mesh mesh' : Mesh} {rs : List FaceProperties} {out : MergeResult}
  {uninit : FaceProperties} {r fuel : Nat} {matrix : Matrix3}

/-! ## The records of the merged mesh -/

/-- An object brings its records to the mesh. -/
theorem mergeToMesh_records (h : mesh.Records rs)
    (hm : (m.mergeToMesh uninit fuel r mesh matrix).run = some (.ok mesh')) :
    mesh'.Records (rs ++ m.objectRecords fuel r) := by
  induction fuel generalizing r mesh mesh' rs matrix with
  | zero => cases hm
  | succ fuel ih =>
    unfold mergeToMesh at hm
    split at hm
    · cases hm' : mesh.mergeMesh uninit _ matrix with
      | error e => rw [hm'] at hm; cases hm
      | ok x =>
        rw [hm'] at hm
        cases hm
        rename_i hd
        unfold objectRecords
        simp only [hd]
        exact Mesh.mergeMesh_records h hm'
    · rename_i info cs hd
      unfold objectRecords
      simp only [hd]
      have h0 : mesh.Records (rs ++ ([] : List Component).flatMap fun c =>
          m.objectRecords fuel c.object) := by
        rwa [List.flatMap_nil, List.append_nil]
      refine foldlM_run_ok (fun done mesh => mesh.Records (rs ++ done.flatMap fun c =>
        m.objectRecords fuel c.object)) (fun done mesh c mesh₁ _ hmesh hc => ?_) h0 hm
      rw [List.flatMap_append, ← List.append_assoc, List.flatMap_singleton]
      exact ih hmesh hc
    · cases hm

theorem mergeBuildItems_records
    (hm : (m.mergeBuildItems uninit fuel .empty).run = some (.ok mesh)) :
    mesh.Records (m.builtRecords fuel) := by
  have h0 : Mesh.empty.Records (([] : List BuildItem).flatMap fun b =>
      m.objectRecords fuel b.object) := Mesh.records_empty
  refine foldlM_run_ok (fun done mesh => mesh.Records (done.flatMap fun b =>
    m.objectRecords fuel b.object)) (fun done mesh b mesh₁ _ hmesh hb => ?_) h0 hm
  rw [List.flatMap_append, List.flatMap_singleton]
  exact mergeToMesh_records hmesh hb

/-- A loop of sequences of merges is one. -/
theorem merges_of_foldlM {α : Type} {f : Mesh → α → Visit Mesh} {l : List α}
    (hstep : ∀ a mesh mesh', (f mesh a).run = some (.ok mesh') →
      ∃ merges : List Mesh.MeshMerge, merges.foldlM Mesh.MeshMerge.apply mesh = .ok mesh' ∧
        ∀ a ∈ merges, ∃ r info, m.data? r = some (.meshObject info a.src))
    (hm : (l.foldlM f mesh).run = some (.ok mesh')) :
    ∃ merges : List Mesh.MeshMerge, merges.foldlM Mesh.MeshMerge.apply mesh = .ok mesh' ∧
      ∀ a ∈ merges, ∃ r info, m.data? r = some (.meshObject info a.src) := by
  refine @foldlM_run_ok _ _ _ (fun _ mesh' => ∃ merges : List Mesh.MeshMerge,
    merges.foldlM Mesh.MeshMerge.apply mesh = .ok mesh' ∧
      ∀ a ∈ merges, ∃ r info, m.data? r = some (.meshObject info a.src)) f l [] mesh mesh'
    (fun _ mesh₁ a mesh₂ _ h₁ ha => ?_) ⟨[], rfl, nofun⟩ hm
  obtain ⟨merges, hmerges, hall⟩ := h₁
  obtain ⟨merges', hmerges', hall'⟩ := hstep a mesh₁ mesh₂ ha
  refine ⟨merges ++ merges', ?_, ?_⟩
  · rw [List.foldlM_append, bind_eq_ok]
    exact ⟨mesh₁, hmerges, hmerges'⟩
  · intro x hx
    exact (List.mem_append.1 hx).elim (hall x) (hall' x)

/-- Merging an object is a sequence of merges of meshes of the model. -/
theorem mergeToMesh_merges (hm : (m.mergeToMesh uninit fuel r mesh matrix).run = some (.ok mesh')) :
    ∃ merges : List Mesh.MeshMerge, merges.foldlM Mesh.MeshMerge.apply mesh = .ok mesh' ∧
      ∀ a ∈ merges, ∃ r info, m.data? r = some (.meshObject info a.src) := by
  induction fuel generalizing r mesh mesh' matrix with
  | zero => cases hm
  | succ fuel ih =>
    unfold mergeToMesh at hm
    split at hm
    · rename_i info src hd
      refine ⟨[⟨src, matrix, uninit⟩], ?_, ?_⟩
      · rw [List.foldlM_cons, bind_eq_ok]
        exact ⟨mesh', Option.some.inj hm, rfl⟩
      · intro a ha
        rw [List.mem_singleton.1 ha]
        exact ⟨r, info, hd⟩
    · exact merges_of_foldlM (fun _ _ _ => ih) hm
    · cases hm

/-- **Merging the build items is a sequence of merges of meshes of the model.** -/
theorem mergeBuildItems_merges
    (hm : (m.mergeBuildItems uninit fuel mesh).run = some (.ok mesh')) :
    ∃ merges : List Mesh.MeshMerge, merges.foldlM Mesh.MeshMerge.apply mesh = .ok mesh' ∧
      ∀ a ∈ merges, ∃ r info, m.data? r = some (.meshObject info a.src) :=
  merges_of_foldlM (fun _ _ _ => mergeToMesh_merges) hm

/-- **Merging the build items keeps the effective properties** of the faces when each of its merges
keeps the defaults. -/
theorem mergeBuildItems_preserves
    (hm : (m.mergeBuildItems uninit fuel mesh).run = some (.ok mesh')) :
    ∃ merges : List Mesh.MeshMerge, merges.foldlM Mesh.MeshMerge.apply mesh = .ok mesh' ∧
      (∀ a ∈ merges, ∃ r info, m.data? r = some (.meshObject info a.src)) ∧
      ((∀ done a m₁ m₂, done ++ [a] <+: merges → done.foldlM Mesh.MeshMerge.apply mesh = .ok m₁ →
          a.apply m₁ = .ok m₂ → Mesh.KeepsDefaults a.uninit m₁ a.src) →
        mesh'.effectiveProperties =
          mesh.effectiveProperties ++ merges.flatMap fun a => a.src.copiedProperties) := by
  obtain ⟨merges, hmerges, hall⟩ := mergeBuildItems_merges hm
  exact ⟨merges, hmerges, hall,
    fun h => Mesh.effectiveProperties_merges h merges mesh' (List.prefix_refl merges) hmerges⟩

theorem mergeToModel_spec (h : (m.mergeToModel uninit fuel).run = some (.ok out)) :
    ∃ mesh, mesh.Records (m.builtRecords fuel) ∧ MergedTo m mesh out := by
  obtain ⟨mesh, hmesh, hout⟩ := run_bind_eq_ok.1 h
  refine ⟨mesh, mergeBuildItems_records hmesh, mergeMeshToModel_spec ?_⟩
  cases hr : m.mergeMeshToModel mesh with
  | error e => rw [hr] at hout; cases hout
  | ok x => rw [hr] at hout; cases hout; rfl

/-! ## The values of the copies -/

theorem getElem?_mergeOrder_texture {i : Nat} (h : source.textureLookup[i]? = some r) :
    source.mergeOrder[i]? = some r := by
  rw [mergeOrder, List.getElem?_append_left (List.getElem?_eq_some_iff.1 h).1, h]

theorem getElem?_mergeOrder_baseMaterial {i : Nat} (h : source.baseMaterialLookup[i]? = some r) :
    source.mergeOrder[source.textureLookup.length + i]? = some r := by
  rw [mergeOrder, List.getElem?_append_right (by omega), Nat.add_sub_cancel_left,
    List.getElem?_append_left (List.getElem?_eq_some_iff.1 h).1, h]

/-- The texture a copied group points to. -/
theorem MergedTo.texture? (h : MergedTo source mesh out) {t i id : Nat}
    (hid : source.uniqueID? t = some id)
    (hi : source.lastWithID id source.textureLookup = some i) :
    out.target.lookup.texture? i = source.renumberedLookup.texture? t := by
  obtain ⟨r, hr, -⟩ := lastIndex_eq_some hi
  obtain ⟨d, d', hd, hd', hc, -⟩ := h.copies i r (getElem?_mergeOrder_texture hr)
  simp only [lookup, renumberedLookup, lastWithIDOf, hid, hi, hr, hd, hd', Option.bind_some]
  cases hc <;> rfl

/-- The base materials copied composites point to. -/
theorem MergedTo.materials? (h : MergedTo source mesh out) {b i id : Nat}
    (hid : source.uniqueID? b = some id)
    (hi : source.lastWithID id source.baseMaterialLookup = some i) :
    (source.renumberedLookup.materials? b = none ∧
      out.target.lookup.materials? (source.textureLookup.length + i) = none) ∨
    ∃ g g' : PropertyGroup BaseMaterial, g.Renumbers g' ∧
      source.renumberedLookup.materials? b = some g ∧
      out.target.lookup.materials? (source.textureLookup.length + i) = some g' := by
  obtain ⟨r, hr, -⟩ := lastIndex_eq_some hi
  obtain ⟨d, d', hd, hd', hc, -⟩ := h.copies _ r (getElem?_mergeOrder_baseMaterial hr)
  simp only [lookup, renumberedLookup, lastWithIDOf, hid, hi, hr, hd, hd', Option.bind_some]
  cases hc with
  | baseMaterials hg => exact .inr ⟨_, _, hg, rfl, rfl⟩
  | _ => exact .inl ⟨rfl, rfl⟩

/-- A copy has the value of the property at the position the ID names. -/
theorem MergedTo.value (h : MergedTo source mesh out) {d d' : ResourceData}
    (hc : Copy source d d') (k : Nat) :
    d'.value out.target.lookup k = d.value source.renumberedLookup k := by
  have hfind {α : Type} {g g' : PropertyGroup α} (hg : g.Renumbers g') (k : Nat) :
      out.target.lookup.find g' k = source.renumberedLookup.find g k := hg.find? k
  cases hc with
  | texture2D => rfl
  | baseMaterials hg => simp only [ResourceData.value, hfind hg]
  | colorGroup hg => simp only [ResourceData.value, hfind hg]
  | texture2DGroup hid hi hg => simp only [ResourceData.value, hfind hg, h.texture? hid hi]
  | compositeMaterials hid hi hg =>
    simp only [ResourceData.value, hfind hg]
    rcases h.materials? hid hi with ⟨h₁, h₂⟩ | ⟨m, m', hm, h₁, h₂⟩
    · rw [h₁, h₂]
      rfl
    · rw [h₁, h₂]
      simp only [Option.bind_some, hfind hm]
  | multiPropertyGroup hg => rfl

/-- The value of a property under the new ID of its resource. -/
theorem MergedTo.propertyValue (h : MergedTo source mesh out) {id i : Nat}
    (hi : source.lastWithID id source.mergeOrder = some i) (k : Nat) :
    out.target.propertyValue (idOf i) k = source.renumberedValue id k := by
  obtain ⟨r, hr, -⟩ := lastIndex_eq_some hi
  obtain ⟨d, d', hd, hd', hc, hf⟩ := h.copies i r hr
  simp only [Model.propertyValue, renumberedValue, hi, hr, hd, hd', hf, Option.bind_some]
  exact h.value hc k

/-- A patched record has the renumbered values. -/
theorem MergedTo.patchRecord (h : MergedTo source mesh out) {r r' : FaceProperties}
    (hp : Mesh.patchRecord (fun id => (out.oldToNewUniqueResourceIDs.find? id).getD 0) r = .ok r')
    (h0 : r.resourceID ≠ 0) (j : Fin 3) :
    out.target.propertyValue r'.resourceID (r'.propertyIDs j) =
      source.renumberedValue r.resourceID (r.propertyIDs j) := by
  unfold Mesh.patchRecord at hp
  rw [if_neg h0] at hp
  split_ifs at hp with hz
  cases hp
  dsimp only at hz ⊢
  rw [h.mapping] at hz ⊢
  cases hi : source.lastWithID r.resourceID source.mergeOrder with
  | none => rw [hi] at hz; exact absurd rfl hz
  | some i => exact h.propertyValue hi _

/-! ## Faces keep their values -/

theorem MergedTo.builtMesh? (h : MergedTo source mesh out) (hrs : mesh.Records rs) :
    ∃ mesh', out.target.builtMesh? = some mesh' ∧ List.Forall₂ (fun r r' => Mesh.patchRecord
      (fun id => (out.oldToNewUniqueResourceIDs.find? id).getD 0) r = .ok r') rs mesh'.records := by
  obtain ⟨mesh', b, hp, hb, hd⟩ := h.mesh
  refine ⟨mesh', ?_, Mesh.patch_records hrs hp⟩
  simp only [Model.builtMesh?, hb, hd]
  rfl

/-- **The faces of a merged model keep their values if and only if each property they refer to
has the value of the property at the position its ID names.** -/
theorem mergeToModel_faces (uninit : FaceProperties) (m : Model) (fuel : Nat) (out : MergeResult)
    (h : (m.mergeToModel uninit fuel).run = some (.ok out)) :
    m.FacesKeepValues (m.builtRecords fuel) out.target ↔
      m.RenumberingKeepsValues (m.builtRecords fuel) := by
  obtain ⟨mesh, hrs, hto⟩ := mergeToModel_spec h
  obtain ⟨mesh', hmesh, hall⟩ := hto.builtMesh? hrs
  have hiff : List.Forall₂ (fun r r' => r.resourceID ≠ 0 → ∀ j v,
      m.propertyValue r.resourceID (r.propertyIDs j) = some v →
      out.target.propertyValue r'.resourceID (r'.propertyIDs j) = some v)
      (m.builtRecords fuel) mesh'.records ↔ m.RenumberingKeepsValues (m.builtRecords fuel) := by
    refine forall₂_iff hall fun r r' hp => ?_
    constructor
    · intro hk h0 j v hv
      rw [← hto.patchRecord hp h0]
      exact hk h0 j v hv
    · intro hk h0 j v hv
      rw [hto.patchRecord hp h0]
      exact hk h0 j v hv
  unfold FacesKeepValues
  rw [hmesh]
  constructor
  · intro ⟨mesh'', he, hk⟩
    cases he
    exact hiff.1 hk
  · intro hk
    exact ⟨mesh', rfl, hiff.2 hk⟩

/-- A triangle whose corners have property `k` of the resource with the unique ID `1`. -/
def triangle (k : Nat) : Mesh where
  nodes := [⟨0, 0, 0⟩, ⟨1, 0, 0⟩, ⟨0, 1, 0⟩]
  faces := [⟨fun j => j.val⟩]
  beams := []
  meshInformationHandler := some ⟨some ⟨none, [⟨1, fun _ => k⟩]⟩⟩

/-- Colours `1` and `2`. -/
def twoColors : PropertyGroup Nat := ⟨⟨[(1, 0xff0000ff), (2, 0xff00ff00)], by decide⟩, 3⟩

/-- A colour group, and a built triangle with its property `2`. -/
def coloredCalls (colors : PropertyGroup Nat) : List Call :=
  [.add .colorGroup, .edit 0 (.colorGroup colors), .add (.meshObject (triangle 2)),
    .addBuildItem 2 .identity]

/-- What merging the model after `calls` returns. -/
def merged (calls : List Call) : Option MergeResult :=
  match ((run Model.next .new calls).mergeToModel .invalid 1).run with
  | some (.ok out) => some out
  | _ => none

theorem merged_spec {calls : List Call} (h : (merged calls).isSome) :
    ∃ out, merged calls = some out ∧
      ((run Model.next .new calls).mergeToModel .invalid 1).run = some (.ok out) := by
  obtain ⟨out, hout⟩ := Option.isSome_iff_exists.1 h
  have h' := hout
  unfold merged at h'
  split at h'
  · rename_i o ho
    cases h'
    exact ⟨out, hout, ho⟩
  · cases h'

/-- With both colours there, the triangle keeps its colour. -/
theorem mergeToModel_faces_colored : ∃ out, merged (coloredCalls twoColors) = some out ∧
    (run Model.next .new (coloredCalls twoColors)).FacesKeepValues
      ((run Model.next .new (coloredCalls twoColors)).builtRecords 1) out.target := by
  obtain ⟨out, hout, hrun⟩ := @merged_spec (coloredCalls twoColors) (by decide +kernel)
  refine ⟨out, hout, (mergeToModel_faces .invalid _ 1 out hrun).2 fun r hr _ j v hv => ?_⟩
  have hrecs : (run Model.next .new (coloredCalls twoColors)).builtRecords 1 =
      [⟨1, fun _ => 2⟩] := by decide +kernel
  have hval : (run Model.next .new (coloredCalls twoColors)).propertyValue 1 2 =
      (run Model.next .new (coloredCalls twoColors)).renumberedValue 1 2 := by decide +kernel
  rw [hrecs] at hr
  cases List.mem_singleton.1 hr
  rw [← hval]
  exact hv

/-- Once colour `1` is removed, colour `2` becomes property `1` of the copy, and the triangle
refers to none. -/
theorem mergeToModel_loses_color :
    ¬ ∀ calls m, Reaches Model.next .new calls m → ∀ uninit fuel out,
      (m.mergeToModel uninit fuel).run = some (.ok out) →
      m.FacesKeepValues (m.builtRecords fuel) out.target := by
  intro h
  obtain ⟨out, hout, hrun⟩ := @merged_spec (coloredCalls (twoColors.remove 1))
    (by decide +kernel)
  obtain ⟨mesh, hmesh, hk⟩ := h _ _ (reaches_run _ (coloredCalls (twoColors.remove 1)))
    .invalid 1 out hrun
  have hrecs : (run Model.next .new (coloredCalls (twoColors.remove 1))).builtRecords 1 =
      [⟨1, fun _ => 2⟩] := by decide +kernel
  have hval : (run Model.next .new (coloredCalls (twoColors.remove 1))).propertyValue 1 2 =
      some (.color 0xff00ff00) := by decide +kernel
  have hmerged : (merged (coloredCalls (twoColors.remove 1))).map (fun out =>
      (out.target.builtMesh?.map Mesh.records, out.target.propertyValue 1 2)) =
      some (some [⟨1, fun _ => 2⟩], none) := by decide +kernel
  rw [hout, Option.map_some, hmesh, Option.map_some] at hmerged
  simp only [Option.some.injEq, Prod.mk.injEq] at hmerged
  rw [hrecs, hmerged.1, List.forall₂_cons] at hk
  have := hk.1 (by decide) 0 _ hval
  rw [hmerged.2] at this
  cases this

end Model

end NMR
