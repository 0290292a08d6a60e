import Lib3MF.Model.Classes.ModelObject

/-!
# Merging a model into a new one

`MergeToModel`: the build items become one mesh, and the property resources are copied, one kind
after the other, each copy under a new ID that `oldToNewUniqueResourceIDs` maps the old one to.
The copy of a group numbers its properties anew (`PropertyGroup.mergeFrom`); the records of the
mesh are patched at their resources only, and the layers of multi-property groups not at all.

Unit, language and metadata are left out.
-/

namespace NMR

open Lib

/-- `PACKAGE_TEXTURE_RELATIONSHIP_TYPE`. -/
def packageTextureRelationshipType : String :=
  "http://schemas.microsoft.com/3dmanufacturing/2013/01/3dtexture"

/-- `UniqueResourceIDMapping`. -/
abbrev UniqueResourceIDMapping := SortedMap Nat Nat

/-! ## Copies of the resources -/

/-- `CModelBaseMaterialResource::addBaseMaterial`. -/
def addBaseMaterial (g : PropertyGroup BaseMaterial) (v : BaseMaterial) :
    Except Error (PropertyGroup BaseMaterial × Nat) :=
  g.add .tooManyMaterials (fun _ => .ok ()) v

/-- `CModelColorGroupResource::addColor`. -/
def addColor (g : PropertyGroup Nat) (v : Nat) : Except Error (PropertyGroup Nat × Nat) :=
  g.add .tooManyColors (fun _ => .ok ()) v

/-- `CModelTexture2DGroupResource::addUVCoordinate`. -/
def addUVCoordinate (g : PropertyGroup UVCoordinate) (v : UVCoordinate) :
    Except Error (PropertyGroup UVCoordinate × Nat) :=
  g.add .tooManyColors (fun _ => .ok ()) v

/-- What `addComposite` requires of a constituent, in the group of base materials it refers to. -/
def checkConstituent {α : Type} (materials : PropertyGroup α) (c : CompositeConstituent) :
    Except Error Unit := do
  let _ ← materials.get c.propertyID
  if c.mixingRatio.lt (.ofRat 0) ∨ (Double.ofRat 1).lt c.mixingRatio then
    throw .mixingRatioOutOfRange

/-- What `addComposite` requires of a composite. -/
def checkComposite {α : Type} (materials : PropertyGroup α) (c : Composite) : Except Error Unit :=
  c.forM (checkConstituent materials)

theorem checkConstituent_eq_ok {α : Type} {materials : PropertyGroup α} {x : CompositeConstituent} :
    checkConstituent materials x = .ok () ↔ (materials.entries.find? x.propertyID).isSome ∧
      ¬ (x.mixingRatio.lt (.ofRat 0) ∨ (Double.ofRat 1).lt x.mixingRatio) := by
  unfold checkConstituent PropertyGroup.get
  cases materials.entries.find? x.propertyID with
  | none => simp [bind, Except.bind]
  | some v =>
    simp only [Option.isSome_some, true_and]
    show (if _ then (.error .mixingRatioOutOfRange : Except Error Unit) else .ok ()) = .ok () ↔ _
    split_ifs with h
    · simp [h]
    · simp [h]

/-- **A composite passes** where every constituent names a material in a ratio that is between 0
and 1 or a NaN. -/
theorem checkComposite_eq_ok {α : Type} {materials : PropertyGroup α} {v : Composite} :
    checkComposite materials v = .ok () ↔ ∀ x ∈ v,
      (materials.entries.find? x.propertyID).isSome ∧
        ¬ (x.mixingRatio.lt (.ofRat 0) ∨ (Double.ofRat 1).lt x.mixingRatio) := by
  unfold checkComposite
  rw [forM_eq_ok]
  exact forall₂_congr fun x _ => checkConstituent_eq_ok

/-- `CModelCompositeMaterialsResource::addComposite`. -/
def addComposite (materials : PropertyGroup BaseMaterial) (g : PropertyGroup Composite)
    (v : Composite) : Except Error (PropertyGroup Composite × Nat) :=
  g.add .tooManyComposites (checkComposite materials) v

/-- `CModelMultiPropertyGroupResource::addMultiProperty`. -/
def addMultiProperty (g : PropertyGroup MultiProperty) (v : MultiProperty) :
    Except Error (PropertyGroup MultiProperty × Nat) :=
  g.add .tooManyComposites (fun _ => .ok ()) v

/-- `CModelBaseMaterialResource::mergeFrom`, into a new resource. -/
def mergeBaseMaterialsFrom (source : PropertyGroup BaseMaterial) :
    Except Error (PropertyGroup BaseMaterial) :=
  PropertyGroup.empty.mergeFrom addBaseMaterial source

/-- `CModelColorGroupResource::mergeFrom`, into a new resource. -/
def mergeColorGroupFrom (source : PropertyGroup Nat) : Except Error (PropertyGroup Nat) :=
  PropertyGroup.empty.mergeFrom addColor source

/-- `CModelTexture2DGroupResource::mergeFrom`, into a new resource. -/
def mergeTexture2DGroupFrom (source : PropertyGroup UVCoordinate) :
    Except Error (PropertyGroup UVCoordinate) :=
  PropertyGroup.empty.mergeFrom addUVCoordinate source

/-- `CModelCompositeMaterialsResource::mergeFrom`, into a new resource on `materials`. -/
def mergeCompositeMaterialsFrom (materials : PropertyGroup BaseMaterial)
    (source : PropertyGroup Composite) : Except Error (PropertyGroup Composite) :=
  PropertyGroup.empty.mergeFrom (addComposite materials) source

/-- The properties of `CModelMultiPropertyGroupResource::mergeFrom`, into a new resource. -/
def mergeMultiPropertiesFrom (source : PropertyGroup MultiProperty) :
    Except Error (PropertyGroup MultiProperty) :=
  PropertyGroup.empty.mergeFrom addMultiProperty source

/-- The constructor `CModelTexture2DResource`. -/
def Texture2D.new (attachment : Attachment) : Texture2D where
  attachment := attachment
  contentType := .png
  box2D := none
  tileStyleU := .wrap
  tileStyleV := .wrap
  filter := .auto

/-- `CModelTexture2DResource::getAttachment`. -/
def Texture2D.getAttachment (t : Texture2D) : Except Error Attachment :=
  if t.attachment.relationShipType ≠ packageTextureRelationshipType then
    .error .invalidRelationshipTypeForTexture
  else .ok t.attachment

/-- `CModelTexture2DResource::make`. -/
def Texture2D.make (attachment : Attachment) : Except Error Texture2D :=
  if attachment.relationShipType ≠ packageTextureRelationshipType then
    .error .invalidRelationshipTypeForTexture
  else .ok (.new attachment)

/-- `CModelTexture2DResource::copyFrom`. The filter is not copied. -/
def Texture2D.copyFrom (t source : Texture2D) : Except Error Texture2D := do
  let attachment ← source.getAttachment
  return { t with
    attachment := attachment
    contentType := source.contentType
    tileStyleU := source.tileStyleU
    tileStyleV := source.tileStyleV
    box2D := source.box2D }

namespace Model

/-- `findTexture2D`. -/
def findTexture2D (m : Model) (uniqueID : Nat) :
    Except Error (Option (ResourceRef × Texture2D)) :=
  match m.findResource uniqueID with
  | none => .ok none
  | some r =>
    match m.data? r with
    | some (.texture2D t) => .ok (some (r, t))
    | _ => .error .resourceTypeMismatch

/-- `findBaseMaterial`. -/
def findBaseMaterial (m : Model) (uniqueID : Nat) :
    Except Error (Option (ResourceRef × PropertyGroup BaseMaterial)) :=
  match m.findResource uniqueID with
  | none => .ok none
  | some r =>
    match m.data? r with
    | some (.baseMaterials g) => .ok (some (r, g))
    | _ => .error .resourceTypeMismatch

/-- `dynamic_cast` to base or composite materials of what a layer refers to. -/
def isMaterial (m : Model) (resourceID : Nat) : Bool :=
  match (m.findResource resourceID).bind m.data? with
  | some (.baseMaterials _) | some (.compositeMaterials ..) => true
  | _ => false

/-- `dynamic_cast` to a colour group of what a layer refers to. -/
def isColorGroup (m : Model) (resourceID : Nat) : Bool :=
  match (m.findResource resourceID).bind m.data? with
  | some (.colorGroup _) => true
  | _ => false

/-- `CModelMultiPropertyGroupResource::addLayer`, to a group of the model that has `layers`. -/
def addLayer (m : Model) (layers : List MultiPropertyLayer) (l : MultiPropertyLayer) :
    Except Error (List MultiPropertyLayer) := do
  let hasMaterial := layers.any fun l => m.isMaterial l.resourceID
  let hasColorGroup := layers.any fun l => m.isColorGroup l.resourceID
  match (m.findResource l.resourceID).bind m.data? with
  | some (.multiPropertyGroup ..) => throw .multiPropertiesMustNotContainMultiProperties
  | some (.baseMaterials _) | some (.compositeMaterials ..) =>
    if hasMaterial then throw .multiPropertiesMustNotContainMultipleMaterials
    return layers ++ [l]
  | some (.colorGroup _) =>
    if hasColorGroup then throw .multiPropertiesMustNotContainMultipleColorGroups
    return layers ++ [l]
  | some (.texture2DGroup ..) => return layers ++ [l]
  | _ => throw .multiPropertiesInvalidResource

/-! ## Copying a kind of resources -/

/-- A new resource in place of `old`: constructed as `new`, filled by `mergeFrom`, added and
recorded in the mapping. -/
def mergeResource (old : PackageResourceID) (new : ResourceData)
    (mergeFrom : Model → Except Error ResourceData) (s : Model × UniqueResourceIDMapping) :
    Except Error (Model × UniqueResourceIDMapping) := do
  let (m, r) ← s.1.construct s.1.generateResourceID new
  let d ← mergeFrom m
  let m ← (m.setData r d).addResource r
  return (m, s.2.set old.uniqueID ((m.uniqueID? r).getD 0))

/-- `oldToNewMapping[id]` of the resource a pointer of the source leads to. -/
def mappedID (source : Model) (oldToNew : UniqueResourceIDMapping) (r : ResourceRef) :
    Except Error Nat :=
  match source.uniqueID? r with
  | none => .error .resourceNotFound
  | some id => .ok ((oldToNew.find? id).getD 0)

/-- One texture of `mergeTextures2D`. -/
def mergeTexture2D (s : Model × UniqueResourceIDMapping) (old : Resource) :
    Except Error (Model × UniqueResourceIDMapping) :=
  match old.data with
  | .texture2D t => do
    let attachment ← t.getAttachment
    let new ← Texture2D.make attachment
    mergeResource old.resourceID (.texture2D new)
      (fun _ => do return .texture2D (← new.copyFrom t)) s
  | _ => .error .resourceTypeMismatch

/-- One resource of `mergeBaseMaterials`. -/
def mergeBaseMaterial (s : Model × UniqueResourceIDMapping) (old : Resource) :
    Except Error (Model × UniqueResourceIDMapping) :=
  match old.data with
  | .baseMaterials g =>
    mergeResource old.resourceID (.baseMaterials .empty)
      (fun _ => do return .baseMaterials (← mergeBaseMaterialsFrom g)) s
  | _ => .error .resourceTypeMismatch

/-- One resource of `mergeColorGroups`. -/
def mergeColorGroup (s : Model × UniqueResourceIDMapping) (old : Resource) :
    Except Error (Model × UniqueResourceIDMapping) :=
  match old.data with
  | .colorGroup g =>
    mergeResource old.resourceID (.colorGroup .empty)
      (fun _ => do return .colorGroup (← mergeColorGroupFrom g)) s
  | _ => .error .resourceTypeMismatch

/-- One resource of `mergeTexture2DGroups`. -/
def mergeTexture2DGroup (source : Model) (s : Model × UniqueResourceIDMapping) (old : Resource) :
    Except Error (Model × UniqueResourceIDMapping) :=
  match old.data with
  | .texture2DGroup t g => do
    match ← s.1.findTexture2D (← source.mappedID s.2 t) with
    | none => throw .resourceNotFound
    | some (t, _) =>
      mergeResource old.resourceID (.texture2DGroup t .empty)
        (fun _ => do return .texture2DGroup t (← mergeTexture2DGroupFrom g)) s
  | _ => .error .resourceTypeMismatch

/-- One resource of `mergeCompositeMaterials`. -/
def mergeCompositeMaterial (source : Model) (s : Model × UniqueResourceIDMapping)
    (old : Resource) : Except Error (Model × UniqueResourceIDMapping) :=
  match old.data with
  | .compositeMaterials b g => do
    match ← s.1.findBaseMaterial (← source.mappedID s.2 b) with
    | none => throw .resourceNotFound
    | some (b, materials) =>
      mergeResource old.resourceID (.compositeMaterials b .empty)
        (fun _ => do return .compositeMaterials b (← mergeCompositeMaterialsFrom materials g)) s
  | _ => .error .resourceTypeMismatch

/-- One resource of `mergeMultiPropertyGroups`: the layers are added as they are. -/
def mergeMultiPropertyGroup (s : Model × UniqueResourceIDMapping) (old : Resource) :
    Except Error (Model × UniqueResourceIDMapping) :=
  match old.data with
  | .multiPropertyGroup layers g =>
    mergeResource old.resourceID (.multiPropertyGroup [] .empty)
      (fun m => do
        let g ← mergeMultiPropertiesFrom g
        let layers ← layers.foldlM m.addLayer []
        return .multiPropertyGroup layers g) s
  | _ => .error .resourceTypeMismatch

/-- Copy the resources of a lookup table of the source. -/
def mergeLookup (source : Model)
    (merge : Model × UniqueResourceIDMapping → Resource →
      Except Error (Model × UniqueResourceIDMapping))
    (lookup : List ResourceRef) (s : Model × UniqueResourceIDMapping) :
    Except Error (Model × UniqueResourceIDMapping) :=
  lookup.foldlM (fun s r =>
    match source.store[r]? with
    | none => .error .invalidParam
    | some old => merge s old) s

/-- `mergeTextures2D`. -/
def mergeTextures2D (source : Model) := mergeLookup source mergeTexture2D source.textureLookup

/-- `mergeBaseMaterials`. -/
def mergeBaseMaterials (source : Model) :=
  mergeLookup source mergeBaseMaterial source.baseMaterialLookup

/-- `mergeColorGroups`. -/
def mergeColorGroups (source : Model) :=
  mergeLookup source mergeColorGroup source.colorGroupLookup

/-- `mergeTexture2DGroups`. -/
def mergeTexture2DGroups (source : Model) :=
  mergeLookup source (mergeTexture2DGroup source) source.texture2DGroupLookup

/-- `mergeCompositeMaterials`. -/
def mergeCompositeMaterials (source : Model) :=
  mergeLookup source (mergeCompositeMaterial source) source.compositeMaterialsLookup

/-- `mergeMultiPropertyGroups`. -/
def mergeMultiPropertyGroups (source : Model) :=
  mergeLookup source mergeMultiPropertyGroup source.multiPropertyGroupLookup

/-- `mergeModelAttachments`. -/
def mergeModelAttachments (m source : Model) : Except Error Model :=
  source.attachments.foldlM (fun m a => m.addAttachment a.pathURI a.relationShipType a.stream) m

/-! ## Merging to a model -/

/-- `CModel::mergeToMesh`: all build items, into one mesh. -/
def mergeBuildItems (uninit : FaceProperties) (m : Model) (fuel : Nat) (mesh : Mesh) :
    Visit Mesh :=
  m.buildItems.foldlM (fun mesh b => m.mergeToMesh uninit fuel b.object mesh b.transform) mesh

/-- The copied resources, with the mapping of their IDs. -/
def mergeResources (source : Model) : Except Error (Model × UniqueResourceIDMapping) := do
  let m ← Model.new.mergeModelAttachments source
  let s ← source.mergeTextures2D (m, .empty)
  let s ← source.mergeBaseMaterials s
  let s ← source.mergeColorGroups s
  let s ← source.mergeTexture2DGroups s
  let s ← source.mergeCompositeMaterials s
  source.mergeMultiPropertyGroups s

/-- What `MergeToModel` leaves: the new model, the source, whose handle counter moved, and the
mapping, which it drops. -/
structure MergeResult where
  target : Model
  source : Model
  oldToNewUniqueResourceIDs : UniqueResourceIDMapping

/-- The rest of `MergeToModel`, with the merged mesh. -/
def mergeMeshToModel (source : Model) (mesh : Mesh) : Except Error MergeResult := do
  let (m, oldToNew) ← source.mergeResources
  let mesh ← mesh.patchMeshInformationResources fun id => (oldToNew.find? id).getD 0
  let (m, r) ← m.construct m.generateResourceID (.meshObject .new mesh)
  let m ← m.addResource r
  let (source, handle) ← source.createHandle
  let m ← m.addBuildItem ⟨r, .identity, handle⟩
  return ⟨m, source, oldToNew⟩

/-- `MergeToModel`. -/
def mergeToModel (uninit : FaceProperties) (m : Model) (fuel : Nat) : Visit MergeResult := do
  let mesh ← m.mergeBuildItems uninit fuel .empty
  .lift (m.mergeMeshToModel mesh)

end Model

end NMR
