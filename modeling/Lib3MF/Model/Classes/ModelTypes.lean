import Lib3MF.Common.Mesh.Mesh
import Lib3MF.Model.Classes.PackageResourceID
import Lib3MF.Model.Classes.PropertyGroup

/-!
# Resources and build items

A resource is a value of `Resource`; where the source keeps a pointer to a resource of the same
model, the model of it keeps a `ResourceRef`, the position of the resource among the resources
constructed so far.
-/

namespace NMR

/-- A pointer to a resource of the model. -/
abbrev ResourceRef := Nat

/-- `CModelAttachment`, with the content of its stream. -/
structure Attachment where
  pathURI : String
  relationShipType : String
  stream : List UInt8
  deriving DecidableEq

inductive ObjectType where
  | other | model | support | solidSupport | surface
  deriving DecidableEq

inductive TextureType where
  | unknown | png | jpeg
  deriving DecidableEq

inductive TileStyle where
  | wrap | mirror | clamp | none
  deriving DecidableEq

inductive TextureFilter where
  | auto | linear | nearest
  deriving DecidableEq

inductive BlendMethod where
  | none | mix | multiply
  deriving DecidableEq

/-- `CModelBaseMaterial`. -/
structure BaseMaterial where
  name : String
  displayColor : Nat
  deriving DecidableEq

/-- `MODELTEXTURE2DCOORDINATE`. -/
structure UVCoordinate where
  u : Double
  v : Double
  deriving DecidableEq

/-- `MODELCOMPOSITECONSTITUENT`. -/
structure CompositeConstituent where
  propertyID : Nat
  mixingRatio : Double
  deriving DecidableEq

/-- `CModelComposite`. -/
abbrev Composite := List CompositeConstituent

/-- `CModelMultiProperty`: a property per layer. -/
abbrev MultiProperty := List Nat

/-- `MODELMULTIPROPERTYLAYER`. -/
structure MultiPropertyLayer where
  resourceID : Nat
  method : BlendMethod
  deriving DecidableEq

/-- `CModelTexture2DResource`. -/
structure Texture2D where
  attachment : Attachment
  contentType : TextureType
  box2D : Option (Fin 4 → ℚ)
  tileStyleU : TileStyle
  tileStyleV : TileStyle
  filter : TextureFilter
  deriving DecidableEq

/-- `CSlice`. -/
structure Slice where
  topZ : Double
  vertices : List (ℚ × ℚ)
  polygons : List (List Nat)
  deriving DecidableEq

/-- `CModelSliceStack`. -/
structure SliceStack where
  zBottom : Double
  slices : List Slice
  sliceRefs : List ResourceRef
  ownPath : String
  deriving DecidableEq

/-- `CModelComponent`. -/
structure Component where
  object : ResourceRef
  transform : Matrix3
  deriving DecidableEq

/-- The fields of `CModelObject` the modelled functions read. -/
structure ObjectInfo where
  objectType : ObjectType
  sliceStack : Option ResourceRef
  componentDepthLevel : Nat
  deriving DecidableEq

/-- A new object. -/
def ObjectInfo.new : ObjectInfo := ⟨.model, none, 0⟩

/-- The resource classes. -/
inductive ResourceData where
  | meshObject (info : ObjectInfo) (mesh : Mesh)
  | componentsObject (info : ObjectInfo) (components : List Component)
  | baseMaterials (group : PropertyGroup BaseMaterial)
  | colorGroup (group : PropertyGroup Nat)
  | texture2D (texture : Texture2D)
  | texture2DGroup (texture : ResourceRef) (group : PropertyGroup UVCoordinate)
  | compositeMaterials (baseMaterials : ResourceRef) (group : PropertyGroup Composite)
  | multiPropertyGroup (layers : List MultiPropertyLayer) (group : PropertyGroup MultiProperty)
  | sliceStack (stack : SliceStack)
  | toolpath (unitFactor : ℚ)
  deriving DecidableEq

/-- `CModelResource`. -/
structure Resource where
  resourceID : PackageResourceID
  data : ResourceData
  deriving DecidableEq

/-- `CModelBuildItem`. -/
structure BuildItem where
  object : ResourceRef
  transform : Matrix3
  handle : Nat
  deriving DecidableEq

/-- `dynamic_cast<CModelObject *>` succeeds. -/
def ResourceData.isObject : ResourceData → Bool
  | .meshObject .. | .componentsObject .. => true
  | _ => false

/-- The components of a components object. -/
def ResourceData.components : ResourceData → List Component
  | .componentsObject _ cs => cs
  | _ => []

/-- The slice stack the resource is. -/
def ResourceData.stack? : ResourceData → Option SliceStack
  | .sliceStack s => some s
  | _ => none

end NMR
