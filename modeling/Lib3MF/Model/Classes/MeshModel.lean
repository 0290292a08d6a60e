import Lib3MF.Common.Mesh.Mesh
import Lib3MF.Common.Mesh.Proof.Records
import Lib3MF.Model.Classes.PropertyGroup

/-!
# Property resources and mesh objects

The part of a model that the properties of faces are about: the resources with properties, in the
order in which the writer writes them, and the mesh objects. What a property is stays open: `V`
is the type of the properties.

`effectivePlace` is the place of the property a corner of a face resolves to: that of its record,
where it has one, and that of the object-level default otherwise.
-/

namespace NMR

open Lib

/-- The resource classes with properties, in the order of `writeResources`. -/
inductive PropertyResourceKind where
  | baseMaterials | colorGroup | texture2DGroup | compositeMaterials | multiPropertyGroup
  deriving DecidableEq

/-- The error of a resource that is full. -/
def PropertyResourceKind.tooMany : PropertyResourceKind → Error
  | .baseMaterials => .tooManyMaterials
  | .colorGroup | .texture2DGroup => .tooManyColors
  | .compositeMaterials | .multiPropertyGroup => .tooManyComposites

/-- `CModelBaseMaterialResource`, `CModelColorGroupResource`, `CModelTexture2DGroupResource`,
`CModelCompositeMaterialsResource`, `CModelMultiPropertyGroupResource`. Composite materials have the
unique ID of their base materials, the others `0` in its place. -/
structure PropertyResource (V : Type) where
  uniqueID : Nat
  kind : PropertyResourceKind
  baseMaterialID : Nat
  group : PropertyGroup V
  deriving DecidableEq

/-- `CModelMeshObject`. -/
structure MeshObject where
  uniqueID : Nat
  mesh : Mesh
  deriving DecidableEq

/-- The property resources and the mesh objects of a `CModel`. -/
structure MeshModel (V : Type) where
  propertyResources : List (PropertyResource V)
  objects : List MeshObject
  deriving DecidableEq

namespace MeshModel

variable {V : Type}

/-- `findResource`, by unique ID: the properties of the resource. An object has none. -/
def findResource (m : MeshModel V) (uniqueID : Nat) : Option (PropertyGroup V) :=
  match m.propertyResources.find? fun r => r.uniqueID = uniqueID with
  | some r => some r.group
  | none => if ∃ o ∈ m.objects, o.uniqueID = uniqueID then some .empty else none

/-- `mapResourceIndexToPropertyID`. -/
def mapResourceIndexToPropertyID (g : PropertyGroup V) (index : Nat) : Option Nat :=
  g.buildResourceIndexMap[index]?

/-- The place of property `k` of the resource with unique ID `id`: that of the resource, and the
index of the property in it. -/
def propertyPlace (m : MeshModel V) (id k : Nat) : Option (Nat × Nat) := do
  let i ← m.propertyResources.findIdx? fun r => r.uniqueID = id
  let r ← m.propertyResources[i]?
  let index ← r.group.buildResourceIndexMap.idxOf? k
  return (i, index)

/-- What a record says about corner `j`; resource `0` is no property. -/
def recordPlace (m : MeshModel V) (r : FaceProperties) (j : Fin 3) : Option (Nat × Nat) :=
  if r.resourceID = 0 then none else m.propertyPlace r.resourceID (r.propertyIDs j)

/-- The object-level default, `getDefaultData`. -/
def defaultRecord (mesh : Mesh) : FaceProperties :=
  (mesh.properties.bind (·.defaultData)).getD .invalid

/-- The object-level default at corner `j`. -/
def defaultPlace (m : MeshModel V) (mesh : Mesh) (j : Fin 3) : Option (Nat × Nat) :=
  m.recordPlace (defaultRecord mesh) j

/-- What face `i` resolves to at corner `j`. -/
def effectivePlace (m : MeshModel V) (mesh : Mesh) (i : Nat) (j : Fin 3) : Option (Nat × Nat) :=
  if (mesh.record i).resourceID = 0 then m.defaultPlace mesh j
  else m.recordPlace (mesh.record i) j

/-- The unique IDs of the model. -/
def uniqueIDs (m : MeshModel V) : List Nat :=
  m.propertyResources.map (·.uniqueID) ++ m.objects.map (·.uniqueID)

/-- What holds of the models one can build: the unique IDs are distinct, positive and of 32 bits,
the groups and the meshes are within their limits. -/
structure Valid (m : MeshModel V) : Prop where
  nodup : m.uniqueIDs.Nodup
  bounds : ∀ id ∈ m.uniqueIDs, 0 < id ∧ id < 2 ^ 32
  count : ∀ r ∈ m.propertyResources, r.group.getCount ≤ maxResourceIndex
  nodes : ∀ o ∈ m.objects, o.mesh.nodes.length ≤ meshMaxCount
  faces : ∀ o ∈ m.objects, o.mesh.faces.length ≤ meshMaxCount

/-- Object `o'` of `m'` has the faces of object `o` of `m`, each resolving at each corner to the
property at the same place, and the object-level default at the same place. -/
structure SameProperties (m : MeshModel V) (o : MeshObject) (m' : MeshModel V) (o' : MeshObject) :
    Prop where
  faces : o'.mesh.faces = o.mesh.faces
  default : ∀ j, m'.defaultPlace o'.mesh j = m.defaultPlace o.mesh j
  effective : ∀ i < o.mesh.faces.length, ∀ j,
    m'.effectivePlace o'.mesh i j = m.effectivePlace o.mesh i j

end MeshModel

end NMR
