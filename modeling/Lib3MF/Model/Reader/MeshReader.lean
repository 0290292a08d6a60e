import Lib3MF.Model.Classes.PackageResourceID
import Lib3MF.Model.Writer.MeshWriter

/-!
# Reading property resources and mesh objects

The reader nodes of the resources with properties and of mesh objects. A resource is registered
with the ID it has in the file, under the path of the part that is read, and gets a unique ID of
its own; the properties are numbered in the order of their elements. What is read of the content of
a resource is a parameter, `read`. Warnings, which change nothing, are left out.
-/

namespace NMR

open Lib

/-- The state of a reader: the IDs issued and the model so far. -/
structure ReaderState (V : Type) where
  resourceHandler : ResourceHandler
  model : MeshModel V
  deriving DecidableEq

/-- What is read of the content of a property resource. -/
structure ReadProperties (V : Type) where
  kind : PropertyResourceKind
  baseMaterialID : Nat
  properties : List V
  deriving DecidableEq

namespace Reader

variable {V E : Type} (read : String → ReaderState V → E → Except Error (ReadProperties V))

/-- A reader on a new model. -/
def new : ReaderState V := ⟨.empty, ⟨[], []⟩⟩

/-- `CModel::findResource`, by unique ID. -/
def findResource (s : ReaderState V) (uniqueID : Nat) : Option (PropertyGroup V) :=
  (s.resourceHandler.findResourceID uniqueID).bind fun p => s.model.findResource p.uniqueID

/-! ## Property resources -/

/-- One property of a resource. -/
def addProperty (kind : PropertyResourceKind) (g : PropertyGroup V) (v : V) :
    Except Error (PropertyGroup V) := do
  let r ← g.add kind.tooMany (fun _ => .ok ()) v
  return r.1

/-- A resource with its properties. -/
def readPropertyResource (path : String) (s : ReaderState V) (e : PropertyResourceElement E) :
    Except Error (ReaderState V) := do
  let id ← fnStringToUint32 e.id
  if id = 0 then throw .missingModelResourceID
  let content ← read path s e.content
  let (handler, p) ← s.resourceHandler.getNewResourceID path id
  if (s.model.findResource p.uniqueID).isSome then throw .duplicateModelResource
  let group ← content.properties.foldlM (addProperty content.kind) .empty
  return ⟨handler, { s.model with propertyResources := s.model.propertyResources ++
    [⟨p.uniqueID, content.kind, content.baseMaterialID, group⟩] }⟩

/-! ## Triangles -/

/-- `CModelReaderNode100_Triangle`. -/
structure TriangleNode where
  propertyID : Nat
  propertyIndex : Fin 3 → Int
  index : Fin 3 → Int

/-- A new node. -/
def TriangleNode.new : TriangleNode := ⟨0, fun _ => -1, fun _ => -1⟩

/-- A value in the range of the attributes that are indices; another one is ignored. -/
def TriangleNode.setIndex (value : Int) (old : Fin 3 → Int) (j : Fin 3) : Fin 3 → Int :=
  if 0 ≤ value ∧ value < maxResourceIndex then Function.update old j value else old

/-- `OnAttribute`. -/
def TriangleNode.onAttribute (n : TriangleNode) (a : TriangleAttribute × Int) :
    Except Error TriangleNode := do
  let value ← fnStringToInt32 a.2
  match a.1 with
  | .v1 => return { n with index := setIndex value n.index 0 }
  | .v2 => return { n with index := setIndex value n.index 1 }
  | .v3 => return { n with index := setIndex value n.index 2 }
  | .pid =>
    if 0 ≤ value ∧ value < maxResourceID then return { n with propertyID := value.toNat }
    else return n
  | .p1 => return { n with propertyIndex := setIndex value n.propertyIndex 0 }
  | .p2 => return { n with propertyIndex := setIndex value n.propertyIndex 1 }
  | .p3 => return { n with propertyIndex := setIndex value n.propertyIndex 2 }

/-- `parseXML`. -/
def TriangleNode.parseXML (e : TriangleElement) : Except Error TriangleNode :=
  e.foldlM onAttribute .new

/-- `retrieveIndices`. -/
def TriangleNode.retrieveIndices (n : TriangleNode) (nodeCount : Nat) :
    Except Error (Fin 3 → Int) := do
  if n.index 0 < 0 ∨ n.index 1 < 0 ∨ n.index 2 < 0 then throw .invalidModelNodeIndex
  if nodeCount ≤ n.index 0 ∨ nodeCount ≤ n.index 1 ∨ nodeCount ≤ n.index 2 then
    throw .invalidModelNodeIndex
  return n.index

/-- `retrieveProperties`, from the defaults. -/
def TriangleNode.retrieveProperties (n : TriangleNode) (default : Nat × (Fin 3 → Nat)) :
    Nat × (Fin 3 → Nat) :=
  if n.propertyID = 0 then default
  else if n.propertyIndex 0 < 0 then default
  else
    (n.propertyID, fun j =>
      if 0 ≤ n.propertyIndex j then (n.propertyIndex j).toNat else (n.propertyIndex 0).toNat)

/-- `createPropertiesInformation`. -/
def createPropertiesInformation (mesh : Mesh) : Mesh :=
  match mesh.properties with
  | some _ => mesh
  | none =>
    let handler : MeshInformationHandler := ⟨some ⟨none, List.replicate mesh.faces.length .invalid⟩⟩
    { mesh with meshInformationHandler := some handler }

/-- The record for a resource of the file and the indices of its properties, if it has these. -/
def resolveProperties (path : String) (s : ReaderState V) (property : Nat × (Fin 3 → Nat)) :
    Option FaceProperties := do
  let p ← s.resourceHandler.findResourceIDByPath path property.1
  let g ← findResource s p.uniqueID
  let id1 ← MeshModel.mapResourceIndexToPropertyID g (property.2 0)
  let id2 ← MeshModel.mapResourceIndexToPropertyID g (property.2 1)
  let id3 ← MeshModel.mapResourceIndexToPropertyID g (property.2 2)
  return ⟨p.uniqueID, ![id1, id2, id3]⟩

/-- `m_Nodes.getData` does not throw. -/
def HasNode (mesh : Mesh) (index : Int) : Prop := 0 ≤ index ∧ index < mesh.nodes.length

instance (mesh : Mesh) (index : Int) : Decidable (HasNode mesh index) :=
  inferInstanceAs (Decidable (_ ∧ _))

/-- `CModelReaderNode100_Triangles::addFace`. -/
def addFace (path : String) (s : ReaderState V) (mesh : Mesh) (index : Fin 3 → Int)
    (property : Nat × (Fin 3 → Nat)) : Except Error Mesh := do
  if index 0 = index 1 ∨ index 0 = index 2 ∨ index 1 = index 2 then
    throw .invalidModelCoordinateIndices
  if ¬ (HasNode mesh (index 0) ∧ HasNode mesh (index 1) ∧ HasNode mesh (index 2)) then
    throw .invalidIndex
  let mesh ← mesh.addFace index
  if property.1 = 0 then return mesh
  match resolveProperties path s property with
  | none => return mesh
  | some r =>
    let mesh := createPropertiesInformation mesh
    return mesh.mapProperties fun p =>
      { p with faceData := p.faceData.set (mesh.faces.length - 1) r }

/-- `OnNSChildElement` at a `triangle`. `default` is the object-level property of the file. -/
def readTriangle (path : String) (s : ReaderState V) (default : Nat × Nat) (mesh : Mesh)
    (e : TriangleElement) : Except Error Mesh := do
  let n ← TriangleNode.parseXML e
  let index ← n.retrieveIndices mesh.nodes.length
  addFace path s mesh index (n.retrieveProperties (default.1, fun _ => default.2))

/-! ## Objects -/

/-- `CModelReaderNode100_Vertex::OnAttribute` and `CMesh::addNode`, at a `vertex`. -/
def readVertex (mesh : Mesh) (v : Vec3) : Except Error Mesh := do
  if meshMaxCoordinate < |v.x| ∨ meshMaxCoordinate < |v.y| ∨ meshMaxCoordinate < |v.z| then
    throw .invalidModelCoordinates
  mesh.addNode v

/-- The content of the `mesh` element. -/
def readMesh (path : String) (s : ReaderState V) (default : Nat × Nat) (e : ObjectElement) :
    Except Error Mesh := do
  let mesh ← e.vertices.foldlM readVertex .empty
  e.triangles.foldlM (readTriangle path s default) mesh

/-- `createDefaultProperties`. -/
def createDefaultProperties (path : String) (s : ReaderState V) (default : Nat × Nat)
    (mesh : Mesh) : Except Error Mesh :=
  if default.1 = 0 then .ok mesh
  else
    match s.resourceHandler.findResourceIDByPath path default.1 with
    | none => .error .resourceNotFound
    | some p =>
      match s.model.findResource p.uniqueID with
      | none => .error .resourceNotFound
      | some g =>
        match MeshModel.mapResourceIndexToPropertyID g default.2 with
        | none => .error .invalidResourceIndex
        | some id => .ok ((createPropertiesInformation mesh).mapProperties fun q =>
            { q with defaultData := some ⟨p.uniqueID, fun _ => id⟩ })

/-- The state with a mesh object more. -/
def addObject (s : ReaderState V) (uniqueID : Nat) (mesh : Mesh) : ReaderState V :=
  { s with model := { s.model with objects := s.model.objects ++ [⟨uniqueID, mesh⟩] } }

/-- An object, with a `mesh`. -/
def readObject (path : String) (s : ReaderState V) (e : ObjectElement) :
    Except Error (ReaderState V) := do
  let id ← fnStringToUint32 e.id
  let pid ← e.pid.elim (.ok 0) fnStringToUint32
  let pindex ← e.pindex.elim (.ok 0) fnStringToUint32
  if id = 0 then throw .missingModelObjectID
  let (handler, p) ← s.resourceHandler.getNewResourceID path id
  let s := { s with resourceHandler := handler }
  let mesh ← readMesh path s (pid, pindex) e
  if (s.model.findResource p.uniqueID).isSome then throw .duplicateModelResource
  let mesh ← createDefaultProperties path (addObject s p.uniqueID mesh) (pid, pindex) mesh
  return addObject s p.uniqueID mesh

/-- The `resources` of a part under `path`. -/
def readResources (path : String) (e : ResourcesElement E) : Except Error (ReaderState V) := do
  let s ← e.propertyResources.foldlM (readPropertyResource read path) new
  e.objects.foldlM (readObject path) s

end Reader

end NMR
