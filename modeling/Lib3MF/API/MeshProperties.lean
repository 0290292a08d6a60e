import Lib3MF.API.MeshObject
import Lib3MF.Model.Writer.MeshWriter

/-!
# Properties of a mesh object

The calls of `CMeshObject` on the properties of its triangles and on the object-level one. Resource
0 is no property. All of them create the records that are missing first, also those that read.
-/

namespace NMR

open Lib

namespace EditedMesh

/-- What `getMeshInformationProperties` returns: the properties there are, or new ones. -/
def information (m : EditedMesh) : MeshInformationProperties :=
  (m.meshInformationHandler.bind (·.properties)).getD ⟨none, .replicate m.faces.length .invalid⟩

/-- The mesh with these properties. -/
def withInformation (m : EditedMesh) (p : MeshInformationProperties) : EditedMesh :=
  { m with meshInformationHandler := some ⟨some p⟩ }

/-- `getMeshInformationProperties`. -/
def getMeshInformationProperties : EditedMeshM Unit :=
  modify fun m => m.withInformation m.information

/-- `getFaceData`, and the assignment to the record it returns. -/
def setFaceData (i : Nat) (p : FaceProperties) : EditedMeshM Unit := fun m =>
  if m.information.faceData.length ≤ i then .error .invalidMeshInformationIndex m
  else .ok () (m.withInformation
    { m.information with faceData := m.information.faceData.set i p })

/-- `SetTriangleProperties`. -/
def setTriangleProperties (i : UInt32) (p : FaceProperties) : EditedMeshM Unit := do
  getMeshInformationProperties
  setFaceData i.toNat p

/-- The end of `SetAllTriangleProperties`: the first record is the default, where there is none. -/
def prepareDefault : EditedMeshM Unit := fun m =>
  if 0 < m.faces.length ∧ m.information.defaultData = none then
    match m.information.faceData[0]? with
    | none => .error .invalidMeshInformationIndex m
    | some r => .ok () (m.withInformation { m.information with defaultData := some r })
  else .ok () m

/-- `SetAllTriangleProperties`, of an array or of a null pointer with its size. -/
def setAllTriangleProperties (ps : List FaceProperties) (null : Bool) : EditedMeshM Unit := do
  let m ← get
  require (ps.length = m.faces.length) .apiInvalidPropertyCount
  require (null = false) .apiInvalidParam
  getMeshInformationProperties
  ps.zipIdx.forM fun x => setFaceData x.2 x.1
  prepareDefault

/-- `SetObjectLevelProperty`. -/
def setObjectLevelProperty (resourceID propertyID : Nat) : EditedMeshM Unit := do
  getMeshInformationProperties
  modify fun m => m.withInformation
    { m.information with defaultData := some ⟨resourceID, fun _ => propertyID⟩ }

/-- `ClearAllProperties`. -/
def clearAllProperties : EditedMeshM Unit := modify fun m => { m with meshInformationHandler := none }

end EditedMesh

/-- The calls on a mesh object and its properties. -/
inductive PropertyCall where
  | addVertex (p : Position)
  | addTriangle (t : Triangle)
  | setVertex (i : UInt32) (p : Position)
  | setTriangle (i : UInt32) (t : Triangle)
  | setGeometry (vertices : Option (List Position)) (triangles : Option (List Triangle))
  /-- The calls that read properties. -/
  | getProperties
  | setTriangleProperties (i : UInt32) (p : FaceProperties)
  | setAllTriangleProperties (ps : List FaceProperties) (null : Bool)
  | setObjectLevelProperty (resourceID propertyID : Nat)
  | clearAllProperties

namespace EditedMesh

/-- One call. -/
def propertyCall : PropertyCall → EditedMeshM Unit
  | .addVertex p => addVertex p
  | .addTriangle t => addTriangle t
  | .setVertex i p => setVertex i p
  | .setTriangle i t => setTriangle i t
  | .setGeometry vertices triangles => setGeometry vertices triangles
  | .getProperties => getMeshInformationProperties
  | .setTriangleProperties i p => setTriangleProperties i p
  | .setAllTriangleProperties ps null => setAllTriangleProperties ps null
  | .setObjectLevelProperty resourceID propertyID => setObjectLevelProperty resourceID propertyID
  | .clearAllProperties => clearAllProperties

/-- The mesh that `writeTriangles` reads: the faces and their properties. -/
def toMesh (m : EditedMesh) : Mesh := ⟨[], m.faces, [], m.meshInformationHandler⟩

end EditedMesh

end NMR
