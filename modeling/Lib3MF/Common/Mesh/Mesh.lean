import Mathlib.Algebra.Order.Ring.Nat
import Lib3MF.Common.Exception
import Lib3MF.Common.Math.Geometry

/-!
# Meshes and their face properties

`CMesh` with its nodes, faces and beams, and `CMeshInformationHandler` with the one kind of
information it holds, the face properties (`CMeshInformation_Properties`): a record per face and
the object-level default. `Mesh.mergeMesh` copies another mesh into this one, transformed;
`Mesh.patchMeshInformationResources` renames the resources the records point to.

`new MESHINFORMATION_PROPERTIES` leaves its fields uninitialised, so the functions that
allocate a default record take the value they find there as the parameter `uninit`.
-/

namespace NMR

/-- A face has corners to count from zero. -/
instance neZero_three : NeZero 3 := ⟨Nat.succ_ne_zero 2⟩

/-- A beam has ends to count from zero. -/
instance neZero_two : NeZero 2 := ⟨Nat.succ_ne_zero 1⟩

/-- `MESHINFORMATION_PROPERTIES`: the resource of a face and a property per corner. -/
structure FaceProperties where
  resourceID : Nat
  propertyIDs : Fin 3 → Nat
  deriving DecidableEq

/-- `invalidateFace`: no property. -/
def FaceProperties.invalid : FaceProperties := ⟨0, fun _ => 0⟩

/-- `CMeshInformation_Properties`. -/
structure MeshInformationProperties where
  defaultData : Option FaceProperties
  faceData : List FaceProperties
  deriving DecidableEq

/-- `CMeshInformationHandler`: the information by its type, of which there is one. -/
structure MeshInformationHandler where
  properties : Option MeshInformationProperties
  deriving DecidableEq

/-- `MESHFACE`. -/
structure MeshFace where
  nodeIndices : Fin 3 → Int
  deriving DecidableEq

/-- `MESHBEAM`. -/
structure MeshBeam where
  nodeIndices : Fin 2 → Int
  radius : Fin 2 → ℚ
  capMode : Fin 2 → Int
  deriving DecidableEq

/-- `CMesh`. A node or face is named by its index. -/
structure Mesh where
  nodes : List Vec3
  faces : List MeshFace
  beams : List MeshBeam
  meshInformationHandler : Option MeshInformationHandler
  deriving DecidableEq

/-- `NMR_MESH_MAXCOORDINATE`. -/
def meshMaxCoordinate : ℚ := 1000000000

/-- `NMR_MESH_MAXNODECOUNT`, `NMR_MESH_MAXFACECOUNT`, `NMR_MESH_MAXBEAMCOUNT`. -/
def meshMaxCount : Nat := 2147483647

namespace Mesh

/-- A new mesh. -/
def empty : Mesh := ⟨[], [], [], none⟩

/-- The face properties, when there are any. -/
def properties (m : Mesh) : Option MeshInformationProperties :=
  m.meshInformationHandler.bind (·.properties)

/-- Change the face properties, when there are any. -/
def mapProperties (f : MeshInformationProperties → MeshInformationProperties) (m : Mesh) : Mesh :=
  { m with meshInformationHandler := m.meshInformationHandler.map fun h =>
      { h with properties := h.properties.map f } }

/-- `addNode`. -/
def addNode (m : Mesh) (v : Vec3) : Except Error Mesh :=
  if meshMaxCoordinate < |v.x| ∨ meshMaxCoordinate < |v.y| ∨ meshMaxCoordinate < |v.z| then
    .error .invalidCoordinates
  else if meshMaxCount ≤ m.nodes.length then .error .tooManyNodes
  else .ok { m with nodes := m.nodes ++ [v] }

/-- `CMeshInformationHandler::addFace`: a new record, for the face that makes the count
`newFaceCount`. -/
def MeshInformationHandler.addFace (h : MeshInformationHandler) (newFaceCount : Nat) :
    Except Error MeshInformationHandler :=
  match h.properties with
  | none => .ok h
  | some p =>
    if p.faceData.length + 1 ≠ newFaceCount then .error .meshInformationCountMismatch
    else .ok { h with properties := some { p with faceData := p.faceData ++ [.invalid] } }

/-- `addFace`. -/
def addFace (m : Mesh) (nodeIndices : Fin 3 → Int) : Except Error Mesh :=
  if nodeIndices 0 = nodeIndices 1 ∨ nodeIndices 0 = nodeIndices 2 ∨
      nodeIndices 1 = nodeIndices 2 then .error .duplicateNode
  else if meshMaxCount ≤ m.faces.length then .error .tooManyFaces
  else
    let faces := m.faces ++ [⟨nodeIndices⟩]
    match m.meshInformationHandler with
    | none => .ok { m with faces := faces }
    | some h =>
      match MeshInformationHandler.addFace h faces.length with
      | .error e => .error e
      | .ok h => .ok { m with faces := faces, meshInformationHandler := some h }

/-- `addBeam`. -/
def addBeam (m : Mesh) (b : MeshBeam) : Except Error Mesh :=
  if b.nodeIndices 0 = b.nodeIndices 1 then .error .duplicateNode
  else if meshMaxCount ≤ m.beams.length then .error .tooManyBeams
  else .ok { m with beams := m.beams ++ [b] }

/-- `createMeshInformationHandler` and `addInfoTableFrom`: this mesh gets the kinds of
information the other has, with an invalid record for each face it already has. -/
def addInfoTableFrom (m : Mesh) (other : MeshInformationHandler) : Mesh :=
  let h := m.meshInformationHandler.getD ⟨none⟩
  let h' : MeshInformationHandler :=
    if other.properties.isSome ∧ h.properties.isNone then
      ⟨some ⟨none, List.replicate m.faces.length .invalid⟩⟩
    else h
  { m with meshInformationHandler := some h' }

/-- `cloneDefaultInfosFrom`: the default of the other replaces this one; where this one is not
allocated yet and the other has none, the new record keeps what was in memory. -/
def MeshInformationProperties.cloneDefaultInfosFrom (uninit : FaceProperties)
    (p other : MeshInformationProperties) : MeshInformationProperties :=
  { p with defaultData := some (other.defaultData.getD (p.defaultData.getD uninit)) }

/-- `CMeshInformationHandler::cloneDefaultInfosFrom`. -/
def cloneDefaultInfosFrom (uninit : FaceProperties) (m : Mesh) (src : Mesh) : Mesh :=
  match src.properties with
  | none => m
  | some q => m.mapProperties fun p => MeshInformationProperties.cloneDefaultInfosFrom uninit p q

/-- `CMeshInformationHandler::cloneFaceInfosFrom`: face `i` gets the record of face `j`. -/
def cloneFaceInfosFrom (m : Mesh) (i : Nat) (src : Mesh) (j : Nat) : Except Error Mesh :=
  match m.properties, src.properties with
  | some p, some q =>
    if p.faceData.length ≤ i then .error .invalidMeshInformationIndex
    else match q.faceData[j]? with
      | none => .error .invalidMeshInformationIndex
      | some r => .ok (m.mapProperties fun p => { p with faceData := p.faceData.set i r })
  | _, _ => .ok m

/-- One face of `mergeMesh`: face `j` of `src`, its nodes being the new ones from index `offset`
on. -/
def mergeFace (src : Mesh) (offset : Nat) (m : Mesh) (f : MeshFace × Nat) : Except Error Mesh := do
  if ∃ j, f.1.nodeIndices j < 0 ∨ (src.nodes.length : Int) ≤ f.1.nodeIndices j then
    throw .invalidNodeIndex
  let m ← m.addFace fun j => offset + f.1.nodeIndices j
  m.cloneFaceInfosFrom (m.faces.length - 1) src f.2

/-- One beam of `mergeMesh`. -/
def mergeBeam (src : Mesh) (offset : Nat) (m : Mesh) (b : MeshBeam) : Except Error Mesh := do
  if ∃ j, b.nodeIndices j < 0 ∨ (src.nodes.length : Int) ≤ b.nodeIndices j then
    throw .invalidNodeIndex
  m.addBeam { b with nodeIndices := fun j => offset + b.nodeIndices j }

/-- `mergeMesh`: copy the nodes of `src`, transformed, then its faces with their properties and
its beams. -/
def mergeMesh (uninit : FaceProperties) (m : Mesh) (src : Mesh) (matrix : Matrix3) :
    Except Error Mesh := do
  let offset := m.nodes.length
  let m := match src.meshInformationHandler with
    | none => m
    | some h => m.addInfoTableFrom h
  let m ← src.nodes.foldlM (fun m v => m.addNode (matrix.apply v)) m
  if src.nodes.length = 0 then return m
  let m := if src.faces.length = 0 then m else m.cloneDefaultInfosFrom uninit src
  let m ← src.faces.zipIdx.foldlM (mergeFace src offset) m
  src.beams.foldlM (mergeBeam src offset) m

/-- One record of `patchMeshInformationResources`. -/
def patchRecord (oldToNew : Nat → Nat) (r : FaceProperties) : Except Error FaceProperties :=
  if r.resourceID = 0 then .ok r
  else if oldToNew r.resourceID = 0 then .error .unknownModelResource
  else .ok { r with resourceID := oldToNew r.resourceID }

/-- `patchMeshInformationResources`: rename the resources of the default and of the record of
every face. `oldToNew` reads the mapping as `operator[]` does, `0` for a resource it does not
have. -/
def patchMeshInformationResources (oldToNew : Nat → Nat) (m : Mesh) : Except Error Mesh :=
  match m.properties with
  | none => .ok m
  | some p => do
    let defaultData ← p.defaultData.mapM (patchRecord oldToNew)
    let faceData ← (p.faceData.take m.faces.length).mapM (patchRecord oldToNew)
    if p.faceData.length < m.faces.length then throw .invalidMeshInformationIndex
    return m.mapProperties fun _ => ⟨defaultData, faceData ++ p.faceData.drop m.faces.length⟩

end Mesh

end NMR
