import Lib3MF.Common.MeshInformation.MeshInformation

/-!
# Meshes and their information handler

The functions of `CMesh` that change its faces or its handler. Another mesh is copied as it is when
`mergeMesh` begins: where it is the mesh itself, what is read of it does not change.
-/

namespace NMR

open Lib

/-- `CMesh`. A pointer to a node is its place. -/
structure CMesh where
  nodes : List EditedNode
  faces : List MeshFace
  beams : List EditedBeam
  meshInformationHandler : Option CMeshInformationHandler

/-- Functions that keep what they have done when they throw. -/
abbrev CMeshM := EStateM (Fault Error) CMesh

namespace CMesh

/-- The constructor. -/
def new : CMesh := ⟨[], [], [], none⟩

/-- A function of the handler, where there is one. -/
def onHandler (x : EStateM (Fault Error) CMeshInformationHandler Unit) : CMeshM Unit := fun m =>
  match m.meshInformationHandler with
  | none => .ok () m
  | some h =>
    match x h with
    | .ok _ h => .ok () { m with meshInformationHandler := some h }
    | .error e h => .error e { m with meshInformationHandler := some h }

/-- `addNode`. -/
def addNode (p : Position) : CMeshM Unit := fun m =>
  if ∃ j, Exceeds (p j) then .error (.throws .invalidCoordinates) m
  else if meshMaxCount ≤ m.nodes.length then .error (.throws .tooManyNodes) m
  else .ok () { m with nodes := m.nodes ++ [⟨m.nodes.length, p⟩] }

/-- `m_index` of a node. -/
def nodeIndex (m : CMesh) (node : Nat) : Int := ((m.nodes[node]?).map (·.index)).getD 0

/-- The end of both `addFace`s. The face is there when the handler throws. -/
def allocFace (nodeIndices : Fin 3 → Int) : CMeshM Unit := fun m =>
  if meshMaxCount ≤ m.faces.length then .error (.throws .tooManyFaces) m
  else onHandler (CMeshInformationHandler.addFace (BitVec.ofNat 32 (m.faces.length + 1)))
    { m with faces := m.faces ++ [⟨nodeIndices⟩] }

/-- `addFace`, by indices. -/
def addFace (nodeIndices : Fin 3 → Int) : CMeshM Unit := fun m =>
  if nodeIndices 0 = nodeIndices 1 ∨ nodeIndices 0 = nodeIndices 2 ∨
      nodeIndices 1 = nodeIndices 2 then .error (.throws .duplicateNode) m
  else allocFace nodeIndices m

/-- `addFace`, by nodes. -/
def addFaceOfNodes (nodes : Fin 3 → Nat) : CMeshM Unit := fun m =>
  if nodes 0 = nodes 1 ∨ nodes 0 = nodes 2 ∨ nodes 1 = nodes 2 then
    .error (.throws .duplicateNode) m
  else allocFace (fun j => m.nodeIndex (nodes j)) m

/-- `addBeam`. -/
def addBeam (nodes : Fin 2 → Nat) (radius : Fin 2 → Double) (capMode : Fin 2 → Int) :
    CMeshM Unit := fun m =>
  if nodes 0 = nodes 1 then .error (.throws .duplicateNode) m
  else if meshMaxCount ≤ m.beams.length then .error (.throws .tooManyBeams) m
  else .ok () { m with
    beams := m.beams ++ [⟨fun j => m.nodeIndex (nodes j), radius, capMode⟩] }

/-- `createMeshInformationHandler`. -/
def createMeshInformationHandler : CMeshM Unit := modify fun m =>
  { m with meshInformationHandler := some (m.meshInformationHandler.getD .new) }

/-- `clearMeshInformationHandler`. -/
def clearMeshInformationHandler : CMeshM Unit :=
  modify fun m => { m with meshInformationHandler := none }

/-- `clear`. -/
def clear : CMeshM Unit := modify fun _ => ⟨[], [], [], none⟩

/-! ## Merging -/

/-- The informations in `mergeMesh`. -/
def mergeInformations (other : CMesh) : CMeshM Unit :=
  match other.meshInformationHandler with
  | none => pure ()
  | some h => do
    createMeshInformationHandler
    let m ← get
    onHandler (CMeshInformationHandler.addInfoTableFrom h m.faces.length)

/-- The records of the last face in `mergeMesh`. -/
def cloneFaceInfos (other : CMesh) (otherFaceIndex : Nat) : CMeshM Unit := fun m =>
  match other.meshInformationHandler with
  | none => .ok () m
  | some h => onHandler (CMeshInformationHandler.cloneFaceInfosFrom
      (BitVec.ofNat 32 (m.faces.length - 1)) h (BitVec.ofNat 32 otherFaceIndex)) m

/-- Face `f.2` in `mergeMesh`; the new nodes are those from `first` on. -/
def mergeFace (other : CMesh) (first : Nat) (f : MeshFace × Nat) : CMeshM Unit := do
  require (∀ j, 0 ≤ f.1.nodeIndices j ∧ f.1.nodeIndices j < other.nodes.length)
    (.throws .invalidNodeIndex)
  addFaceOfNodes fun j => first + (f.1.nodeIndices j).toNat
  cloneFaceInfos other f.2

/-- A beam in `mergeMesh`. -/
def mergeBeam (other : CMesh) (first : Nat) (b : EditedBeam) : CMeshM Unit := do
  require (∀ j, 0 ≤ b.nodeIndices j ∧ b.nodeIndices j < other.nodes.length)
    (.throws .invalidNodeIndex)
  addBeam (fun j => first + (b.nodeIndices j).toNat) b.radius b.capMode

/-- `mergeMesh`, with the matrix as what it does to a position. -/
def mergeMesh (apply : Position → Position) (other : CMesh) : CMeshM Unit := do
  mergeInformations other
  let m ← get
  other.nodes.forM fun n => addNode (apply n.position)
  doIf (other.nodes ≠ []) do
    other.faces.zipIdx.forM (mergeFace other m.nodes.length)
    other.beams.forM (mergeBeam other m.nodes.length)

end CMesh

/-! ## Calls -/

/-- The calls on a mesh and its handler. -/
inductive CMeshCall where
  | addNode (p : Position)
  | addFace (nodeIndices : Fin 3 → Int)
  | addFaceOfNodes (nodes : Fin 3 → Nat)
  | mergeMesh (apply : Position → Position) (other : CMesh)
  | createMeshInformationHandler
  | clearMeshInformationHandler
  /-- A new information, with the face count of the mesh. -/
  | addInformation (type : MeshInformationType)
  | removeInformation (type : MeshInformationType)
  | removeInformationIndexed (index : Nat)
  /-- A record written through the pointer `getFaceData` returns. -/
  | setFaceData (index : Nat) (faceIndex : BitVec 32) (r : FaceProperties)
  | clear

namespace CMesh

/-- `addInformation` of a new information. -/
def addNewInformation (type : MeshInformationType) : CMeshM Unit := fun m =>
  match CMeshInformation.create type m.faces.length with
  | .error e => .error e m
  | .ok o => onHandler (CMeshInformationHandler.addInformation o) m

/-- One call. -/
def call : CMeshCall → CMeshM Unit
  | .addNode p => addNode p
  | .addFace nodeIndices => addFace nodeIndices
  | .addFaceOfNodes nodes => addFaceOfNodes nodes
  | .mergeMesh apply other => mergeMesh apply other
  | .createMeshInformationHandler => createMeshInformationHandler
  | .clearMeshInformationHandler => clearMeshInformationHandler
  | .addInformation type => addNewInformation type
  | .removeInformation type => onHandler (CMeshInformationHandler.removeInformation type)
  | .removeInformationIndexed index =>
    onHandler (CMeshInformationHandler.removeInformationIndexed index)
  | .setFaceData index faceIndex r =>
    onHandler (CMeshInformationHandler.setFaceData index faceIndex r)
  | .clear => clear

/-- The state a call leaves, whether it throws or not. -/
def next (m : CMesh) (c : CMeshCall) : CMesh := finalState (call c m)

end CMesh

end NMR
