import Mathlib.Data.Fin.VecNotation
import Lib3MF.Lib.State
import Lib3MF.Common.Mesh.Mesh
import Lib3MF.Model.Classes.ModelTypes

/-!
# Editing a mesh

The calls of `CMeshObject` and `CBeamLattice` that write nodes, faces and beams. The caller hands
over any coordinates and radii, infinite ones and NaN among them, and indices of 32 bits, which
`addFace` takes as signed. A call that throws keeps what it has written.
-/

namespace NMR

open Lib

/-- `sLib3MFPosition`. -/
abbrev Position := Fin 3 → Double

/-- `sLib3MFTriangle`. -/
abbrev Triangle := Fin 3 → UInt32

/-- `sLib3MFBeam`. -/
structure BeamInfo where
  indices : Fin 2 → UInt32
  radii : Fin 2 → Double
  capModes : Fin 2 → Int

/-- `MESHNODE`. -/
structure EditedNode where
  index : Int
  position : Position

/-- `MESHBEAM`. -/
structure EditedBeam where
  nodeIndices : Fin 2 → Int
  radius : Fin 2 → Double
  capMode : Fin 2 → Int

/-- `CModelMeshObject`, with its mesh. A pointer to a node is its place. -/
structure EditedMesh where
  objectType : ObjectType
  nodes : List EditedNode
  faces : List MeshFace
  beams : List EditedBeam
  meshInformationHandler : Option MeshInformationHandler

/-- Functions that keep what they have written when they throw. -/
abbrev EditedMeshM := EStateM Error EditedMesh

/-- `fabs(x) > NMR_MESH_MAXCOORDINATE`, false with NaN. -/
def Exceeds (x : Double) : Prop :=
  (Double.ofRat meshMaxCoordinate).lt x ∨ x.lt (.ofRat (-meshMaxCoordinate))

instance : DecidablePred Exceeds := fun _ => inferInstanceAs (Decidable (_ ∨ _))

/-- The conversion from `nfUint32` to `nfInt32`. -/
def nfInt32 (n : UInt32) : Int := if n.toNat < 2 ^ 31 then n.toNat else n.toNat - 2 ^ 32

namespace EditedMesh

/-- A new object. -/
def new : EditedMesh := ⟨.model, [], [], [], none⟩

/-! ## The mesh -/

/-- `addNode`. -/
def addNode (p : Position) : EditedMeshM Unit := fun m =>
  if ∃ j, Exceeds (p j) then .error .invalidCoordinates m
  else if meshMaxCount ≤ m.nodes.length then .error .tooManyNodes m
  else .ok () { m with nodes := m.nodes ++ [⟨m.nodes.length, p⟩] }

/-- `getNode`: a pointer to the node. -/
def getNode (i : Nat) : EditedMeshM Nat := fun m =>
  if i < m.nodes.length then .ok i m else .error .invalidIndex m

/-- `m_index` of a node. -/
def nodeIndex (m : EditedMesh) (node : Nat) : Int := ((m.nodes[node]?).map (·.index)).getD 0

/-- The end of both `addFace`s. The face is there when the handler throws. -/
def allocFace (nodeIndices : Fin 3 → Int) : EditedMeshM Unit := fun m =>
  if meshMaxCount ≤ m.faces.length then .error .tooManyFaces m
  else
    let m : EditedMesh := { m with faces := m.faces ++ [⟨nodeIndices⟩] }
    match m.meshInformationHandler with
    | none => .ok () m
    | some h =>
      match Mesh.MeshInformationHandler.addFace h m.faces.length with
      | .error e => .error e m
      | .ok h => .ok () { m with meshInformationHandler := some h }

/-- `addFace`, by indices. -/
def addFace (nodeIndices : Fin 3 → Int) : EditedMeshM Unit := fun m =>
  if nodeIndices 0 = nodeIndices 1 ∨ nodeIndices 0 = nodeIndices 2 ∨
      nodeIndices 1 = nodeIndices 2 then .error .duplicateNode m
  else allocFace nodeIndices m

/-- `addFace`, by nodes. -/
def addFaceOfNodes (nodes : Fin 3 → Nat) : EditedMeshM Unit := fun m =>
  if nodes 0 = nodes 1 ∨ nodes 0 = nodes 2 ∨ nodes 1 = nodes 2 then .error .duplicateNode m
  else allocFace (fun j => m.nodeIndex (nodes j)) m

/-- `addBeam`. -/
def addBeam (nodes : Fin 2 → Nat) (b : BeamInfo) : EditedMeshM Unit := fun m =>
  if nodes 0 = nodes 1 then .error .duplicateNode m
  else if meshMaxCount ≤ m.beams.length then .error .tooManyBeams m
  else .ok () { m with
    beams := m.beams ++ [⟨fun j => m.nodeIndex (nodes j), b.radii, b.capModes⟩] }

/-- `clear`. -/
def clear : EditedMeshM Unit := fun m =>
  .ok () { m with nodes := [], faces := [], beams := [], meshInformationHandler := none }

/-- `clearBeamLattice`. -/
def clearBeamLattice : EditedMeshM Unit := fun m => .ok () { m with beams := [] }

/-- An index that refers to a node. -/
def Refers (m : EditedMesh) (i : Int) : Prop := 0 ≤ i ∧ i < m.nodes.length

instance (m : EditedMesh) : DecidablePred m.Refers := fun _ => inferInstanceAs (Decidable (_ ∧ _))

/-- `checkSanity`. -/
def checkSanity (m : EditedMesh) : Bool :=
  m.nodes.length ≤ meshMaxCount && m.faces.length ≤ meshMaxCount &&
    m.beams.length ≤ meshMaxCount &&
    m.nodes.zipIdx.all (fun n => n.1.index = n.2 ∧ ∀ j, ¬ Exceeds (n.1.position j)) &&
    m.faces.all (fun f => (∀ j, m.Refers (f.nodeIndices j)) ∧
      ¬ (f.nodeIndices 0 = f.nodeIndices 1 ∨ f.nodeIndices 0 = f.nodeIndices 2 ∨
        f.nodeIndices 1 = f.nodeIndices 2)) &&
    m.beams.all (fun b => (∀ j, m.Refers (b.nodeIndices j)) ∧
      ¬ b.nodeIndices 0 = b.nodeIndices 1)

/-! ## The calls -/

/-- `AddVertex`. -/
def addVertex (p : Position) : EditedMeshM Unit := addNode p

/-- `SetVertex`. -/
def setVertex (i : UInt32) (p : Position) : EditedMeshM Unit := do
  let node ← getNode i.toNat
  modify fun m => { m with nodes := m.nodes.modify node fun n => { n with position := p } }

/-- `AddTriangle`. -/
def addTriangle (t : Triangle) : EditedMeshM Unit := addFace fun j => nfInt32 (t j)

/-- `SetTriangle`. -/
def setTriangle (i : UInt32) (t : Triangle) : EditedMeshM Unit := fun m =>
  if i.toNat < m.faces.length then
    .ok () { m with faces := m.faces.set i.toNat ⟨fun j => nfInt32 (t j)⟩ }
  else .error .invalidIndex m

/-- One vertex of `SetGeometry`. -/
def addGeometryVertex (p : Position) : EditedMeshM Unit := fun m =>
  if ∃ j, Exceeds (p j) then .error .apiInvalidParam m else addNode p m

/-- One corner of a triangle of `SetGeometry`. -/
def getCorner (vertexCount : Nat) (i : UInt32) : EditedMeshM Nat := fun m =>
  if vertexCount ≤ i.toNat then .error .apiInvalidParam m else getNode i.toNat m

/-- One triangle of `SetGeometry`. -/
def addGeometryTriangle (vertexCount : Nat) (t : Triangle) : EditedMeshM Unit := do
  let node0 ← getCorner vertexCount (t 0)
  let node1 ← getCorner vertexCount (t 1)
  let node2 ← getCorner vertexCount (t 2)
  if t 0 = t 1 ∨ t 0 = t 2 ∨ t 1 = t 2 then throw .apiInvalidParam
  else addFaceOfNodes ![node0, node1, node2]

/-- `SetGeometry`; `none` is a null pointer with a positive size. -/
def setGeometry (vertices : Option (List Position)) (triangles : Option (List Triangle)) :
    EditedMeshM Unit :=
  match vertices, triangles with
  | some vertices, some triangles => do
    clear
    vertices.forM addGeometryVertex
    triangles.forM (addGeometryTriangle vertices.length)
  | _, _ => throw .apiInvalidParam

/-- `isValidForBeamLattices`. -/
def isValidForBeamLattices (m : EditedMesh) : Bool :=
  m.objectType = .model ∨ m.objectType = .solidSupport

/-- `isBeamValid`. -/
def isBeamValid (nodeCount : Nat) (b : BeamInfo) : Bool :=
  (∀ j, ¬ nodeCount ≤ (b.indices j).toNat ∧ ¬ (b.radii j).le (.ofRat 0)) ∧
    ¬ b.indices 0 = b.indices 1

/-- A beam that is valid, added. -/
def addValidBeam (b : BeamInfo) : EditedMeshM Unit := fun m =>
  if isBeamValid m.nodes.length b then
    (do
      let node0 ← getNode (b.indices 0).toNat
      let node1 ← getNode (b.indices 1).toNat
      addBeam ![node0, node1] b : EditedMeshM Unit) m
  else .error .apiInvalidParam m

/-- `AddBeam` of the API. -/
def apiAddBeam (b : BeamInfo) : EditedMeshM Unit := fun m =>
  if m.isValidForBeamLattices then addValidBeam b m
  else .error .apiBeamLatticeInvalidObjectType m

/-- `SetBeam`. -/
def setBeam (i : UInt32) (b : BeamInfo) : EditedMeshM Unit := fun m =>
  if isBeamValid m.nodes.length b then
    if i.toNat < m.beams.length then
      .ok () { m with
        beams := m.beams.set i.toNat ⟨fun j => nfInt32 (b.indices j), b.radii, b.capModes⟩ }
    else .error .invalidIndex m
  else .error .apiInvalidParam m

/-- `SetBeams`. -/
def setBeams (bs : List BeamInfo) : EditedMeshM Unit := fun m =>
  if bs ≠ [] ∧ ¬ m.isValidForBeamLattices then .error .apiBeamLatticeInvalidObjectType m
  else (do clearBeamLattice; bs.forM addValidBeam : EditedMeshM Unit) m

end EditedMesh

/-- The calls. -/
inductive MeshCall where
  | addVertex (p : Position)
  | addTriangle (t : Triangle)
  | setVertex (i : UInt32) (p : Position)
  | setTriangle (i : UInt32) (t : Triangle)
  | setGeometry (vertices : Option (List Position)) (triangles : Option (List Triangle))
  | addBeam (b : BeamInfo)
  | setBeam (i : UInt32) (b : BeamInfo)
  | setBeams (bs : List BeamInfo)
  /-- `SetType`. -/
  | setType (t : ObjectType)
  /-- The calls on the properties of the faces, which write nothing but the handler. -/
  | setProperties (h : Option MeshInformationHandler)

namespace EditedMesh

/-- One call. -/
def call : MeshCall → EditedMeshM Unit
  | .addVertex p => addVertex p
  | .addTriangle t => addTriangle t
  | .setVertex i p => setVertex i p
  | .setTriangle i t => setTriangle i t
  | .setGeometry vertices triangles => setGeometry vertices triangles
  | .addBeam b => apiAddBeam b
  | .setBeam i b => setBeam i b
  | .setBeams bs => setBeams bs
  | .setType t => modify fun m => { m with objectType := t }
  | .setProperties h => modify fun m => { m with meshInformationHandler := h }

/-- The state a call leaves, whether it throws or not. -/
def next (m : EditedMesh) (c : MeshCall) : EditedMesh := finalState (call c m)

end EditedMesh

end NMR
