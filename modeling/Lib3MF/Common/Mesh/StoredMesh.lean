import Mathlib.Data.Fin.VecNotation
import Lib3MF.Lib.Except
import Lib3MF.Common.PagedVector
import Lib3MF.Common.Mesh.Mesh

/-!
# Meshes as they are stored

`CMesh` with its paged vectors, the stored indices of its elements, and pointers to them. A mesh
may be merged into itself (`MergeSource`): what is read then is the mesh as it is at that point.
Positions and radii are of any type, with what `fabs` says of a position (`exceeds`) and the
transform as parameters.

A run is `none` where the code would follow a pointer that points to nothing.
-/

namespace NMR

/-- `MESHNODE`. -/
structure StoredNode (V : Type) where
  index : Int
  position : V

/-- `MESHFACE`. -/
structure StoredFace where
  index : Int
  nodeIndices : Fin 3 → Int

/-- `MESHBEAM`. -/
structure StoredBeam (R : Type) where
  index : Int
  nodeIndices : Fin 2 → Int
  radius : Fin 2 → R
  capMode : Fin 2 → Int

/-- A paged vector whose elements store their index: nothing but the functions that add an element
writes it. The block size is `NMR_MESH_NODEBLOCKCOUNT`, `NMR_MESH_FACEBLOCKCOUNT` and
`NMR_MESH_BEAMBLOCKCOUNT`. -/
structure IndexedVector (α : Type) (index : α → Int) where
  vector : PagedVector α 256
  indexed : ∀ (i : Nat) (a : α), vector.toList[i]? = some a → index a = i

namespace IndexedVector

variable {α : Type} {index : α → Int}

def empty : IndexedVector α index := ⟨.empty (by decide), nofun⟩

def toList (v : IndexedVector α index) : List α := v.vector.toList

def count (v : IndexedVector α index) : Nat := v.vector.count

/-- `allocData`, for an element that stores its new index. -/
def allocData (v : IndexedVector α index) (a : α) (ha : index a = v.count) :
    IndexedVector α index × PagePointer :=
  (⟨(v.vector.allocData a).1, by
    intro i b hb
    rw [(v.vector.allocData_spec a).1] at hb
    by_cases hi : i < v.vector.toList.length
    · rw [List.getElem?_append_left hi] at hb
      exact v.indexed i b hb
    · have hlen := v.vector.length_toList
      have hlt := (List.getElem?_eq_some_iff.1 hb).1
      rw [List.length_append, List.length_singleton] at hlt
      obtain rfl : i = v.vector.toList.length := by omega
      rw [List.getElem?_concat_length] at hb
      obtain rfl := Option.some.inj hb
      rw [ha, hlen]
      rfl⟩,
    (v.vector.allocData a).2)

end IndexedVector

/-- `CMesh`. -/
structure StoredMesh (V R : Type) where
  nodes : IndexedVector (StoredNode V) StoredNode.index
  faces : IndexedVector StoredFace StoredFace.index
  beams : IndexedVector (StoredBeam R) StoredBeam.index
  meshInformationHandler : Option MeshInformationHandler

/-- Runs that may throw, or follow a pointer that points to nothing. -/
abbrev MeshRun (α : Type) := ExceptT Error Option α

/-- A function that may throw only. -/
def MeshRun.ofExcept {α : Type} (x : Except Error α) : MeshRun α := ExceptT.mk (some x)

/-- What a pointer points to. -/
def IndexedVector.deref {α : Type} {index : α → Int} (v : IndexedVector α index)
    (p : PagePointer) : MeshRun α :=
  ExceptT.mk ((v.vector.deref p).map .ok)

/-- `getNode`, `getFace` and `getBeam`. -/
def IndexedVector.getData {α : Type} {index : α → Int} (v : IndexedVector α index)
    (i : Nat) : MeshRun PagePointer :=
  MeshRun.ofExcept (v.vector.getData i)

namespace MeshInformationHandler

/-- `addInfoTableFrom`. -/
def addInfoTableFrom (h other : MeshInformationHandler) (currentFaceCount : Nat) :
    MeshInformationHandler :=
  if other.properties.isSome ∧ h.properties.isNone then
    ⟨some ⟨none, List.replicate currentFaceCount .invalid⟩⟩
  else h

/-- `cloneDefaultInfosFrom`. -/
def cloneDefaultInfosFrom (uninit : FaceProperties) (h other : MeshInformationHandler) :
    MeshInformationHandler :=
  match other.properties with
  | none => h
  | some q => { h with properties := h.properties.map fun p =>
      Mesh.MeshInformationProperties.cloneDefaultInfosFrom uninit p q }

/-- `cloneFaceInfosFrom`. -/
def cloneFaceInfosFrom (h : MeshInformationHandler) (faceIndex : Nat)
    (other : MeshInformationHandler) (otherFaceIndex : Nat) :
    Except Error MeshInformationHandler :=
  match h.properties, other.properties with
  | some p, some q =>
    if p.faceData.length ≤ faceIndex then .error .invalidMeshInformationIndex
    else match q.faceData[otherFaceIndex]? with
      | none => .error .invalidMeshInformationIndex
      | some r => .ok { h with properties := some { p with faceData := p.faceData.set faceIndex r } }
  | _, _ => .ok h

end MeshInformationHandler

namespace StoredMesh

variable {V R : Type}

/-- A mesh that is merged: the target itself, or another one. -/
inductive MergeSource (V R : Type) where
  | self
  | other (mesh : StoredMesh V R)

/-- The merged mesh while the target is `m`. -/
def MergeSource.meshAt (s : MergeSource V R) (m : StoredMesh V R) : StoredMesh V R :=
  match s with
  | .self => m
  | .other mesh => mesh

/-- `addNode`. -/
def addNode (exceeds : V → Bool) (m : StoredMesh V R) (position : V) :
    Except Error (StoredMesh V R × PagePointer) :=
  if exceeds position then .error .invalidCoordinates
  else if meshMaxCount ≤ m.nodes.count then .error .tooManyNodes
  else
    let (nodes, p) := m.nodes.allocData ⟨m.nodes.count, position⟩ rfl
    .ok ({ m with nodes := nodes }, p)

/-- `addFace`, of pointers to nodes. -/
def addFace (m : StoredMesh V R) (pNodes : Fin 3 → PagePointer) :
    MeshRun (StoredMesh V R × PagePointer) := do
  if pNodes 0 = pNodes 1 ∨ pNodes 0 = pNodes 2 ∨ pNodes 1 = pNodes 2 then throw .duplicateNode
  if meshMaxCount ≤ m.faces.count then throw .tooManyFaces
  let node0 ← m.nodes.deref (pNodes 0)
  let node1 ← m.nodes.deref (pNodes 1)
  let node2 ← m.nodes.deref (pNodes 2)
  let (faces, p) :=
    m.faces.allocData ⟨m.faces.count, ![node0.index, node1.index, node2.index]⟩ rfl
  match m.meshInformationHandler with
  | none => return ({ m with faces := faces }, p)
  | some h =>
    let h ← MeshRun.ofExcept (Mesh.MeshInformationHandler.addFace h faces.count)
    return ({ m with faces := faces, meshInformationHandler := some h }, p)

/-- `addBeam`. -/
def addBeam (m : StoredMesh V R) (pNodes : Fin 2 → PagePointer) (radius : Fin 2 → R)
    (capMode : Fin 2 → Int) : MeshRun (StoredMesh V R × PagePointer) := do
  if pNodes 0 = pNodes 1 then throw .duplicateNode
  if meshMaxCount ≤ m.beams.count then throw .tooManyBeams
  let node0 ← m.nodes.deref (pNodes 0)
  let node1 ← m.nodes.deref (pNodes 1)
  let (beams, p) :=
    m.beams.allocData ⟨m.beams.count, ![node0.index, node1.index], radius, capMode⟩ rfl
  return ({ m with beams := beams }, p)

/-- A count, as the `nfInt32` that `mergeMesh` keeps. -/
def countInt32 (count : Nat) : Int := (count : Int).bmod (2 ^ 32)

/-- A node of `mergeMesh`: the new mesh, and the pointers to the new nodes. -/
def mergeNode (exceeds : V → Bool) (apply : V → V) (s : MergeSource V R)
    (st : StoredMesh V R × List PagePointer) (i : Nat) :
    MeshRun (StoredMesh V R × List PagePointer) := do
  let pNode ← (s.meshAt st.1).nodes.getData i
  let node ← (s.meshAt st.1).nodes.deref pNode
  let (m, p) ← MeshRun.ofExcept (st.1.addNode exceeds (apply node.position))
  return (m, st.2 ++ [p])

/-- The new node of a node index. -/
def newNode (nodeCount : Int) (newNodes : List PagePointer) (index : Int) : MeshRun PagePointer := do
  if index < 0 ∨ nodeCount ≤ index then throw .invalidNodeIndex
  ExceptT.mk (newNodes[index.toNat]?.map .ok)

/-- A face of `mergeMesh`. -/
def mergeFace (s : MergeSource V R) (nodeCount : Int) (newNodes : List PagePointer)
    (m : StoredMesh V R) (i : Nat) : MeshRun (StoredMesh V R) := do
  let pFace ← (s.meshAt m).faces.getData i
  let face ← (s.meshAt m).faces.deref pFace
  let p0 ← newNode nodeCount newNodes (face.nodeIndices 0)
  let p1 ← newNode nodeCount newNodes (face.nodeIndices 1)
  let p2 ← newNode nodeCount newNodes (face.nodeIndices 2)
  let (m, pNewFace) ← m.addFace ![p0, p1, p2]
  match m.meshInformationHandler, (s.meshAt m).meshInformationHandler with
  | some h, some other =>
    let newFace ← m.faces.deref pNewFace
    let face ← (s.meshAt m).faces.deref pFace
    let h ← MeshRun.ofExcept
      (h.cloneFaceInfosFrom newFace.index.toNat other face.index.toNat)
    return { m with meshInformationHandler := some h }
  | _, _ => return m

/-- A beam of `mergeMesh`. -/
def mergeBeam (s : MergeSource V R) (nodeCount : Int) (newNodes : List PagePointer)
    (m : StoredMesh V R) (i : Nat) : MeshRun (StoredMesh V R) := do
  let pBeam ← (s.meshAt m).beams.getData i
  let beam ← (s.meshAt m).beams.deref pBeam
  let p0 ← newNode nodeCount newNodes (beam.nodeIndices 0)
  let p1 ← newNode nodeCount newNodes (beam.nodeIndices 1)
  let (m, _) ← m.addBeam ![p0, p1] beam.radius beam.capMode
  return m

/-- The information tables that `mergeMesh` creates. -/
def mergeInfoTable (m : StoredMesh V R) (s : MergeSource V R) : StoredMesh V R :=
  match (s.meshAt m).meshInformationHandler with
  | none => m
  | some other =>
    let h := m.meshInformationHandler.getD ⟨none⟩
    { m with meshInformationHandler := some (h.addInfoTableFrom other m.faces.count) }

/-- The defaults that `mergeMesh` copies. -/
def mergeDefaults (uninit : FaceProperties) (m : StoredMesh V R) (s : MergeSource V R) :
    StoredMesh V R :=
  match m.meshInformationHandler, (s.meshAt m).meshInformationHandler with
  | some h, some other =>
    { m with meshInformationHandler := some (h.cloneDefaultInfosFrom uninit other) }
  | _, _ => m

/-- `mergeMesh`. -/
def mergeMesh (exceeds : V → Bool) (apply : V → V) (uninit : FaceProperties) (m : StoredMesh V R)
    (s : MergeSource V R) : MeshRun (StoredMesh V R) := do
  let m := m.mergeInfoTable s
  let nodeCount := countInt32 (s.meshAt m).nodes.count
  let faceCount := countInt32 (s.meshAt m).faces.count
  let beamCount := countInt32 (s.meshAt m).beams.count
  if nodeCount ≤ 0 then return m
  let (m, newNodes) ←
    (List.range nodeCount.toNat).foldlM (mergeNode exceeds apply s) (m, [])
  let m := if 0 < faceCount then m.mergeDefaults uninit s else m
  let m ← (List.range faceCount.toNat).foldlM (mergeFace s nodeCount newNodes) m
  (List.range beamCount.toNat).foldlM (mergeBeam s nodeCount newNodes) m

/-- The node indices of a face or beam are those of nodes, and differ. -/
def validIndices {n : Nat} (nodeCount : Nat) (nodeIndices : Fin n → Int) : Bool :=
  decide ((∀ j, 0 ≤ nodeIndices j ∧ nodeIndices j < nodeCount) ∧
    ∀ j k, j < k → nodeIndices j ≠ nodeIndices k)

/-- `checkSanity`. -/
def checkSanity (exceeds : V → Bool) (m : StoredMesh V R) : Bool :=
  m.nodes.count ≤ meshMaxCount && m.faces.count ≤ meshMaxCount && m.beams.count ≤ meshMaxCount &&
  (m.nodes.toList.zipIdx.all fun n => n.1.index = n.2 && !exceeds n.1.position) &&
  (m.faces.toList.all fun f => validIndices m.nodes.count f.nodeIndices) &&
  (m.beams.toList.all fun b => validIndices m.nodes.count b.nodeIndices)

end StoredMesh

end NMR
