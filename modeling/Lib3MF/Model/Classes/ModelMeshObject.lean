import Lib3MF.Common.Math.PairMatchingTree
import Lib3MF.Common.Mesh.StoredMesh

/-!
# Manifold and oriented meshes

`CModelMeshObject::isManifoldAndOriented`: a first pass numbers the edges of the faces in a tree, a
second one counts how often a face has each edge in either direction. The counter of the edges is a
`nfInt32`: a run is `none` where it would overflow, which its check against
`NMR_MESH_MAXEDGECOUNT` comes too late for. A sane mesh has an edge once in a face at most, so the
counts of the sides do not.
-/

namespace NMR

/-- `NMR_MESH_MAXEDGECOUNT`. -/
def meshMaxEdgeCount : Int := 2147483647

namespace StoredFace

/-- The sides of a face: node `j` and the one after it. -/
def sides (f : StoredFace) : List (Int × Int) :=
  [(f.nodeIndices 0, f.nodeIndices 1), (f.nodeIndices 1, f.nodeIndices 2),
    (f.nodeIndices 2, f.nodeIndices 0)]

end StoredFace

namespace StoredMesh

variable {V R : Type}

/-- The sides of all faces, in the order of both passes. -/
def sides (m : StoredMesh V R) : List (Int × Int) := m.faces.toList.flatMap StoredFace.sides

/-- `PairMatchingTree` and `nEdgeCounter`. -/
structure EdgeNumbers where
  tree : PairMatchingTree
  edgeCounter : Int

/-- A side in the first pass. -/
def numberSide (st : EdgeNumbers) (side : Int × Int) : MeshRun EdgeNumbers :=
  match st.tree.checkMatch side.1 side.2 with
  | some _ => return st
  | none =>
    let tree := st.tree.addMatch side.1 side.2 st.edgeCounter
    if meshMaxEdgeCount ≤ st.edgeCounter then ExceptT.mk none
    else if meshMaxEdgeCount < st.edgeCounter + 1 then throw .invalidEdgeIndex
    else return ⟨tree, st.edgeCounter + 1⟩

/-- `PositiveOrientations` and `NegativeOrientations`. -/
structure Orientations where
  positive : List Int
  negative : List Int

/-- A side in the second pass. -/
def orientSide (edges : EdgeNumbers) (st : Orientations) (side : Int × Int) :
    MeshRun Orientations :=
  match edges.tree.checkMatch side.1 side.2 with
  | none => throw .invalidMeshTopology
  | some edge =>
    if edge < 0 ∨ edges.edgeCounter ≤ edge then throw .invalidEdgeIndex
    else if side.1 ≤ side.2 then
      return { st with positive := st.positive.modify edge.toNat (· + 1) }
    else return { st with negative := st.negative.modify edge.toNat (· + 1) }

/-- `isManifoldAndOriented`. -/
def isManifoldAndOriented (exceeds : V → Bool) (m : StoredMesh V R) : MeshRun Bool := do
  if m.checkSanity exceeds = false then return false
  if m.nodes.count < 3 then return false
  if m.faces.count < 3 then return false
  let edges ← m.sides.foldlM numberSide ⟨.empty, 0⟩
  let counts ← m.sides.foldlM (orientSide edges)
    ⟨List.replicate edges.edgeCounter.toNat 0, List.replicate edges.edgeCounter.toNat 0⟩
  return (counts.positive.all (· = 1) && counts.negative.all (· = 1))

end StoredMesh

end NMR
