import Lib3MF.Lib.Bytes
import Lib3MF.Common.Mesh.Mesh
import Lib3MF.Common.Math.VectorTree

/-!
# STL files

`CMeshExporter_STL` and `CMeshImporter_STL`. A mesh has its coordinates as the bits of floats
here (`StlMesh`), since a file stores these. The global colour that the importer looks up in the
header is left out: only statements in comments use it. The normal of a facet
(`fnVEC3_calcTriangleNormal`) and the quantisation of the vector tree are parameters.
-/

namespace NMR

open Lib

/-- `CMesh`, with the nodes and faces the STL classes use. -/
structure StlMesh where
  nodes : List Nvec3
  faces : List MeshFace
  deriving DecidableEq

/-- `NMR_MESH_MAXCOORDINATE`: the bits of 1000000000. -/
def maxCoordinateBits : FloatBits := 0x4e6e6b28#32

/-- `MESHFORMAT_STL_FACET`. -/
structure StlFacet where
  normal : Nvec3
  vertices : Nvec3 × Nvec3 × Nvec3
  attributeBits : BitVec 16
  deriving DecidableEq

/-! ## Packed records -/

def nvec3Codec : Codec Nvec3 :=
  ((Codec.word 4).pair ((Codec.word 4).pair (Codec.word 4))).rename
    (fun v => (v.x, v.y, v.z)) (fun w => ⟨w.1, w.2.1, w.2.2⟩) fun _ => rfl

def stlFacetCodec : Codec StlFacet :=
  (nvec3Codec.pair ((nvec3Codec.pair (nvec3Codec.pair nvec3Codec)).pair (Codec.word 2))).rename
    (fun f => (f.normal, f.vertices, f.attributeBits)) (fun w => ⟨w.1, w.2.1, w.2.2⟩) fun _ => rfl

example : stlFacetCodec.size = 50 := rfl

namespace StlMesh

def empty : StlMesh := ⟨[], []⟩

/-- `getNode`; an index below 0 is a number above all counts when it is converted. -/
def getNode (m : StlMesh) (nIndex : Int) : Except Error Nvec3 :=
  if nIndex < 0 then .error .invalidIndex
  else match m.nodes[nIndex.toNat]? with
    | none => .error .invalidIndex
    | some v => .ok v

/-- `addNode`, with the index of the new node. -/
def addNode (m : StlMesh) (vPosition : Nvec3) : Except Error (StlMesh × Nat) :=
  if ∃ j, maxCoordinateBits.lt (vPosition.fields j).fabs then .error .invalidCoordinates
  else if meshMaxCount ≤ m.nodes.length then .error .tooManyNodes
  else .ok ({ m with nodes := m.nodes ++ [vPosition] }, m.nodes.length)

/-- `checkSanity`. -/
def checkSanity (m : StlMesh) : Prop :=
  m.nodes.length ≤ meshMaxCount ∧ m.faces.length ≤ meshMaxCount ∧
  (∀ v ∈ m.nodes, ∀ j, ¬ maxCoordinateBits.lt (v.fields j).fabs) ∧
  ∀ f ∈ m.faces, (∀ j, 0 ≤ f.nodeIndices j ∧ f.nodeIndices j < m.nodes.length) ∧
    f.nodeIndices 0 ≠ f.nodeIndices 1 ∧ f.nodeIndices 0 ≠ f.nodeIndices 2 ∧
    f.nodeIndices 1 ≠ f.nodeIndices 2

end StlMesh

/-! ## The exporter -/

section Exporter

variable (calcTriangleNormal : Nvec3 → Nvec3 → Nvec3 → Nvec3)

/-- The position of a node. `pmMatrix` is what `fnMATRIX3_apply` does with the matrix, if there
is one. -/
def exportVertex (m : StlMesh) (pmMatrix : Option (Nvec3 → Nvec3)) (nIndex : Int) :
    Except Error Nvec3 :=
  return pmMatrix.getD id (← m.getNode nIndex)

/-- The facet of a face. -/
def exportFacet (m : StlMesh) (pmMatrix : Option (Nvec3 → Nvec3)) (face : MeshFace) :
    Except Error StlFacet := do
  let v0 ← exportVertex m pmMatrix (face.nodeIndices 0)
  let v1 ← exportVertex m pmMatrix (face.nodeIndices 1)
  let v2 ← exportVertex m pmMatrix (face.nodeIndices 2)
  return ⟨calcTriangleNormal v0 v1 v2, (v0, v1, v2), 0⟩

/-- `stlheader`: the message in its 34 bytes, of which 33 are copied, then blanks. -/
def stlHeader : List UInt8 :=
  ("STL Export by Lib3MF".toList.map fun c => c.toNat.toUInt8) ++ List.replicate 13 0 ++
    List.replicate 47 32

/-- `CMeshExporter_STL::exportMeshEx`: the file. -/
def exportMeshEx (m : StlMesh) (pmMatrix : Option (Nvec3 → Nvec3)) : Except Error (List UInt8) := do
  let facetdata ← m.faces.mapM (exportFacet calcTriangleNormal m pmMatrix)
  return stlHeader ++ (Codec.word 4).encode (BitVec.ofNat 32 facetdata.length) ++
    stlFacetCodec.encodeAll facetdata

end Exporter

/-! ## The importer -/

/-- `CMeshImporter_STL`: its settings. -/
structure MeshImporterSTL where
  fUnits : VectorUnits
  bIgnoreInvalidFaces : Bool

/-- The constructors: with the default units, or with units of the caller. -/
def MeshImporterSTL.new : MeshImporterSTL := ⟨.default, true⟩
def MeshImporterSTL.newUnits (fUnits : FloatBits) : Except Error MeshImporterSTL :=
  return ⟨← setUnits fUnits, true⟩

/-- `readBuffer`, with all bytes needed: these, and the rest of the stream. -/
def readAll (cbBytes : Nat) (stream : List UInt8) : Except Error (List UInt8 × List UInt8) :=
  if stream.length < cbBytes then .error .couldNotReadFullData
  else .ok (stream.take cbBytes, stream.drop cbBytes)

section Importer

variable (floorUnits : FloatBits → FloatBits → Int)

/-- The node of a corner: that of the tree, else a new one. -/
def identifyNode (pmMatrix : Option (Nvec3 → Nvec3)) (m : StlMesh) (tree : VectorTree)
    (vertex : Nvec3) : Except Error (Nat × StlMesh × VectorTree) :=
  let vPosition := pmMatrix.getD id vertex
  match tree.findVector3 floorUnits vPosition with
  | some nNodeIdx => do
    let _ ← m.getNode nNodeIdx
    return (nNodeIdx, m, tree)
  | none => do
    let (m, nIndex) ← m.addNode vPosition
    return (nIndex, m, tree.addVector3 floorUnits vPosition nIndex)

/-- The coordinates are in the valid space. -/
def StlFacet.inValidSpace (f : StlFacet) : Prop :=
  ∀ v ∈ [f.vertices.1, f.vertices.2.1, f.vertices.2.2], ∀ k,
    (v.fields k).fabs.lt maxCoordinateBits

instance (f : StlFacet) : Decidable f.inValidSpace := inferInstanceAs (Decidable (∀ _ ∈ _, _))

/-- One facet of `loadMesh`. The call of `addFace` stands in a comment of the source, so that the
validity of a face only decides whether the file is refused. -/
def loadFacet (importer : MeshImporterSTL) (pmMatrix : Option (Nvec3 → Nvec3)) (m : StlMesh)
    (tree : VectorTree) (facet : StlFacet) : Except Error (StlMesh × VectorTree) := do
  let (bIsValid, m, tree) ←
    if facet.inValidSpace then do
      let (p0, m, tree) ← identifyNode floorUnits pmMatrix m tree facet.vertices.1
      let (p1, m, tree) ← identifyNode floorUnits pmMatrix m tree facet.vertices.2.1
      let (p2, m, tree) ← identifyNode floorUnits pmMatrix m tree facet.vertices.2.2
      pure (decide (p0 ≠ p1 ∧ p0 ≠ p2 ∧ p1 ≠ p2), m, tree)
    else pure (false, m, tree)
  if !bIsValid && !importer.bIgnoreInvalidFaces then throw .invalidCoordinates
  return (m, tree)

/-- The loop of `loadMesh` over the facets. -/
def loadFacets (importer : MeshImporterSTL) (pmMatrix : Option (Nvec3 → Nvec3)) :
    Nat → List UInt8 → StlMesh → VectorTree → Except Error StlMesh
  | 0, _, m, _ => return m
  | n + 1, stream, m, tree => do
    let (bytes, stream) ← readAll stlFacetCodec.size stream
    let (m, tree) ← loadFacet floorUnits importer pmMatrix m tree (stlFacetCodec.decode bytes)
    loadFacets importer pmMatrix n stream m tree

/-- `CMeshImporter_STL::loadMesh`, into `m`. -/
def loadMesh (importer : MeshImporterSTL) (pmMatrix : Option (Nvec3 → Nvec3)) (m : StlMesh)
    (stream : List UInt8) : Except Error StlMesh := do
  let (_, stream) ← readAll 80 stream
  let (count, stream) ← readAll 4 stream
  let nFaceCount := ((Codec.word 4).decode count).toNat
  if meshMaxCount < nFaceCount then throw .invalidFaceCount
  loadFacets floorUnits importer pmMatrix nFaceCount stream m (.new importer.fUnits)

end Importer

end NMR
