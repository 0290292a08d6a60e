import Lib3MF.API.MeshObject

/-!
# Beam sets and the bulk setters of a mesh

`CMesh` with the beam sets of its lattice: `clear` and `clearBeamLattice` drop them, so
`SetGeometry` and `SetBeams` do. `CBeamSet::SetReferences` resizes the references before it checks
the new ones.
-/

namespace NMR

open Lib

/-- `BEAMSET`. -/
structure BeamSet where
  references : List Nat
  name : String
  identifier : String
  deriving DecidableEq

/-- A mesh with its beam sets. -/
structure LatticeMesh where
  mesh : EditedMesh
  beamSets : List BeamSet

abbrev LatticeMeshM := EStateM Error LatticeMesh

namespace LatticeMesh

/-- A function of the mesh. -/
def onMesh {α : Type} (f : EditedMeshM α) : LatticeMeshM α := fun s =>
  match f s.mesh with
  | .ok a m => .ok a { s with mesh := m }
  | .error e m => .error e { s with mesh := m }

/-- `clearBeamLattice`. -/
def clearBeamLattice : LatticeMeshM Unit := do
  onMesh EditedMesh.clearBeamLattice
  modify fun s => { s with beamSets := [] }

/-- `clear`. -/
def clear : LatticeMeshM Unit := do
  onMesh EditedMesh.clear
  clearBeamLattice

/-- `SetGeometry`; `none` is a null pointer with a positive size. -/
def setGeometry (vertices : Option (List Position)) (triangles : Option (List Triangle)) :
    LatticeMeshM Unit :=
  match vertices, triangles with
  | some vertices, some triangles => do
    clear
    vertices.forM fun p => onMesh (EditedMesh.addGeometryVertex p)
    triangles.forM fun t => onMesh (EditedMesh.addGeometryTriangle vertices.length t)
  | _, _ => throw .apiInvalidParam

/-- `SetBeams`. -/
def setBeams (bs : List BeamInfo) : LatticeMeshM Unit := fun s =>
  if bs ≠ [] ∧ ¬ s.mesh.isValidForBeamLattices then .error .apiBeamLatticeInvalidObjectType s
  else (do
    clearBeamLattice
    bs.forM fun b => onMesh (EditedMesh.addValidBeam b) : LatticeMeshM Unit) s

end LatticeMesh

namespace BeamSet

/-- `resize`. -/
def resize (references : List Nat) (n : Nat) : List Nat :=
  references.take n ++ List.replicate (n - references.length) 0

/-- The body of the loop of `SetReferences`: the reference `x.1` at the index `x.2`. -/
def setReference (beamCount : Nat) (x : Nat × Nat) : EStateM Error BeamSet Unit := do
  require (x.1 < beamCount) .apiInvalidParam
  modify fun s => { s with references := s.references.set x.2 x.1 }

/-- `SetReferences`. -/
def setReferences (beamCount : Nat) (references : List Nat) : EStateM Error BeamSet Unit := do
  modify fun s => { s with references := resize s.references references.length }
  references.zipIdx.forM (setReference beamCount)

end BeamSet

end NMR
