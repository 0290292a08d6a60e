import Lib3MF.Lib.Except
import Lib3MF.Common.Mesh.Mesh

/-!
# The geometry of merged meshes

A merge that returns leaves the nodes, faces and beams that were there and appends those of the
other mesh, the nodes moved by the matrix and the indices by the number of nodes before
(`mergeMesh_geometry`). `mergeAll_geometry` is what a sequence of merges comes to.
-/

namespace NMR.Mesh

open Lib

variable {m m' src : Mesh} {matrix : Matrix3} {uninit : FaceProperties}

/-- The nodes, faces and beams of a mesh. -/
structure Geometry where
  nodes : List Vec3
  faces : List MeshFace
  beams : List MeshBeam

/-- The geometry of a mesh. -/
def geometry (m : Mesh) : Geometry := ⟨m.nodes, m.faces, m.beams⟩

/-- A mesh with its place. -/
abbrev Placement := Mesh × Matrix3

/-- The geometry with a placed mesh more; one without nodes adds nothing. -/
def Geometry.place (g : Geometry) (p : Placement) : Geometry where
  nodes := g.nodes ++ p.1.nodes.map p.2.apply
  faces := g.faces ++ if p.1.nodes = [] then []
    else p.1.faces.map fun f => ⟨fun j => g.nodes.length + f.nodeIndices j⟩
  beams := g.beams ++ if p.1.nodes = [] then []
    else p.1.beams.map fun b => { b with nodeIndices := fun j => g.nodes.length + b.nodeIndices j }

theorem Geometry.nodes_foldl_place (g : Geometry) (ps : List Placement) :
    (ps.foldl place g).nodes = g.nodes ++ ps.flatMap fun p => p.1.nodes.map p.2.apply := by
  induction ps generalizing g with
  | nil => simp
  | cons p ps ih =>
    rw [List.foldl_cons, ih, List.flatMap_cons, ← List.append_assoc]
    rfl

/-! ## One merge -/

theorem geometry_addInfoTableFrom (m : Mesh) (h : MeshInformationHandler) :
    (m.addInfoTableFrom h).geometry = m.geometry := rfl

theorem geometry_mapProperties (f : MeshInformationProperties → MeshInformationProperties) :
    (m.mapProperties f).geometry = m.geometry := rfl

theorem geometry_cloneDefaultInfosFrom :
    (m.cloneDefaultInfosFrom uninit src).geometry = m.geometry := by
  unfold cloneDefaultInfosFrom
  cases src.properties <;> rfl

theorem geometry_addNode {v : Vec3} (h : m.addNode v = .ok m') :
    m'.geometry = { m.geometry with nodes := m.nodes ++ [v] } := by
  unfold addNode at h
  split_ifs at h
  cases h
  rfl

theorem geometry_addFace {nodeIndices : Fin 3 → Int} (h : m.addFace nodeIndices = .ok m') :
    m'.geometry = { m.geometry with faces := m.faces ++ [⟨nodeIndices⟩] } := by
  unfold addFace at h
  dsimp only at h
  split_ifs at h
  cases hm : m.meshInformationHandler with
  | none =>
    rw [hm] at h
    cases h
    rfl
  | some handler =>
    rw [hm] at h
    dsimp only at h
    cases ha : MeshInformationHandler.addFace handler (m.faces ++ [MeshFace.mk nodeIndices]).length with
    | error e =>
      rw [ha] at h
      cases h
    | ok handler' =>
      rw [ha] at h
      cases h
      rfl

theorem geometry_cloneFaceInfosFrom {i j : Nat} (h : m.cloneFaceInfosFrom i src j = .ok m') :
    m'.geometry = m.geometry := by
  unfold cloneFaceInfosFrom at h
  split at h
  · split_ifs at h
    split at h
    · cases h
    · cases h
      rfl
  · cases h
    rfl

theorem geometry_mergeFace {offset : Nat} {f : MeshFace × Nat}
    (h : mergeFace src offset m f = .ok m') : m'.geometry =
      { m.geometry with faces := m.faces ++ [⟨fun j => offset + f.1.nodeIndices j⟩] } := by
  unfold mergeFace at h
  split_ifs at h
  · cases h
  simp only [bind_eq_ok] at h
  obtain ⟨m₁, ha, hc⟩ := h
  rw [geometry_cloneFaceInfosFrom hc, geometry_addFace ha]

theorem geometry_mergeBeam {offset : Nat} {b : MeshBeam} (h : mergeBeam src offset m b = .ok m') :
    m'.geometry = { m.geometry with
      beams := m.beams ++ [{ b with nodeIndices := fun j => offset + b.nodeIndices j }] } := by
  unfold mergeBeam addBeam at h
  split_ifs at h
  · cases h
  · cases h
  · cases h
  · cases h
    rfl

/-- **A merge places the other mesh behind what was there.** -/
theorem mergeMesh_geometry (h : m.mergeMesh uninit src matrix = .ok m') :
    m'.geometry = m.geometry.place (src, matrix) := by
  unfold mergeMesh at h
  simp only [bind_eq_ok] at h
  obtain ⟨m₁, hnodes, h⟩ := h
  have h₁ : m₁.geometry =
      { m.geometry with nodes := m.nodes ++ src.nodes.map matrix.apply } := by
    refine @foldlM_ok _ _ _ (fun done m₀ => m₀.geometry =
      { m.geometry with nodes := m.nodes ++ done.map matrix.apply }) _ _ [] _ _
      (fun done m₀ v m₀' _ hm hv => ?_) ?_ hnodes
    · rw [geometry_addNode hv, hm, List.map_append, ← List.append_assoc]
      rw [show m₀.nodes = m₀.geometry.nodes from rfl, hm]
      rfl
    · rw [List.map_nil, List.append_nil]
      cases src.meshInformationHandler with
      | none => rfl
      | some handler => exact geometry_addInfoTableFrom m handler
  by_cases h0 : src.nodes = []
  · rw [if_pos (by rw [h0]; rfl)] at h
    cases h
    rw [h₁, Geometry.place]
    simp [h0, geometry]
  · rw [if_neg fun h => h0 (List.length_eq_zero_iff.1 h)] at h
    simp only [bind_eq_ok] at h
    obtain ⟨m₂, hfaces, hbeams⟩ := h
    have hfaces₂ : m₂.geometry = { m₁.geometry with
        faces := m₁.faces ++ src.faces.map fun f =>
          ⟨fun j => m.nodes.length + f.nodeIndices j⟩ } := by
      have hclone : (if src.faces.length = 0 then m₁
          else m₁.cloneDefaultInfosFrom uninit src).geometry = m₁.geometry := by
        split_ifs
        · rfl
        · exact geometry_cloneDefaultInfosFrom
      have := @foldlM_ok _ _ _ (fun done m₀ => m₀.geometry = { m₁.geometry with
        faces := m₁.faces ++ done.map fun f : MeshFace × Nat =>
          ⟨fun j => m.nodes.length + f.1.nodeIndices j⟩ }) _ _ [] _ _
        (fun done m₀ f m₀' _ hm hf => by
          rw [geometry_mergeFace hf, hm, List.map_append, ← List.append_assoc]
          rw [show m₀.faces = m₀.geometry.faces from rfl, hm]
          rfl) (by rw [hclone]; simp [geometry]) hfaces
      rw [this, List.nil_append]
      conv_rhs => rw [← List.zipIdx_map_fst 0 src.faces, List.map_map]
      rfl
    have hbeams₂ := @foldlM_ok _ _ _ (fun done m₀ => m₀.geometry = { m₂.geometry with
      beams := m₂.beams ++ done.map fun b : MeshBeam =>
        { b with nodeIndices := fun j => m.nodes.length + b.nodeIndices j } }) _ _ [] _ _
      (fun done m₀ b m₀' _ hm hb => by
        rw [geometry_mergeBeam hb, hm, List.map_append, ← List.append_assoc]
        rw [show m₀.beams = m₀.geometry.beams from rfl, hm]
        rfl) (by simp [geometry]) hbeams
    rw [hbeams₂, List.nil_append, show m₂.beams = m₂.geometry.beams from rfl, hfaces₂,
      show m₁.faces = m₁.geometry.faces from rfl, h₁, Geometry.place, if_neg h0, if_neg h0]
    rfl

/-! ## A sequence of merges -/

/-- One merge after the other. -/
def mergeAll (uninit : FaceProperties) (m : Mesh) (ps : List Placement) : Except Error Mesh :=
  ps.foldlM (fun m p => m.mergeMesh uninit p.1 p.2) m

theorem mergeAll_geometry {ps : List Placement} (h : m.mergeAll uninit ps = .ok m') :
    m'.geometry = ps.foldl Geometry.place m.geometry := by
  unfold mergeAll at h
  induction ps generalizing m with
  | nil =>
    cases h
    rfl
  | cons p ps ih =>
    rw [List.foldlM_cons, bind_eq_ok] at h
    obtain ⟨m₁, hp, h⟩ := h
    rw [List.foldl_cons, ← mergeMesh_geometry hp]
    exact ih h

end NMR.Mesh
