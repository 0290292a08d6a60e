import Mathlib.Data.List.Chain
import Lib3MF.Lib.Appends
import Lib3MF.Lib.Run
import Lib3MF.API.BeamSets
import Lib3MF.API.Slice
import Lib3MF.API.Proof.MeshObject

/-!
# Bulk setters

`SetGeometry`, `SetBeams`, `SetReferences`, `SetPolygonIndices` and `AddPolygon` drop or extend what
there was and then check one element after the other while they store it. Each of them stores a
valid array (`appends_*` with `Appends.forM_eq`); at another one it throws with the longest valid
beginning of the array in place of the old contents. `bulk_setters_iff` says when a call that
throws has changed nothing.
-/

namespace NMR

open Lib

/-- At most `n` items, all with `P`. -/
def AllUpTo {α : Type} (n : Nat) (P : α → Prop) (l : List α) : Prop := l.length ≤ n ∧ ∀ a ∈ l, P a

theorem allUpTo_nil {α : Type} (n : Nat) (P : α → Prop) : AllUpTo n P [] := ⟨Nat.zero_le _, nofun⟩

theorem allUpTo_concat {α : Type} {n : Nat} {P : α → Prop} {l : List α} {a : α} :
    AllUpTo n P (l ++ [a]) ↔ AllUpTo n P l ∧ l.length < n ∧ P a := by
  unfold AllUpTo
  rw [List.length_append, List.length_singleton, List.forall_mem_append, List.forall_mem_singleton]
  refine ⟨fun ⟨hlen, hl, ha⟩ => ⟨⟨by omega, hl⟩, by omega, ha⟩,
    fun ⟨⟨_, hl⟩, hlt, ha⟩ => ⟨by omega, hl, ha⟩⟩

/-! ## The vertices and triangles of a mesh -/

namespace LatticeMesh

variable {s : LatticeMesh}

theorem onMesh_ok {f : EditedMeshM Unit} {m : EditedMesh} (h : f s.mesh = .ok () m) :
    onMesh f s = .ok () { s with mesh := m } := by
  unfold onMesh
  rw [h]

theorem onMesh_error {f : EditedMeshM Unit} {e : Error} {m : EditedMesh}
    (h : f s.mesh = .error e m) : onMesh f s = .error e { s with mesh := m } := by
  unfold onMesh
  rw [h]

/-- The vertices that `SetGeometry` takes. -/
def ValidVertices : List Position → Prop := AllUpTo meshMaxCount fun p => ∀ j, ¬ Exceeds (p j)

/-- The triangles that it takes over `vertexCount` vertices. -/
def ValidTriangles (vertexCount : Nat) : List Triangle → Prop := AllUpTo meshMaxCount fun t =>
  (∀ j, (t j).toNat < vertexCount) ∧ ¬ (t 0 = t 1 ∨ t 0 = t 2 ∨ t 1 = t 2)

/-- The mesh with these vertices and triangles and nothing else. -/
def withGeometry (s : LatticeMesh) (vertices : List Position) (triangles : List Triangle) :
    LatticeMesh where
  mesh := { s.mesh with
    nodes := vertices.zipIdx.map fun x => ⟨x.2, x.1⟩
    faces := triangles.map fun t => ⟨fun j => (t j).toNat⟩
    beams := []
    meshInformationHandler := none }
  beamSets := []

theorem clear_eq (s : LatticeMesh) : clear s = .ok () (s.withGeometry [] []) := rfl

theorem appends_geometryVertex (s : LatticeMesh) (vertices : List Position) :
    Appends ValidVertices (fun p => onMesh (EditedMesh.addGeometryVertex p))
      (fun pre => s.withGeometry pre []) vertices where
  closed _ _ h := (allUpTo_concat.1 h).1
  ok pre p rest _ h := by
    obtain ⟨-, hlt, hp⟩ := allUpTo_concat.1 h
    have hx : ¬ ∃ j, Exceeds (p j) := not_exists.2 hp
    have hlen : (s.withGeometry pre []).mesh.nodes.length = pre.length := by
      simp [withGeometry]
    have hstep : EditedMesh.addGeometryVertex p (s.withGeometry pre []).mesh =
        .ok () (s.withGeometry (pre ++ [p]) []).mesh := by
      rw [EditedMesh.addGeometryVertex, if_neg hx, EditedMesh.addNode, if_neg hx,
        if_neg (by rw [hlen]; omega), hlen]
      simp [withGeometry, List.zipIdx_append]
    exact onMesh_ok hstep
  error pre p rest _ hv h := by
    have hlen : (s.withGeometry pre []).mesh.nodes.length = pre.length := by
      simp [withGeometry]
    by_cases hx : ∃ j, Exceeds (p j)
    · exact ⟨_, onMesh_error (if_pos hx)⟩
    · have hfull : meshMaxCount ≤ pre.length := by
        by_contra hlt
        exact h (allUpTo_concat.2 ⟨hv, not_le.1 hlt, not_exists.1 hx⟩)
      refine ⟨.tooManyNodes, onMesh_error ?_⟩
      rw [EditedMesh.addGeometryVertex, if_neg hx, EditedMesh.addNode, if_neg hx,
        if_pos (by rw [hlen]; exact hfull)]
      rfl

end LatticeMesh

namespace EditedMesh

/-- A corner that exists. -/
theorem getCorner_of_lt {m : EditedMesh} {i : UInt32} (h : i.toNat < m.nodes.length) :
    getCorner m.nodes.length i m = .ok i.toNat m := by
  unfold getCorner getNode
  rw [if_neg (by omega), if_pos h]

/-- The face over three different corners. -/
theorem addFaceOfNodes_corners {m : EditedMesh} {t : Triangle}
    (hne : ¬ (t 0 = t 1 ∨ t 0 = t 2 ∨ t 1 = t 2)) :
    addFaceOfNodes ![(t 0).toNat, (t 1).toNat, (t 2).toNat] m =
      allocFace (fun j => m.nodeIndex (t j).toNat) m := by
  have hnodes : ¬ ((t 0).toNat = (t 1).toNat ∨ (t 0).toNat = (t 2).toNat ∨
      (t 1).toNat = (t 2).toNat) := by
    simpa only [UInt32.toNat_inj] using hne
  have hindices : (fun j => m.nodeIndex (![(t 0).toNat, (t 1).toNat, (t 2).toNat] j)) =
      fun j => m.nodeIndex (t j).toNat := by
    funext j
    exact match j with
      | 0 => rfl
      | 1 => rfl
      | 2 => rfl
  rw [← hindices]
  exact if_neg hnodes

/-- A triangle of `SetGeometry`, over a mesh without face properties. -/
theorem addGeometryTriangle_ok {m : EditedMesh} {t : Triangle}
    (hh : m.meshInformationHandler = none) (ht : ∀ j, (t j).toNat < m.nodes.length)
    (hne : ¬ (t 0 = t 1 ∨ t 0 = t 2 ∨ t 1 = t 2)) (hlt : m.faces.length < meshMaxCount) :
    addGeometryTriangle m.nodes.length t m =
      .ok () { m with faces := m.faces ++ [⟨fun j => m.nodeIndex (t j).toNat⟩] } := by
  unfold addGeometryTriangle
  rw [bind_of_ok (getCorner_of_lt (ht 0)), bind_of_ok (getCorner_of_lt (ht 1)),
    bind_of_ok (getCorner_of_lt (ht 2)), if_neg hne, addFaceOfNodes_corners hne, allocFace,
    if_neg (not_le.2 hlt)]
  dsimp only
  rw [hh]

theorem addGeometryTriangle_error {m : EditedMesh} {t : Triangle}
    (h : ¬ ((∀ j, (t j).toNat < m.nodes.length) ∧ ¬ (t 0 = t 1 ∨ t 0 = t 2 ∨ t 1 = t 2)) ∨
      meshMaxCount ≤ m.faces.length) :
    ∃ e, addGeometryTriangle m.nodes.length t m = .error e m := by
  have hcorner {i : UInt32} (hi : ¬ i.toNat < m.nodes.length) :
      getCorner m.nodes.length i m = .error .apiInvalidParam m := if_pos (by omega)
  unfold addGeometryTriangle
  by_cases h0 : (t 0).toNat < m.nodes.length
  · rw [bind_of_ok (getCorner_of_lt h0)]
    by_cases h1 : (t 1).toNat < m.nodes.length
    · rw [bind_of_ok (getCorner_of_lt h1)]
      by_cases h2 : (t 2).toNat < m.nodes.length
      · rw [bind_of_ok (getCorner_of_lt h2)]
        have hall (j : Fin 3) : (t j).toNat < m.nodes.length :=
          match j with
          | 0 => h0
          | 1 => h1
          | 2 => h2
        by_cases hne : t 0 = t 1 ∨ t 0 = t 2 ∨ t 1 = t 2
        · rw [if_pos hne]
          exact ⟨_, rfl⟩
        · have hfull : meshMaxCount ≤ m.faces.length :=
            h.resolve_left fun hnot => hnot ⟨hall, hne⟩
          rw [if_neg hne, addFaceOfNodes_corners hne, allocFace, if_pos hfull]
          exact ⟨_, rfl⟩
      · exact ⟨_, bind_of_error (hcorner h2)⟩
    · exact ⟨_, bind_of_error (hcorner h1)⟩
  · exact ⟨_, bind_of_error (hcorner h0)⟩

end EditedMesh

namespace LatticeMesh

variable {s : LatticeMesh}

theorem length_nodes_withGeometry (s : LatticeMesh) (vertices : List Position)
    (triangles : List Triangle) :
    (s.withGeometry vertices triangles).mesh.nodes.length = vertices.length := by
  simp [withGeometry]

theorem nodeIndex_withGeometry {vertices : List Position} {triangles : List Triangle} {i : Nat}
    (h : i < vertices.length) : (s.withGeometry vertices triangles).mesh.nodeIndex i = i := by
  unfold EditedMesh.nodeIndex withGeometry
  simp [h]

theorem appends_geometryTriangle (s : LatticeMesh) (vertices : List Position)
    (triangles : List Triangle) :
    Appends (ValidTriangles vertices.length)
      (fun t => onMesh (EditedMesh.addGeometryTriangle vertices.length t))
      (fun pre => s.withGeometry vertices pre) triangles where
  closed _ _ h := (allUpTo_concat.1 h).1
  ok pre t rest _ h := by
    obtain ⟨-, hlt, ht, hne⟩ := allUpTo_concat.1 h
    have hnodes := length_nodes_withGeometry s vertices pre
    have hfaces : (s.withGeometry vertices pre).mesh.faces.length = pre.length := by
      simp [withGeometry]
    have hstep := EditedMesh.addGeometryTriangle_ok (m := (s.withGeometry vertices pre).mesh) rfl
      (by rw [hnodes]; exact ht) hne (by rw [hfaces]; exact hlt)
    rw [hnodes] at hstep
    refine (onMesh_ok hstep).trans ?_
    simp only [nodeIndex_withGeometry (ht _)]
    simp [withGeometry]
  error pre t rest _ hv h := by
    have hnodes := length_nodes_withGeometry s vertices pre
    have hfaces : (s.withGeometry vertices pre).mesh.faces.length = pre.length := by
      simp [withGeometry]
    have hbad : ¬ ((∀ j, (t j).toNat < vertices.length) ∧
        ¬ (t 0 = t 1 ∨ t 0 = t 2 ∨ t 1 = t 2)) ∨ meshMaxCount ≤ pre.length := by
      by_contra hnot
      rw [not_or, not_not, not_le] at hnot
      exact h (allUpTo_concat.2 ⟨hv, hnot.2, hnot.1⟩)
    rw [← hnodes, ← hfaces] at hbad
    obtain ⟨e, he⟩ := EditedMesh.addGeometryTriangle_error hbad
    rw [hnodes] at he
    exact ⟨e, onMesh_error he⟩

/-- The arrays are stored. -/
def HasGeometry (vertices : Option (List Position)) (triangles : Option (List Triangle))
    (s : LatticeMesh) : Prop :=
  vertices = some (s.mesh.nodes.map (·.position)) ∧
    triangles.map (fun ts => ts.map fun t j => ((t j).toNat : Int)) =
      some (s.mesh.faces.map (·.nodeIndices))

theorem hasGeometry_withGeometry (s : LatticeMesh) (vertices : List Position)
    (triangles : List Triangle) :
    HasGeometry (some vertices) (some triangles) (s.withGeometry vertices triangles) := by
  unfold HasGeometry withGeometry
  simp [Function.comp_def, List.zipIdx_map_fst]

/-- A null pointer, valid arrays, or a mesh that already holds what the call leaves: the longest
valid beginning of the arrays and nothing else. -/
def GeometryKept (s : LatticeMesh) (vertices : Option (List Position))
    (triangles : Option (List Triangle)) : Prop :=
  match vertices, triangles with
  | some vertices, some triangles =>
    (ValidVertices vertices ∧ ValidTriangles vertices.length triangles) ∨
      (∃ pre, LongestValid ValidVertices vertices pre ∧ s = s.withGeometry pre []) ∨
      ValidVertices vertices ∧ ∃ pre,
        LongestValid (ValidTriangles vertices.length) triangles pre ∧ s = s.withGeometry vertices pre
  | _, _ => True

theorem setGeometry_allOrNothing_iff (s : LatticeMesh) (vertices : Option (List Position))
    (triangles : Option (List Triangle)) :
    AllOrNothing (setGeometry vertices triangles) s (fun _ => HasGeometry vertices triangles) ↔
      s.GeometryKept vertices triangles := by
  cases vertices with
  | none => exact iff_of_true rfl trivial
  | some vertices =>
    cases triangles with
    | none => exact iff_of_true rfl trivial
    | some triangles =>
      have hv := appends_geometryVertex s vertices
      have ht := appends_geometryTriangle s vertices triangles
      have hclear : setGeometry (some vertices) (some triangles) s =
          (vertices.forM (fun p => onMesh (EditedMesh.addGeometryVertex p)) >>= fun _ =>
            triangles.forM fun t => onMesh (EditedMesh.addGeometryTriangle vertices.length t))
          (s.withGeometry [] []) := bind_of_ok (clear_eq s)
      show _ ↔ (_ ∧ _) ∨ _ ∨ _ ∧ _
      obtain ⟨hvalid, hrun⟩ | ⟨p, e, hp, hrun⟩ := hv.forM_eq (allUpTo_nil _ _)
      · have hvertices (pre : List Position) (h : LongestValid ValidVertices vertices pre) : False :=
          h.not_valid hv.closed hvalid
        obtain ⟨hvalid', hrun'⟩ | ⟨p, e, hp, hrun'⟩ := ht.forM_eq (allUpTo_nil _ _)
        · rw [allOrNothing_of_ok (hclear.trans ((bind_of_ok hrun).trans hrun'))]
          exact iff_of_true (hasGeometry_withGeometry s vertices triangles) (.inl ⟨hvalid, hvalid'⟩)
        · rw [allOrNothing_of_error (hclear.trans ((bind_of_ok hrun).trans hrun'))]
          refine ⟨fun hs => .inr (.inr ⟨hvalid, p, hp, hs.symm⟩), fun hs => ?_⟩
          obtain ⟨-, hvalid'⟩ | ⟨pre, hpre, -⟩ | ⟨-, pre, hpre, hs⟩ := hs
          · exact absurd hvalid' (hp.not_valid ht.closed)
          · exact (hvertices pre hpre).elim
          · rw [← hp.unique ht.closed hpre]
            exact hs.symm
      · rw [allOrNothing_of_error (hclear.trans (bind_of_error hrun))]
        have hnot := hp.not_valid hv.closed
        refine ⟨fun hs => .inr (.inl ⟨p, hp, hs.symm⟩), fun hs => ?_⟩
        obtain ⟨hvalid, -⟩ | ⟨pre, hpre, hs⟩ | ⟨hvalid, -⟩ := hs
        · exact absurd hvalid hnot
        · rw [← hp.unique hv.closed hpre]
          exact hs.symm
        · exact absurd hvalid hnot

end LatticeMesh

/-! ## The beams of a lattice -/

namespace EditedMesh

/-- The index that a node stores is its place. -/
def Indexed (m : EditedMesh) : Prop :=
  ∀ (i : Nat) (n : EditedNode), m.nodes[i]? = some n → n.index = i

theorem Indexed.nodeIndex {m : EditedMesh} (h : m.Indexed) {i : Nat} (hi : i < m.nodes.length) :
    m.nodeIndex i = i := by
  unfold EditedMesh.nodeIndex
  rw [List.getElem?_eq_getElem hi]
  exact h i _ (List.getElem?_eq_getElem hi)

/-- The beam that stands for a `BeamInfo`. -/
def beamOf (b : BeamInfo) : EditedBeam := ⟨fun j => (b.indices j).toNat, b.radii, b.capModes⟩

theorem addValidBeam_ok {m : EditedMesh} {b : BeamInfo} (hm : m.Indexed)
    (hb : isBeamValid m.nodes.length b = true) (hlt : m.beams.length < meshMaxCount) :
    addValidBeam b m = .ok () { m with beams := m.beams ++ [beamOf b] } := by
  obtain ⟨hnode, hdiffer⟩ := isBeamValid_spec hb
  have hne : ¬ (b.indices 0).toNat = (b.indices 1).toNat := by
    rw [UInt32.toNat_inj]
    exact hdiffer
  have hindices : (fun j => m.nodeIndex (![(b.indices 0).toNat, (b.indices 1).toNat] j)) =
      fun j => ((b.indices j).toNat : Int) := by
    funext j
    exact match j with
      | 0 => hm.nodeIndex (hnode 0)
      | 1 => hm.nodeIndex (hnode 1)
  have hget (j : Fin 2) : getNode (b.indices j).toNat m = .ok (b.indices j).toNat m :=
    if_pos (hnode j)
  have hadd : addBeam ![(b.indices 0).toNat, (b.indices 1).toNat] b m =
      if meshMaxCount ≤ m.beams.length then .error .tooManyBeams m
      else .ok () { m with beams := m.beams ++
        [⟨fun j => m.nodeIndex (![(b.indices 0).toNat, (b.indices 1).toNat] j), b.radii, b.capModes⟩] } :=
    if_neg hne
  unfold addValidBeam
  rw [if_pos hb, bind_of_ok (hget 0), bind_of_ok (hget 1), hadd, if_neg (not_le.2 hlt), hindices]
  rfl

theorem addValidBeam_error {m : EditedMesh} {b : BeamInfo}
    (h : ¬ isBeamValid m.nodes.length b = true ∨ meshMaxCount ≤ m.beams.length) :
    ∃ e, addValidBeam b m = .error e m := by
  unfold addValidBeam
  by_cases hb : isBeamValid m.nodes.length b = true
  · have hget (j : Fin 2) : getNode (b.indices j).toNat m = .ok (b.indices j).toNat m :=
      if_pos ((isBeamValid_spec hb).1 j)
    rw [if_pos hb, bind_of_ok (hget 0), bind_of_ok (hget 1)]
    unfold addBeam
    split_ifs with hdup hfull
    · exact ⟨_, rfl⟩
    · exact ⟨_, rfl⟩
    · exact absurd (h.resolve_left (not_not.2 hb)) hfull
  · rw [if_neg hb]
    exact ⟨_, rfl⟩

end EditedMesh

namespace LatticeMesh

/-- The beams that `SetBeams` takes over `nodeCount` nodes. -/
def ValidBeams (nodeCount : Nat) : List BeamInfo → Prop :=
  AllUpTo meshMaxCount fun b => EditedMesh.isBeamValid nodeCount b = true

/-- The mesh with these beams, and without beam sets. -/
def withBeams (s : LatticeMesh) (bs : List BeamInfo) : LatticeMesh where
  mesh := { s.mesh with beams := bs.map EditedMesh.beamOf }
  beamSets := []

theorem appends_beam {s : LatticeMesh} (hs : s.mesh.Indexed) (bs : List BeamInfo) :
    Appends (ValidBeams s.mesh.nodes.length) (fun b => onMesh (EditedMesh.addValidBeam b))
      (fun pre => s.withBeams pre) bs where
  closed _ _ h := (allUpTo_concat.1 h).1
  ok pre b rest _ h := by
    obtain ⟨-, hlt, hb⟩ := allUpTo_concat.1 h
    have hstep := EditedMesh.addValidBeam_ok (m := (s.withBeams pre).mesh) hs hb
      (by simpa [withBeams] using hlt)
    refine (onMesh_ok hstep).trans ?_
    simp [withBeams]
  error pre b rest _ hv h := by
    have hbad : ¬ EditedMesh.isBeamValid s.mesh.nodes.length b = true ∨
        meshMaxCount ≤ (s.withBeams pre).mesh.beams.length := by
      by_contra hnot
      rw [not_or, not_not, not_le] at hnot
      refine h (allUpTo_concat.2 ⟨hv, ?_, hnot.1⟩)
      simpa [withBeams] using hnot.2
    obtain ⟨e, he⟩ := EditedMesh.addValidBeam_error (m := (s.withBeams pre).mesh) hbad
    exact ⟨e, onMesh_error he⟩

/-- An object that takes no beams, valid beams, or a lattice that already holds the longest valid
beginning of the array and no beam sets. -/
def BeamsKept (s : LatticeMesh) (bs : List BeamInfo) : Prop :=
  (bs ≠ [] ∧ ¬ s.mesh.isValidForBeamLattices) ∨ ValidBeams s.mesh.nodes.length bs ∨
    ∃ pre, LongestValid (ValidBeams s.mesh.nodes.length) bs pre ∧ s = s.withBeams pre

theorem setBeams_allOrNothing_iff {s : LatticeMesh} (hs : s.mesh.Indexed) (bs : List BeamInfo) :
    AllOrNothing (setBeams bs) s (fun _ s' => s'.mesh.beams = bs.map EditedMesh.beamOf) ↔
      s.BeamsKept bs := by
  unfold BeamsKept
  by_cases htype : bs ≠ [] ∧ ¬ s.mesh.isValidForBeamLattices
  · have hcall : setBeams bs s = .error .apiBeamLatticeInvalidObjectType s := if_pos htype
    rw [allOrNothing_of_error hcall]
    exact iff_of_true rfl (.inl htype)
  · have hcall : setBeams bs s =
        bs.forM (fun b => onMesh (EditedMesh.addValidBeam b)) (s.withBeams []) := if_neg htype
    rw [(appends_beam hs bs).allOrNothing_iff (allUpTo_nil _ _) hcall rfl]
    exact (or_iff_right htype).symm

end LatticeMesh

/-! ## The references of a beam set -/

namespace BeamSet

/-- The references that `SetReferences` takes. -/
def ValidReferences (beamCount : Nat) (references : List Nat) : Prop :=
  ∀ r ∈ references, r < beamCount

theorem validReferences_concat {beamCount r : Nat} {references : List Nat} :
    ValidReferences beamCount (references ++ [r]) ↔
      ValidReferences beamCount references ∧ r < beamCount := by
  unfold ValidReferences
  rw [List.forall_mem_append, List.forall_mem_singleton]

theorem length_resize (references : List Nat) (n : Nat) : (resize references n).length = n := by
  unfold resize
  rw [List.length_append, List.length_take, List.length_replicate]
  omega

/-- The beam set with the references of `pre` written over the resized ones. -/
def overwrite (s : BeamSet) (n : Nat) (pre : List (Nat × Nat)) : BeamSet :=
  { s with references := pre.map Prod.fst ++ (resize s.references n).drop pre.length }

/-- An item of a numbered list has its place as number. -/
theorem snd_of_zipIdx {references : List Nat} {pre rest : List (Nat × Nat)} {x : Nat × Nat}
    (h : references.zipIdx = pre ++ x :: rest) :
    x.2 = pre.length ∧ pre.length < references.length ∧
      references = pre.map Prod.fst ++ x.1 :: rest.map Prod.fst := by
  have hget : references.zipIdx[pre.length]? = some x := by
    rw [h, List.getElem?_append_right (Nat.le_refl _), Nat.sub_self]
    rfl
  have hmap := congrArg (List.map Prod.fst) h
  rw [List.zipIdx_map_fst, List.map_append, List.map_cons] at hmap
  rw [List.getElem?_zipIdx] at hget
  obtain ⟨r, hr, rfl⟩ := Option.map_eq_some_iff.1 hget
  obtain ⟨hlt, -⟩ := List.getElem?_eq_some_iff.1 hr
  exact ⟨by simp, hlt, hmap⟩

theorem overwrite_eq_iff {s : BeamSet} {n : Nat} {pre : List (Nat × Nat)} (h : pre.length < n) :
    s.overwrite n pre = s ↔ s.references.length = n ∧ pre.map Prod.fst <+: s.references := by
  have hreferences : s.overwrite n pre = s ↔
      pre.map Prod.fst ++ (resize s.references n).drop pre.length = s.references := by
    cases s
    simp [overwrite]
  rw [hreferences]
  refine ⟨fun heq => ⟨?_, _, heq⟩, fun ⟨hlen, rest, hrest⟩ => ?_⟩
  · rw [← heq, List.length_append, List.length_map, List.length_drop, length_resize]
    omega
  · have hsame : resize s.references n = s.references := by
      unfold resize
      rw [List.take_of_length_le hlen.le, hlen, Nat.sub_self, List.replicate_zero, List.append_nil]
    have hdrop : s.references.drop pre.length = rest := by
      rw [← hrest, show pre.length = (pre.map Prod.fst).length from (List.length_map _).symm,
        List.drop_left]
    rw [hsame, hdrop, hrest]

theorem appends_reference (beamCount : Nat) (s : BeamSet) (references : List Nat) :
    Appends (fun pre => ValidReferences beamCount (pre.map Prod.fst)) (setReference beamCount)
      (s.overwrite references.length) references.zipIdx where
  closed pre x h := by
    rw [List.map_append, List.map_singleton, validReferences_concat] at h
    exact h.1
  ok pre x rest hzip h := by
    obtain ⟨hplace, hlt, -⟩ := snd_of_zipIdx hzip
    rw [List.map_append, List.map_singleton, validReferences_concat] at h
    have hroom : pre.length < (resize s.references references.length).length := by
      rw [length_resize]
      exact hlt
    have hset : (s.overwrite references.length pre).references.set x.2 x.1 =
        (s.overwrite references.length (pre ++ [x])).references := by
      unfold overwrite
      rw [hplace, List.drop_eq_getElem_cons hroom, List.set_append_right _ _ (by simp),
        List.length_map, Nat.sub_self, List.set_cons_zero, List.map_append, List.map_singleton,
        List.append_assoc, List.length_append, List.length_singleton]
      rfl
    refine (bind_of_ok (require_of_pos h.2 _ _)).trans ?_
    show EStateM.Result.ok () { s.overwrite references.length pre with
      references := (s.overwrite references.length pre).references.set x.2 x.1 } = _
    rw [hset]
    rfl
  error pre x rest _ hv h := by
    rw [List.map_append, List.map_singleton, validReferences_concat] at h
    exact ⟨_, bind_of_error (require_of_neg (fun hx => h ⟨hv, hx⟩) _ _)⟩

/-- Valid references, or as many old ones that begin with the longest valid beginning. -/
def ReferencesKept (s : BeamSet) (beamCount : Nat) (references : List Nat) : Prop :=
  ValidReferences beamCount references ∨
    s.references.length = references.length ∧
      ∃ pre, LongestValid (ValidReferences beamCount) references pre ∧ pre <+: s.references

theorem setReferences_allOrNothing_iff (beamCount : Nat) (s : BeamSet) (references : List Nat) :
    AllOrNothing (setReferences beamCount references) s
      (fun _ s' => s' = { s with references := references }) ↔
      s.ReferencesKept beamCount references := by
  have happ := appends_reference beamCount s references
  have hclosed (pre : List Nat) (r : Nat) (h : ValidReferences beamCount (pre ++ [r])) :=
    (validReferences_concat.1 h).1
  have hcall : setReferences beamCount references s =
      references.zipIdx.forM (setReference beamCount) (s.overwrite references.length []) := rfl
  unfold ReferencesKept
  obtain ⟨hv, hrun⟩ | ⟨p, e, ⟨x, rest, hzip, hp, hnot⟩, hrun⟩ := happ.forM_eq nofun
  · rw [List.zipIdx_map_fst] at hv
    rw [allOrNothing_of_ok (hcall.trans hrun)]
    refine iff_of_true ?_ (.inl hv)
    unfold overwrite
    rw [List.zipIdx_map_fst, List.length_zipIdx, List.drop_eq_nil_of_le (length_resize _ _).le,
      List.append_nil]
  · obtain ⟨-, hlt, hsplit⟩ := snd_of_zipIdx hzip
    have hnot : ¬ ValidReferences beamCount ((p ++ [x]).map Prod.fst) := hnot
    rw [List.map_append, List.map_singleton] at hnot
    have hlongest : LongestValid (ValidReferences beamCount) references (p.map Prod.fst) :=
      ⟨x.1, rest.map Prod.fst, hsplit, hp, hnot⟩
    rw [allOrNothing_of_error (hcall.trans hrun), overwrite_eq_iff hlt]
    refine ⟨fun ⟨hlen, hpre⟩ => .inr ⟨hlen, _, hlongest, hpre⟩, fun h => ?_⟩
    obtain hv | ⟨hlen, pre, hpre, hold⟩ := h
    · exact absurd hv (hlongest.not_valid hclosed)
    · rw [hlongest.unique hclosed hpre] at hold
      exact ⟨hlen, hold⟩

end BeamSet

/-! ## The polygons of a slice -/

namespace Slice

/-- The polygons that a slice takes: indices of vertices, each other than the one before it. -/
def ValidPolygon (vertexCount : Nat) (indices : List Nat) : Prop :=
  (∀ i ∈ indices, i < vertexCount) ∧ indices.IsChain (· ≠ ·)

theorem validPolygon_nil (vertexCount : Nat) : ValidPolygon vertexCount [] := ⟨nofun, .nil⟩

theorem validPolygon_concat {vertexCount i : Nat} {indices : List Nat} :
    ValidPolygon vertexCount (indices ++ [i]) ↔
      ValidPolygon vertexCount indices ∧ i < vertexCount ∧ indices.getLast? ≠ some i := by
  have hchain : (indices ++ [i]).IsChain (· ≠ ·) ↔
      indices.IsChain (· ≠ ·) ∧ indices.getLast? ≠ some i := by
    rw [List.isChain_append]
    refine ⟨fun ⟨h, _, hne⟩ => ⟨h, fun hlast => hne i hlast i rfl rfl⟩,
      fun ⟨h, hne⟩ => ⟨h, .singleton _, fun x hx y hy => ?_⟩⟩
    rintro rfl
    cases hy
    exact hne hx
  unfold ValidPolygon
  rw [List.forall_mem_append, List.forall_mem_singleton, hchain]
  tauto

/-- The slice with the polygon at `p` replaced. -/
def withPolygon (s : Slice) (p : Nat) (indices : List Nat) : Slice :=
  { s with polygons := s.polygons.set p indices }

theorem addPolygonIndex_eq {s : Slice} {p : Nat} (hp : p < s.polygons.length) (pre : List Nat)
    (i : Nat) : addPolygonIndex p i (s.withPolygon p pre) =
      if i < s.vertices.length ∧ pre.getLast? ≠ some i then .ok () (s.withPolygon p (pre ++ [i]))
      else .error .invalidSliceSegmentVertexIndex (s.withPolygon p pre) := by
  have hget : (s.withPolygon p pre).polygons[p]? = some pre := List.getElem?_set_self hp
  have hset : (s.withPolygon p pre).polygons.set p (pre ++ [i]) =
      s.polygons.set p (pre ++ [i]) := List.set_set ..
  unfold addPolygonIndex
  simp only [hget, hset]
  show (if s.vertices.length ≤ i then _ else _) = _
  by_cases hi : i < s.vertices.length
  · rw [if_neg (by omega)]
    by_cases hlast : pre.getLast? = some i
    · rw [if_pos hlast, if_neg (fun h => h.2 hlast)]
    · rw [if_neg hlast, if_pos ⟨hi, hlast⟩]
      rfl
  · rw [if_pos (by omega), if_neg (fun h => hi h.1)]

theorem appends_polygonIndex {s : Slice} {p : Nat} (hp : p < s.polygons.length)
    (indices : List Nat) :
    Appends (ValidPolygon s.vertices.length) (addPolygonIndex p) (s.withPolygon p) indices where
  closed _ _ h := (validPolygon_concat.1 h).1
  ok pre i rest _ h := by
    rw [addPolygonIndex_eq hp, if_pos (validPolygon_concat.1 h).2]
  error pre i rest _ hv h := by
    rw [addPolygonIndex_eq hp, if_neg (fun hi => h (validPolygon_concat.2 ⟨hv, hi⟩))]
    exact ⟨_, rfl⟩

/-- A polygon that does not exist, valid indices, or a polygon that already holds the longest valid
beginning of them. -/
def PolygonKept (s : Slice) (p : Nat) (indices : List Nat) : Prop :=
  s.polygons.length ≤ p ∨ ValidPolygon s.vertices.length indices ∨
    ∃ pre, LongestValid (ValidPolygon s.vertices.length) indices pre ∧ s.polygons[p]? = some pre

theorem setPolygonIndices_eq {s : Slice} {p : Nat} (hp : p % 2 ^ 32 < s.polygons.length)
    (indices : List Nat) : setPolygonIndices p indices s =
      indices.forM (addPolygonIndex (p % 2 ^ 32)) (s.withPolygon (p % 2 ^ 32) []) :=
  bind_of_ok (if_neg (not_le.2 hp))

theorem setPolygonIndices_allOrNothing_iff (s : Slice) (p : Nat) (indices : List Nat) :
    AllOrNothing (setPolygonIndices p indices) s
      (fun _ s' => s' = s.withPolygon (p % 2 ^ 32) indices) ↔
      s.PolygonKept (p % 2 ^ 32) indices := by
  unfold PolygonKept
  by_cases hp : s.polygons.length ≤ p % 2 ^ 32
  · have hcall : setPolygonIndices p indices s = .error .invalidIndex s :=
      bind_of_error (if_pos hp)
    rw [allOrNothing_of_error hcall]
    exact iff_of_true rfl (.inl hp)
  · have hlt := not_le.1 hp
    rw [(appends_polygonIndex hlt indices).allOrNothing_iff (validPolygon_nil _)
      (setPolygonIndices_eq hlt indices) rfl, or_iff_right hp]
    have hsame (pre : List Nat) : s = s.withPolygon (p % 2 ^ 32) pre ↔
        s.polygons[p % 2 ^ 32]? = some pre := by
      refine ⟨fun h => ?_, fun h => ?_⟩
      · rw [h]
        exact List.getElem?_set_self hlt
      · obtain ⟨hlt, rfl⟩ := List.getElem?_eq_some_iff.1 h
        unfold withPolygon
        rw [List.set_getElem_self]
    simp only [hsame]

theorem addPolygon_allOrNothing_iff (s : Slice) (indices : List Nat) :
    AllOrNothing (addPolygon indices) s
      (fun index s' => s'.polygons[index]? = some indices) ↔
      ValidPolygon s.vertices.length indices := by
  let t : Slice := { s with polygons := s.polygons ++ [[]] }
  let p := s.polygons.length % 2 ^ 32
  have hp : p < t.polygons.length := by
    show s.polygons.length % 2 ^ 32 < (s.polygons ++ [[]]).length
    rw [List.length_append, List.length_singleton]
    exact Nat.lt_succ_of_le (Nat.mod_le _ _)
  have hmod : p % 2 ^ 32 = p := Nat.mod_mod _ _
  have hset : setPolygonIndices p indices t = indices.forM (addPolygonIndex p) (t.withPolygon p []) := by
    have h := setPolygonIndices_eq (s := t) (p := p) (by rw [hmod]; exact hp) indices
    rwa [hmod] at h
  have hcall : addPolygon indices s =
      (setPolygonIndices p indices >>= fun _ => pure p) t := rfl
  obtain ⟨hv, hrun⟩ | ⟨pre, e, hpre, hrun⟩ :=
    (appends_polygonIndex hp indices).forM_eq (validPolygon_nil _)
  · rw [allOrNothing_of_ok (hcall.trans (bind_of_ok (hset.trans hrun)))]
    exact iff_of_true (List.getElem?_set_self hp) hv
  · have hnot := hpre.not_valid (appends_polygonIndex hp indices).closed
    rw [allOrNothing_of_error (hcall.trans (bind_of_error (hset.trans hrun)))]
    refine iff_of_false (fun h => ?_) hnot
    have hlen := congrArg (fun s => s.polygons.length) h
    simp [withPolygon, t] at hlen

end Slice

/-! ## The indices of the nodes -/

namespace EditedMesh

theorem Indexed.of_nodes {m m' : EditedMesh} (hm : m.Indexed) (h : m'.nodes = m.nodes) :
    m'.Indexed := by
  unfold Indexed
  rw [h]
  exact hm

theorem indexed_addNode (p : Position) :
    Frames (fun m m' => Indexed m → Indexed m') (addNode p) := by
  intro m hm
  unfold addNode
  split_ifs
  · exact hm
  · exact hm
  · intro i n h
    have h : (m.nodes ++ [⟨m.nodes.length, p⟩])[i]? = some n := h
    rw [List.getElem?_append] at h
    split_ifs at h with hlt
    · exact hm i n h
    · obtain ⟨hi, rfl⟩ := List.getElem?_eq_some_iff.1 h
      rw [List.length_singleton] at hi
      rw [List.getElem_singleton]
      show (m.nodes.length : Int) = i
      omega

theorem indexed_allocFace (nodeIndices : Fin 3 → Int) :
    Frames (fun m m' => Indexed m → Indexed m') (allocFace nodeIndices) := by
  intro m hm
  obtain ⟨h, hfinal⟩ := allocFace_final m nodeIndices
  rw [hfinal]
  split_ifs
  · exact hm
  · exact hm

theorem indexed_setGeometry (vertices : Option (List Position))
    (triangles : Option (List Triangle)) :
    Frames (fun m m' => Indexed m → Indexed m') (setGeometry vertices triangles) := by
  have hrefl (m : EditedMesh) : Indexed m → Indexed m := id
  have htrans (m₁ m₂ m₃ : EditedMesh) (h₁ : Indexed m₁ → Indexed m₂)
      (h₂ : Indexed m₂ → Indexed m₃) : Indexed m₁ → Indexed m₃ := h₂ ∘ h₁
  have hvertex (p : Position) : Frames (fun m m' => Indexed m → Indexed m') (addGeometryVertex p) := by
    intro m
    unfold addGeometryVertex
    split_ifs
    · exact hrefl m
    · exact indexed_addNode p m
  match vertices, triangles with
  | none, _ => exact Frames.throw hrefl _
  | some _, none => exact Frames.throw hrefl _
  | some vertices, some triangles =>
    exact Frames.bind htrans (fun m _ => nofun) fun _ =>
      Frames.bind htrans (Frames.forM hrefl htrans hvertex vertices) fun _ =>
        Frames.forM hrefl htrans
          (fun t m hm => hm.of_nodes (safe_addGeometryTriangle vertices.length t m).1) triangles

/-- Every call keeps the index of each node its place. -/
theorem indexed_next {m : EditedMesh} (c : MeshCall) (hm : m.Indexed) : (m.next c).Indexed := by
  cases c with
  | addVertex p => exact indexed_addNode p m hm
  | addTriangle t =>
    show (finalState (addFace (fun j => nfInt32 (t j)) m)).Indexed
    unfold addFace
    split_ifs
    · exact hm
    · exact indexed_allocFace _ m hm
  | setVertex i p =>
    show (finalState ((getNode i.toNat >>= _) m)).Indexed
    obtain ⟨h, -⟩ | h := getNode_eq m i.toNat
    · rw [bind_of_ok h]
      intro k n hn
      have hn : (m.nodes.modify i.toNat fun n => { n with position := p })[k]? = some n := hn
      rw [List.getElem?_modify] at hn
      obtain ⟨n', hn', rfl⟩ := Option.map_eq_some_iff.1 hn
      have hindex := hm k n' hn'
      split_ifs <;> exact hindex
    · rw [bind_of_error h]
      exact hm
  | setTriangle i t =>
    show (finalState (setTriangle i t m)).Indexed
    unfold setTriangle
    split_ifs
    · exact hm
    · exact hm
  | setGeometry vertices triangles => exact indexed_setGeometry vertices triangles m hm
  | addBeam b =>
    show (finalState (apiAddBeam b m)).Indexed
    unfold apiAddBeam
    split_ifs
    · exact hm.of_nodes (safe_addValidBeam b m).1
    · exact hm
  | setBeam i b => exact hm.of_nodes (safe_setBeam i b m).1
  | setBeams bs => exact hm.of_nodes (safe_setBeams bs m).1
  | setType t => exact hm
  | setProperties h => exact hm

/-- In every state of a run from a new object each node stores its place. -/
theorem indexed_run {m : EditedMesh} {calls : List MeshCall} (h : Reaches next new calls m) :
    m.Indexed :=
  h.inv Indexed nofun (fun _ c hm (_ : True) => indexed_next c hm)
    (guarded_true _ _ _)

end EditedMesh

/-! ## The mesh without its beam sets -/

namespace LatticeMesh

/-- `x` does to the mesh what `y` does, and throws what `y` throws. -/
def Mirrors {α : Type} (x : LatticeMeshM α) (y : EditedMeshM α) : Prop :=
  ∀ s : LatticeMesh, ∃ beamSets, x s =
    match y s.mesh with
    | .ok a m => .ok a ⟨m, beamSets⟩
    | .error e m => .error e ⟨m, beamSets⟩

theorem mirrors_onMesh {α : Type} (y : EditedMeshM α) : Mirrors (onMesh y) y :=
  fun s => ⟨s.beamSets, rfl⟩

theorem Mirrors.bind {α β : Type} {x : LatticeMeshM α} {y : EditedMeshM α} {f : α → LatticeMeshM β}
    {g : α → EditedMeshM β} (hx : Mirrors x y) (hf : ∀ a, Mirrors (f a) (g a)) :
    Mirrors (x >>= f) (y >>= g) := by
  intro s
  obtain ⟨beamSets, hx⟩ := hx s
  cases hy : y s.mesh with
  | ok a m =>
    rw [hy] at hx
    obtain ⟨beamSets', hf⟩ := hf a ⟨m, beamSets⟩
    exact ⟨beamSets', by rw [bind_of_ok hx, bind_of_ok hy, hf]⟩
  | error e m =>
    rw [hy] at hx
    exact ⟨beamSets, by rw [bind_of_error hx, bind_of_error hy]⟩

theorem Mirrors.forM {α : Type} {f : α → LatticeMeshM Unit} {g : α → EditedMeshM Unit}
    (h : ∀ a, Mirrors (f a) (g a)) (l : List α) : Mirrors (l.forM f) (l.forM g) := by
  induction l with
  | nil => exact fun s => ⟨s.beamSets, rfl⟩
  | cons a l ih => exact (h a).bind fun _ => ih

/-- `SetGeometry` with beam sets does to the mesh what it does without them. -/
theorem mirrors_setGeometry (vertices : Option (List Position))
    (triangles : Option (List Triangle)) :
    Mirrors (setGeometry vertices triangles) (EditedMesh.setGeometry vertices triangles) := by
  match vertices, triangles with
  | none, _ => exact fun s => ⟨s.beamSets, rfl⟩
  | some _, none => exact fun s => ⟨s.beamSets, rfl⟩
  | some vertices, some triangles =>
    have hclear : Mirrors clear EditedMesh.clear := fun s => ⟨[], rfl⟩
    exact hclear.bind fun _ => (Mirrors.forM (fun p => mirrors_onMesh _) vertices).bind fun _ =>
      Mirrors.forM (fun t => mirrors_onMesh _) triangles

theorem mirrors_setBeams (bs : List BeamInfo) :
    Mirrors (setBeams bs) (EditedMesh.setBeams bs) := by
  intro s
  unfold setBeams EditedMesh.setBeams
  split_ifs
  · exact ⟨s.beamSets, rfl⟩
  · have hclear : Mirrors clearBeamLattice EditedMesh.clearBeamLattice := fun s => ⟨[], rfl⟩
    exact (hclear.bind fun _ => Mirrors.forM (fun b => mirrors_onMesh _) bs) s

end LatticeMesh

/-- A mesh whose nodes store their places. -/
abbrev IndexedMesh := { m : EditedMesh // m.Indexed }

/-- **The bulk setters** store the array, or throw and change nothing, exactly when the array is
valid, the call is rejected before it writes, or what it leaves of the array was there before. -/
theorem bulk_setters_iff (s : LatticeMesh) (vertices : Option (List Position))
    (triangles : Option (List Triangle)) (m : IndexedMesh) (beamSets : List BeamSet)
    (bs : List BeamInfo) (beamCount : Nat) (set : BeamSet) (references : List Nat) (slice : Slice)
    (p : Nat) (indices : List Nat) :
    (AllOrNothing (LatticeMesh.setGeometry vertices triangles) s
        (fun _ => LatticeMesh.HasGeometry vertices triangles) ↔
      s.GeometryKept vertices triangles) ∧
    (AllOrNothing (LatticeMesh.setBeams bs) ⟨m, beamSets⟩
        (fun _ s' => s'.mesh.beams = bs.map EditedMesh.beamOf) ↔
      LatticeMesh.BeamsKept ⟨m, beamSets⟩ bs) ∧
    (AllOrNothing (BeamSet.setReferences beamCount references) set
        (fun _ s' => s' = { set with references := references }) ↔
      set.ReferencesKept beamCount references) ∧
    (AllOrNothing (Slice.addPolygon indices) slice
        (fun index s' => s'.polygons[index]? = some indices) ↔
      Slice.ValidPolygon slice.vertices.length indices) ∧
    (AllOrNothing (Slice.setPolygonIndices p indices) slice
        (fun _ s' => s' = slice.withPolygon (p % 2 ^ 32) indices) ↔
      slice.PolygonKept (p % 2 ^ 32) indices) :=
  ⟨LatticeMesh.setGeometry_allOrNothing_iff s vertices triangles,
    LatticeMesh.setBeams_allOrNothing_iff (s := ⟨m, beamSets⟩) m.2 bs,
    BeamSet.setReferences_allOrNothing_iff beamCount set references,
    Slice.addPolygon_allOrNothing_iff slice indices,
    Slice.setPolygonIndices_allOrNothing_iff slice p indices⟩

/-- A triangle of a slice is replaced by its first corner when the second index is out of range. -/
theorem setPolygonIndices_drops_polygon :
    ¬ AllOrNothing (Slice.setPolygonIndices 0 [0, 7])
      ⟨.ofRat 0, [(0, 0), (1, 0), (0, 1)], [[0, 1, 2]]⟩
      (fun _ s' => s'.polygons = [[0, 7]]) := by
  show ¬ ((⟨.ofRat 0, [(0, 0), (1, 0), (0, 1)], [[0]]⟩ : Slice) =
    ⟨.ofRat 0, [(0, 0), (1, 0), (0, 1)], [[0, 1, 2]]⟩)
  intro h
  exact absurd (congrArg Slice.polygons h) (by decide)

end NMR
