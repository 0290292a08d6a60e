import Lib3MF.Lib.Except
import Lib3MF.Lib.FirstSeen
import Lib3MF.Common.MeshImport.STL

/-!
# What comes back from an STL file

A sane mesh whose coordinates are inside of the limits (`SaneStlMesh`) is exported without an
error and imported again. `Loaded` is the invariant of the import after some corners: the nodes
are the first corners of their cells, numbered by the vector tree, and there is no face. The import
keeps it corner by corner (`identifyNode_loaded`), facet by facet (`loadFacet_loaded`) and
over the file (`loadMesh_loaded`). So the nodes are rebuilt as they should (`nodes_rebuilt`), and
the faces are where none is due (`stl_rebuilt_iff`).
-/

namespace NMR

open Lib

/-! ## What is to come back -/

/-- A sane mesh with coordinates inside the limits of STL files. -/
structure SaneStlMesh where
  mesh : StlMesh
  sane : mesh.checkSanity
  inLimits : ∀ v ∈ mesh.nodes, ∀ k, (v.fields k).fabs.lt maxCoordinateBits

/-- The position of a node. -/
def StlMesh.position (m : StlMesh) (nIndex : Int) : Nvec3 :=
  m.nodes.getD nIndex.toNat ⟨0, 0, 0⟩

/-- The corners of each face. -/
def StlMesh.triangles (m : StlMesh) : List (Nvec3 × Nvec3 × Nvec3) :=
  m.faces.map fun f =>
    (m.position (f.nodeIndices 0), m.position (f.nodeIndices 1), m.position (f.nodeIndices 2))

/-- The three corners in their order. -/
def triangleCorners (t : Nvec3 × Nvec3 × Nvec3) : List Nvec3 := [t.1, t.2.1, t.2.2]

/-- All corners, in the order of the file. -/
def StlMesh.corners (m : StlMesh) : List Nvec3 := m.triangles.flatMap triangleCorners

/-- The corners fall in pairwise different cells. -/
def InThreeCells (cell : Nvec3 → VectorTreeEntry) (t : Nvec3 × Nvec3 × Nvec3) : Prop :=
  cell t.1 ≠ cell t.2.1 ∧ cell t.1 ≠ cell t.2.2 ∧ cell t.2.1 ≠ cell t.2.2

instance (cell : Nvec3 → VectorTreeEntry) (t : Nvec3 × Nvec3 × Nvec3) :
    Decidable (InThreeCells cell t) := inferInstanceAs (Decidable (_ ∧ _ ∧ _))

/-- `node` gives the node of each corner: corners share one exactly when they fall in one cell, it
is where the first corner of the cell is, and there are no others. -/
structure NodesRebuilt (cell : Nvec3 → VectorTreeEntry) (corners nodes : List Nvec3)
    (node : Nvec3 → Nat) : Prop where
  shared : ∀ c ∈ corners, ∀ c' ∈ corners, node c = node c' ↔ cell c = cell c'
  position : ∀ c ∈ corners, nodes[node c]? = corners.find? fun d => cell d = cell c
  onto : ∀ i, i < nodes.length → ∃ c ∈ corners, node c = i

/-- One face for each triangle with corners in three cells, in their order. -/
def FacesRebuilt (cell : Nvec3 → VectorTreeEntry) (triangles : List (Nvec3 × Nvec3 × Nvec3))
    (faces : List MeshFace) (node : Nvec3 → Nat) : Prop :=
  faces = (triangles.filter fun t => InThreeCells cell t).map fun t =>
    ⟨![(node t.1 : Int), node t.2.1, node t.2.2]⟩

/-! ## The export -/

namespace SaneStlMesh

variable (calcTriangleNormal : Nvec3 → Nvec3 → Nvec3 → Nvec3) (m : SaneStlMesh)

/-- The facet of a triangle. -/
def facet (t : Nvec3 × Nvec3 × Nvec3) : StlFacet := ⟨calcTriangleNormal t.1 t.2.1 t.2.2, t, 0⟩

variable {m} in
theorem getNode_ok {i : Int} (h0 : 0 ≤ i) (hi : i < m.mesh.nodes.length) :
    m.mesh.getNode i = .ok (m.mesh.position i) ∧ m.mesh.position i ∈ m.mesh.nodes := by
  have hlt : i.toNat < m.mesh.nodes.length := by omega
  have hget : m.mesh.position i = m.mesh.nodes[i.toNat] := by
    rw [StlMesh.position, List.getD_eq_getElem?_getD, List.getElem?_eq_getElem hlt,
      Option.getD_some]
  refine ⟨?_, hget ▸ List.getElem_mem hlt⟩
  rw [StlMesh.getNode, if_neg (by omega), List.getElem?_eq_getElem hlt, hget]

variable {m} in
theorem mem_nodes {t : Nvec3 × Nvec3 × Nvec3} (ht : t ∈ m.mesh.triangles) :
    ∀ v ∈ triangleCorners t, v ∈ m.mesh.nodes := by
  obtain ⟨f, hf, rfl⟩ := List.mem_map.1 ht
  have hi := (m.sane.2.2.2 f hf).1
  intro v hv
  simp only [triangleCorners, List.mem_cons, List.not_mem_nil, or_false] at hv
  rcases hv with rfl | rfl | rfl
  · exact (getNode_ok (hi 0).1 (hi 0).2).2
  · exact (getNode_ok (hi 1).1 (hi 1).2).2
  · exact (getNode_ok (hi 2).1 (hi 2).2).2

/-- The exported file. -/
theorem exportMeshEx_ok : exportMeshEx calcTriangleNormal m.mesh none =
    .ok (stlHeader ++ (Codec.word 4).encode (BitVec.ofNat 32 m.mesh.triangles.length) ++
      stlFacetCodec.encodeAll (m.mesh.triangles.map (facet calcTriangleNormal))) := by
  have hf : ∀ f ∈ m.mesh.faces, exportFacet calcTriangleNormal m.mesh none f =
      .ok (facet calcTriangleNormal (m.mesh.position (f.nodeIndices 0),
        m.mesh.position (f.nodeIndices 1), m.mesh.position (f.nodeIndices 2))) := by
    intro f hf
    have hi := (m.sane.2.2.2 f hf).1
    simp only [exportFacet, exportVertex, (getNode_ok (hi 0).1 (hi 0).2).1,
      (getNode_ok (hi 1).1 (hi 1).2).1, (getNode_ok (hi 2).1 (hi 2).2).1]
    rfl
  rw [exportMeshEx, mapM_ok hf]
  simp only [bind, Except.bind, pure, Except.pure, StlMesh.triangles, List.map_map,
    List.length_map, Function.comp_def]

theorem length_triangles : m.mesh.triangles.length ≤ meshMaxCount := by
  rw [StlMesh.triangles, List.length_map]
  exact m.sane.2.1

end SaneStlMesh

/-! ## The import -/

section

variable (floorUnits : FloatBits → FloatBits → Int) (u : VectorUnits) (m : SaneStlMesh)

/-- After the corners `seen`, which are nodes of the exported mesh. -/
structure Loaded (seen : List Nvec3) (mesh : StlMesh) (tree : VectorTree) : Prop where
  units : tree.units = u
  faces : mesh.faces = []
  numbered : FirstSeen (fun v => floorVector floorUnits v u) seen mesh.nodes tree.entries.find?
  mem : ∀ v ∈ mesh.nodes, v ∈ m.mesh.nodes

variable {floorUnits u m} {seen : List Nvec3} {mesh : StlMesh} {tree : VectorTree}

theorem loaded_new : Loaded floorUnits u m [] .empty (.new u) :=
  ⟨rfl, rfl, FirstSeen.nil fun _ => rfl, fun v hv => by cases hv⟩

/-- A node of the exported mesh passes the checks of `addNode` while a cell is missing. -/
theorem addNode_ok {v : Nvec3} (hv : v ∈ m.mesh.nodes) (hlen : mesh.nodes.length < meshMaxCount) :
    mesh.addNode v = .ok ({ mesh with nodes := mesh.nodes ++ [v] }, mesh.nodes.length) := by
  have hc : ¬ ∃ j, maxCoordinateBits.lt (v.fields j).fabs := by
    rintro ⟨j, hlt⟩
    exact m.sane.2.2.1 v hv j hlt
  rw [StlMesh.addNode, if_neg hc, if_neg (by omega)]

/-- One corner. -/
theorem identifyNode_loaded (h : Loaded floorUnits u m seen mesh tree) {v : Nvec3}
    (hv : v ∈ m.mesh.nodes) :
    ∃ p mesh' tree', identifyNode floorUnits none mesh tree v = .ok (p, mesh', tree') ∧
      Loaded floorUnits u m (seen ++ [v]) mesh' tree' := by
  have hfind : tree.findVector3 floorUnits v = tree.entries.find? (floorVector floorUnits v u) := by
    rw [VectorTree.findVector3, h.units]
  cases hc : tree.entries.find? (floorVector floorUnits v u) with
  | some i =>
    obtain ⟨w, hw, -⟩ := (h.numbered.find_iff _ i).1 hc
    have hget : mesh.getNode i = .ok w := by
      rw [StlMesh.getNode, if_neg (by omega), Int.toNat_natCast, hw]
    have hrun : identifyNode floorUnits none mesh tree v = .ok (i, mesh, tree) := by
      simp only [identifyNode, Option.getD_none, id, hfind, hc, hget]
      rfl
    exact ⟨i, mesh, tree, hrun, h.units, h.faces, h.numbered.known hc, h.mem⟩
  | none =>
    have hlen : mesh.nodes.length < meshMaxCount :=
      lt_of_lt_of_le (h.numbered.length_lt h.mem hv hc) m.sane.1
    have hrun : identifyNode floorUnits none mesh tree v =
        .ok (mesh.nodes.length, { mesh with nodes := mesh.nodes ++ [v] },
          tree.addVector3 floorUnits v mesh.nodes.length) := by
      simp only [identifyNode, Option.getD_none, id, hfind, hc, addNode_ok hv hlen]
      rfl
    refine ⟨_, _, _, hrun, h.units, h.faces, h.numbered.fresh hc fun k => ?_, fun w hw => ?_⟩
    · show (tree.entries.insert (floorVector floorUnits v tree.units) mesh.nodes.length).find? k = _
      rw [SortedMap.find?_insert, h.units, hc]
      rfl
    · rcases List.mem_append.1 hw with hw | hw
      · exact h.mem w hw
      · exact List.mem_singleton.1 hw ▸ hv

/-- One facet. -/
theorem loadFacet_loaded (h : Loaded floorUnits u m seen mesh tree) {f : StlFacet}
    (hf : ∀ v ∈ triangleCorners f.vertices, v ∈ m.mesh.nodes) :
    ∃ mesh' tree', loadFacet floorUnits ⟨u, true⟩ none mesh tree f = .ok (mesh', tree') ∧
      Loaded floorUnits u m (seen ++ triangleCorners f.vertices) mesh' tree' := by
  have hvalid : f.inValidSpace := fun v hv => m.inLimits v (hf v hv)
  obtain ⟨p0, mesh0, tree0, hr0, h0⟩ := identifyNode_loaded h (hf f.vertices.1 (by
    simp [triangleCorners]))
  obtain ⟨p1, mesh1, tree1, hr1, h1⟩ := identifyNode_loaded h0 (hf f.vertices.2.1 (by
    simp [triangleCorners]))
  obtain ⟨p2, mesh2, tree2, hr2, h2⟩ := identifyNode_loaded h1 (hf f.vertices.2.2 (by
    simp [triangleCorners]))
  refine ⟨mesh2, tree2, ?_, ?_⟩
  · simp [loadFacet, hvalid, hr0, hr1, hr2, bind, Except.bind, pure, Except.pure]
  · have hl : seen ++ triangleCorners f.vertices =
        seen ++ [f.vertices.1] ++ [f.vertices.2.1] ++ [f.vertices.2.2] := by
      simp [triangleCorners]
    rw [hl]
    exact h2

theorem readAll_append (a b : List UInt8) : readAll a.length (a ++ b) = .ok (a, b) := by
  rw [readAll, if_neg (by simp), List.take_left' rfl, List.drop_left' rfl]

/-- The facets of a file. -/
theorem loadFacets_loaded {fs : List StlFacet}
    (hfs : ∀ f ∈ fs, ∀ v ∈ triangleCorners f.vertices, v ∈ m.mesh.nodes)
    (h : Loaded floorUnits u m seen mesh tree) :
    ∃ mesh' tree', loadFacets floorUnits ⟨u, true⟩ none fs.length (stlFacetCodec.encodeAll fs)
        mesh tree = .ok mesh' ∧
      Loaded floorUnits u m (seen ++ fs.flatMap fun f => triangleCorners f.vertices) mesh' tree' := by
  induction fs generalizing seen mesh tree with
  | nil =>
    refine ⟨mesh, tree, rfl, ?_⟩
    rw [List.flatMap_nil, List.append_nil]
    exact h
  | cons f fs ih =>
    obtain ⟨mesh1, tree1, hr1, h1⟩ := loadFacet_loaded h (hfs f List.mem_cons_self)
    obtain ⟨mesh2, tree2, hr2, h2⟩ := ih (fun g hg => hfs g (List.mem_cons_of_mem _ hg)) h1
    have hread := readAll_append (stlFacetCodec.encode f) (stlFacetCodec.encodeAll fs)
    rw [stlFacetCodec.length_encode] at hread
    refine ⟨mesh2, tree2, ?_, ?_⟩
    · simp only [List.length_cons, loadFacets, Codec.encodeAll_cons, hread, bind, Except.bind,
        stlFacetCodec.decode_encode, hr1, hr2]
    · rw [List.flatMap_cons, ← List.append_assoc]
      exact h2

theorem length_stlHeader : stlHeader.length = 80 := by
  have hmessage : "STL Export by Lib3MF".toList.length = 20 := by decide
  unfold stlHeader
  simp only [List.length_append, List.length_map, List.length_replicate, hmessage]

/-- A file with a header and a number of facets. -/
theorem loadMesh_file {n : Nat} (hn : n ≤ meshMaxCount) (body : List UInt8) :
    loadMesh floorUnits ⟨u, true⟩ none .empty
        (stlHeader ++ (Codec.word 4).encode (BitVec.ofNat 32 n) ++ body) =
      loadFacets floorUnits ⟨u, true⟩ none n body .empty (.new u) := by
  have hcount : ((Codec.word 4).decode ((Codec.word 4).encode (BitVec.ofNat 32 n))).toNat = n := by
    rw [(Codec.word 4).decode_encode, BitVec.toNat_ofNat, Nat.mod_eq_of_lt]
    exact lt_of_le_of_lt hn (by decide)
  have hhead := readAll_append stlHeader ((Codec.word 4).encode (BitVec.ofNat 32 n) ++ body)
  have hword := readAll_append ((Codec.word 4).encode (BitVec.ofNat 32 n)) body
  rw [length_stlHeader] at hhead
  rw [(Codec.word 4).length_encode] at hword
  rw [show (Codec.word 4).size = 4 from rfl] at hword
  simp only [loadMesh, List.append_assoc, hhead, hword, bind, Except.bind, hcount]
  rw [if_neg (by omega)]

variable (floorUnits u m) in
/-- The file that was exported. -/
theorem loadMesh_loaded (calcTriangleNormal : Nvec3 → Nvec3 → Nvec3 → Nvec3) :
    ∃ mesh tree, (exportMeshEx calcTriangleNormal m.mesh none >>=
        loadMesh floorUnits ⟨u, true⟩ none .empty) = .ok mesh ∧
      Loaded floorUnits u m m.mesh.corners mesh tree := by
  let fs := m.mesh.triangles.map (SaneStlMesh.facet calcTriangleNormal)
  have hfs : ∀ f ∈ fs, ∀ v ∈ triangleCorners f.vertices, v ∈ m.mesh.nodes := by
    intro f hf
    obtain ⟨t, ht, rfl⟩ := List.mem_map.1 hf
    exact SaneStlMesh.mem_nodes ht
  obtain ⟨mesh, tree, hr, h⟩ := @loadFacets_loaded floorUnits u m _ _ _ fs hfs loaded_new
  refine ⟨mesh, tree, ?_, ?_⟩
  · rw [m.exportMeshEx_ok]
    rw [List.length_map] at hr
    exact (loadMesh_file m.length_triangles _).trans hr
  · rw [List.nil_append, List.flatMap_map] at h
    exact h

end

/-! ## What came back -/

section

variable {floorUnits : FloatBits → FloatBits → Int} {u : VectorUnits} {m : SaneStlMesh}
  {seen : List Nvec3} {mesh : StlMesh} {tree : VectorTree}

/-- The tree numbers the corners. -/
theorem Loaded.nodes_rebuilt (h : Loaded floorUnits u m seen mesh tree) :
    NodesRebuilt (fun v => floorVector floorUnits v u) seen mesh.nodes
      fun v => (tree.entries.find? (floorVector floorUnits v u)).getD 0 := by
  refine ⟨fun c hc c' hc' => ?_, fun c hc => ?_, fun i hi => ?_⟩
  · obtain ⟨i, hi, -⟩ := h.numbered.find_seen hc
    obtain ⟨j, hj, -⟩ := h.numbered.find_seen hc'
    simp only [hi, hj, Option.getD_some]
    apply Iff.intro
    · rintro rfl
      obtain ⟨v, hv, hk⟩ := (h.numbered.find_iff _ i).1 hi
      obtain ⟨w, hw, hk'⟩ := (h.numbered.find_iff _ i).1 hj
      rw [hv] at hw
      rw [← hk, ← hk', Option.some.inj hw]
    · intro he
      rw [show floorVector floorUnits c u = floorVector floorUnits c' u from he, hj] at hi
      exact (Option.some.inj hi).symm
  · obtain ⟨i, hi, hget⟩ := h.numbered.find_seen hc
    simp only [hi, Option.getD_some]
    exact hget
  · have hget := List.getElem?_eq_getElem hi
    have hfirst := h.numbered.first _ (List.mem_of_getElem? hget)
    refine ⟨mesh.nodes[i], List.mem_of_find?_eq_some hfirst, ?_⟩
    simp only [(h.numbered.find_iff _ i).2 ⟨_, hget, rfl⟩, Option.getD_some]

/-- No face is as it should exactly where none is due. -/
theorem facesRebuilt_nil_iff {cell : Nvec3 → VectorTreeEntry} {node : Nvec3 → Nat}
    {triangles : List (Nvec3 × Nvec3 × Nvec3)} :
    FacesRebuilt cell triangles [] node ↔ ∀ t ∈ triangles, ¬ InThreeCells cell t := by
  rw [FacesRebuilt, eq_comm, List.map_eq_nil_iff, List.filter_eq_nil_iff]
  simp only [decide_eq_true_eq]

end

variable (floorUnits : FloatBits → FloatBits → Int)
  (calcTriangleNormal : Nvec3 → Nvec3 → Nvec3 → Nvec3)

/-- The nodes come back as they should, for every mesh, and the faces exactly where no triangle
has its corners in three cells. -/
theorem stl_rebuilt_iff (u : VectorUnits) (m : SaneStlMesh) :
    ∃ mesh, (exportMeshEx calcTriangleNormal m.mesh none >>=
        loadMesh floorUnits ⟨u, true⟩ none .empty) = .ok mesh ∧
      (∃ node, NodesRebuilt (fun v => floorVector floorUnits v u) m.mesh.corners mesh.nodes node) ∧
      ((∃ node,
          NodesRebuilt (fun v => floorVector floorUnits v u) m.mesh.corners mesh.nodes node ∧
          FacesRebuilt (fun v => floorVector floorUnits v u) m.mesh.triangles mesh.faces node) ↔
        ∀ t ∈ m.mesh.triangles, ¬ InThreeCells (fun v => floorVector floorUnits v u) t) := by
  obtain ⟨mesh, tree, hr, h⟩ := loadMesh_loaded floorUnits u m calcTriangleNormal
  refine ⟨mesh, hr, ⟨_, h.nodes_rebuilt⟩, fun ⟨node, _, hf⟩ => ?_, fun hc => ?_⟩
  · rw [h.faces] at hf
    exact facesRebuilt_nil_iff.1 hf
  · refine ⟨_, h.nodes_rebuilt, ?_⟩
    rw [h.faces]
    exact facesRebuilt_nil_iff.2 hc

/-- The triangle with corners in the origin and at 1 on two axes. -/
def oneTriangle : SaneStlMesh where
  mesh := ⟨[⟨0, 0, 0⟩, ⟨0x3f800000#32, 0, 0⟩, ⟨0, 0x3f800000#32, 0⟩], [⟨![0, 1, 2]⟩]⟩
  sane := by unfold StlMesh.checkSanity; decide
  inLimits := by decide

/-- 1 divided by the default units is 999 and a fraction in single precision. -/
def floorOfOne (x _fUnits : FloatBits) : Int := if x = 0 then 0 else 999

/-- The face of the triangle is lost. -/
theorem stl_loses_face :
    ¬ ∃ mesh, (exportMeshEx (fun _ _ _ => ⟨0, 0, 0x3f800000#32⟩) oneTriangle.mesh none >>=
        loadMesh floorOfOne .new none .empty) = .ok mesh ∧
      ∃ node, NodesRebuilt (fun v => floorVector floorOfOne v .default) oneTriangle.mesh.corners
          mesh.nodes node ∧
        FacesRebuilt (fun v => floorVector floorOfOne v .default) oneTriangle.mesh.triangles
          mesh.faces node := by
  rintro ⟨mesh, hr, node, -, hf⟩
  obtain ⟨mesh', tree, hr', h⟩ := loadMesh_loaded floorOfOne .default oneTriangle
    fun _ _ _ => ⟨0, 0, 0x3f800000#32⟩
  obtain rfl : mesh = mesh' := Except.ok.inj (hr.symm.trans hr')
  rw [h.faces] at hf
  exact facesRebuilt_nil_iff.1 hf _ List.mem_cons_self (by decide)

end NMR
