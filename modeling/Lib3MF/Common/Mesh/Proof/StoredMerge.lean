import Lib3MF.Common.Mesh.StoredMesh

/-!
# What merging copies

`mergeMesh_copies`: a merge that returns has put copies of what it read behind what was there. The
loops read a mesh that may be growing under them, so the invariant of each (`NodesMerged`,
`FacesMerged`, `BeamsMerged`) says what the target is by then, and reading at an index that was
there before is reading what was there (`meshAt_extends`).

`mergeMesh_runsAs`: a merge of another mesh is `Mesh.mergeMesh` of the meshes they stand for
(`toMesh`), whether it returns or throws.
-/

namespace NMR

open Lib

/-! ## Vectors -/

theorem IndexedVector.length_toList {α : Type} {index : α → Int} (v : IndexedVector α index) :
    v.toList.length = v.count :=
  v.vector.length_toList

/-- The element of an index stores the index. -/
theorem IndexedVector.getElem?_of_lt {α : Type} {index : α → Int} (v : IndexedVector α index)
    {k : Nat} (h : k < v.count) : ∃ a, v.toList[k]? = some a ∧ index a = k := by
  rw [← v.length_toList] at h
  exact ⟨_, List.getElem?_eq_getElem h, v.indexed _ _ (List.getElem?_eq_getElem h)⟩

theorem IndexedVector.allocData_spec {α : Type} {index : α → Int} (v : IndexedVector α index)
    (a : α) (ha : index a = v.count) :
    (v.allocData a ha).1.toList = v.toList ++ [a] ∧
      (v.allocData a ha).2 = PagedVector.pointerTo 256 v.count :=
  v.vector.allocData_spec a

namespace StoredMesh

variable {V R : Type} {exceeds : V → Bool} {apply : V → V} {uninit : FaceProperties}
  {m m' m₀ : StoredMesh V R} {s : MergeSource V R} {p : PagePointer}

/-! ## Runs -/

theorem ofExcept_ok {α : Type} {x : Except Error α} {a : α} :
    (MeshRun.ofExcept x).run = some (.ok a) ↔ x = .ok a := by
  show some x = some (.ok a) ↔ _
  rw [Option.some.injEq]

theorem deref_ok {α : Type} {index : α → Int} {v : IndexedVector α index} {a : α} :
    (v.deref p).run = some (.ok a) ↔ v.vector.deref p = some a := by
  show (v.vector.deref p).map Except.ok = some (.ok a) ↔ _
  rw [Option.map_eq_some_iff]
  simp

/-- What a pointer to element `i` points to stores `i`. -/
theorem deref_pointerTo_ok {α : Type} {index : α → Int} {v : IndexedVector α index} {i : Nat}
    {a : α} (h : (v.deref (PagedVector.pointerTo 256 i)).run = some (.ok a)) :
    v.toList[i]? = some a ∧ index a = i := by
  rw [deref_ok, PagedVector.deref_pointerTo] at h
  exact ⟨h, v.indexed i a h⟩

theorem getData_ok {α : Type} {index : α → Int} {v : IndexedVector α index} {i : Nat}
    (h : (v.getData i).run = some (.ok p)) : i < v.count ∧ p = PagedVector.pointerTo 256 i := by
  have h' := ofExcept_ok.1 h
  unfold PagedVector.getData at h'
  split_ifs at h' with hi
  exact ⟨Nat.lt_of_not_le hi, (Except.ok.inj h').symm⟩

/-- Reading the element of an index. -/
theorem read_ok {α β : Type} {index : α → Int} {v : IndexedVector α index} {i : Nat} {b : β}
    {f : PagePointer → α → MeshRun β}
    (h : (do let p ← v.getData i; let a ← v.deref p; f p a : MeshRun β).run = some (.ok b)) :
    ∃ a, v.toList[i]? = some a ∧ (f (PagedVector.pointerTo 256 i) a).run = some (.ok b) := by
  obtain ⟨p, hp, h⟩ := run_bind_eq_ok.1 h
  obtain ⟨-, rfl⟩ := getData_ok hp
  obtain ⟨a, ha, h⟩ := run_bind_eq_ok.1 h
  exact ⟨a, (deref_pointerTo_ok ha).1, h⟩

/-- What a throw guards happens where it is not thrown. -/
theorem guard_ok {α : Type} {c : Prop} [Decidable c] {e : Error} {x : MeshRun α} {a : α}
    (h : (do if c then throw e
             x : MeshRun α).run = some (.ok a)) : ¬ c ∧ x.run = some (.ok a) := by
  by_cases hc : c
  · rw [if_pos hc] at h
    obtain ⟨u, hu, -⟩ := run_bind_eq_ok.1 h
    cases hu
  · rw [if_neg hc] at h
    exact ⟨hc, h⟩

/-! ## Adding elements -/

theorem addNode_ok {v : V} (h : m.addNode exceeds v = .ok (m', p)) :
    exceeds v = false ∧ m.nodes.count < meshMaxCount ∧
      m'.nodes.toList = m.nodes.toList ++ [⟨m.nodes.count, v⟩] ∧
      p = PagedVector.pointerTo 256 m.nodes.count ∧ m'.faces = m.faces ∧ m'.beams = m.beams := by
  unfold addNode at h
  split_ifs at h with hv hcount
  obtain ⟨rfl, rfl⟩ := Prod.mk.inj (Except.ok.inj h)
  obtain ⟨hlist, hp⟩ := m.nodes.allocData_spec ⟨m.nodes.count, v⟩ rfl
  exact ⟨by simpa using hv, Nat.lt_of_not_le hcount, hlist, hp, rfl, rfl⟩

/-- A face of the nodes `k` stores `k`. -/
theorem addFace_ok {k : Fin 3 → Nat} {pNodes : Fin 3 → PagePointer}
    (hk : ∀ j, pNodes j = PagedVector.pointerTo 256 (k j))
    (h : (m.addFace pNodes).run = some (.ok (m', p))) :
    m.faces.count < meshMaxCount ∧
      m'.faces.toList = m.faces.toList ++ [⟨m.faces.count, fun j => k j⟩] ∧
      m'.nodes = m.nodes ∧ m'.beams = m.beams := by
  unfold addFace at h
  obtain ⟨-, h⟩ := guard_ok h
  obtain ⟨hcount, h⟩ := guard_ok h
  obtain ⟨n0, h0, h⟩ := run_bind_eq_ok.1 h
  obtain ⟨n1, h1, h⟩ := run_bind_eq_ok.1 h
  obtain ⟨n2, h2, h⟩ := run_bind_eq_ok.1 h
  rw [hk] at h0 h1 h2
  have hindices : (![n0.index, n1.index, n2.index] : Fin 3 → Int) = fun j => (k j : Int) := by
    funext j
    match j with
    | 0 => exact (deref_pointerTo_ok h0).2
    | 1 => exact (deref_pointerTo_ok h1).2
    | 2 => exact (deref_pointerTo_ok h2).2
  have hlist := (m.faces.allocData_spec ⟨m.faces.count, ![n0.index, n1.index, n2.index]⟩ rfl).1
  have hlist := hlist.trans (by rw [hindices])
  refine ⟨Nat.lt_of_not_le hcount, ?_⟩
  cases hh : m.meshInformationHandler with
  | none =>
    simp only [hh] at h
    cases h
    exact ⟨hlist, rfl, rfl⟩
  | some hd =>
    simp only [hh] at h
    obtain ⟨hd', -, h⟩ := run_bind_eq_ok.1 h
    cases h
    exact ⟨hlist, rfl, rfl⟩

/-- A beam between the nodes `k` stores `k`. -/
theorem addBeam_ok {k : Fin 2 → Nat} {pNodes : Fin 2 → PagePointer} {radius : Fin 2 → R}
    {capMode : Fin 2 → Int} (hk : ∀ j, pNodes j = PagedVector.pointerTo 256 (k j))
    (h : (m.addBeam pNodes radius capMode).run = some (.ok (m', p))) :
    m.beams.count < meshMaxCount ∧
      m'.beams.toList = m.beams.toList ++ [⟨m.beams.count, fun j => k j, radius, capMode⟩] ∧
      m'.nodes = m.nodes ∧ m'.faces = m.faces := by
  unfold addBeam at h
  obtain ⟨-, h⟩ := guard_ok h
  obtain ⟨hcount, h⟩ := guard_ok h
  obtain ⟨n0, h0, h⟩ := run_bind_eq_ok.1 h
  obtain ⟨n1, h1, h⟩ := run_bind_eq_ok.1 h
  rw [hk] at h0 h1
  have hindices : (![n0.index, n1.index] : Fin 2 → Int) = fun j => (k j : Int) := by
    funext j
    match j with
    | 0 => exact (deref_pointerTo_ok h0).2
    | 1 => exact (deref_pointerTo_ok h1).2
  have hlist := (m.beams.allocData_spec
    ⟨m.beams.count, ![n0.index, n1.index], radius, capMode⟩ rfl).1
  have hlist := hlist.trans (by rw [hindices])
  cases h
  exact ⟨Nat.lt_of_not_le hcount, hlist, rfl, rfl⟩

/-! ## What is copied -/

/-- The copies of nodes, from index `offset` on. -/
def copyNodes (apply : V → V) (offset : Nat) (nodes : List (StoredNode V)) : List (StoredNode V) :=
  (nodes.zipIdx offset).map fun n => ⟨n.2, apply n.1.position⟩

/-- The copies of faces, from index `offset` on, their nodes being those from `nodeOffset` on. -/
def copyFaces (nodeOffset offset : Nat) (faces : List StoredFace) : List StoredFace :=
  (faces.zipIdx offset).map fun f => ⟨f.2, fun j => f.1.nodeIndices j + nodeOffset⟩

/-- The copies of beams. -/
def copyBeams (nodeOffset offset : Nat) (beams : List (StoredBeam R)) : List (StoredBeam R) :=
  (beams.zipIdx offset).map fun b =>
    ⟨b.2, fun j => b.1.nodeIndices j + nodeOffset, b.1.radius, b.1.capMode⟩

/-- One more copy. -/
theorem copy_take_succ {α : Type} (f : α × Nat → α) (offset : Nat) {l : List α} {i : Nat} {a : α}
    (ha : l[i]? = some a) :
    ((l.take (i + 1)).zipIdx offset).map f =
      ((l.take i).zipIdx offset).map f ++ [f (a, offset + i)] := by
  have hi : i < l.length := (List.getElem?_eq_some_iff.1 ha).1
  rw [List.take_add_one, ha, List.zipIdx_append, List.map_append, List.length_take,
    Nat.min_eq_left (Nat.le_of_lt hi)]
  rfl

/-- Nothing that was there is gone. -/
structure Extends (m₀ m : StoredMesh V R) : Prop where
  nodes : m₀.nodes.toList <+: m.nodes.toList
  faces : m₀.faces.toList <+: m.faces.toList
  beams : m₀.beams.toList <+: m.beams.toList

/-- What is merged grows with the target at most. -/
theorem meshAt_extends (h : Extends m₀ m) : Extends (s.meshAt m₀) (s.meshAt m) := by
  cases s with
  | self => exact h
  | other mesh => exact ⟨List.prefix_refl _, List.prefix_refl _, List.prefix_refl _⟩

theorem getElem?_of_extends {α : Type} {l l' : List α} (h : l <+: l') {i : Nat} {a : α}
    (hi : i < l.length) (ha : l'[i]? = some a) : l[i]? = some a := by
  obtain ⟨t, rfl⟩ := h
  rwa [List.getElem?_append_left hi] at ha

/-! ## The loops -/

/-- The target after `i` nodes, and the pointers to them. -/
structure NodesMerged (apply : V → V) (exceeds : V → Bool) (m₀ : StoredMesh V R)
    (src : List (StoredNode V)) (i : Nat) (st : StoredMesh V R × List PagePointer) : Prop where
  nodes : st.1.nodes.toList = m₀.nodes.toList ++ copyNodes apply m₀.nodes.count (src.take i)
  faces : st.1.faces = m₀.faces
  beams : st.1.beams = m₀.beams
  newNodes : st.2 = (List.range i).map fun k => PagedVector.pointerTo 256 (m₀.nodes.count + k)
  valid : ∀ n ∈ src.take i, exceeds (apply n.position) = false
  count : m₀.nodes.count ≤ meshMaxCount → st.1.nodes.count ≤ meshMaxCount

theorem NodesMerged.extends {src : List (StoredNode V)} {i : Nat}
    {st : StoredMesh V R × List PagePointer} (h : NodesMerged apply exceeds m₀ src i st) :
    Extends m₀ st.1 :=
  ⟨⟨_, h.nodes.symm⟩, by rw [h.faces], by rw [h.beams]⟩

theorem NodesMerged.nodeCount {src : List (StoredNode V)} {i : Nat}
    {st : StoredMesh V R × List PagePointer} (h : NodesMerged apply exceeds m₀ src i st)
    (hi : i ≤ src.length) : st.1.nodes.count = m₀.nodes.count + i := by
  have hlen := congrArg List.length h.nodes
  rw [IndexedVector.length_toList, List.length_append, IndexedVector.length_toList, copyNodes,
    List.length_map, List.length_zipIdx, List.length_take, Nat.min_eq_left hi] at hlen
  exact hlen

/-- A node is copied. -/
theorem mergeNode_merged {i : Nat} {st st' : StoredMesh V R × List PagePointer}
    (hi : i < (s.meshAt m₀).nodes.toList.length)
    (h : NodesMerged apply exceeds m₀ (s.meshAt m₀).nodes.toList i st)
    (hr : (mergeNode exceeds apply s st i).run = some (.ok st')) :
    NodesMerged apply exceeds m₀ (s.meshAt m₀).nodes.toList (i + 1) st' := by
  obtain ⟨n, hn, hr⟩ := read_ok hr
  have hn₀ := getElem?_of_extends (meshAt_extends h.extends).nodes hi hn
  obtain ⟨⟨m₁, p⟩, hadd, hr⟩ := run_bind_eq_ok.1 hr
  obtain ⟨hvalid, hcount, hnodes, hp, hfaces, hbeams⟩ := addNode_ok (ofExcept_ok.1 hadd)
  cases hr
  have hlen := h.nodeCount (Nat.le_of_lt hi)
  refine ⟨?_, hfaces.trans h.faces, hbeams.trans h.beams, ?_, ?_, fun _ => ?_⟩
  · rw [hnodes, h.nodes, copyNodes, copyNodes, copy_take_succ _ _ hn₀, List.append_assoc, hlen]
  · rw [List.range_succ, List.map_append, h.newNodes, hp, hlen]
    rfl
  · intro n' hn'
    rw [List.take_add_one, hn₀] at hn'
    obtain hn' | hn' := List.mem_append.1 hn'
    · exact h.valid n' hn'
    · obtain rfl : n' = n := by simpa using hn'
      exact hvalid
  · have hlen' := congrArg List.length hnodes
    rw [IndexedVector.length_toList, List.length_append, IndexedVector.length_toList,
      List.length_singleton] at hlen'
    show m₁.nodes.count ≤ meshMaxCount
    omega

/-- The new node of a node index is the copy of its node. -/
theorem newNode_ok {offset n : Nat} {newNodes : List PagePointer} {index : Int}
    (hnew : newNodes = (List.range n).map fun k => PagedVector.pointerTo 256 (offset + k))
    (h : (newNode n newNodes index).run = some (.ok p)) :
    0 ≤ index ∧ index < n ∧ p = PagedVector.pointerTo 256 (offset + index.toNat) := by
  obtain ⟨hrange, h⟩ := guard_ok h
  obtain ⟨q, hq, hp⟩ := Option.map_eq_some_iff.1 h
  obtain rfl := Except.ok.inj hp
  have hlt : index.toNat < n := by omega
  rw [hnew, List.getElem?_map, List.getElem?_range hlt] at hq
  exact ⟨by omega, by omega, (Option.some.inj hq).symm⟩

/-- The target after `i` faces; `m₁` is the one after the nodes. -/
structure FacesMerged (m₀ m₁ : StoredMesh V R) (src : List StoredFace) (i : Nat)
    (m : StoredMesh V R) : Prop where
  nodes : m.nodes = m₁.nodes
  faces : m.faces.toList =
    m₀.faces.toList ++ copyFaces m₀.nodes.count m₀.faces.count (src.take i)
  beams : m.beams = m₀.beams
  count : m₀.faces.count ≤ meshMaxCount → m.faces.count ≤ meshMaxCount

/-- The target after `i` beams; `m₂` is the one after the faces. -/
structure BeamsMerged (m₀ m₂ : StoredMesh V R) (src : List (StoredBeam R)) (i : Nat)
    (m : StoredMesh V R) : Prop where
  nodes : m.nodes = m₂.nodes
  faces : m.faces = m₂.faces
  beams : m.beams.toList =
    m₀.beams.toList ++ copyBeams m₀.nodes.count m₀.beams.count (src.take i)
  count : m₀.beams.count ≤ meshMaxCount → m.beams.count ≤ meshMaxCount

/-- The count of a list that got copies. -/
theorem count_copied {α : Type} {index : α → Int} {v v₀ : IndexedVector α index} {f : α × Nat → α}
    {l : List α} {i : Nat} (h : v.toList = v₀.toList ++ ((l.take i).zipIdx v₀.count).map f)
    (hi : i ≤ l.length) : v.count = v₀.count + i := by
  have hlen := congrArg List.length h
  rwa [IndexedVector.length_toList, List.length_append, IndexedVector.length_toList,
    List.length_map, List.length_zipIdx, List.length_take, Nat.min_eq_left hi] at hlen

theorem count_append {α : Type} {index : α → Int} {v v' : IndexedVector α index} {a : α}
    (h : v'.toList = v.toList ++ [a]) : v'.count = v.count + 1 := by
  have hlen := congrArg List.length h
  rwa [IndexedVector.length_toList, List.length_append, IndexedVector.length_toList,
    List.length_singleton] at hlen

variable {m₁ m₂ : StoredMesh V R} {n i : Nat} {newNodes : List PagePointer}

/-- A face is copied. -/
theorem mergeFace_merged
    (hnew : newNodes = (List.range n).map fun k => PagedVector.pointerTo 256 (m₀.nodes.count + k))
    (hext : m₀.nodes.toList <+: m₁.nodes.toList) (hi : i < (s.meshAt m₀).faces.toList.length)
    (h : FacesMerged m₀ m₁ (s.meshAt m₀).faces.toList i m)
    (hr : (mergeFace s n newNodes m i).run = some (.ok m')) :
    FacesMerged m₀ m₁ (s.meshAt m₀).faces.toList (i + 1) m' := by
  have hextends : Extends m₀ m := ⟨by rwa [h.nodes], ⟨_, h.faces.symm⟩, by rw [h.beams]⟩
  obtain ⟨face, hface, hr⟩ := read_ok hr
  have hface₀ := getElem?_of_extends (meshAt_extends hextends).faces hi hface
  obtain ⟨p0, h0, hr⟩ := run_bind_eq_ok.1 hr
  obtain ⟨p1, h1, hr⟩ := run_bind_eq_ok.1 hr
  obtain ⟨p2, h2, hr⟩ := run_bind_eq_ok.1 hr
  obtain ⟨hle0, -, rfl⟩ := newNode_ok hnew h0
  obtain ⟨hle1, -, rfl⟩ := newNode_ok hnew h1
  obtain ⟨hle2, -, rfl⟩ := newNode_ok hnew h2
  obtain ⟨⟨m₃, q⟩, hadd, hr⟩ := run_bind_eq_ok.1 hr
  have hpointers : ∀ j : Fin 3,
      (![PagedVector.pointerTo 256 (m₀.nodes.count + (face.nodeIndices 0).toNat),
        PagedVector.pointerTo 256 (m₀.nodes.count + (face.nodeIndices 1).toNat),
        PagedVector.pointerTo 256 (m₀.nodes.count + (face.nodeIndices 2).toNat)] :
          Fin 3 → PagePointer) j =
        PagedVector.pointerTo 256 (m₀.nodes.count + (face.nodeIndices j).toNat) := by
    intro j
    match j with
    | 0 => rfl
    | 1 => rfl
    | 2 => rfl
  obtain ⟨hcount, hfaces, hnodes, hbeams⟩ := addFace_ok hpointers hadd
  have hindices : (fun j => ((m₀.nodes.count + (face.nodeIndices j).toNat : Nat) : Int)) =
      fun j => face.nodeIndices j + m₀.nodes.count := by
    funext j
    match j with
    | 0 => omega
    | 1 => omega
    | 2 => omega
  have hmerged : FacesMerged m₀ m₁ (s.meshAt m₀).faces.toList (i + 1) m₃ := by
    refine ⟨hnodes.trans h.nodes, ?_, hbeams.trans h.beams, fun _ => ?_⟩
    · have hlen : m.faces.count = m₀.faces.count + i := count_copied h.faces (Nat.le_of_lt hi)
      rw [hfaces, h.faces, copyFaces, copyFaces, copy_take_succ _ _ hface₀, List.append_assoc,
        hlen, hindices]
    · have hlen := count_append hfaces
      omega
  dsimp only at hr
  split at hr
  · obtain ⟨newFace, -, hr⟩ := run_bind_eq_ok.1 hr
    obtain ⟨face', -, hr⟩ := run_bind_eq_ok.1 hr
    obtain ⟨h', -, hr⟩ := run_bind_eq_ok.1 hr
    cases hr
    exact ⟨hmerged.nodes, hmerged.faces, hmerged.beams, hmerged.count⟩
  · cases hr
    exact hmerged

/-- A beam is copied. -/
theorem mergeBeam_merged
    (hnew : newNodes = (List.range n).map fun k => PagedVector.pointerTo 256 (m₀.nodes.count + k))
    (hext : Extends m₀ m₂) (hi : i < (s.meshAt m₀).beams.toList.length)
    (h : BeamsMerged m₀ m₂ (s.meshAt m₀).beams.toList i m)
    (hr : (mergeBeam s n newNodes m i).run = some (.ok m')) :
    BeamsMerged m₀ m₂ (s.meshAt m₀).beams.toList (i + 1) m' := by
  have hextends : Extends m₀ m :=
    ⟨by rw [h.nodes]; exact hext.nodes, by rw [h.faces]; exact hext.faces, ⟨_, h.beams.symm⟩⟩
  obtain ⟨beam, hbeam, hr⟩ := read_ok hr
  have hbeam₀ := getElem?_of_extends (meshAt_extends hextends).beams hi hbeam
  obtain ⟨p0, h0, hr⟩ := run_bind_eq_ok.1 hr
  obtain ⟨p1, h1, hr⟩ := run_bind_eq_ok.1 hr
  obtain ⟨hle0, -, rfl⟩ := newNode_ok hnew h0
  obtain ⟨hle1, -, rfl⟩ := newNode_ok hnew h1
  obtain ⟨⟨m₃, q⟩, hadd, hr⟩ := run_bind_eq_ok.1 hr
  have hm : m₃ = m' := by
    cases hr
    rfl
  subst hm
  have hpointers : ∀ j : Fin 2,
      (![PagedVector.pointerTo 256 (m₀.nodes.count + (beam.nodeIndices 0).toNat),
        PagedVector.pointerTo 256 (m₀.nodes.count + (beam.nodeIndices 1).toNat)] :
          Fin 2 → PagePointer) j =
        PagedVector.pointerTo 256 (m₀.nodes.count + (beam.nodeIndices j).toNat) := by
    intro j
    match j with
    | 0 => rfl
    | 1 => rfl
  obtain ⟨hcount, hbeams, hnodes, hfaces⟩ := addBeam_ok hpointers hadd
  have hindices : (fun j => ((m₀.nodes.count + (beam.nodeIndices j).toNat : Nat) : Int)) =
      fun j => beam.nodeIndices j + m₀.nodes.count := by
    funext j
    match j with
    | 0 => omega
    | 1 => omega
  refine ⟨hnodes.trans h.nodes, hfaces.trans h.faces, ?_, fun _ => ?_⟩
  · have hlen : m.beams.count = m₀.beams.count + i := count_copied h.beams (Nat.le_of_lt hi)
    rw [hbeams, h.beams, copyBeams, copyBeams, copy_take_succ _ _ hbeam₀, List.append_assoc, hlen,
      hindices]
  · have hlen := count_append hbeams
    omega

/-! ## The merge -/

/-- What `checkSanity` says. -/
structure Sane (exceeds : V → Bool) (m : StoredMesh V R) : Prop where
  nodeCount : m.nodes.count ≤ meshMaxCount
  faceCount : m.faces.count ≤ meshMaxCount
  beamCount : m.beams.count ≤ meshMaxCount
  nodes : ∀ n ∈ m.nodes.toList, exceeds n.position = false
  faces : ∀ f ∈ m.faces.toList, validIndices m.nodes.count f.nodeIndices = true
  beams : ∀ b ∈ m.beams.toList, validIndices m.nodes.count b.nodeIndices = true

theorem checkSanity_iff : checkSanity exceeds m = true ↔ Sane exceeds m := by
  have hindexed : (∀ n ∈ m.nodes.toList.zipIdx, n.1.index = n.2 ∧ exceeds n.1.position = false) ↔
      ∀ n ∈ m.nodes.toList, exceeds n.position = false := by
    refine ⟨fun h n hn => ?_, fun h n hn => ?_⟩
    · obtain ⟨i, hi⟩ := List.getElem?_of_mem hn
      exact (h (n, i) (List.mem_zipIdx_iff_getElem?.2 hi)).2
    · have hi := List.mem_zipIdx_iff_getElem?.1 hn
      exact ⟨m.nodes.indexed _ _ hi, h _ (List.mem_of_getElem? hi)⟩
  unfold checkSanity
  simp only [Bool.and_eq_true, decide_eq_true_eq, List.all_eq_true, Bool.not_eq_true', hindexed]
  refine ⟨?_, ?_⟩
  · rintro ⟨⟨⟨⟨⟨h1, h2⟩, h3⟩, h4⟩, h5⟩, h6⟩
    exact ⟨h1, h2, h3, h4, h5, h6⟩
  · rintro ⟨h1, h2, h3, h4, h5, h6⟩
    exact ⟨⟨⟨⟨⟨h1, h2⟩, h3⟩, h4⟩, h5⟩, h6⟩

theorem countInt32_of_le {count : Nat} (h : count ≤ meshMaxCount) : countInt32 count = count := by
  unfold countInt32
  unfold meshMaxCount at h
  simp only [Int.bmod_def]
  omega

/-- The tables and defaults of the information handlers are no elements. -/
theorem mergeInfoTable_lists (m : StoredMesh V R) (s : MergeSource V R) :
    (m.mergeInfoTable s).nodes = m.nodes ∧ (m.mergeInfoTable s).faces = m.faces ∧
      (m.mergeInfoTable s).beams = m.beams := by
  unfold mergeInfoTable
  cases (s.meshAt m).meshInformationHandler <;> exact ⟨rfl, rfl, rfl⟩

theorem mergeDefaults_lists (m : StoredMesh V R) (s : MergeSource V R) :
    (m.mergeDefaults uninit s).nodes = m.nodes ∧ (m.mergeDefaults uninit s).faces = m.faces ∧
      (m.mergeDefaults uninit s).beams = m.beams := by
  unfold mergeDefaults
  split <;> exact ⟨rfl, rfl, rfl⟩

/-- What is merged has the lists that the target has, or keeps its own. -/
theorem meshAt_congr (s : MergeSource V R) (hn : m'.nodes = m.nodes) (hf : m'.faces = m.faces)
    (hb : m'.beams = m.beams) :
    (s.meshAt m').nodes = (s.meshAt m).nodes ∧ (s.meshAt m').faces = (s.meshAt m).faces ∧
      (s.meshAt m').beams = (s.meshAt m).beams := by
  cases s with
  | self => exact ⟨hn, hf, hb⟩
  | other mesh => exact ⟨rfl, rfl, rfl⟩

/-- What is in the target after a merge of `src`. -/
structure Merged (exceeds : V → Bool) (apply : V → V) (m src m' : StoredMesh V R) : Prop where
  nodes : m'.nodes.toList = m.nodes.toList ++ copyNodes apply m.nodes.count src.nodes.toList
  faces : m'.faces.toList =
    m.faces.toList ++ copyFaces m.nodes.count m.faces.count src.faces.toList
  beams : m'.beams.toList =
    m.beams.toList ++ copyBeams m.nodes.count m.beams.count src.beams.toList
  valid : ∀ n ∈ src.nodes.toList, exceeds (apply n.position) = false
  nodeCount : m.nodes.count ≤ meshMaxCount → m'.nodes.count ≤ meshMaxCount
  faceCount : m.faces.count ≤ meshMaxCount → m'.faces.count ≤ meshMaxCount
  beamCount : m.beams.count ≤ meshMaxCount → m'.beams.count ≤ meshMaxCount

/-- Without nodes, a sane mesh has no faces or beams. -/
theorem Sane.eq_nil (h : Sane exceeds m) (hn : m.nodes.count = 0) :
    m.faces.toList = [] ∧ m.beams.toList = [] := by
  refine ⟨List.eq_nil_iff_forall_not_mem.2 fun f hf => ?_,
    List.eq_nil_iff_forall_not_mem.2 fun b hb => ?_⟩
  · have hvalid := of_decide_eq_true (h.faces f hf)
    have := hvalid.1 0
    omega
  · have hvalid := of_decide_eq_true (h.beams b hb)
    have := hvalid.1 0
    omega

/-- Only the lists matter. -/
theorem Merged.congr {src src₀ : StoredMesh V R} (h : Merged exceeds apply m₀ src₀ m')
    (hm : m₀.nodes = m.nodes ∧ m₀.faces = m.faces ∧ m₀.beams = m.beams)
    (hs : src₀.nodes = src.nodes ∧ src₀.faces = src.faces ∧ src₀.beams = src.beams) :
    Merged exceeds apply m src m' := by
  obtain ⟨hn, hf, hb⟩ := hm
  obtain ⟨hsn, hsf, hsb⟩ := hs
  exact ⟨by rw [h.nodes, hn, hsn], by rw [h.faces, hn, hf, hsf], by rw [h.beams, hn, hb, hsb],
    fun n hn => h.valid n (by rwa [hsn]), fun hc => h.nodeCount (by rwa [hn]),
    fun hc => h.faceCount (by rwa [hf]), fun hc => h.beamCount (by rwa [hb])⟩

/-- The three loops. -/
theorem loops_merged {st : StoredMesh V R × List PagePointer}
    (hst : ((List.range (s.meshAt m₀).nodes.count).foldlM (mergeNode exceeds apply s)
      (m₀, [])).run = some (.ok st))
    (hm₁ : m₁.nodes = st.1.nodes ∧ m₁.faces = st.1.faces ∧ m₁.beams = st.1.beams)
    (hm₂ : ((List.range (s.meshAt m₀).faces.count).foldlM
      (mergeFace s (s.meshAt m₀).nodes.count st.2) m₁).run = some (.ok m₂))
    (hm' : ((List.range (s.meshAt m₀).beams.count).foldlM
      (mergeBeam s (s.meshAt m₀).nodes.count st.2) m₂).run = some (.ok m')) :
    Merged exceeds apply m₀ (s.meshAt m₀) m' := by
  have hnodes : NodesMerged apply exceeds m₀ (s.meshAt m₀).nodes.toList
      (s.meshAt m₀).nodes.count st := by
    refine foldlM_range_run_ok (NodesMerged apply exceeds m₀ (s.meshAt m₀).nodes.toList)
      (fun i st st' hi h hr => mergeNode_merged (by rwa [IndexedVector.length_toList]) h hr) ?_ hst
    exact ⟨by simp [copyNodes], rfl, rfl, rfl, by simp, id⟩
  have hfaces : FacesMerged m₀ m₁ (s.meshAt m₀).faces.toList (s.meshAt m₀).faces.count m₂ := by
    refine foldlM_range_run_ok (FacesMerged m₀ m₁ (s.meshAt m₀).faces.toList)
      (fun i m m' hi h hr => mergeFace_merged hnodes.newNodes ?_
        (by rwa [IndexedVector.length_toList]) h hr) ?_ hm₂
    · rw [hm₁.1]
      exact hnodes.extends.nodes
    · have hf := hm₁.2.1.trans hnodes.faces
      exact ⟨rfl, by rw [hf]; simp [copyFaces], hm₁.2.2.trans hnodes.beams, by rw [hf]; exact id⟩
  have hext : Extends m₀ m₂ := by
    refine ⟨?_, ⟨_, hfaces.faces.symm⟩, by rw [hfaces.beams]⟩
    rw [hfaces.nodes, hm₁.1]
    exact hnodes.extends.nodes
  have hbeams : BeamsMerged m₀ m₂ (s.meshAt m₀).beams.toList (s.meshAt m₀).beams.count m' := by
    refine foldlM_range_run_ok (BeamsMerged m₀ m₂ (s.meshAt m₀).beams.toList)
      (fun i m m' hi h hr => mergeBeam_merged hnodes.newNodes hext
        (by rwa [IndexedVector.length_toList]) h hr) ?_ hm'
    exact ⟨rfl, rfl, by rw [hfaces.beams]; simp [copyBeams], by rw [hfaces.beams]; exact id⟩
  have htake : ∀ {α : Type} {index : α → Int} (v : IndexedVector α index),
      v.toList.take v.count = v.toList := fun v => by
    rw [← v.length_toList, List.take_length]
  have hn' : m'.nodes = st.1.nodes := (hbeams.nodes.trans hfaces.nodes).trans hm₁.1
  refine ⟨?_, ?_, ?_, ?_, ?_, ?_, hbeams.count⟩
  · rw [hn', hnodes.nodes, htake]
  · rw [hbeams.faces, hfaces.faces, htake]
  · rw [hbeams.beams, htake]
  · intro n hn
    exact hnodes.valid n (by rwa [htake])
  · rw [hn']
    exact hnodes.count
  · rw [hbeams.faces]
    exact hfaces.count

/-- The merge, table and defaults included. -/
theorem mergeMesh_merged (hsane : Sane exceeds (s.meshAt m))
    (h : (mergeMesh exceeds apply uninit m s).run = some (.ok m')) :
    Merged exceeds apply m (s.meshAt m) m' := by
  have hlists := mergeInfoTable_lists m s
  have hsource := meshAt_congr s hlists.1 hlists.2.1 hlists.2.2
  refine Merged.congr ?_ hlists hsource
  unfold mergeMesh at h
  simp only [countInt32_of_le (hsource.1 ▸ hsane.nodeCount),
    countInt32_of_le (hsource.2.1 ▸ hsane.faceCount),
    countInt32_of_le (hsource.2.2 ▸ hsane.beamCount), Int.toNat_natCast] at h
  by_cases hzero : (((s.meshAt (m.mergeInfoTable s)).nodes.count : Nat) : Int) ≤ 0
  · rw [if_pos hzero] at h
    cases h
    have hnone : (s.meshAt (m.mergeInfoTable s)).nodes.count = 0 := by omega
    have hnodes : (s.meshAt (m.mergeInfoTable s)).nodes.toList = [] := by
      apply List.eq_nil_of_length_eq_zero
      rwa [IndexedVector.length_toList]
    obtain ⟨hf, hb⟩ := hsane.eq_nil (hsource.1 ▸ hnone)
    rw [← hsource.2.1] at hf
    rw [← hsource.2.2] at hb
    exact ⟨by simp [hnodes, copyNodes], by simp [hf, copyFaces], by simp [hb, copyBeams],
      by simp [hnodes], id, id, id⟩
  · rw [if_neg hzero] at h
    obtain ⟨st, hst, h⟩ := run_bind_eq_ok.1 h
    obtain ⟨m₂, hm₂, h⟩ := run_bind_eq_ok.1 h
    refine loops_merged hst ?_ hm₂ h
    by_cases hfaces : 0 < (((s.meshAt (m.mergeInfoTable s)).faces.count : Nat) : Int)
    · rw [if_pos hfaces]
      exact mergeDefaults_lists st.1 s
    · rw [if_neg hfaces]
      exact ⟨rfl, rfl, rfl⟩

/-- Indices that were valid stay so when there are more nodes. -/
theorem validIndices_mono {n k k' : Nat} {f : Fin n → Int} (h : validIndices k f = true)
    (hk : k ≤ k') : validIndices k' f = true := by
  obtain ⟨hrange, hne⟩ := of_decide_eq_true h
  refine decide_eq_true ⟨fun j => ?_, hne⟩
  have := hrange j
  omega

/-- Valid indices into what is copied are valid where the copies are. -/
theorem validIndices_shift {n k offset : Nat} {f : Fin n → Int} (h : validIndices k f = true) :
    validIndices (offset + k) (fun j => f j + offset) = true := by
  obtain ⟨hrange, hne⟩ := of_decide_eq_true h
  refine decide_eq_true ⟨fun j => ?_, fun i j hij heq => hne i j hij ?_⟩
  · have := hrange j
    show 0 ≤ f j + offset ∧ f j + offset < _
    omega
  · have : f i + offset = f j + offset := heq
    omega

/-- A sane mesh with copies from a sane one is sane. -/
theorem Merged.sane {src : StoredMesh V R} (h : Merged exceeds apply m src m')
    (hsrc : Sane exceeds src) (hm : Sane exceeds m) : Sane exceeds m' := by
  have hcount : m'.nodes.count = m.nodes.count + src.nodes.count := by
    have hlen := congrArg List.length h.nodes
    rwa [IndexedVector.length_toList, List.length_append, IndexedVector.length_toList, copyNodes,
      List.length_map, List.length_zipIdx, IndexedVector.length_toList] at hlen
  refine ⟨h.nodeCount hm.nodeCount, h.faceCount hm.faceCount, h.beamCount hm.beamCount,
    fun n hn => ?_, fun f hf => ?_, fun b hb => ?_⟩
  · rw [h.nodes] at hn
    obtain hn | hn := List.mem_append.1 hn
    · exact hm.nodes n hn
    · obtain ⟨⟨n₀, i⟩, hmem, rfl⟩ := List.mem_map.1 hn
      exact h.valid n₀ (List.mem_of_getElem? (List.mem_zipIdx_iff_le_and_getElem?_sub.1 hmem).2)
  · rw [h.faces] at hf
    rw [hcount]
    obtain hf | hf := List.mem_append.1 hf
    · exact validIndices_mono (hm.faces f hf) (Nat.le_add_right _ _)
    · obtain ⟨⟨f₀, i⟩, hmem, rfl⟩ := List.mem_map.1 hf
      exact validIndices_shift (hsrc.faces f₀
        (List.mem_of_getElem? (List.mem_zipIdx_iff_le_and_getElem?_sub.1 hmem).2))
  · rw [h.beams] at hb
    rw [hcount]
    obtain hb | hb := List.mem_append.1 hb
    · exact validIndices_mono (hm.beams b hb) (Nat.le_add_right _ _)
    · obtain ⟨⟨b₀, i⟩, hmem, rfl⟩ := List.mem_map.1 hb
      exact validIndices_shift (hsrc.beams b₀
        (List.mem_of_getElem? (List.mem_zipIdx_iff_le_and_getElem?_sub.1 hmem).2))

/-- **What a merge that returns copies.** -/
theorem mergeMesh_copies (hsane : checkSanity exceeds (s.meshAt m) = true)
    (h : (mergeMesh exceeds apply uninit m s).run = some (.ok m')) :
    m'.nodes.toList =
        m.nodes.toList ++ copyNodes apply m.nodes.count (s.meshAt m).nodes.toList ∧
      m'.faces.toList =
        m.faces.toList ++ copyFaces m.nodes.count m.faces.count (s.meshAt m).faces.toList ∧
      m'.beams.toList =
        m.beams.toList ++ copyBeams m.nodes.count m.beams.count (s.meshAt m).beams.toList ∧
      ((∀ (i : Nat) n, m'.nodes.toList[i]? = some n → n.index = i) ∧
        (∀ (i : Nat) f, m'.faces.toList[i]? = some f → f.index = i) ∧
        ∀ (i : Nat) b, m'.beams.toList[i]? = some b → b.index = i) ∧
      (checkSanity exceeds m = true → checkSanity exceeds m' = true) := by
  have hsrc := checkSanity_iff.1 hsane
  have hmerged := mergeMesh_merged hsrc h
  exact ⟨hmerged.nodes, hmerged.faces, hmerged.beams,
    ⟨m'.nodes.indexed, m'.faces.indexed, m'.beams.indexed⟩,
    fun hm => checkSanity_iff.2 (hmerged.sane hsrc (checkSanity_iff.1 hm))⟩

/-- What `addNode` refuses. -/
def farAway (v : Vec3) : Bool :=
  meshMaxCoordinate < |v.x| ∨ meshMaxCoordinate < |v.y| ∨ meshMaxCoordinate < |v.z|

/-! ## The mesh it stands for -/

/-- The mesh without pages, indices and pointers. -/
def toMesh (m : StoredMesh Vec3 ℚ) : Mesh where
  nodes := m.nodes.toList.map (·.position)
  faces := m.faces.toList.map fun f => ⟨f.nodeIndices⟩
  beams := m.beams.toList.map fun b => ⟨b.nodeIndices, b.radius, b.capMode⟩
  meshInformationHandler := m.meshInformationHandler

section ToMesh

variable {m m₀ m₁ m' : StoredMesh Vec3 ℚ} {s : MergeSource Vec3 ℚ} {matrix : Matrix3}

theorem length_toMesh_nodes (m : StoredMesh Vec3 ℚ) : m.toMesh.nodes.length = m.nodes.count := by
  rw [toMesh, List.length_map, IndexedVector.length_toList]

theorem length_toMesh_faces (m : StoredMesh Vec3 ℚ) : m.toMesh.faces.length = m.faces.count := by
  rw [toMesh, List.length_map, IndexedVector.length_toList]

theorem length_toMesh_beams (m : StoredMesh Vec3 ℚ) : m.toMesh.beams.length = m.beams.count := by
  rw [toMesh, List.length_map, IndexedVector.length_toList]

/-- The records are those of the information handler. -/
theorem toMesh_properties {o : Option MeshInformationHandler}
    (h : m.meshInformationHandler = o) : m.toMesh.properties = o.bind (·.properties) := by
  rw [← h]
  rfl

/-- An element that is there is read. -/
theorem runsAs_read {α β γ : Type} {rel : β → γ → Prop} {index : α → Int}
    {v : IndexedVector α index} {i : Nat} {a : α} {f : PagePointer → α → MeshRun β} {y : Except Error γ}
    (ha : v.toList[i]? = some a) (h : RunsAs rel (f (PagedVector.pointerTo 256 i) a) y) :
    RunsAs rel (do let p ← v.getData i; let a ← v.deref p; f p a) y := by
  have hlt := (List.getElem?_eq_some_iff.1 ha).1
  rw [IndexedVector.length_toList] at hlt
  refine .bind_ok (ofExcept_ok.2 (if_neg (Nat.not_le.2 hlt))) (.bind_ok (deref_ok.2 ?_) h)
  rw [PagedVector.deref_pointerTo]
  exact ha

theorem deref_run {α : Type} {index : α → Int} {v : IndexedVector α index} {i : Nat} {a : α}
    (ha : v.toList[i]? = some a) :
    (v.deref (PagedVector.pointerTo 256 i)).run = some (.ok a) :=
  deref_ok.2 (by rw [PagedVector.deref_pointerTo]; exact ha)

/-- A node is added to both. -/
theorem addNode_runsAs (m : StoredMesh Vec3 ℚ) (v : Vec3) :
    RunsAs (fun r n => m.addNode farAway v = .ok r ∧ n = r.1.toMesh)
      (MeshRun.ofExcept (m.addNode farAway v)) (m.toMesh.addNode v) := by
  unfold addNode Mesh.addNode
  simp only [farAway, decide_eq_true_eq, length_toMesh_nodes]
  split_ifs with hv hc
  · exact .inl ⟨_, rfl, rfl⟩
  · exact .inl ⟨_, rfl, rfl⟩
  · refine .inr ⟨_, _, rfl, rfl, rfl, ?_⟩
    have hlist := (m.nodes.allocData_spec ⟨m.nodes.count, v⟩ rfl).1
    simp only [toMesh, hlist, List.map_append, List.map_singleton]

theorem pointerTo_eq_iff {i j : Nat} :
    PagedVector.pointerTo 256 i = PagedVector.pointerTo 256 j ↔ (i : Int) = j := by
  rw [Int.natCast_inj]
  exact ⟨PagedVector.pointerTo_inj, fun h => by rw [h]⟩

/-- A face of nodes that are there is added to both. -/
theorem addFace_runsAs {k : Fin 3 → Nat} (hk : ∀ j, k j < m.nodes.count) :
    RunsAs (fun r n => r.1.nodes = m.nodes ∧ r.1.faces.count = m.faces.count + 1 ∧
        r.2 = PagedVector.pointerTo 256 m.faces.count ∧ n = r.1.toMesh)
      (m.addFace ![PagedVector.pointerTo 256 (k 0), PagedVector.pointerTo 256 (k 1),
        PagedVector.pointerTo 256 (k 2)]) (m.toMesh.addFace fun j => (k j : Int)) := by
  obtain ⟨n0, h0, hi0⟩ := m.nodes.getElem?_of_lt (hk 0)
  obtain ⟨n1, h1, hi1⟩ := m.nodes.getElem?_of_lt (hk 1)
  obtain ⟨n2, h2, hi2⟩ := m.nodes.getElem?_of_lt (hk 2)
  have hindices : (![n0.index, n1.index, n2.index] : Fin 3 → Int) = fun j => (k j : Int) := by
    rw [hi0, hi1, hi2]
    funext j
    match j with
    | 0 => rfl
    | 1 => rfl
    | 2 => rfl
  obtain ⟨hlist, hp⟩ :=
    m.faces.allocData_spec ⟨m.faces.count, ![n0.index, n1.index, n2.index]⟩ rfl
  have hcount := count_append hlist
  unfold addFace Mesh.addFace
  refine .guard (or_congr pointerTo_eq_iff (or_congr pointerTo_eq_iff pointerTo_eq_iff)) _
    fun _ => .guard (by rw [length_toMesh_faces]) _ fun _ => ?_
  refine .bind_ok (deref_run h0) (.bind_ok (deref_run h1) (.bind_ok (deref_run h2) ?_))
  have hfaces : (m.faces.allocData
      ⟨m.faces.count, ![n0.index, n1.index, n2.index]⟩ rfl).1.toList.map
        (fun f => MeshFace.mk f.nodeIndices) = m.toMesh.faces ++ [⟨fun j => (k j : Int)⟩] := by
    rw [hlist, List.map_append, List.map_singleton, hindices]
    rfl
  generalize m.faces.allocData ⟨m.faces.count, ![n0.index, n1.index, n2.index]⟩ rfl = r at *
  have hlen : (m.toMesh.faces ++ [(⟨fun j => (k j : Int)⟩ : MeshFace)]).length = r.1.count := by
    rw [List.length_append, length_toMesh_faces, hcount]
    rfl
  cases hh : m.meshInformationHandler with
  | none =>
    rw [toMesh]
    dsimp only
    rw [hh]
    refine .ok ⟨rfl, hcount, hp, ?_⟩
    simp only [toMesh, hfaces]
  | some h =>
    show RunsAs _ (MeshRun.ofExcept (Mesh.MeshInformationHandler.addFace h r.1.count) >>= _) _
    have hmatch : m.toMesh.meshInformationHandler = some h := hh
    rw [hmatch]
    dsimp only
    rw [hlen]
    cases Mesh.MeshInformationHandler.addFace h r.1.count with
    | error e => exact .error _ e
    | ok h =>
      refine .ok ⟨rfl, hcount, hp, ?_⟩
      simp only [toMesh, hfaces]

/-- A beam between nodes that are there is added to both. -/
theorem addBeam_runsAs {k : Fin 2 → Nat} (hk : ∀ j, k j < m.nodes.count) (b : StoredBeam ℚ) :
    RunsAs (fun r n => r.1.nodes = m.nodes ∧ n = r.1.toMesh)
      (m.addBeam ![PagedVector.pointerTo 256 (k 0), PagedVector.pointerTo 256 (k 1)] b.radius
        b.capMode) (m.toMesh.addBeam ⟨fun j => (k j : Int), b.radius, b.capMode⟩) := by
  obtain ⟨n0, h0, hi0⟩ := m.nodes.getElem?_of_lt (hk 0)
  obtain ⟨n1, h1, hi1⟩ := m.nodes.getElem?_of_lt (hk 1)
  have hindices : (![n0.index, n1.index] : Fin 2 → Int) = fun j => (k j : Int) := by
    rw [hi0, hi1]
    funext j
    match j with
    | 0 => rfl
    | 1 => rfl
  have hlist := (m.beams.allocData_spec
    ⟨m.beams.count, ![n0.index, n1.index], b.radius, b.capMode⟩ rfl).1
  unfold addBeam Mesh.addBeam
  refine .guard pointerTo_eq_iff _ fun _ => .guard (by rw [length_toMesh_beams]) _ fun _ => ?_
  refine .bind_ok (deref_run h0) (.bind_ok (deref_run h1) ?_)
  have hbeams : (m.beams.allocData
      ⟨m.beams.count, ![n0.index, n1.index], b.radius, b.capMode⟩ rfl).1.toList.map
        (fun b => MeshBeam.mk b.nodeIndices b.radius b.capMode) =
      m.toMesh.beams ++ [⟨fun j => (k j : Int), b.radius, b.capMode⟩] := by
    rw [hlist, List.map_append, List.map_singleton, hindices]
    rfl
  generalize m.beams.allocData
    ⟨m.beams.count, ![n0.index, n1.index], b.radius, b.capMode⟩ rfl = r at *
  refine .ok ⟨rfl, ?_⟩
  simp only [toMesh, hbeams]

/-! ## The merge of another mesh -/

section MergeMesh

variable {src : StoredMesh Vec3 ℚ}

theorem mergeInfoTable_toMesh (m src : StoredMesh Vec3 ℚ) : (m.mergeInfoTable (.other src)).toMesh =
    src.meshInformationHandler.elim m.toMesh m.toMesh.addInfoTableFrom := by
  unfold mergeInfoTable Mesh.addInfoTableFrom
  cases hh : src.meshInformationHandler with
  | none => simp only [MergeSource.meshAt, hh, Option.elim]
  | some h =>
    simp only [MergeSource.meshAt, hh, Option.elim]
    simp only [toMesh, MeshInformationHandler.addInfoTableFrom, List.length_map,
      IndexedVector.length_toList]

theorem mergeDefaults_toMesh (uninit : FaceProperties) (m src : StoredMesh Vec3 ℚ) :
    (m.mergeDefaults uninit (.other src)).toMesh =
      m.toMesh.cloneDefaultInfosFrom uninit src.toMesh := by
  unfold mergeDefaults Mesh.cloneDefaultInfosFrom
  rw [toMesh_properties rfl]
  cases hs : src.meshInformationHandler with
  | none =>
    cases m.meshInformationHandler <;> (simp only [MergeSource.meshAt, hs]; rfl)
  | some other =>
    simp only [MergeSource.meshAt, hs, Option.bind_some]
    unfold MeshInformationHandler.cloneDefaultInfosFrom Mesh.mapProperties
    cases hm : m.meshInformationHandler with
    | none =>
      cases other.properties with
      | none => rfl
      | some q => simp [toMesh, hm]
    | some h =>
      cases hq : other.properties with
      | none => simp [toMesh, hm, hq]
      | some q => simp [toMesh, hm, hq]

/-- A node is merged into both. -/
theorem mergeNode_runsAs {src : StoredMesh Vec3 ℚ} {node : StoredNode Vec3} {i : Nat}
    {st : StoredMesh Vec3 ℚ × List PagePointer} {n : Mesh}
    (hn : src.nodes.toList[i]? = some node)
    (h : st.1.nodes.count = m₀.nodes.count + i ∧ st.2 = (List.range i).map (fun k =>
      PagedVector.pointerTo 256 (m₀.nodes.count + k)) ∧ n = st.1.toMesh) :
    RunsAs (fun st n => st.1.nodes.count = m₀.nodes.count + (i + 1) ∧
        st.2 = (List.range (i + 1)).map (fun k =>
          PagedVector.pointerTo 256 (m₀.nodes.count + k)) ∧ n = st.1.toMesh)
      (mergeNode farAway matrix.apply (.other src) st i)
      (n.addNode (matrix.apply node.position)) := by
  obtain ⟨hcount, hnew, rfl⟩ := h
  refine runsAs_read hn ?_
  have hadd := addNode_runsAs st.1 (matrix.apply node.position)
  rw [← bind_pure (st.1.toMesh.addNode _)]
  refine hadd.bind fun r n hr => .ok ?_
  obtain ⟨m', p⟩ := r
  obtain ⟨hr, rfl⟩ := hr
  obtain ⟨-, -, hnodes, hp, -, -⟩ := addNode_ok hr
  refine ⟨?_, ?_, rfl⟩
  · rw [count_append hnodes, hcount, Nat.add_assoc]
  · rw [List.range_succ, List.map_append, ← hnew, hp, hcount]
    rfl

/-- The new node of an index in range. -/
theorem newNode_run {offset n : Nat} {newNodes : List PagePointer} {index : Int}
    (hnew : newNodes = (List.range n).map fun k => PagedVector.pointerTo 256 (offset + k))
    (h : 0 ≤ index ∧ index < n) :
    (newNode n newNodes index).run =
      some (.ok (PagedVector.pointerTo 256 (offset + index.toNat))) := by
  have hlt : index.toNat < n := by omega
  have hget : newNodes[index.toNat]? = some (PagedVector.pointerTo 256 (offset + index.toNat)) := by
    rw [hnew, List.getElem?_map, List.getElem?_range hlt]
    rfl
  unfold newNode
  rw [if_neg (by omega), hget]
  rfl

/-- Where the nodes of a face or beam are merged to, as indices of nodes. -/
theorem newIndices_eq {n k offset : Nat} {index : Fin n → Int}
    (h : ∀ j, 0 ≤ index j ∧ index j < k) : (fun j => (offset : Int) + index j) =
      fun j => ((offset + (index j).toNat : Nat) : Int) := by
  funext j
  have := h j
  omega

/-- The indices that the sanity check takes are not refused. -/
theorem not_exists_index_lt {n : Nat} {index : Fin n → Int}
    (h : ∀ j, 0 ≤ index j ∧ index j < src.nodes.count) :
    ¬∃ j, index j < 0 ∨ (src.toMesh.nodes.length : Int) ≤ index j := by
  rintro ⟨j, hj⟩
  have := h j
  rw [length_toMesh_nodes] at hj
  omega

/-- The record of face `i` is copied to face `k` of both. -/
theorem cloneFaceInfosFrom_runsAs {h other : MeshInformationHandler} {k i : Nat}
    (hm : m.meshInformationHandler = some h) (hs : src.meshInformationHandler = some other) :
    RunsAs (fun h' n => n = { m with meshInformationHandler := some h' }.toMesh)
      (MeshRun.ofExcept (h.cloneFaceInfosFrom k other i))
      (m.toMesh.cloneFaceInfosFrom k src.toMesh i) := by
  unfold MeshInformationHandler.cloneFaceInfosFrom Mesh.cloneFaceInfosFrom
  rw [toMesh_properties hm, toMesh_properties hs, Option.bind_some, Option.bind_some]
  have hsame : m.toMesh = { m with meshInformationHandler := some h }.toMesh := by
    rw [← hm]
  cases hp : h.properties with
  | none => exact .ok hsame
  | some p =>
    cases other.properties with
    | none => exact .ok hsame
    | some q =>
      dsimp only
      split_ifs with hk
      · exact .error _ _
      · cases q.faceData[i]? with
        | none => exact .error _ _
        | some r =>
          refine .ok ?_
          simp only [Mesh.mapProperties, toMesh, hm, Option.map_some, hp]

/-- A face is merged into both. -/
theorem mergeFace_runsAs {face : StoredFace} {i : Nat} {newNodes : List PagePointer}
    (hi : src.faces.toList[i]? = some face)
    (hvalid : validIndices src.nodes.count face.nodeIndices = true)
    (hnew : newNodes = (List.range src.nodes.count).map fun k =>
      PagedVector.pointerTo 256 (m₀.nodes.count + k))
    (hcount : m.nodes.count = m₀.nodes.count + src.nodes.count) :
    RunsAs (fun m' n => m'.nodes = m.nodes ∧ n = m'.toMesh)
      (mergeFace (.other src) src.nodes.count newNodes m i)
      (Mesh.mergeFace src.toMesh m₀.nodes.count m.toMesh (⟨face.nodeIndices⟩, i)) := by
  have hrange := (of_decide_eq_true hvalid).1
  unfold mergeFace Mesh.mergeFace
  refine runsAs_read hi ?_
  refine .bind_ok (newNode_run hnew (hrange 0)) (.bind_ok (newNode_run hnew (hrange 1))
    (.bind_ok (newNode_run hnew (hrange 2)) ?_))
  rw [if_neg (not_exists_index_lt hrange)]
  dsimp only
  rw [newIndices_eq hrange]
  refine (addFace_runsAs (k := fun j => m₀.nodes.count + (face.nodeIndices j).toNat)
    fun j => ?_).bind fun r n hr => ?_
  · have := hrange j
    omega
  obtain ⟨m₃, q⟩ := r
  obtain ⟨hnodes, hfaces, rfl, rfl⟩ := hr
  dsimp only at hnodes hfaces ⊢
  -- the record is copied where both have a handler
  have hlast : m₃.toMesh.faces.length - 1 = m.faces.count := by
    rw [length_toMesh_faces, hfaces, Nat.add_sub_cancel]
  rw [hlast]
  obtain ⟨newFace, hnewFace, hindex⟩ :=
    m₃.faces.getElem?_of_lt (k := m.faces.count) (by rw [hfaces]; exact Nat.lt_succ_self _)
  have hface := src.faces.indexed _ _ hi
  cases h3 : m₃.meshInformationHandler with
  | none =>
    refine .inr ⟨m₃, m₃.toMesh, rfl, ?_, hnodes, rfl⟩
    unfold Mesh.cloneFaceInfosFrom
    rw [toMesh_properties h3]
    rfl
  | some h =>
    cases hs : src.meshInformationHandler with
    | none =>
      refine .inr ⟨m₃, m₃.toMesh, ?_, ?_, hnodes, rfl⟩
      · simp only [MergeSource.meshAt, hs]
        rfl
      · unfold Mesh.cloneFaceInfosFrom
        rw [toMesh_properties hs]
        cases m₃.toMesh.properties <;> rfl
    | some other =>
      simp only [MergeSource.meshAt, hs]
      refine .bind_ok (deref_run hnewFace) (.bind_ok (deref_run hi) ?_)
      rw [hindex, hface, Int.toNat_natCast, Int.toNat_natCast,
        ← bind_pure (m₃.toMesh.cloneFaceInfosFrom _ _ _)]
      refine (cloneFaceInfosFrom_runsAs h3 hs).bind fun h' n hn => .ok ⟨hnodes, hn⟩

/-- A beam is merged into both. -/
theorem mergeBeam_runsAs {beam : StoredBeam ℚ} {i : Nat} {newNodes : List PagePointer}
    (hi : src.beams.toList[i]? = some beam)
    (hvalid : validIndices src.nodes.count beam.nodeIndices = true)
    (hnew : newNodes = (List.range src.nodes.count).map fun k =>
      PagedVector.pointerTo 256 (m₀.nodes.count + k))
    (hcount : m.nodes.count = m₀.nodes.count + src.nodes.count) :
    RunsAs (fun m' n => m'.nodes = m.nodes ∧ n = m'.toMesh)
      (mergeBeam (.other src) src.nodes.count newNodes m i)
      (Mesh.mergeBeam src.toMesh m₀.nodes.count m.toMesh
        ⟨beam.nodeIndices, beam.radius, beam.capMode⟩) := by
  have hrange := (of_decide_eq_true hvalid).1
  unfold mergeBeam Mesh.mergeBeam
  refine runsAs_read hi ?_
  refine .bind_ok (newNode_run hnew (hrange 0)) (.bind_ok (newNode_run hnew (hrange 1)) ?_)
  rw [if_neg (not_exists_index_lt hrange)]
  dsimp only
  rw [newIndices_eq hrange, ← bind_pure (m.toMesh.addBeam _)]
  refine (addBeam_runsAs (k := fun j => m₀.nodes.count + (beam.nodeIndices j).toNat)
    (fun j => ?_) beam).bind fun r n hr => .ok hr
  have := hrange j
  omega

variable (m₀ src matrix) in
/-- The loop over the nodes. -/
theorem mergeNodes_runsAs : RunsAs
    (fun st n => st.1.nodes.count = m₀.nodes.count + src.nodes.count ∧
      st.2 = (List.range src.nodes.count).map (fun k =>
        PagedVector.pointerTo 256 (m₀.nodes.count + k)) ∧ n = st.1.toMesh)
    ((List.range src.nodes.count).foldlM (mergeNode farAway matrix.apply (.other src)) (m₀, []))
    (src.toMesh.nodes.foldlM (fun m v => m.addNode (matrix.apply v)) m₀.toMesh) := by
  have hloop := RunsAs.foldlM (l := src.nodes.toList)
    (R := fun i (st : StoredMesh Vec3 ℚ × List PagePointer) n =>
      st.1.nodes.count = m₀.nodes.count + i ∧ st.2 = (List.range i).map (fun k =>
        PagedVector.pointerTo 256 (m₀.nodes.count + k)) ∧ n = st.1.toMesh)
    (f := mergeNode farAway matrix.apply (.other src))
    (g := fun n node => n.addNode (matrix.apply node.position))
    (fun i node st n hi h => mergeNode_runsAs hi h) (a := (m₀, [])) (b := m₀.toMesh)
    ⟨rfl, rfl, rfl⟩
  have hlist : src.toMesh.nodes = src.nodes.toList.map (·.position) := rfl
  rw [IndexedVector.length_toList] at hloop
  rw [hlist, List.foldlM_map]
  exact hloop

/-- The loop over the faces. -/
theorem mergeFaces_runsAs {newNodes : List PagePointer} (hsrc : Sane farAway src)
    (hnew : newNodes = (List.range src.nodes.count).map fun k =>
      PagedVector.pointerTo 256 (m₀.nodes.count + k))
    (hcount : m.nodes.count = m₀.nodes.count + src.nodes.count) :
    RunsAs (fun m' n => m'.nodes = m.nodes ∧ n = m'.toMesh)
      ((List.range src.faces.count).foldlM (mergeFace (.other src) src.nodes.count newNodes) m)
      (src.toMesh.faces.zipIdx.foldlM (Mesh.mergeFace src.toMesh m₀.nodes.count) m.toMesh) := by
  have hloop := RunsAs.foldlM (l := src.faces.toList.zipIdx)
    (R := fun _ (m' : StoredMesh Vec3 ℚ) n => m'.nodes = m.nodes ∧ n = m'.toMesh)
    (f := mergeFace (.other src) src.nodes.count newNodes)
    (g := fun n f => Mesh.mergeFace src.toMesh m₀.nodes.count n (⟨f.1.nodeIndices⟩, f.2))
    (fun i f m' n hi h => by
      obtain ⟨hm, rfl⟩ := h
      rw [List.getElem?_zipIdx, Nat.zero_add] at hi
      obtain ⟨face, hface, rfl⟩ := Option.map_eq_some_iff.1 hi
      rw [← hm]
      exact mergeFace_runsAs hface (hsrc.faces face (List.mem_of_getElem? hface)) hnew
        (by rw [hm, hcount])) (a := m) (b := m.toMesh) ⟨rfl, rfl⟩
  have hlist : src.toMesh.faces.zipIdx =
      src.faces.toList.zipIdx.map fun f => (⟨f.1.nodeIndices⟩, f.2) := by
    show (src.faces.toList.map fun f => (⟨f.nodeIndices⟩ : MeshFace)).zipIdx = _
    rw [List.zipIdx_map]
    rfl
  rw [List.length_zipIdx, IndexedVector.length_toList] at hloop
  rw [hlist, List.foldlM_map]
  exact hloop

/-- The loop over the beams. -/
theorem mergeBeams_runsAs {newNodes : List PagePointer} (hsrc : Sane farAway src)
    (hnew : newNodes = (List.range src.nodes.count).map fun k =>
      PagedVector.pointerTo 256 (m₀.nodes.count + k))
    (hcount : m.nodes.count = m₀.nodes.count + src.nodes.count) :
    RunsAs (fun m' n => m'.nodes = m.nodes ∧ n = m'.toMesh)
      ((List.range src.beams.count).foldlM (mergeBeam (.other src) src.nodes.count newNodes) m)
      (src.toMesh.beams.foldlM (Mesh.mergeBeam src.toMesh m₀.nodes.count) m.toMesh) := by
  have hloop := RunsAs.foldlM (l := src.beams.toList)
    (R := fun _ (m' : StoredMesh Vec3 ℚ) n => m'.nodes = m.nodes ∧ n = m'.toMesh)
    (f := mergeBeam (.other src) src.nodes.count newNodes)
    (g := fun n b =>
      Mesh.mergeBeam src.toMesh m₀.nodes.count n ⟨b.nodeIndices, b.radius, b.capMode⟩)
    (fun i b m' n hi h => by
      obtain ⟨hm, rfl⟩ := h
      rw [← hm]
      exact mergeBeam_runsAs hi (hsrc.beams b (List.mem_of_getElem? hi)) hnew
        (by rw [hm, hcount])) (a := m) (b := m.toMesh) ⟨rfl, rfl⟩
  have hlist : src.toMesh.beams = src.beams.toList.map fun b =>
      (⟨b.nodeIndices, b.radius, b.capMode⟩ : MeshBeam) := rfl
  rw [IndexedVector.length_toList] at hloop
  rw [hlist, List.foldlM_map]
  exact hloop

/-- The loops. -/
theorem mergeLoops_runsAs (uninit : FaceProperties) (m₀ : StoredMesh Vec3 ℚ) (matrix : Matrix3)
    (hsrc : Sane farAway src) :
    RunsAs (fun m' n => n = m'.toMesh)
      (do let st ← (List.range src.nodes.count).foldlM
            (mergeNode farAway matrix.apply (.other src)) (m₀, [])
          let m ← (List.range src.faces.count).foldlM
            (mergeFace (.other src) src.nodes.count st.2)
            (if 0 < src.faces.count then st.1.mergeDefaults uninit (.other src) else st.1)
          (List.range src.beams.count).foldlM (mergeBeam (.other src) src.nodes.count st.2) m)
      (do let m ← src.toMesh.nodes.foldlM (fun m v => m.addNode (matrix.apply v)) m₀.toMesh
          let m ← src.toMesh.faces.zipIdx.foldlM (Mesh.mergeFace src.toMesh m₀.nodes.count)
            (if src.faces.count = 0 then m else m.cloneDefaultInfosFrom uninit src.toMesh)
          src.toMesh.beams.foldlM (Mesh.mergeBeam src.toMesh m₀.nodes.count) m) := by
  refine (mergeNodes_runsAs m₀ matrix src).bind fun st n hst => ?_
  obtain ⟨m₁, newNodes⟩ := st
  obtain ⟨hcount, hnew, rfl⟩ := hst
  dsimp only at hcount hnew ⊢
  -- the defaults, where there is a face
  have hdefaults : ∃ m₂ : StoredMesh Vec3 ℚ, m₂.nodes = m₁.nodes ∧
      (if 0 < src.faces.count then m₁.mergeDefaults uninit (.other src) else m₁) = m₂ ∧
      (if src.faces.count = 0 then m₁.toMesh else
        m₁.toMesh.cloneDefaultInfosFrom uninit src.toMesh) = m₂.toMesh := by
    by_cases hzero : src.faces.count = 0
    · refine ⟨m₁, rfl, if_neg (by omega), if_pos hzero⟩
    · refine ⟨m₁.mergeDefaults uninit (.other src), (mergeDefaults_lists m₁ _).1,
        if_pos (by omega), ?_⟩
      rw [if_neg hzero, mergeDefaults_toMesh]
  obtain ⟨m₂, hm₂, hstored, hmesh⟩ := hdefaults
  rw [hstored, hmesh]
  rw [← hm₂] at hcount
  refine (mergeFaces_runsAs hsrc hnew hcount).bind fun m₃ n hm₃ => ?_
  obtain ⟨hm₃, rfl⟩ := hm₃
  rw [← hm₃] at hcount
  rw [← bind_pure (src.toMesh.beams.foldlM _ _), ← bind_pure ((List.range src.beams.count).foldlM _ _)]
  exact (mergeBeams_runsAs hsrc hnew hcount).bind fun m n h => .ok h.2

/-- **Merging another mesh** is `Mesh.mergeMesh` of the meshes they stand for: it ends in the same
way, and follows no pointer that points to nothing. -/
theorem mergeMesh_runsAs (uninit : FaceProperties) (m : StoredMesh Vec3 ℚ) (matrix : Matrix3)
    (hsane : checkSanity farAway src = true) :
    RunsAs (fun m' n => n = m'.toMesh) (mergeMesh farAway matrix.apply uninit m (.other src))
      (m.toMesh.mergeMesh uninit src.toMesh matrix) := by
  have hsrc := checkSanity_iff.1 hsane
  have hnodes := length_toMesh_nodes src
  have hoffset : m.toMesh.nodes.length = (m.mergeInfoTable (.other src)).nodes.count := by
    rw [length_toMesh_nodes, (mergeInfoTable_lists m _).1]
  have htable := mergeInfoTable_toMesh m src
  -- what follows the information tables
  have hrest : RunsAs (fun m' n => n = toMesh m')
      (if src.nodes.count = 0 then pure (m.mergeInfoTable (.other src)) else do
        let st ← (List.range src.nodes.count).foldlM
          (mergeNode farAway matrix.apply (.other src)) (m.mergeInfoTable (.other src), [])
        let m ← (List.range src.faces.count).foldlM (mergeFace (.other src) src.nodes.count st.2)
          (if 0 < src.faces.count then st.1.mergeDefaults uninit (.other src) else st.1)
        (List.range src.beams.count).foldlM (mergeBeam (.other src) src.nodes.count st.2) m)
      (do
        let n ← src.toMesh.nodes.foldlM (fun m v => m.addNode (matrix.apply v))
          (m.mergeInfoTable (.other src)).toMesh
        if src.nodes.count = 0 then pure n else do
          let n ← src.toMesh.faces.zipIdx.foldlM (Mesh.mergeFace src.toMesh m.toMesh.nodes.length)
            (if src.faces.count = 0 then n else n.cloneDefaultInfosFrom uninit src.toMesh)
          src.toMesh.beams.foldlM (Mesh.mergeBeam src.toMesh m.toMesh.nodes.length) n) := by
    by_cases h0 : src.nodes.count = 0
    · have hnil : src.toMesh.nodes = [] := List.length_eq_zero_iff.1 (by rw [hnodes, h0])
      rw [if_pos h0, hnil, List.foldlM_nil]
      simp only [if_pos h0]
      exact .ok rfl
    · simp only [if_neg h0, hoffset]
      exact mergeLoops_runsAs uninit _ matrix hsrc
  unfold mergeMesh Mesh.mergeMesh
  simp only [MergeSource.meshAt, countInt32_of_le hsrc.nodeCount, countInt32_of_le hsrc.faceCount,
    countInt32_of_le hsrc.beamCount, Int.toNat_natCast, Int.natCast_nonpos_iff, Int.natCast_pos,
    hnodes, length_toMesh_faces]
  cases hh : src.meshInformationHandler with
  | none =>
    rw [hh] at htable
    have hnone : src.toMesh.meshInformationHandler = none := hh
    rw [htable] at hrest
    rw [hnone]
    exact hrest
  | some h =>
    rw [hh] at htable
    have hsome : src.toMesh.meshInformationHandler = some h := hh
    rw [htable] at hrest
    rw [hsome]
    exact hrest

end MergeMesh

end ToMesh

/-! ## A mesh merged into itself -/

/-- A quarter of a turn about the z axis, and one to the right. -/
def quarterTurn : Matrix3 := ⟨![![0, -1, 0, 1], ![1, 0, 0, 0], ![0, 0, 1, 0], ![0, 0, 0, 1]]⟩

/-- A triangle with a beam along one of its sides, as `addNode`, `addFace` and `addBeam` build
it. -/
def triangle : MeshRun (StoredMesh Vec3 ℚ) := do
  let (m, p0) ← MeshRun.ofExcept (addNode farAway ⟨.empty, .empty, .empty, none⟩ ⟨0, 0, 0⟩)
  let (m, p1) ← MeshRun.ofExcept (m.addNode farAway ⟨1, 0, 0⟩)
  let (m, p2) ← MeshRun.ofExcept (m.addNode farAway ⟨0, 5 / 2, 0⟩)
  let (m, _) ← m.addFace ![p0, p1, p2]
  let (m, _) ← m.addBeam ![p1, p2] ![1, 1 / 2] ![0, 1]
  return m

theorem exists_of_isOk {α : Type} {x : MeshRun α} (h : x.run.any Except.isOk = true) :
    ∃ a, x.run = some (.ok a) := by
  rcases hx : x.run with - | (e | a)
  · rw [hx] at h
    cases h
  · rw [hx] at h
    cases h
  · exact ⟨a, rfl⟩

theorem triangle_merges : ∃ m m', triangle.run = some (.ok m) ∧ checkSanity farAway m = true ∧
    (mergeMesh farAway quarterTurn.apply .invalid m .self).run = some (.ok m') := by
  obtain ⟨m', h⟩ := @exists_of_isOk _ (do
    let m ← triangle
    if checkSanity farAway m = false then throw .invalidParam
    mergeMesh farAway quarterTurn.apply .invalid m .self) (by decide +kernel)
  obtain ⟨m, hm, h⟩ := run_bind_eq_ok.1 h
  obtain ⟨hsane, h⟩ := guard_ok h
  exact ⟨m, m', hm, by simpa using hsane, h⟩

/-- It is copied, turned, when it is merged into itself. -/
theorem triangle_doubled :
    ∃ m m', triangle.run = some (.ok m) ∧
      (mergeMesh farAway quarterTurn.apply .invalid m .self).run = some (.ok m') ∧
      m'.nodes.toList =
        m.nodes.toList ++ copyNodes quarterTurn.apply m.nodes.count m.nodes.toList ∧
      m'.faces.toList =
        m.faces.toList ++ copyFaces m.nodes.count m.faces.count m.faces.toList ∧
      m'.beams.toList =
        m.beams.toList ++ copyBeams m.nodes.count m.beams.count m.beams.toList := by
  obtain ⟨m, m', hm, hsane, hmerge⟩ := triangle_merges
  obtain ⟨hnodes, hfaces, hbeams, -⟩ := mergeMesh_copies (s := .self) hsane hmerge
  exact ⟨m, m', hm, hmerge, hnodes, hfaces, hbeams⟩

end StoredMesh

end NMR
