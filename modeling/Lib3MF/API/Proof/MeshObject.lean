import Lib3MF.Lib.Run
import Lib3MF.API.MeshObject

/-!
# The sanity of an edited mesh

`IsSane`: the mesh passes `checkSanity` and no coordinate is a NaN, which `checkSanity` lets pass.
`SetGeometry`, `AddBeam`, `SetBeam` and `SetBeams` check the indices they write, `AddTriangle` only
that they differ (`sane_allocFace_iff`), `SetVertex` and `SetTriangle` nothing
(`sane_setNode_iff`, `sane_setFace_iff`). `sane_iff` says when a run keeps the mesh sane, whatever
its calls throw. On exact coordinates the calls do what those of `Mesh` do (`StandsFor`).
-/

namespace NMR

open Lib

/-- A coordinate in the allowed range. -/
def CoordinateInRange (x : Double) : Prop :=
  (Double.ofRat (-meshMaxCoordinate)).le x ∧ x.le (.ofRat meshMaxCoordinate)

/-- **What the check of a coordinate passes** is in the range, or a NaN. -/
theorem coordinateInRange_iff (x : Double) : CoordinateInRange x ↔ x.IsNumber ∧ ¬ Exceeds x := by
  have h0 : (Double.ofRat meshMaxCoordinate).IsNumber := rfl
  have h1 : (Double.ofRat (-meshMaxCoordinate)).IsNumber := rfl
  constructor
  · intro ⟨ha, hb⟩
    refine ⟨?_, ?_⟩
    · cases x with
      | none => exact hb.elim
      | some a => rfl
    · rintro (h | h)
      · exact Double.not_lt_of_le hb h
      · exact Double.not_lt_of_le ha h
  · intro ⟨hn, h⟩
    unfold Exceeds at h
    rw [not_or] at h
    exact ⟨Double.le_of_not_lt hn h1 h.2, Double.le_of_not_lt h0 hn h.1⟩

/-! ## Indices -/

theorem nfInt32_inj {a b : UInt32} : nfInt32 a = nfInt32 b ↔ a = b := by
  constructor
  · intro h
    have ha := a.toNat_lt
    have hb := b.toNat_lt
    unfold nfInt32 at h
    apply UInt32.toNat_inj.1
    split_ifs at h <;> omega
  · intro h
    rw [h]

namespace EditedMesh

variable {m m' : EditedMesh} {t : Triangle} {p : Position} {i : Nat}

/-- What `checkSanity` asks of the indices of a face. -/
def FaceSane (m : EditedMesh) (nodeIndices : Fin 3 → Int) : Prop :=
  (∀ j, m.Refers (nodeIndices j)) ∧ ¬ (nodeIndices 0 = nodeIndices 1 ∨
    nodeIndices 0 = nodeIndices 2 ∨ nodeIndices 1 = nodeIndices 2)

/-- What it asks of the indices of a beam. -/
def BeamSane (m : EditedMesh) (nodeIndices : Fin 2 → Int) : Prop :=
  (∀ j, m.Refers (nodeIndices j)) ∧ ¬ nodeIndices 0 = nodeIndices 1

/-- The corners exist and differ. -/
def Corners (m : EditedMesh) (t : Triangle) : Prop :=
  (∀ j, (t j).toNat < m.nodes.length) ∧ ¬ (t 0 = t 1 ∨ t 0 = t 2 ∨ t 1 = t 2)

/-- The mesh passes `checkSanity`, and its coordinates are numbers. -/
def IsSane (m : EditedMesh) : Prop :=
  m.checkSanity = true ∧ ∀ n ∈ m.nodes, ∀ j, (n.position j).IsNumber

/-- What a sane mesh has. -/
structure Sane (m : EditedMesh) : Prop where
  nodeCount : m.nodes.length ≤ meshMaxCount
  faceCount : m.faces.length ≤ meshMaxCount
  beamCount : m.beams.length ≤ meshMaxCount
  indices : ∀ (i : Nat) (n : EditedNode), m.nodes[i]? = some n → n.index = i
  coordinates : ∀ n ∈ m.nodes, ∀ j, CoordinateInRange (n.position j)
  faces : ∀ f ∈ m.faces, m.FaceSane f.nodeIndices
  beams : ∀ b ∈ m.beams, m.BeamSane b.nodeIndices

theorem isSane_iff : IsSane m ↔ Sane m := by
  unfold IsSane checkSanity
  simp only [Bool.and_eq_true, decide_eq_true_eq, List.all_eq_true]
  constructor
  · rintro ⟨⟨⟨⟨⟨⟨hn, hf⟩, hb⟩, hnodes⟩, hfaces⟩, hbeams⟩, hnumbers⟩
    have hnode (i : Nat) (n : EditedNode) (h : m.nodes[i]? = some n) :=
      hnodes (n, i) (List.mem_zipIdx_iff_getElem?.2 h)
    refine ⟨hn, hf, hb, fun i n h => (hnode i n h).1, fun n h j => ?_, hfaces, hbeams⟩
    obtain ⟨i, hi⟩ := List.mem_iff_getElem?.1 h
    exact (coordinateInRange_iff _).2 ⟨hnumbers n h j, (hnode i n hi).2 j⟩
  · intro h
    refine ⟨⟨⟨⟨⟨⟨h.nodeCount, h.faceCount⟩, h.beamCount⟩, fun x hx => ?_⟩, h.faces⟩, h.beams⟩,
      fun n hn j => ((coordinateInRange_iff _).1 (h.coordinates n hn j)).1⟩
    have hi := List.mem_zipIdx_iff_getElem?.1 hx
    exact ⟨h.indices _ _ hi, fun j =>
      ((coordinateInRange_iff _).1 (h.coordinates _ (List.mem_of_getElem? hi) j)).2⟩

/-! ## Writing nodes, faces and beams -/

theorem refers_nfInt32 (hm : m.nodes.length ≤ meshMaxCount) (n : UInt32) :
    m.Refers (nfInt32 n) ↔ n.toNat < m.nodes.length := by
  have hn := n.toNat_lt
  unfold Refers nfInt32
  unfold meshMaxCount at hm
  split_ifs <;> omega

theorem faceSane_nfInt32 (hm : m.nodes.length ≤ meshMaxCount) :
    m.FaceSane (fun j => nfInt32 (t j)) ↔ m.Corners t := by
  unfold FaceSane Corners
  simp only [refers_nfInt32 hm, nfInt32_inj]

theorem Refers.mono (h : m.nodes.length ≤ m'.nodes.length) {i : Int} (hi : m.Refers i) :
    m'.Refers i := by
  obtain ⟨h0, h1⟩ := hi
  apply And.intro h0
  omega

/-- **A node added** where there is room. -/
theorem sane_addNode_iff (hm : Sane m) (hlt : m.nodes.length < meshMaxCount) :
    Sane { m with nodes := m.nodes ++ [⟨m.nodes.length, p⟩] } ↔ ∀ j, CoordinateInRange (p j) := by
  have hle : m.nodes.length ≤ (m.nodes ++ [(⟨m.nodes.length, p⟩ : EditedNode)]).length := by simp
  constructor
  · intro h
    exact h.coordinates ⟨m.nodes.length, p⟩ (by simp)
  · intro h
    refine ⟨by rw [List.length_append]; exact hlt, hm.faceCount, hm.beamCount, fun i n hi => ?_, fun n hn => ?_,
      fun f hf => ⟨fun j => ((hm.faces f hf).1 j).mono hle, (hm.faces f hf).2⟩,
      fun b hb => ⟨fun j => ((hm.beams b hb).1 j).mono hle, (hm.beams b hb).2⟩⟩
    · rw [List.getElem?_append] at hi
      split_ifs at hi with hlt
      · exact hm.indices i n hi
      · obtain ⟨hk, rfl⟩ := List.getElem?_eq_some_iff.1 hi
        rw [List.length_singleton] at hk
        rw [List.getElem_singleton]
        show (m.nodes.length : Int) = i
        omega
    · rcases List.mem_append.1 hn with h' | h'
      · exact hm.coordinates n h'
      · rw [List.mem_singleton.1 h']
        exact h

/-- **The coordinates of a node replaced.** -/
theorem sane_setNode_iff (hm : Sane m) (hi : i < m.nodes.length) :
    Sane { m with nodes := m.nodes.modify i fun n => { n with position := p } } ↔
      ∀ j, CoordinateInRange (p j) := by
  have hlen : (m.nodes.modify i fun n => { n with position := p }).length = m.nodes.length :=
    List.length_modify ..
  constructor
  · intro h
    refine h.coordinates { m.nodes[i] with position := p } (List.mem_iff_getElem?.2 ⟨i, ?_⟩)
    rw [List.getElem?_modify_eq, List.getElem?_eq_getElem hi]
    rfl
  · intro h
    refine ⟨hlen.le.trans hm.nodeCount, hm.faceCount, hm.beamCount, fun k n hk => ?_,
      fun n hn => ?_, fun f hf => ⟨fun j => ((hm.faces f hf).1 j).mono hlen.ge, (hm.faces f hf).2⟩,
      fun b hb => ⟨fun j => ((hm.beams b hb).1 j).mono hlen.ge, (hm.beams b hb).2⟩⟩
    · rw [List.getElem?_modify] at hk
      obtain ⟨n', hn', rfl⟩ := Option.map_eq_some_iff.1 hk
      have hindex := hm.indices k n' hn'
      split_ifs <;> exact hindex
    · obtain ⟨k, hk⟩ := List.mem_iff_getElem?.1 hn
      rw [List.getElem?_modify] at hk
      obtain ⟨n', hn', rfl⟩ := Option.map_eq_some_iff.1 hk
      split_ifs
      · exact h
      · exact hm.coordinates n' (List.mem_of_getElem? hn')

/-- **A face added** where there is room. -/
theorem sane_allocFace_iff (hm : Sane m) (hlt : m.faces.length < meshMaxCount)
    (nodeIndices : Fin 3 → Int) (h : Option MeshInformationHandler) :
    Sane { m with faces := m.faces ++ [⟨nodeIndices⟩], meshInformationHandler := h } ↔
      m.FaceSane nodeIndices := by
  constructor
  · intro hs
    exact hs.faces ⟨nodeIndices⟩ (by simp)
  · intro hf
    refine ⟨hm.nodeCount, by rw [List.length_append]; exact hlt, hm.beamCount, hm.indices, hm.coordinates,
      fun f h' => ?_, hm.beams⟩
    rcases List.mem_append.1 h' with h' | h'
    · exact hm.faces f h'
    · rw [List.mem_singleton.1 h']
      exact hf

/-- **The corners of a face replaced.** -/
theorem sane_setFace_iff (hm : Sane m) (hi : i < m.faces.length) (nodeIndices : Fin 3 → Int) :
    Sane { m with faces := m.faces.set i ⟨nodeIndices⟩ } ↔ m.FaceSane nodeIndices := by
  constructor
  · intro hs
    exact hs.faces ⟨nodeIndices⟩ (List.mem_set hi _)
  · intro hf
    refine ⟨hm.nodeCount, by simpa using hm.faceCount, hm.beamCount, hm.indices, hm.coordinates,
      fun f h' => ?_, hm.beams⟩
    rcases List.mem_or_eq_of_mem_set h' with h' | rfl
    · exact hm.faces f h'
    · exact hf

/-- Other beams. -/
theorem Sane.beams_of (hm : Sane m) {beams : List EditedBeam} (hlen : beams.length ≤ meshMaxCount)
    (h : ∀ b ∈ beams, b ∈ m.beams ∨ m.BeamSane b.nodeIndices) :
    Sane { m with beams := beams } :=
  ⟨hm.nodeCount, hm.faceCount, hlen, hm.indices, hm.coordinates, hm.faces,
    fun b hb => (h b hb).elim (hm.beams b) id⟩

theorem Sane.nodeIndex (hm : Sane m) (hi : i < m.nodes.length) : m.nodeIndex i = i := by
  unfold EditedMesh.nodeIndex
  rw [List.getElem?_eq_getElem hi]
  exact hm.indices i _ (List.getElem?_eq_getElem hi)

theorem allocFace_final (m : EditedMesh) (nodeIndices : Fin 3 → Int) :
    ∃ h, finalState (allocFace nodeIndices m) = if meshMaxCount ≤ m.faces.length then m else
      { m with faces := m.faces ++ [⟨nodeIndices⟩], meshInformationHandler := h } := by
  unfold allocFace
  split_ifs with hc
  · exact ⟨none, rfl⟩
  · dsimp only
    split
    · rename_i h
      exact ⟨none, by rw [← h]; rfl⟩
    · rename_i h hh
      split
      · exact ⟨some h, by rw [← hh]; rfl⟩
      · exact ⟨_, rfl⟩

/-! ## Calls that check what they write -/

/-- The relation of a state to the one a function leaves: the nodes stay, and a sane mesh stays
sane. -/
def Safe (m m' : EditedMesh) : Prop := m'.nodes = m.nodes ∧ (Sane m → Sane m')

theorem safe_refl (m : EditedMesh) : Safe m m := ⟨rfl, id⟩

theorem safe_trans (m₁ m₂ m₃ : EditedMesh) (h₁ : Safe m₁ m₂) (h₂ : Safe m₂ m₃) : Safe m₁ m₃ :=
  ⟨h₂.1.trans h₁.1, fun h => h₂.2 (h₁.2 h)⟩

theorem getNode_eq (m : EditedMesh) (i : Nat) :
    getNode i m = .ok i m ∧ i < m.nodes.length ∨ getNode i m = .error .invalidIndex m := by
  unfold getNode
  split_ifs with h
  · exact .inl ⟨rfl, h⟩
  · exact .inr rfl

theorem getCorner_eq (m : EditedMesh) (n : Nat) (i : UInt32) :
    getCorner n i m = .ok i.toNat m ∧ i.toNat < m.nodes.length ∨
      ∃ e, getCorner n i m = .error e m := by
  unfold getCorner
  split_ifs with h
  · exact .inr ⟨_, rfl⟩
  · rcases getNode_eq m i.toNat with h | h
    · exact .inl h
    · exact .inr ⟨_, h⟩

theorem safe_addFaceOfNodes {nodes : Fin 3 → Nat} (h : ∀ j, nodes j < m.nodes.length) :
    Safe m (finalState (addFaceOfNodes nodes m)) := by
  unfold addFaceOfNodes
  split_ifs with hdup
  · exact safe_refl m
  · obtain ⟨handler, hfinal⟩ := allocFace_final m fun j => m.nodeIndex (nodes j)
    rw [hfinal]
    split_ifs with hc
    · exact safe_refl m
    · refine ⟨rfl, fun hm => (sane_allocFace_iff hm (not_le.1 hc) _ _).2 ?_⟩
      unfold FaceSane
      simp only [hm.nodeIndex (h _)]
      refine ⟨fun j => ⟨by omega, by have := h j; omega⟩, ?_⟩
      simpa only [Nat.cast_inj] using hdup

/-- **A triangle of `SetGeometry`** is checked. -/
theorem safe_addGeometryTriangle (n : Nat) (t : Triangle) :
    Frames Safe (addGeometryTriangle n t) := by
  intro m
  unfold addGeometryTriangle
  rcases getCorner_eq m n (t 0) with ⟨h0, hlt0⟩ | ⟨e, h0⟩
  · rw [bind_of_ok h0]
    rcases getCorner_eq m n (t 1) with ⟨h1, hlt1⟩ | ⟨e, h1⟩
    · rw [bind_of_ok h1]
      rcases getCorner_eq m n (t 2) with ⟨h2, hlt2⟩ | ⟨e, h2⟩
      · rw [bind_of_ok h2]
        split_ifs with hdup
        · exact safe_refl m
        · apply safe_addFaceOfNodes
          intro j
          exact match j with
            | 0 => hlt0
            | 1 => hlt1
            | 2 => hlt2
      · rw [bind_of_error h2]
        exact safe_refl m
    · rw [bind_of_error h1]
      exact safe_refl m
  · rw [bind_of_error h0]
    exact safe_refl m

theorem isBeamValid_spec {n : Nat} {b : BeamInfo} (h : isBeamValid n b = true) :
    (∀ j, (b.indices j).toNat < n) ∧ b.indices 0 ≠ b.indices 1 := by
  unfold isBeamValid at h
  rw [decide_eq_true_iff] at h
  exact ⟨fun j => not_le.1 (h.1 j).1, h.2⟩

/-- **A beam is checked** before it is added. -/
theorem safe_addValidBeam (b : BeamInfo) : Frames Safe (addValidBeam b) := by
  intro m
  unfold addValidBeam
  split_ifs with hvalid
  · obtain ⟨hlt, hne⟩ := isBeamValid_spec hvalid
    have hnode (j : Fin 2) : getNode (b.indices j).toNat m = .ok (b.indices j).toNat m :=
      if_pos (hlt j)
    rw [bind_of_ok (hnode 0), bind_of_ok (hnode 1)]
    unfold addBeam
    split_ifs with hdup hc
    · exact safe_refl m
    · exact safe_refl m
    · refine ⟨rfl, fun hm => hm.beams_of (by rw [List.length_append]; exact not_le.1 hc)
        fun x hx => ?_⟩
      rcases List.mem_append.1 hx with h | h
      · exact .inl h
      · rw [List.mem_singleton.1 h]
        have hindex (j : Fin 2) :
            m.nodeIndex (![(b.indices 0).toNat, (b.indices 1).toNat] j) = (b.indices j).toNat :=
          match j with
          | 0 => hm.nodeIndex (hlt 0)
          | 1 => hm.nodeIndex (hlt 1)
        refine .inr ⟨fun j => ?_, ?_⟩
        · show m.Refers (m.nodeIndex _)
          rw [hindex j]
          have := hlt j
          exact ⟨by omega, by omega⟩
        · show ¬ m.nodeIndex _ = m.nodeIndex _
          rw [hindex 0, hindex 1, Nat.cast_inj, UInt32.toNat_inj]
          exact hne
  · exact safe_refl m

theorem safe_setBeam (i : UInt32) (b : BeamInfo) : Frames Safe (setBeam i b) := by
  intro m
  unfold setBeam
  split_ifs with hvalid hi
  · obtain ⟨hlt, hne⟩ := isBeamValid_spec hvalid
    refine ⟨rfl, fun hm => hm.beams_of (by simpa using hm.beamCount) fun x hx => ?_⟩
    rcases List.mem_or_eq_of_mem_set hx with h | rfl
    · exact .inl h
    · refine .inr ⟨fun j => (refers_nfInt32 hm.nodeCount _).2 (hlt j), ?_⟩
      rw [nfInt32_inj]
      exact hne
  · exact safe_refl m
  · exact safe_refl m

theorem safe_setBeams (bs : List BeamInfo) : Frames Safe (setBeams bs) := by
  intro m
  unfold setBeams
  split_ifs
  · exact safe_refl m
  · refine Frames.bind safe_trans (fun m => ?_)
      (fun _ => Frames.forM safe_refl safe_trans safe_addValidBeam bs) m
    exact ⟨rfl, fun hm => hm.beams_of (Nat.zero_le _) nofun⟩

/-! ## `SetGeometry` -/

/-- The vertices `SetGeometry` adds: those before the first that is out of range, as many as fit. -/
def geometryVertices (vertices : List Position) (room : Nat) : List Position :=
  (vertices.takeWhile fun p => ∀ j, ¬ Exceeds (p j)).take room

theorem geometryVertices_cons (p : Position) (ps : List Position) (n : Nat) :
    geometryVertices (p :: ps) (meshMaxCount - n) =
      if (∃ j, Exceeds (p j)) ∨ meshMaxCount ≤ n then []
      else p :: geometryVertices ps (meshMaxCount - (n + 1)) := by
  unfold geometryVertices
  by_cases hx : ∃ j, Exceeds (p j)
  · rw [if_pos (.inl hx), List.takeWhile_cons_of_neg (by simpa using hx), List.take_nil]
  · rw [List.takeWhile_cons_of_pos (by simpa using hx)]
    by_cases hc : meshMaxCount ≤ n
    · rw [if_pos (.inr hc), Nat.sub_eq_zero_of_le hc, List.take_zero]
    · have hroom : meshMaxCount - n = (meshMaxCount - (n + 1)) + 1 := by omega
      rw [if_neg (by tauto), hroom, List.take_succ_cons]

theorem addGeometryVertices_cons (m : EditedMesh) (p : Position) (ps : List Position) :
    finalState ((p :: ps).forM addGeometryVertex m) =
      if (∃ j, Exceeds (p j)) ∨ meshMaxCount ≤ m.nodes.length then m
      else finalState (ps.forM addGeometryVertex
        { m with nodes := m.nodes ++ [⟨m.nodes.length, p⟩] }) := by
  show finalState ((addGeometryVertex p >>= fun _ => ps.forM addGeometryVertex) m) = _
  by_cases hx : ∃ j, Exceeds (p j)
  · have h : addGeometryVertex p m = .error .apiInvalidParam m := if_pos hx
    rw [bind_of_error h, if_pos (.inl hx)]
    rfl
  · by_cases hc : meshMaxCount ≤ m.nodes.length
    · have h : addGeometryVertex p m = .error .tooManyNodes m := by
        rw [addGeometryVertex, if_neg hx, addNode, if_neg hx, if_pos hc]
      rw [bind_of_error h, if_pos (.inr hc)]
      rfl
    · have h : addGeometryVertex p m =
          .ok () { m with nodes := m.nodes ++ [⟨m.nodes.length, p⟩] } := by
        rw [addGeometryVertex, if_neg hx, addNode, if_neg hx, if_neg hc]
      rw [bind_of_ok h, if_neg (by tauto)]

/-- The vertices added keep the mesh sane where none of them has a NaN. -/
theorem sane_addGeometryVertices (hm : Sane m) (vertices : List Position)
    (h : ∀ p ∈ geometryVertices vertices (meshMaxCount - m.nodes.length), ∀ j, (p j).IsNumber) :
    Sane (finalState (vertices.forM addGeometryVertex m)) := by
  induction vertices generalizing m with
  | nil => exact hm
  | cons p ps ih =>
    rw [geometryVertices_cons] at h
    rw [addGeometryVertices_cons]
    by_cases hc : (∃ j, Exceeds (p j)) ∨ meshMaxCount ≤ m.nodes.length
    · rw [if_pos hc]
      exact hm
    · rw [if_neg hc] at h ⊢
      rw [not_or, not_exists] at hc
      apply ih
      · apply (sane_addNode_iff hm (not_le.1 hc.2)).2
        intro j
        exact (coordinateInRange_iff _).2 ⟨h p List.mem_cons_self j, hc.1 j⟩
      · intro q hq
        apply h q (List.mem_cons_of_mem _ _)
        simpa using hq

theorem addGeometryVertices_subset (m : EditedMesh) (vertices : List Position) :
    m.nodes ⊆ (finalState (vertices.forM addGeometryVertex m)).nodes := by
  induction vertices generalizing m with
  | nil => exact List.Subset.refl _
  | cons p ps ih =>
    rw [addGeometryVertices_cons]
    split_ifs
    · exact List.Subset.refl _
    · intro n hn
      exact ih _ (List.mem_append_left _ hn)

theorem mem_addGeometryVertices (m : EditedMesh) (vertices : List Position)
    (h : p ∈ geometryVertices vertices (meshMaxCount - m.nodes.length)) :
    ∃ n ∈ (finalState (vertices.forM addGeometryVertex m)).nodes, n.position = p := by
  induction vertices generalizing m with
  | nil => simp [geometryVertices] at h
  | cons q qs ih =>
    rw [geometryVertices_cons] at h
    rw [addGeometryVertices_cons]
    by_cases hc : (∃ j, Exceeds (q j)) ∨ meshMaxCount ≤ m.nodes.length
    · rw [if_pos hc] at h
      cases h
    · rw [if_neg hc] at h ⊢
      rcases List.mem_cons.1 h with rfl | h
      · exact ⟨⟨m.nodes.length, p⟩, addGeometryVertices_subset _ qs (by simp), rfl⟩
      · apply ih
        simpa using h

theorem sane_clear (m : EditedMesh) : Sane { m with
    nodes := [], faces := [], beams := [], meshInformationHandler := none } :=
  ⟨Nat.zero_le _, Nat.zero_le _, Nat.zero_le _, nofun, nofun, nofun, nofun⟩

/-- **`SetGeometry` leaves a sane mesh** exactly when no vertex it adds has a NaN. -/
theorem sane_setGeometry_iff (m : EditedMesh) (vertices : List Position)
    (triangles : List Triangle) :
    Sane (finalState (setGeometry (some vertices) (some triangles) m)) ↔
      ∀ p ∈ geometryVertices vertices meshMaxCount, ∀ j, (p j).IsNumber := by
  let m₀ : EditedMesh := { m with
    nodes := [], faces := [], beams := [], meshInformationHandler := none }
  have hsafe : Safe (finalState (vertices.forM addGeometryVertex m₀))
      (finalState (setGeometry (some vertices) (some triangles) m)) := by
    show Safe _ (finalState ((vertices.forM addGeometryVertex >>=
      fun _ => triangles.forM (addGeometryTriangle vertices.length)) m₀))
    cases h : vertices.forM addGeometryVertex m₀ with
    | error e m₁ =>
      rw [bind_of_error h]
      exact safe_refl m₁
    | ok u m₁ =>
      rw [bind_of_ok h]
      exact Frames.forM safe_refl safe_trans (safe_addGeometryTriangle _) triangles m₁
  constructor
  · intro hs p hp j
    obtain ⟨n, hn, rfl⟩ := mem_addGeometryVertices m₀ vertices hp
    rw [← hsafe.1] at hn
    exact ((coordinateInRange_iff _).1 (hs.coordinates n hn j)).1
  · intro h
    exact hsafe.2 (sane_addGeometryVertices (sane_clear m) vertices h)

/-! ## The mesh it stands for -/

section StandsFor

variable {n : Mesh}

/-- The position of a node with these coordinates. -/
def position (v : Vec3) : Position := ![.ofRat v.x, .ofRat v.y, .ofRat v.z]

/-- The edited mesh has the elements of `n`. -/
structure StandsFor (m : EditedMesh) (n : Mesh) : Prop where
  nodes : m.nodes = n.nodes.zipIdx.map fun x => ⟨x.2, position x.1⟩
  faces : m.faces = n.faces
  beams : m.beams = n.beams.map fun b => ⟨b.nodeIndices, fun j => .ofRat (b.radius j), b.capMode⟩
  handler : m.meshInformationHandler = n.meshInformationHandler

/-- A call throws the same error, or leaves a mesh that stands for the other one. -/
inductive EndsAs : EStateM.Result Error EditedMesh Unit → Except Error Mesh → Prop where
  | ok {m : EditedMesh} {n : Mesh} (h : m.StandsFor n) : EndsAs (.ok () m) (.ok n)
  | error (e : Error) (m : EditedMesh) : EndsAs (.error e m) (.error e)

theorem exceeds_ofRat (q : ℚ) : Exceeds (.ofRat q) ↔ meshMaxCoordinate < |q| := by
  have hlt (a b : ℚ) : (Double.ofRat a).lt (.ofRat b) ↔ a < b := by
    show ((a : WithTop ℚ) : WithBot (WithTop ℚ)) < ((b : WithTop ℚ) : WithBot (WithTop ℚ)) ↔ _
    rw [WithBot.coe_lt_coe, WithTop.coe_lt_coe]
  unfold Exceeds
  rw [hlt, hlt, lt_abs, lt_neg]

theorem exceeds_position (v : Vec3) : (∃ j, Exceeds (position v j)) ↔
    meshMaxCoordinate < |v.x| ∨ meshMaxCoordinate < |v.y| ∨ meshMaxCoordinate < |v.z| := by
  rw [← exceeds_ofRat, ← exceeds_ofRat, ← exceeds_ofRat]
  constructor
  · rintro ⟨j, hj⟩
    match j with
    | 0 => exact .inl hj
    | 1 => exact .inr (.inl hj)
    | 2 => exact .inr (.inr hj)
  · rintro (h | h | h)
    · exact ⟨0, h⟩
    · exact ⟨1, h⟩
    · exact ⟨2, h⟩

theorem StandsFor.nodeCount (h : m.StandsFor n) : m.nodes.length = n.nodes.length := by
  rw [h.nodes, List.length_map, List.length_zipIdx]

/-- A node is added to both. -/
theorem StandsFor.addNode (h : m.StandsFor n) (v : Vec3) :
    EndsAs (EditedMesh.addNode (position v) m) (n.addNode v) := by
  unfold EditedMesh.addNode Mesh.addNode
  simp only [exceeds_position, h.nodeCount]
  split_ifs
  · exact .error _ _
  · exact .error _ _
  · refine .ok ⟨?_, h.faces, h.beams, h.handler⟩
    show m.nodes ++ _ = (n.nodes ++ [v]).zipIdx.map _
    rw [List.zipIdx_append, List.map_append, ← h.nodes, Nat.zero_add]
    rfl

/-- A face is added to both. -/
theorem StandsFor.addFace (h : m.StandsFor n) (nodeIndices : Fin 3 → Int) :
    EndsAs (EditedMesh.addFace nodeIndices m) (n.addFace nodeIndices) := by
  unfold EditedMesh.addFace allocFace Mesh.addFace
  rw [h.faces, h.handler]
  split_ifs
  · exact .error _ _
  · exact .error _ _
  · cases n.meshInformationHandler with
    | none => exact .ok ⟨h.nodes, rfl, h.beams, rfl⟩
    | some handler =>
      dsimp only
      cases Mesh.MeshInformationHandler.addFace handler
        (n.faces ++ [(⟨nodeIndices⟩ : MeshFace)]).length with
      | error e => exact .error e _
      | ok handler => exact .ok ⟨h.nodes, rfl, h.beams, rfl⟩

/-- A beam between nodes that are there is added to both. -/
theorem StandsFor.addBeam (h : m.StandsFor n) {nodes : Fin 2 → Nat} {b : BeamInfo}
    {radius : Fin 2 → ℚ} (hn : ∀ j, nodes j < n.nodes.length)
    (hr : b.radii = fun j => .ofRat (radius j)) : EndsAs (EditedMesh.addBeam nodes b m)
      (n.addBeam ⟨fun j => nodes j, radius, b.capModes⟩) := by
  have hindex (j : Fin 2) : m.nodeIndex (nodes j) = nodes j := by
    unfold nodeIndex
    rw [h.nodes, List.getElem?_map, List.getElem?_zipIdx, List.getElem?_eq_getElem (hn j),
      Nat.zero_add]
    rfl
  unfold EditedMesh.addBeam Mesh.addBeam
  simp only [hindex, h.beams, List.length_map, Int.natCast_inj]
  split_ifs
  · exact .error _ _
  · exact .error _ _
  · refine .ok ⟨h.nodes, h.faces, ?_, h.handler⟩
    rw [List.map_append, List.map_singleton, hr]

end StandsFor

/-! ## Runs -/

/-- What a call must not do: write a vertex with a NaN or, by `SetVertex`, one out of range, or a
face, by `AddTriangle` or `SetTriangle`, whose corners do not exist or are not distinct. -/
def Allowed (m : EditedMesh) : MeshCall → Prop
  | .addVertex p => (∀ j, ¬ Exceeds (p j)) → m.nodes.length < meshMaxCount →
    ∀ j, (p j).IsNumber
  | .addTriangle t => ¬ (t 0 = t 1 ∨ t 0 = t 2 ∨ t 1 = t 2) → m.faces.length < meshMaxCount →
    ∀ j, (t j).toNat < m.nodes.length
  | .setVertex i p => i.toNat < m.nodes.length → ∀ j, CoordinateInRange (p j)
  | .setTriangle i t => i.toNat < m.faces.length → m.Corners t
  | .setGeometry (some vertices) (some _) =>
    ∀ p ∈ geometryVertices vertices meshMaxCount, ∀ j, (p j).IsNumber
  | _ => True

theorem sane_addVertex_iff (hm : Sane m) (p : Position) :
    Sane (m.next (.addVertex p)) ↔ m.Allowed (.addVertex p) := by
  show Sane (finalState (addNode p m)) ↔ _
  unfold addNode Allowed
  split_ifs with hx hc
  · obtain ⟨j, hj⟩ := hx
    exact iff_of_true hm fun h => absurd hj (h j)
  · exact iff_of_true hm fun _ h => absurd hc (not_le.2 h)
  · rw [not_exists] at hx
    apply (sane_addNode_iff hm (not_le.1 hc)).trans
    simp only [coordinateInRange_iff, hx, not_false_iff, and_true, forall_const, not_le.1 hc]

theorem sane_addTriangle_iff (hm : Sane m) (t : Triangle) :
    Sane (m.next (.addTriangle t)) ↔ m.Allowed (.addTriangle t) := by
  show Sane (finalState (addFace (fun j => nfInt32 (t j)) m)) ↔ _
  unfold addFace Allowed
  simp only [nfInt32_inj]
  split_ifs with hdup
  · exact iff_of_true hm fun h => absurd hdup h
  · obtain ⟨h, hfinal⟩ := allocFace_final m fun j => nfInt32 (t j)
    rw [hfinal]
    split_ifs with hc
    · exact iff_of_true hm fun _ h => absurd hc (not_le.2 h)
    · rw [sane_allocFace_iff hm (not_le.1 hc), faceSane_nfInt32 hm.nodeCount]
      unfold Corners
      simp only [hdup, not_false_iff, and_true, forall_const, not_le.1 hc]

theorem sane_setVertex_iff (hm : Sane m) (i : UInt32) (p : Position) :
    Sane (m.next (.setVertex i p)) ↔ m.Allowed (.setVertex i p) := by
  show Sane (finalState (setVertex i p m)) ↔ _
  unfold setVertex Allowed
  rcases getNode_eq m i.toNat with ⟨h, hi⟩ | h
  · rw [bind_of_ok h]
    simp only [hi, forall_const]
    exact sane_setNode_iff hm hi
  · rw [bind_of_error h]
    refine iff_of_true hm fun hi => ?_
    rw [getNode, if_pos hi] at h
    cases h

theorem sane_setTriangle_iff (hm : Sane m) (i : UInt32) (t : Triangle) :
    Sane (m.next (.setTriangle i t)) ↔ m.Allowed (.setTriangle i t) := by
  show Sane (finalState (setTriangle i t m)) ↔ _
  unfold setTriangle Allowed
  split_ifs with hi
  · simp only [hi, forall_const]
    exact (sane_setFace_iff hm hi _).trans (faceSane_nfInt32 hm.nodeCount)
  · exact iff_of_true hm fun h => absurd h hi

/-- **A call keeps the mesh sane**, whether it throws or not, exactly when it is allowed. -/
theorem sane_next_iff (m : EditedMesh) (c : MeshCall) (hm : Sane m) :
    Sane (m.next c) ↔ m.Allowed c := by
  cases c with
  | addVertex p => exact sane_addVertex_iff hm p
  | addTriangle t => exact sane_addTriangle_iff hm t
  | setVertex i p => exact sane_setVertex_iff hm i p
  | setTriangle i t => exact sane_setTriangle_iff hm i t
  | setGeometry vertices triangles =>
    cases vertices with
    | none => exact iff_of_true hm trivial
    | some vertices =>
      cases triangles with
      | none => exact iff_of_true hm trivial
      | some triangles => exact sane_setGeometry_iff m vertices triangles
  | addBeam b =>
    refine iff_of_true ?_ trivial
    show Sane (finalState (apiAddBeam b m))
    unfold apiAddBeam
    split_ifs
    · exact (safe_addValidBeam b m).2 hm
    · exact hm
  | setBeam i b => exact iff_of_true ((safe_setBeam i b m).2 hm) trivial
  | setBeams bs => exact iff_of_true ((safe_setBeams bs m).2 hm) trivial
  | setType t =>
    exact iff_of_true ⟨hm.nodeCount, hm.faceCount, hm.beamCount, hm.indices, hm.coordinates,
      hm.faces, hm.beams⟩ trivial
  | setProperties h =>
    exact iff_of_true ⟨hm.nodeCount, hm.faceCount, hm.beamCount, hm.indices, hm.coordinates,
      hm.faces, hm.beams⟩ trivial

/-- **The mesh is sane** in every state of a run on a new object, rejected calls included, exactly
when the run is allowed. -/
theorem sane_iff (calls : List MeshCall) :
    (∀ m, Reaches next new calls m → IsSane m) ↔ Guarded next Allowed new calls := by
  simp only [isSane_iff]
  exact guarded_iff Sane (sane_clear new) sane_next_iff

/-- A triangle without nodes. -/
theorem triangle_without_nodes : ¬ ∀ m, Reaches next new [.addTriangle ![0, 1, 2]] m →
    IsSane m := by
  intro h
  have hend := (h _ (reaches_run _ _)).1
  exact absurd hend (by decide)

end EditedMesh

end NMR
