import Mathlib.Tactic.FinCases
import Lib3MF.Common.Mesh.Proof.EffectiveProperties
import Lib3MF.Model.Proof.MaterialProperties

/-!
# Face properties through a document

A triangle is written with the indices of its properties, or without any where the object-level
default says the same. Read again, each face has a record that names the place of its resource and
the new numbers of its properties (`newRecord`), so it resolves to the properties at the places they
had (`meshes_reread`).
-/

namespace NMR

open Lib

variable {V E : Type} {R : List (PropertyResource V)} {mapping : PropertyIndexMapping} {mesh : Mesh}
  {reading : PropertyReading V}

/-! ## What is written -/

/-- `property`, a resource and the indices of three of its properties, is what the record says. -/
def Says (R : List (PropertyResource V)) (property : Nat × (Fin 3 → Nat)) (r : FaceProperties) :
    Prop :=
  property.1 = r.resourceID ∧ (r.resourceID ≠ 0 → ∃ (i : Nat) (g : PropertyResource V),
    R[i]? = some g ∧ g.uniqueID = r.resourceID ∧
    ∀ j, g.group.buildResourceIndexMap[property.2 j]? = some (r.propertyIDs j))

/-- The default at its first corner, as a record. -/
def firstDefault (mesh : Mesh) : FaceProperties :=
  ⟨(MeshModel.defaultRecord mesh).resourceID, fun _ => (MeshModel.defaultRecord mesh).propertyIDs 0⟩

/-- The indices of three properties of one resource. -/
theorem says_of_mapped (hn : (R.map (·.uniqueID)).Nodup) (hm : Mapped mapping R)
    {index : Fin 3 → Nat} {r : FaceProperties}
    (h : ∀ j, mapping.mapPropertyIDToIndex r.resourceID (r.propertyIDs j) = .ok (index j)) :
    Says R (r.resourceID, index) r := by
  refine ⟨rfl, fun _ => ?_⟩
  obtain ⟨g, hg, hid, -⟩ := mapPropertyIDToIndex_ok hm (h 0)
  obtain ⟨i, hi⟩ := List.mem_iff_getElem?.1 hg
  refine ⟨i, g, hi, hid, fun j => ?_⟩
  obtain ⟨g', hg', hid', hk⟩ := mapPropertyIDToIndex_ok hm (h j)
  rwa [List.inj_on_of_nodup_map hn hg' hg (hid'.trans hid.symm)] at hk

theorem objectLevelProperty_ok (hn : (R.map (·.uniqueID)).Nodup) (hm : Mapped mapping R)
    {p : Nat × Nat} (h : Writer.objectLevelProperty mapping mesh = .ok p) :
    Says R (p.1, fun _ => p.2) (firstDefault mesh) := by
  unfold Writer.objectLevelProperty at h
  unfold firstDefault MeshModel.defaultRecord
  cases hd : mesh.properties.bind (·.defaultData) with
  | none =>
    rw [hd] at h
    cases h
    exact ⟨rfl, fun h0 => absurd rfl h0⟩
  | some d =>
    rw [hd] at h
    dsimp only at h
    rw [Option.getD_some]
    split_ifs at h with h0
    · cases h
      exact ⟨h0.symm, fun hne => absurd h0 hne⟩
    · obtain ⟨index, hindex, h⟩ := bind_eq_ok.1 h
      cases h
      exact says_of_mapped (r := ⟨d.resourceID, fun _ => d.propertyIDs 0⟩) hn hm fun _ => hindex

theorem objectLevelProperty_zero {p : Nat × Nat}
    (h : Writer.objectLevelProperty mapping mesh = .ok p) (h0 : p.1 = 0) : p = (0, 0) := by
  unfold Writer.objectLevelProperty at h
  cases hd : mesh.properties.bind (·.defaultData) with
  | none =>
    rw [hd] at h
    cases h
    rfl
  | some d =>
    rw [hd] at h
    dsimp only at h
    split_ifs at h with hz
    · cases h
      rfl
    · obtain ⟨index, -, h⟩ := bind_eq_ok.1 h
      cases h
      exact absurd h0 hz

theorem faceProperty_ok (hn : (R.map (·.uniqueID)).Nodup) (hm : Mapped mapping R) {i : Nat}
    {p : Nat × (Fin 3 → Nat)} (h : Writer.faceProperty mapping mesh i = .ok p) :
    Says R p (mesh.record i) := by
  unfold Writer.faceProperty at h
  unfold Mesh.record
  cases hp : mesh.properties with
  | none =>
    rw [hp] at h
    cases h
    exact ⟨rfl, fun h0 => absurd rfl h0⟩
  | some q =>
    rw [hp] at h
    dsimp only at h
    rw [Option.bind_some]
    cases hr : q.faceData[i]? with
    | none =>
      rw [hr] at h
      cases h
    | some r =>
      rw [hr] at h
      dsimp only at h
      rw [Option.getD_some]
      split_ifs at h with h0
      · cases h
        exact ⟨h0.symm, fun hne => absurd h0 hne⟩
      · obtain ⟨index1, h1, h⟩ := bind_eq_ok.1 h
        obtain ⟨index2, h2, h⟩ := bind_eq_ok.1 h
        obtain ⟨index3, h3, h⟩ := bind_eq_ok.1 h
        cases h
        refine says_of_mapped hn hm fun j => ?_
        fin_cases j
        · exact h1
        · exact h2
        · exact h3

/-! ## A triangle -/

/-- A face that a reader takes, of a mesh with `nodeCount` nodes. -/
def MeshFace.Readable (nodeCount : Nat) (f : MeshFace) : Prop :=
  (∀ j, 0 ≤ f.nodeIndices j ∧ f.nodeIndices j < nodeCount) ∧
    f.nodeIndices 0 ≠ f.nodeIndices 1 ∧ f.nodeIndices 0 ≠ f.nodeIndices 2 ∧
    f.nodeIndices 1 ≠ f.nodeIndices 2

/-- What is said about a triangle, by its own property or else by the object-level one. -/
def orObjectLevel (objectLevel : Nat × Nat) (property : Nat × (Fin 3 → Nat)) :
    Nat × (Fin 3 → Nat) :=
  if property.1 = 0 then (objectLevel.1, fun _ => objectLevel.2) else property

namespace Reader

variable {n : TriangleNode} {value : Int} {v : Nat}

theorem maxResourceID_eq : maxResourceID = maxResourceIndex := rfl

theorem setIndex_of_lt (h0 : 0 ≤ value) (hlt : value < maxResourceIndex) (old : Fin 3 → Int)
    (j : Fin 3) : TriangleNode.setIndex value old j = Function.update old j value :=
  if_pos ⟨h0, hlt⟩

/-- Three indices, one after the other. -/
theorem update_three (old index : Fin 3 → Int) :
    Function.update (Function.update (Function.update old 0 (index 0)) 1 (index 1)) 2 (index 2) =
      index := by
  funext j
  fin_cases j <;> rfl

/-- A printed index is read. -/
theorem fnStringToInt32_printed (hv : v < maxResourceIndex) :
    fnStringToInt32 (writeIntAttribute v) = .ok (v : Int) := by
  have h31 : v < 2 ^ 31 := by
    unfold maxResourceIndex at hv
    omega
  rw [fnStringToInt32_writeIntAttribute (by omega), if_pos h31]

/-- An attribute that is an index. -/
def indexAttribute : Fin 3 → TriangleAttribute := ![.p1, .p2, .p3]

/-- An attribute that is a corner. -/
def cornerAttribute : Fin 3 → TriangleAttribute := ![.v1, .v2, .v3]

theorem onAttribute_corner (n : TriangleNode) (j : Fin 3) (h0 : 0 ≤ value)
    (hlt : value < maxResourceIndex) :
    n.onAttribute (cornerAttribute j, value) =
      .ok { n with index := Function.update n.index j value } := by
  have hset := setIndex_of_lt h0 hlt n.index j
  have hint : fnStringToInt32 value = .ok value := by
    unfold maxResourceIndex at hlt
    exact fnStringToInt32_of_lt (by omega) (by omega)
  rw [← hset, TriangleNode.onAttribute, hint]
  fin_cases j <;> rfl

theorem onAttribute_index (n : TriangleNode) (j : Fin 3) (hv : v < maxResourceIndex) :
    n.onAttribute (indexAttribute j, writeIntAttribute v) =
      .ok { n with propertyIndex := Function.update n.propertyIndex j (v : Int) } := by
  have hset := setIndex_of_lt (Int.natCast_nonneg v) (Int.ofNat_lt.2 hv) n.propertyIndex j
  rw [← hset, TriangleNode.onAttribute, fnStringToInt32_printed hv]
  fin_cases j <;> rfl

theorem onAttribute_pid (n : TriangleNode) (hv : v < maxResourceID) :
    n.onAttribute (.pid, writeIntAttribute v) = .ok { n with propertyID := v } := by
  have hprinted : fnStringToInt32 (writeIntAttribute v) = .ok (v : Int) :=
    fnStringToInt32_printed (by rw [← maxResourceID_eq]; exact hv)
  have hrange : (0 : Int) ≤ v ∧ (v : Int) < maxResourceID :=
    ⟨Int.natCast_nonneg v, Int.ofNat_lt.2 hv⟩
  rw [TriangleNode.onAttribute, hprinted, ok_bind]
  generalize maxResourceID = limit at hrange ⊢
  dsimp only
  rw [if_pos hrange, Int.toNat_natCast]
  rfl

/-- The corners of a triangle. -/
theorem parse_writeFaceDataPlain {f : MeshFace} {nodeCount : Nat} (hf : f.Readable nodeCount)
    (hcount : nodeCount ≤ meshMaxCount) :
    TriangleNode.parseXML (Writer.writeFaceDataPlain f) =
      .ok { TriangleNode.new with index := f.nodeIndices } := by
  have hstep (n : TriangleNode) (j : Fin 3) : n.onAttribute (cornerAttribute j, f.nodeIndices j) =
      .ok { n with index := Function.update n.index j (f.nodeIndices j) } := by
    obtain ⟨h0, hlt⟩ := hf.1 j
    unfold meshMaxCount at hcount
    exact onAttribute_corner n j h0 (by unfold maxResourceIndex; omega)
  have hall (n : TriangleNode) : [((cornerAttribute 0, f.nodeIndices 0) : TriangleAttribute × Int),
      (cornerAttribute 1, f.nodeIndices 1), (cornerAttribute 2, f.nodeIndices 2)].foldlM
        TriangleNode.onAttribute n = .ok { n with index := f.nodeIndices } := by
    simp only [List.foldlM_cons, List.foldlM_nil, hstep, bind, Except.bind, update_three]
    rfl
  exact hall .new

/-- **A written triangle** has its corners, and what is said about it. -/
theorem parse_writeFaceData (objectLevel : Nat × Nat) {f : MeshFace} {nodeCount : Nat}
    {property : Nat × (Fin 3 → Nat)} (hf : f.Readable nodeCount) (hcount : nodeCount ≤ meshMaxCount)
    (hid : property.1 < maxResourceID)
    (hindex : property.1 ≠ 0 → ∀ j, property.2 j < maxResourceIndex) :
    ∃ n, TriangleNode.parseXML (Writer.writeFaceData objectLevel f property) = .ok n ∧
      n.index = f.nodeIndices ∧
      n.retrieveProperties (objectLevel.1, fun _ => objectLevel.2) =
        orObjectLevel objectLevel property := by
  have hplain := parse_writeFaceDataPlain hf hcount
  have hpid (n : TriangleNode) := onAttribute_pid n hid
  have hp1 (hne : property.1 ≠ 0) (n : TriangleNode) :
      n.onAttribute (.p1, writeIntAttribute (property.2 0)) = _ :=
    onAttribute_index n 0 (hindex hne 0)
  have hp2 (hne : property.1 ≠ 0) (n : TriangleNode) :
      n.onAttribute (.p2, writeIntAttribute (property.2 1)) = _ :=
    onAttribute_index n 1 (hindex hne 1)
  have hp3 (hne : property.1 ≠ 0) (n : TriangleNode) :
      n.onAttribute (.p3, writeIntAttribute (property.2 2)) = _ :=
    onAttribute_index n 2 (hindex hne 2)
  unfold Writer.writeFaceData orObjectLevel
  by_cases h0 : property.1 = 0
  · rw [if_pos h0, if_pos h0]
    exact ⟨_, hplain, rfl, rfl⟩
  rw [if_neg h0, if_neg h0]
  by_cases h3 : property.2 0 ≠ property.2 1 ∨ property.2 0 ≠ property.2 2
  · rw [if_pos h3]
    refine ⟨⟨property.1, fun j => property.2 j, f.nodeIndices⟩, ?_, rfl, ?_⟩
    · rw [TriangleNode.parseXML, Writer.writeFaceDataThreeProperties, List.foldlM_append,
        ← TriangleNode.parseXML, hplain]
      rw [ok_bind, List.foldlM_cons, hpid, ok_bind, List.foldlM_cons, hp1 h0, ok_bind,
        List.foldlM_cons, hp2 h0, ok_bind, List.foldlM_cons, hp3 h0, ok_bind, List.foldlM_nil]
      dsimp only
      rw [update_three _ fun j => (property.2 j : Int)]
      rfl
    · unfold TriangleNode.retrieveProperties
      simp [h0]
  · rw [if_neg h3]
    push Not at h3
    have hconst : property.2 = fun _ => property.2 0 := by
      funext j
      fin_cases j
      · rfl
      · exact h3.1.symm
      · exact h3.2.symm
    by_cases hsame : property.1 = objectLevel.1 ∧ property.2 0 = objectLevel.2
    · rw [if_pos hsame]
      refine ⟨_, hplain, rfl, ?_⟩
      show (objectLevel.1, fun _ => objectLevel.2) = _
      rw [← hsame.1, ← hsame.2, ← hconst]
    · rw [if_neg hsame]
      refine ⟨⟨property.1, Function.update (fun _ => -1) 0 (property.2 0 : Int), f.nodeIndices⟩, ?_,
        rfl, ?_⟩
      · rw [TriangleNode.parseXML, Writer.writeFaceDataOneProperty, List.foldlM_append,
          ← TriangleNode.parseXML, hplain]
        rw [ok_bind, List.foldlM_cons, hpid, ok_bind, List.foldlM_cons, hp1 h0, ok_bind,
          List.foldlM_nil]
        rfl
      · unfold TriangleNode.retrieveProperties
        rw [if_neg h0]
        refine (if_neg (by simp)).trans (Prod.ext rfl ?_)
        rw [hconst]
        funext j
        fin_cases j <;> simp [Function.update]

/-! ## Records -/

variable {s : ReaderState V} {path : String} {objectIDs : List Nat}
  {property : Nat × (Fin 3 → Nat)} {r : FaceProperties}

/-- The state of a reader behind the property resources `R`, with the IDs of objects behind theirs. -/
structure ReadsObjects (reading : PropertyReading V) (path : String)
    (R : List (PropertyResource V)) (objectIDs : List Nat) (s : ReaderState V) : Prop where
  numbers : s.resourceHandler.Numbers path (R.map (·.uniqueID) ++ objectIDs)
  reread : Reread reading R s.model.propertyResources
  objects : ∀ o ∈ s.model.objects, o.uniqueID ≤ R.length + objectIDs.length

/-- The record that a triangle gets. -/
def newRecord (R : List (PropertyResource V)) (property : Nat × (Fin 3 → Nat)) : FaceProperties :=
  if property.1 = 0 then .invalid
  else ⟨(R.map (·.uniqueID)).idxOf property.1 + 1, fun j => property.2 j + 1⟩

/-- **What is said about a triangle is resolved.** -/
theorem resolveProperties_ok (hs : ReadsObjects reading path R objectIDs s)
    (hn : (R.map (·.uniqueID)).Nodup) (h : Says R property r) (hne : property.1 ≠ 0) :
    resolveProperties path s property = some (newRecord R property) := by
  obtain ⟨i, g, hi, hid, hk⟩ := h.2 (h.1 ▸ hne)
  have hplace := idxOf_uniqueID hn hi
  have hids : (R.map (·.uniqueID) ++ objectIDs)[i]? = some property.1 := by
    have hlt := (List.getElem?_eq_some_iff.1 hi).1
    rw [List.getElem?_append_left (by rw [List.length_map]; exact hlt), List.getElem?_map, hi, h.1,
      ← hid]
    rfl
  obtain ⟨x, g', hfind, -, hx⟩ := hs.reread.find? hi
  have hresource : findResource s (i + 1) = some g'.group := by
    unfold findResource MeshModel.findResource
    rw [hs.numbers.byUniqueID i _ hids, Option.bind_some, hfind]
  have hindex (j : Fin 3) : MeshModel.mapResourceIndexToPropertyID g'.group (property.2 j) = _ :=
    hx.getElem?_keys (hk j)
  unfold resolveProperties newRecord
  rw [hs.numbers.byPath i _ hids, if_neg hne, h.1, ← hid, hplace]
  simp only [Option.bind_eq_bind, Option.bind_some, hresource, hindex, Option.pure_def]
  congr 2
  funext j
  fin_cases j <;> rfl

/-! ## Triangles -/

/-- A mesh that is being read: it has the records `rs`, and no default yet. -/
structure Partial (nodes : List Vec3) (faces : List MeshFace) (rs : List FaceProperties) (mesh : Mesh) :
    Prop where
  nodes : mesh.nodes = nodes
  faces : mesh.faces = faces
  records : mesh.Records rs
  default : mesh.properties.bind (·.defaultData) = none

variable {nodes : List Vec3} {faces : List MeshFace} {rs : List FaceProperties} {f : MeshFace}
  {objectLevel : Nat × Nat}

/-- A face is added. -/
theorem Partial.addFace (h : Partial nodes faces rs mesh) (hf : f.Readable nodes.length)
    (hcount : faces.length < meshMaxCount) : ∃ mesh', mesh.addFace f.nodeIndices = .ok mesh' ∧
      Partial nodes (faces ++ [f]) (rs ++ [.invalid]) mesh' := by
  obtain ⟨-, h01, h02, h12⟩ := hf
  have hlen : ∀ p, mesh.properties = some p → p.faceData.length + 1 = (mesh.faces ++ [f]).length := by
    intro p hp
    rw [h.records.faceData p hp, h.records.length, List.length_append, List.length_singleton]
  have hok : ∃ mesh', mesh.addFace f.nodeIndices = .ok mesh' ∧ mesh'.nodes = mesh.nodes := by
    unfold Mesh.addFace
    rw [if_neg (by simp [h01, h02, h12]), if_neg (by rw [h.faces]; exact Nat.not_le.2 hcount)]
    dsimp only
    unfold Mesh.properties at hlen
    cases hh : mesh.meshInformationHandler with
    | none => exact ⟨_, rfl, rfl⟩
    | some handler =>
      rw [hh] at hlen
      dsimp only
      unfold Mesh.MeshInformationHandler.addFace
      cases hp : handler.properties with
      | none => exact ⟨_, rfl, rfl⟩
      | some p =>
        dsimp only
        rw [if_neg (not_not.2 (hlen p hp))]
        exact ⟨_, rfl, rfl⟩
  obtain ⟨mesh', hadd, hnodes⟩ := hok
  obtain ⟨hfaces, hprops⟩ := Mesh.addFace_spec hadd
  refine ⟨mesh', hadd, hnodes.trans h.nodes, by rw [hfaces, h.faces], ⟨?_, ?_, ?_⟩, ?_⟩
  · rw [hfaces, List.length_append, List.length_append, h.records.length]
    rfl
  · intro p hp
    rw [hprops] at hp
    obtain ⟨p', hp', rfl⟩ := Option.map_eq_some_iff.1 hp
    exact congrArg (· ++ [_]) (h.records.faceData p' hp')
  · intro hp r hr
    rw [hprops] at hp
    rcases List.mem_append.1 hr with hr | hr
    · exact h.records.invalid (Option.map_eq_none_iff.1 hp) r hr
    · exact List.mem_singleton.1 hr
  · have hdefault := h.default
    rw [hprops]
    cases hp : mesh.properties with
    | none => rfl
    | some p =>
      rw [hp] at hdefault
      exact hdefault

/-- The properties are created where there are none. -/
theorem Partial.createPropertiesInformation (h : Partial nodes faces rs mesh) :
    Partial nodes faces rs (Reader.createPropertiesInformation mesh) ∧
      (Reader.createPropertiesInformation mesh).properties = some ⟨none, rs⟩ := by
  have hdefault := h.default
  unfold Reader.createPropertiesInformation
  cases hp : mesh.properties with
  | some p =>
    rw [hp] at hdefault
    dsimp only
    refine ⟨h, ?_⟩
    rw [hp, ← h.records.faceData p hp]
    obtain ⟨d, fd⟩ := p
    cases hdefault
    rfl
  | none =>
    have hrs : List.replicate mesh.faces.length .invalid = rs :=
      (List.eq_replicate_iff.2 ⟨h.records.length, h.records.invalid hp⟩).symm
    refine ⟨⟨h.nodes, h.faces, ⟨h.records.length, fun p hp => ?_, fun hp => ?_⟩, rfl⟩, ?_⟩
    · cases hp
      exact hrs
    · cases hp
    · show some (MeshInformationProperties.mk none (List.replicate mesh.faces.length .invalid)) = _
      rw [hrs]

/-- **A face with what is said about it.** -/
theorem Partial.addFace_property (h : Partial nodes faces rs mesh) (hf : f.Readable nodes.length)
    (hcount : faces.length < meshMaxCount) (hs : ReadsObjects reading path R objectIDs s)
    (hn : (R.map (·.uniqueID)).Nodup) (hrecord : Says R property r) :
    ∃ mesh', Reader.addFace path s mesh f.nodeIndices property = .ok mesh' ∧
      Partial nodes (faces ++ [f]) (rs ++ [newRecord R property]) mesh' := by
  obtain ⟨mesh₁, hadd, h₁⟩ := h.addFace hf hcount
  obtain ⟨hrange, h01, h02, h12⟩ := hf
  have hnode (j : Fin 3) : HasNode mesh (f.nodeIndices j) := by
    unfold HasNode
    rw [h.nodes]
    exact hrange j
  unfold Reader.addFace
  rw [if_neg (by simp [h01, h02, h12]),
    if_neg (not_not.2 ⟨hnode 0, hnode 1, hnode 2⟩), hadd]
  dsimp only [bind, Except.bind]
  by_cases h0 : property.1 = 0
  · rw [if_pos h0]
    refine ⟨mesh₁, rfl, ?_⟩
    rw [newRecord, if_pos h0]
    exact h₁
  · rw [if_neg h0, resolveProperties_ok hs hn hrecord h0]
    obtain ⟨h₂, hprops⟩ := h₁.createPropertiesInformation
    have hlast : (Reader.createPropertiesInformation mesh₁).faces.length - 1 = rs.length := by
      rw [h₂.faces, List.length_append, List.length_singleton, h.records.length, h.faces,
        Nat.add_sub_cancel]
    refine ⟨_, rfl, h₂.nodes, h₂.faces, ⟨?_, ?_, ?_⟩, ?_⟩
    · have hlen := h₂.records.length
      rw [List.length_append, List.length_singleton] at hlen ⊢
      exact hlen
    · intro p hp
      rw [Mesh.properties_mapProperties, hprops] at hp
      cases hp
      show (rs ++ [FaceProperties.invalid]).set _ _ = _
      rw [hlast, List.set_append_right _ _ le_rfl, Nat.sub_self]
      rfl
    · intro hp
      rw [Mesh.properties_mapProperties, hprops] at hp
      cases hp
    · rw [Mesh.properties_mapProperties, hprops]
      rfl

/-- **A written triangle is read.** -/
theorem Partial.readTriangle (h : Partial nodes faces rs mesh) (hf : f.Readable nodes.length)
    (hnodes : nodes.length ≤ meshMaxCount) (hcount : faces.length < meshMaxCount)
    (hs : ReadsObjects reading path R objectIDs s) (hn : (R.map (·.uniqueID)).Nodup)
    (hid : property.1 < maxResourceID)
    (hindex : property.1 ≠ 0 → ∀ j, property.2 j < maxResourceIndex)
    (hrecord : Says R (orObjectLevel objectLevel property) r) :
    ∃ mesh', Reader.readTriangle path s objectLevel mesh
        (Writer.writeFaceData objectLevel f property) = .ok mesh' ∧
      Partial nodes (faces ++ [f]) (rs ++ [newRecord R (orObjectLevel objectLevel property)]) mesh' := by
  obtain ⟨n, hparse, hcorners, hproperties⟩ := parse_writeFaceData objectLevel hf hnodes
    hid hindex
  obtain ⟨mesh', hadd, h'⟩ := h.addFace_property hf hcount hs hn hrecord
  refine ⟨mesh', ?_, h'⟩
  have hretrieve : n.retrieveIndices mesh.nodes.length = .ok f.nodeIndices := by
    have hrange (j : Fin 3) := hf.1 j
    have h0 := hrange 0
    have h1 := hrange 1
    have h2 := hrange 2
    unfold TriangleNode.retrieveIndices
    rw [h.nodes, hcorners, if_neg (by omega), if_neg (by omega)]
    rfl
  unfold Reader.readTriangle
  rw [hparse, ok_bind, hretrieve, ok_bind, hproperties, hadd]

/-- Where a triangle has no property of its own, the default says what it is. -/
theorem says_orObjectLevel {d : FaceProperties}
    (hd : Says R (objectLevel.1, fun _ => objectLevel.2) d) (h : Says R property r) :
    Says R (orObjectLevel objectLevel property) (r.orElse d) := by
  unfold orObjectLevel FaceProperties.orElse
  by_cases h0 : property.1 = 0
  · rw [if_pos h0, if_pos (h.1.symm.trans h0)]
    exact hd
  · rw [if_neg h0, if_neg (h.1 ▸ h0)]
    exact h

/-- The bounds of what is said. -/
theorem says_bounds (hR : ∀ g ∈ R, g.uniqueID < maxResourceID ∧ g.group.getCount ≤ maxResourceIndex)
    (h : Says R property r) : property.1 < maxResourceID ∧
      (property.1 ≠ 0 → ∀ j, property.2 j < maxResourceIndex) := by
  by_cases h0 : property.1 = 0
  · exact ⟨by rw [h0]; decide, fun hne => absurd h0 hne⟩
  · obtain ⟨i, g, hi, hid, hk⟩ := h.2 (h.1 ▸ h0)
    obtain ⟨hlt, hcount⟩ := hR g (List.mem_of_getElem? hi)
    refine ⟨by rw [h.1, ← hid]; exact hlt, fun _ j => ?_⟩
    have hj := (List.getElem?_eq_some_iff.1 (hk j)).1
    rw [PropertyGroup.buildResourceIndexMap, SortedMap.size_keys] at hj
    exact Nat.lt_of_lt_of_le hj hcount

/-- **The written triangles are read.** -/
theorem Partial.readTriangles {newFaces : List MeshFace} {properties : List (Nat × (Fin 3 → Nat))}
    {records : List FaceProperties} {d : FaceProperties} (h : Partial nodes faces rs mesh)
    (hlen : newFaces.length = properties.length)
    (hf : ∀ f ∈ newFaces, f.Readable nodes.length) (hnodes : nodes.length ≤ meshMaxCount)
    (hcount : faces.length + newFaces.length ≤ meshMaxCount) (hs : ReadsObjects reading path R objectIDs s)
    (hn : (R.map (·.uniqueID)).Nodup)
    (hR : ∀ g ∈ R, g.uniqueID < maxResourceID ∧ g.group.getCount ≤ maxResourceIndex)
    (hd : Says R (objectLevel.1, fun _ => objectLevel.2) d)
    (hrecord : List.Forall₂ (Says R) properties records) :
    ∃ mesh', (List.zipWith (Writer.writeFaceData objectLevel) newFaces properties).foldlM
        (Reader.readTriangle path s objectLevel) mesh = .ok mesh' ∧
      Partial nodes (faces ++ newFaces)
        (rs ++ properties.map fun p => newRecord R (orObjectLevel objectLevel p)) mesh' := by
  induction hrecord generalizing newFaces faces rs mesh with
  | nil =>
    rw [List.eq_nil_of_length_eq_zero hlen]
    refine ⟨mesh, rfl, ?_⟩
    rw [List.append_nil, List.map_nil, List.append_nil]
    exact h
  | @cons property r properties records hp hps ih =>
    cases newFaces with
    | nil => cases hlen
    | cons f newFaces =>
      rw [List.length_cons] at hcount
      obtain ⟨hid, hindex⟩ := says_bounds hR hp
      obtain ⟨mesh₁, hread, h₁⟩ := h.readTriangle (hf f List.mem_cons_self) hnodes (by omega) hs hn
        hid hindex (says_orObjectLevel hd hp)
      obtain ⟨mesh', hreads, h'⟩ := ih h₁ (Nat.succ.inj hlen)
        (fun f hf' => hf f (List.mem_cons_of_mem _ hf'))
        (by rw [List.length_append, List.length_singleton]; omega)
      refine ⟨mesh', ?_, ?_⟩
      · rw [List.zipWith_cons_cons, List.foldlM_cons, hread, ok_bind, hreads]
      · rw [List.append_assoc, List.append_assoc] at h'
        exact h'

/-! ## Meshes -/

/-- A node whose printed coordinates a reader takes. -/
def Vec3InRange (v : Vec3) : Prop :=
  |v.x| ≤ meshMaxCoordinate ∧ |v.y| ≤ meshMaxCoordinate ∧ |v.z| ≤ meshMaxCoordinate

/-- **The vertices are read.** -/
theorem readVertices_ok (done : List Vec3) {vs : List Vec3} (hv : ∀ v ∈ vs, Vec3InRange v)
    (hcount : done.length + vs.length ≤ meshMaxCount) :
    vs.foldlM readVertex ⟨done, [], [], none⟩ = .ok ⟨done ++ vs, [], [], none⟩ := by
  induction vs generalizing done with
  | nil =>
    rw [List.append_nil]
    rfl
  | cons v vs ih =>
    obtain ⟨hx, hy, hz⟩ := hv v List.mem_cons_self
    rw [List.length_cons] at hcount
    have hrange : ¬ (meshMaxCoordinate < |v.x| ∨ meshMaxCoordinate < |v.y| ∨
        meshMaxCoordinate < |v.z|) := by
      rintro (h | h | h)
      · exact absurd h (not_lt.2 hx)
      · exact absurd h (not_lt.2 hy)
      · exact absurd h (not_lt.2 hz)
    have hread : readVertex ⟨done, [], [], none⟩ v = .ok ⟨done ++ [v], [], [], none⟩ := by
      unfold readVertex Mesh.addNode
      rw [if_neg hrange, if_neg hrange]
      exact if_neg (show ¬ meshMaxCount ≤ done.length by omega)
    rw [List.foldlM_cons, hread, ok_bind, ih _ (fun w hw => hv w (List.mem_cons_of_mem _ hw))
      (by rw [List.length_append, List.length_singleton]; omega), List.append_assoc]
    rfl

/-- A mesh that was read, with the records `rs` and the default `d`. -/
structure Complete (nodes : List Vec3) (faces : List MeshFace) (rs : List FaceProperties)
    (d : FaceProperties) (mesh : Mesh) : Prop where
  nodes : mesh.nodes = nodes
  faces : mesh.faces = faces
  records : mesh.Records rs
  default : MeshModel.defaultRecord mesh = d

/-- **The object-level default is read.** -/
theorem Partial.createDefaultProperties {d : FaceProperties} (h : Partial nodes faces rs mesh)
    (hs : ReadsObjects reading path R objectIDs s) (hn : (R.map (·.uniqueID)).Nodup)
    (hd : Says R (objectLevel.1, fun _ => objectLevel.2) d) :
    ∃ mesh', Reader.createDefaultProperties path s objectLevel mesh = .ok mesh' ∧
      Complete nodes faces rs (newRecord R (objectLevel.1, fun _ => objectLevel.2)) mesh' := by
  unfold Reader.createDefaultProperties
  by_cases h0 : objectLevel.1 = 0
  · rw [if_pos h0]
    refine ⟨mesh, rfl, h.nodes, h.faces, h.records, ?_⟩
    unfold MeshModel.defaultRecord newRecord
    rw [h.default, if_pos h0]
    rfl
  · obtain ⟨i, g, hi, hid, hk⟩ := hd.2 (hd.1 ▸ h0)
    have hplace := idxOf_uniqueID hn hi
    have hids : (R.map (·.uniqueID) ++ objectIDs)[i]? = some objectLevel.1 := by
      have hlt := (List.getElem?_eq_some_iff.1 hi).1
      rw [List.getElem?_append_left (by rw [List.length_map]; exact hlt), List.getElem?_map, hi,
        show objectLevel.1 = _ from hd.1, ← hid]
      rfl
    obtain ⟨x, g', hfind, -, hx⟩ := hs.reread.find? hi
    have hresource : s.model.findResource (i + 1) = some g'.group := by
      unfold MeshModel.findResource
      rw [hfind]
    have hindex : MeshModel.mapResourceIndexToPropertyID g'.group objectLevel.2 = _ :=
      hx.getElem?_keys (hk 0)
    obtain ⟨h₂, hprops⟩ := h.createPropertiesInformation
    rw [if_neg h0, hs.numbers.byPath i _ hids]
    dsimp only
    rw [hresource]
    dsimp only
    rw [hindex]
    refine ⟨_, rfl, h₂.nodes, h₂.faces, ⟨h₂.records.length, ?_, ?_⟩, ?_⟩
    · intro p hp
      rw [Mesh.properties_mapProperties, hprops] at hp
      cases hp
      rfl
    · intro hp
      rw [Mesh.properties_mapProperties, hprops] at hp
      cases hp
    · have hid' : objectLevel.1 = g.uniqueID := Eq.trans hd.1 hid.symm
      unfold MeshModel.defaultRecord newRecord
      rw [Mesh.properties_mapProperties, hprops, if_neg h0]
      dsimp only
      rw [hid', hplace]
      rfl

/-! ## Places -/

/-- The place of a property, by that of its resource. -/
theorem propertyPlace_of_getElem? {m : MeshModel V} (hn : (m.propertyResources.map (·.uniqueID)).Nodup)
    {i index k : Nat} {g : PropertyResource V} (hi : m.propertyResources[i]? = some g)
    (hk : g.group.buildResourceIndexMap[index]? = some k) :
    m.propertyPlace g.uniqueID k = some (i, index) := by
  obtain ⟨hlt, he⟩ := List.getElem?_eq_some_iff.1 hi
  have hfind : m.propertyResources.findIdx? (fun r => r.uniqueID = g.uniqueID) = some i := by
    rw [List.findIdx?_eq_some_iff_getElem]
    refine ⟨hlt, by simp [he], fun j hj => ?_⟩
    have hne : j ≠ i := by omega
    simp only [decide_eq_true_eq, ← he]
    intro hsame
    exact hne ((List.Nodup.of_map _ hn).getElem_inj_iff.1 (List.inj_on_of_nodup_map hn
      (List.getElem_mem _) (List.getElem_mem hlt) hsame))
  have hindex := idxOf?_eq_some (keys_nodup g.group) hk
  unfold MeshModel.propertyPlace
  simp only [hfind, hi, hindex, Option.bind_eq_bind, Option.bind_some, Option.pure_def]

/-- **The record that a triangle gets has the places of the record it was written from.** -/
theorem recordPlace_newRecord {m m' : MeshModel V}
    (hn : (m.propertyResources.map (·.uniqueID)).Nodup)
    (hm : Reread reading m.propertyResources m'.propertyResources)
    (h : Says m.propertyResources property r) (j : Fin 3) :
    m'.recordPlace (newRecord m.propertyResources property) j = m.recordPlace r j := by
  unfold newRecord MeshModel.recordPlace
  by_cases h0 : property.1 = 0
  · rw [if_pos h0, if_pos (h.1.symm.trans h0)]
    rfl
  · obtain ⟨i, g, hi, hid, hk⟩ := h.2 (h.1 ▸ h0)
    obtain ⟨x, g', hi', hx⟩ := hm.getElem? hi
    have hplace := propertyPlace_of_getElem? hm.uniqueIDs_nodup hi' (hx.getElem?_keys (hk j))
    rw [hx.uniqueID] at hplace
    rw [if_neg h0, if_neg (Nat.succ_ne_zero _), if_neg (h.1 ▸ h0), h.1, ← hid, idxOf_uniqueID hn hi,
      propertyPlace_of_getElem? hn hi (hk j)]
    exact hplace

theorem resourceID_newRecord : (newRecord R property).resourceID = 0 ↔ property.1 = 0 := by
  unfold newRecord
  by_cases h0 : property.1 = 0
  · rw [if_pos h0]
    exact iff_of_true rfl h0
  · rw [if_neg h0]
    exact iff_of_false (Nat.succ_ne_zero _) h0

/-- What a face resolves to once it is read. -/
theorem effectivePlace_newRecord {m m' : MeshModel V} {mesh' : Mesh} {i : Nat} {d : FaceProperties}
    (hn : (m.propertyResources.map (·.uniqueID)).Nodup)
    (hm : Reread reading m.propertyResources m'.propertyResources)
    (hd : Says m.propertyResources (objectLevel.1, fun _ => objectLevel.2) d)
    (h : Says m.propertyResources property r)
    (hi : mesh'.record i = newRecord m.propertyResources (orObjectLevel objectLevel property))
    (hdefault : MeshModel.defaultRecord mesh' =
      newRecord m.propertyResources (objectLevel.1, fun _ => objectLevel.2)) (j : Fin 3) :
    m'.effectivePlace mesh' i j = m.recordPlace (r.orElse d) j := by
  have hplace := recordPlace_newRecord hn hm (says_orObjectLevel hd h) j
  unfold MeshModel.effectivePlace MeshModel.defaultPlace
  rw [hi, hdefault]
  split_ifs with hz
  · have h0 := resourceID_newRecord.1 hz
    -- neither the face nor the object has a property
    have hlevel : objectLevel.1 = 0 := by
      unfold orObjectLevel at h0
      split_ifs at h0 with hp
      · exact h0
      · exact absurd h0 hp
    rw [← hplace]
    unfold MeshModel.recordPlace
    rw [if_pos (resourceID_newRecord.2 hlevel), if_pos hz]
  · exact hplace

/-- The object-level default says the same at each corner. -/
def UniformDefault (m : MeshModel V) (mesh : Mesh) : Prop :=
  ∀ j, m.defaultPlace mesh j = m.defaultPlace mesh 0

/-- **The properties of a mesh that was read** are those of the mesh that was written exactly when its
default is the same at each corner. -/
theorem sameProperties_iff {m m' : MeshModel V} {o : MeshObject} {uniqueID : Nat} {mesh' : Mesh}
    {properties : List (Nat × (Fin 3 → Nat))}
    (hn : (m.propertyResources.map (·.uniqueID)).Nodup)
    (hm : Reread reading m.propertyResources m'.propertyResources)
    (hd : Says m.propertyResources (objectLevel.1, fun _ => objectLevel.2) (firstDefault o.mesh))
    (hp : List.Forall₂ (Says m.propertyResources) properties o.mesh.records)
    (hc : Complete nodes o.mesh.faces
      (properties.map fun p => newRecord m.propertyResources (orObjectLevel objectLevel p))
      (newRecord m.propertyResources (objectLevel.1, fun _ => objectLevel.2)) mesh') :
    m.SameProperties o m' ⟨uniqueID, mesh'⟩ ↔ UniformDefault m o.mesh := by
  have hfirst (j : Fin 3) : m'.defaultPlace mesh' j = m.defaultPlace o.mesh 0 := by
    unfold MeshModel.defaultPlace
    rw [hc.default, recordPlace_newRecord hn hm hd]
    rfl
  refine ⟨fun h j => (h.default j).symm.trans (hfirst j), fun hu => ⟨hc.faces, fun j => ?_,
    fun i hi j => ?_⟩⟩
  · exact (hfirst j).trans (hu j).symm
  · obtain ⟨p, hpi⟩ : ∃ p, properties[i]? = some p := by
      have hlen := hp.length_eq
      rw [Mesh.records, List.length_map, List.length_range] at hlen
      exact ⟨_, List.getElem?_eq_getElem (hlen ▸ hi)⟩
    have hrecord {mesh : Mesh} (hi : i < mesh.faces.length) :
        mesh.records[i]? = some (mesh.record i) := by
      rw [Mesh.records, List.getElem?_map, List.getElem?_range hi]
      rfl
    have hface : Says m.propertyResources p (o.mesh.record i) := by
      obtain ⟨hlt, rfl⟩ := List.getElem?_eq_some_iff.1 hpi
      obtain ⟨hlt', he⟩ := List.getElem?_eq_some_iff.1 (hrecord hi)
      rw [← he]
      exact (List.forall₂_iff_get.1 hp).2 i hlt hlt'
    have hnew : mesh'.record i =
        newRecord m.propertyResources (orObjectLevel objectLevel p) := by
      have hi' := hrecord (hc.faces.symm ▸ hi : i < mesh'.faces.length)
      rw [hc.records.eq, List.getElem?_map, hpi] at hi'
      exact (Option.some.inj hi').symm
    rw [show MeshObject.mesh ⟨uniqueID, mesh'⟩ = mesh' from rfl,
      effectivePlace_newRecord hn hm hd hface hnew hc.default]
    unfold FaceProperties.orElse MeshModel.effectivePlace
    split_ifs with h0
    · exact (hu j).symm
    · rfl

/-! ## Objects -/

/-- A mesh object that a reader takes: the printed coordinates are in range, the faces name three
nodes each, and the ID is not printed as `-1`. -/
structure ReadableObject (printed : ℚ → ℚ) (o : MeshObject) : Prop where
  nodes : ∀ v ∈ o.mesh.nodes, Vec3InRange (Writer.writeVertexData printed v)
  faces : ∀ f ∈ o.mesh.faces, f.Readable o.mesh.nodes.length
  uniqueID : o.uniqueID ≠ 2 ^ 32 - 1

/-- An object as it was written and read. -/
def Rewritten (reading : PropertyReading V) (printed : ℚ → ℚ) (m : MeshModel V)
    (o o' : MeshObject) : Prop :=
  o'.mesh.nodes = o.mesh.nodes.map (Writer.writeVertexData printed) ∧ o'.mesh.faces = o.mesh.faces ∧
    ∀ m' : MeshModel V, Reread reading m.propertyResources m'.propertyResources →
      (m.SameProperties o m' o' ↔ UniformDefault m o.mesh)

/-- The state behind an object that is added last. -/
theorem ReadsObjects.addObject {id : Nat}
    (hs : ReadsObjects reading path R (objectIDs ++ [id]) s) (mesh : Mesh) :
    ReadsObjects reading path R (objectIDs ++ [id])
      (Reader.addObject s (R.length + objectIDs.length + 1) mesh) := by
  refine ⟨hs.numbers, hs.reread, fun o ho => ?_⟩
  rcases List.mem_append.1 ho with ho | ho
  · exact hs.objects o ho
  · rw [List.mem_singleton.1 ho, List.length_append, List.length_singleton]
    exact le_rfl

/-- The number behind those of all objects is that of no resource. -/
theorem ReadsObjects.findResource_next (hs : ReadsObjects reading path R objectIDs s) :
    (s.model.findResource (R.length + objectIDs.length + 1)).isSome = false := by
  unfold MeshModel.findResource
  rw [hs.reread.find?_eq_none (by omega)]
  dsimp only
  rw [if_neg]
  · rfl
  · rintro ⟨o, ho, heq⟩
    have := hs.objects o ho
    omega

/-- **A written object is read.** -/
theorem readObject_written {m : MeshModel V} {o : MeshObject} {e : ObjectElement} {printed : ℚ → ℚ}
    (hn : (m.propertyResources.map (·.uniqueID)).Nodup)
    (hR : ∀ g ∈ m.propertyResources,
      g.uniqueID < maxResourceID ∧ g.group.getCount ≤ maxResourceIndex)
    (hmap : Mapped mapping m.propertyResources)
    (hs : ReadsObjects reading path m.propertyResources objectIDs s)
    (hid : 0 < o.uniqueID ∧ o.uniqueID < 2 ^ 32)
    (hnew : o.uniqueID ∉ m.propertyResources.map (·.uniqueID) ++ objectIDs)
    (hlen : m.propertyResources.length + objectIDs.length + 1 < 2 ^ 32)
    (hnodes : o.mesh.nodes.length ≤ meshMaxCount) (hfaces : o.mesh.faces.length ≤ meshMaxCount)
    (ho : ReadableObject printed o) (hw : Writer.writeObject printed mapping o = .ok e) :
    ∃ s' o', Reader.readObject path s e = .ok s' ∧
      ReadsObjects reading path m.propertyResources (objectIDs ++ [o.uniqueID]) s' ∧
      s'.model.objects = s.model.objects ++ [o'] ∧ Rewritten reading printed m o o' := by
  unfold Writer.writeObject at hw
  obtain ⟨objectLevel, hlevel, hw⟩ := bind_eq_ok.1 hw
  obtain ⟨triangles, htriangles, hw⟩ := bind_eq_ok.1 hw
  obtain rfl := Except.ok.inj hw
  unfold Writer.writeTriangles at htriangles
  rw [hlevel, ok_bind] at htriangles
  obtain ⟨properties, hproperties, htriangles⟩ := bind_eq_ok.1 htriangles
  obtain ⟨-, htriangles⟩ := guard_eq_ok.1 htriangles
  obtain rfl := Except.ok.inj htriangles
  -- what the writer says
  have hd := objectLevelProperty_ok hn hmap hlevel
  have hrecord : List.Forall₂ (Says m.propertyResources) properties o.mesh.records := by
    rw [Mesh.records, List.forall₂_map_right_iff]
    exact ((mapM_eq_ok.1 hproperties).imp fun i p hp => faceProperty_ok hn hmap hp).flip
  have hcount : o.mesh.faces.length = properties.length := by
    have hlen := hrecord.length_eq
    rw [Mesh.records, List.length_map, List.length_range] at hlen
    exact hlen.symm
  -- the object-level attributes
  have hprinted {v : Nat} (hv : v < maxResourceIndex) :
      fnStringToUint32 (writeIntAttribute v) = .ok v := by
    unfold maxResourceIndex at hv
    rw [fnStringToUint32_writeIntAttribute (by omega), if_neg (by omega)]
  obtain ⟨hlevelID, hlevelIndex⟩ := says_bounds hR hd
  dsimp only at hlevelID hlevelIndex
  have hpid : (if objectLevel.1 = 0 then none else some (writeIntAttribute objectLevel.1)).elim (.ok 0)
      fnStringToUint32 = .ok objectLevel.1 := by
    split_ifs with h0
    · rw [h0]
      rfl
    · rw [Option.elim_some]
      exact hprinted (by rw [← maxResourceID_eq]; exact hlevelID)
  have hpindex : (if objectLevel.1 = 0 then none else some (writeIntAttribute objectLevel.2)).elim
      (.ok 0) fnStringToUint32 = .ok objectLevel.2 := by
    split_ifs with h0
    · rw [objectLevelProperty_zero hlevel h0]
      rfl
    · rw [Option.elim_some]
      exact hprinted (hlevelIndex h0 0)
  have huid : fnStringToUint32 (writeIntAttribute o.uniqueID) = .ok o.uniqueID := by
    rw [fnStringToUint32_writeIntAttribute hid.2, if_neg ho.uniqueID]
  -- the ID
  obtain ⟨handler, hget, hnumbers⟩ := hs.numbers.next hnew (by
    rw [List.length_append, List.length_map]
    exact hlen)
  rw [List.length_append, List.length_map] at hget
  have hs₁ : ReadsObjects reading path m.propertyResources (objectIDs ++ [o.uniqueID])
      { s with resourceHandler := handler } := by
    refine ⟨by rw [← List.append_assoc]; exact hnumbers, hs.reread, fun o' ho' => ?_⟩
    have := hs.objects o' ho'
    rw [List.length_append]
    omega
  -- the mesh
  have hinRange : ∀ v ∈ o.mesh.nodes.map (Writer.writeVertexData printed), Vec3InRange v := by
    intro v hv
    obtain ⟨w, hw, rfl⟩ := List.mem_map.1 hv
    exact ho.nodes w hw
  have hvertices := readVertices_ok [] hinRange (by rw [List.length_map, List.length_nil, Nat.zero_add]; exact hnodes)
  have hpartial : Partial (o.mesh.nodes.map (Writer.writeVertexData printed)) [] []
      ⟨o.mesh.nodes.map (Writer.writeVertexData printed), [], [], none⟩ :=
    ⟨rfl, rfl, Mesh.records_empty.congr rfl rfl, rfl⟩
  obtain ⟨mesh₁, htris, h₁⟩ := hpartial.readTriangles hcount
    (by rw [List.length_map]; exact ho.faces) (by rw [List.length_map]; exact hnodes)
    (by rw [List.length_nil, Nat.zero_add]; exact hfaces) hs₁ hn hR hd hrecord
  obtain ⟨mesh', hdefault, h'⟩ := h₁.createDefaultProperties (hs₁.addObject mesh₁) hn hd
  rw [List.nil_append, List.nil_append] at h'
  refine ⟨addObject { s with resourceHandler := handler } (m.propertyResources.length +
    objectIDs.length + 1) mesh', ⟨_, mesh'⟩, ?_, hs₁.addObject mesh', rfl, h'.nodes, h'.faces,
    fun m' hm' => sameProperties_iff hn hm' hd hrecord h'⟩
  have hmesh (e : ObjectElement)
      (hv : e.vertices = o.mesh.nodes.map (Writer.writeVertexData printed))
      (ht : e.triangles = List.zipWith (Writer.writeFaceData objectLevel) o.mesh.faces properties) :
      readMesh path { s with resourceHandler := handler } objectLevel e = .ok mesh₁ := by
    unfold readMesh
    rw [hv, ht, Mesh.empty, hvertices, ok_bind, List.nil_append, htris]
  unfold Reader.readObject
  rw [huid, ok_bind, hpid, ok_bind, hpindex, ok_bind, if_neg (Nat.pos_iff_ne_zero.1 hid.1), hget,
    ok_bind]
  dsimp only
  rw [hmesh _ rfl rfl, ok_bind, hs.findResource_next, if_neg Bool.false_ne_true, hdefault, ok_bind]
  rfl

/-- **The written objects are read**, one after the other. -/
theorem readObjects_written {m : MeshModel V} {O : List MeshObject} {es : List ObjectElement}
    {printed : ℚ → ℚ} (hn : (m.propertyResources.map (·.uniqueID)).Nodup)
    (hR : ∀ g ∈ m.propertyResources,
      g.uniqueID < maxResourceID ∧ g.group.getCount ≤ maxResourceIndex)
    (hmap : Mapped mapping m.propertyResources)
    (hs : ReadsObjects reading path m.propertyResources objectIDs s)
    (hid : ∀ o ∈ O, 0 < o.uniqueID ∧ o.uniqueID < 2 ^ 32)
    (hnew : (m.propertyResources.map (·.uniqueID) ++ objectIDs ++ O.map (·.uniqueID)).Nodup)
    (hlen : m.propertyResources.length + objectIDs.length + O.length < 2 ^ 32)
    (hcount : ∀ o ∈ O, o.mesh.nodes.length ≤ meshMaxCount ∧ o.mesh.faces.length ≤ meshMaxCount)
    (ho : ∀ o ∈ O, ReadableObject printed o)
    (hw : O.mapM (Writer.writeObject printed mapping) = .ok es) :
    ∃ s' O', es.foldlM (Reader.readObject path) s = .ok s' ∧
      ReadsObjects reading path m.propertyResources (objectIDs ++ O.map (·.uniqueID)) s' ∧
      s'.model.objects = s.model.objects ++ O' ∧ List.Forall₂ (Rewritten reading printed m) O O' := by
  induction O generalizing s objectIDs es with
  | nil =>
    cases hw
    refine ⟨s, [], rfl, ?_, (List.append_nil _).symm, .nil⟩
    rw [List.map_nil, List.append_nil]
    exact hs
  | cons o O ih =>
    rw [mapM_eq_ok, List.forall₂_cons_left_iff] at hw
    obtain ⟨e, es, he, hes, rfl⟩ := hw
    obtain ⟨hnodes, hfaces⟩ := hcount o List.mem_cons_self
    rw [List.length_cons] at hlen
    rw [List.map_cons] at hnew
    have hfresh : o.uniqueID ∉ m.propertyResources.map (·.uniqueID) ++ objectIDs := fun hmem =>
      (List.nodup_append.1 hnew).2.2 _ hmem _ List.mem_cons_self rfl
    obtain ⟨s₁, o', hread, hs₁, hobjects, ho'⟩ := readObject_written hn hR hmap hs
      (hid o List.mem_cons_self) hfresh (by omega) hnodes hfaces (ho o List.mem_cons_self) he
    obtain ⟨s', O', hreads, hs', hobjects', hO'⟩ := ih hs₁
      (fun o ho => hid o (List.mem_cons_of_mem _ ho))
      (by rw [← List.append_assoc, List.append_assoc _ [o.uniqueID]]; exact hnew)
      (by rw [List.length_append, List.length_singleton]; omega)
      (fun o ho => hcount o (List.mem_cons_of_mem _ ho))
      (fun o ho' => ho o (List.mem_cons_of_mem _ ho')) (mapM_eq_ok.2 hes)
    refine ⟨s', o' :: O', ?_, ?_, ?_, .cons ho' hO'⟩
    · rw [List.foldlM_cons, hread, ok_bind, hreads]
    · rw [List.append_assoc] at hs'
      exact hs'
    · rw [hobjects', hobjects, List.append_assoc]
      rfl

/-- There are fewer unique IDs than 32 bits have. -/
theorem length_uniqueIDs {m : MeshModel V} (hv : m.Valid) :
    m.propertyResources.length + m.objects.length < 2 ^ 32 := by
  have hnodup : (0 :: m.uniqueIDs).Nodup :=
    List.nodup_cons.2 ⟨fun h0 => absurd (hv.bounds 0 h0).1 (Nat.lt_irrefl 0), hv.nodup⟩
  have hsub : 0 :: m.uniqueIDs ⊆ List.range (2 ^ 32) := by
    intro id hid
    rw [List.mem_range]
    rcases List.mem_cons.1 hid with rfl | hid
    · exact Nat.two_pow_pos 32
    · exact (hv.bounds id hid).2
  have hle := (List.subperm_of_subset hnodup hsub).length_le
  rw [List.length_range, List.length_cons, MeshModel.uniqueIDs, List.length_append, List.length_map,
    List.length_map] at hle
  omega

/-- What the plain writer writes of a valid model is read where the content of the property resources
is: each mesh has its printed nodes and its faces, and the faces resolve at each corner to the
properties at the places they had, with the same default, exactly when the default is the same at
each corner. -/
theorem resources_reread (reading : PropertyReading V) {m : MeshModel V} {e : ResourcesElement E}
    {printed : ℚ → ℚ} {path : String}
    {write : PropertyIndexMapping → PropertyResource V → Except Error E}
    {read : String → ReaderState V → E → Except Error (ReadProperties V)} (hv : m.Valid)
    (hids : ∀ g ∈ m.propertyResources, g.uniqueID < maxResourceID)
    (ho : ∀ o ∈ m.objects, ReadableObject printed o)
    (hw : Writer.writeResources write printed m = .ok e)
    (hreads : WrittenElements write m.propertyResources e.propertyResources →
      Reads read path m.propertyResources e.propertyResources reading)
    (hresult : ∀ g ∈ m.propertyResources, (reading.result g).isSome) :
    ∃ s, Reader.readResources read path e = .ok s ∧
      List.Forall₂ (fun o o' => o'.mesh.nodes = o.mesh.nodes.map (Writer.writeVertexData printed) ∧
        o'.mesh.faces = o.mesh.faces ∧ (m.SameProperties o s.model o' ↔ UniformDefault m o.mesh))
        m.objects s.model.objects := by
  have hnodup := hv.nodup
  have hlen := length_uniqueIDs hv
  unfold MeshModel.uniqueIDs at hnodup
  have hn := (List.nodup_append.1 hnodup).1
  unfold Writer.writeResources at hw
  obtain ⟨written, hwritten, hw⟩ := bind_eq_ok.1 hw
  obtain ⟨objects, hobjects, hw⟩ := bind_eq_ok.1 hw
  obtain rfl := Except.ok.inj hw
  obtain ⟨hmap, helements⟩ := writePropertyResources_ok hn hwritten
  have hbounds (g : PropertyResource V) (hg : g ∈ m.propertyResources) :=
    hv.bounds g.uniqueID (List.mem_append_left _ (List.mem_map_of_mem hg))
  obtain ⟨hok, hread⟩ := readPropertyResources_written helements (hreads helements) hn hbounds
    hv.count (by omega)
  obtain ⟨s₀, hs₀⟩ := hok.2 fun g hg => ⟨by
    have := hids g hg
    unfold maxResourceID at this
    omega, hresult g hg⟩
  have hresources := hread s₀ hs₀
  have hstart : ReadsObjects reading path m.propertyResources [] s₀ := by
    refine ⟨by rw [List.append_nil]; exact hresources.numbers, hresources.reread, fun o ho => ?_⟩
    rw [hresources.objects] at ho
    cases ho
  obtain ⟨s, O', hreads, hs, hmodel, hO'⟩ := readObjects_written hn
    (fun g hg => ⟨hids g hg, hv.count g hg⟩) hmap hstart
    (fun o ho => hv.bounds o.uniqueID (List.mem_append_right _ (List.mem_map_of_mem ho)))
    (by rw [List.append_nil]; exact hnodup) (by rw [List.length_nil]; omega)
    (fun o ho => ⟨hv.nodes o ho, hv.faces o ho⟩) ho hobjects
  rw [hresources.objects, List.nil_append] at hmodel
  refine ⟨s, (congrArg (· >>= _) hs₀).trans hreads, ?_⟩
  rw [hmodel]
  exact hO'.imp fun o o' h => ⟨h.1, h.2.1, h.2.2 s.model hs.reread⟩

/-- A triangle with a colour, and one with three. -/
def colored : MeshModel ModelProperty :=
  ⟨[⟨1, .colorGroup, 0, ⟨(SortedMap.empty.insert 1 (.color 255)).insert 3 (.color 128), 4⟩⟩],
    [⟨2, ⟨[⟨0, 0, 0⟩, ⟨1, 0, 0⟩, ⟨0, 1, 0⟩], [⟨![0, 1, 2]⟩, ⟨![0, 2, 1]⟩], [],
      some ⟨some ⟨some ⟨1, fun _ => 3⟩, [.invalid, ⟨1, ![1, 3, 1]⟩]⟩⟩⟩⟩]⟩

end Reader

end NMR
