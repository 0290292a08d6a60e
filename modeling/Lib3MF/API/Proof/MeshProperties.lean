import Lib3MF.Lib.Run
import Lib3MF.API.MeshProperties
import Lib3MF.API.Proof.MeshObject
import Lib3MF.Model.Proof.PropertyResources

/-!
# When a mesh with properties can be written

The writer asks for an object-level property of a mesh with a property on some face
(`writeTriangles_iff`, `ObjectLevelOk`). The calls that edit the geometry leave the records or drop
all of them (`edits_next`). Of the others, `PropertyGuard` says exactly when a call keeps the rule
(`objectLevelOk_next_iff`): a face gets a property only where there is an object-level one, or the
first entry of all gives it. The meshes of a run can all be written when all its calls meet the
guard, and only then (`meshes_written_iff`).
-/

namespace NMR

open Lib

variable {V E : Type} {R : List (PropertyResource V)}

/-- The record is of no property, or of properties of an existing resource. -/
def FaceProperties.ExistsIn (R : List (PropertyResource V)) (p : FaceProperties) : Prop :=
  p.resourceID = 0 ∨ ∀ j, ∃ r ∈ R, r.uniqueID = p.resourceID ∧
    p.propertyIDs j ∈ r.group.buildResourceIndexMap

namespace EditedMesh

variable {m m' : EditedMesh} {p : MeshInformationProperties}

@[simp] theorem information_withInformation : (m.withInformation p).information = p := rfl

@[simp] theorem faces_withInformation : (m.withInformation p).faces = m.faces := rfl

@[simp] theorem withInformation_withInformation {q : MeshInformationProperties} :
    (m.withInformation p).withInformation q = m.withInformation q := rfl

/-- Some face has a property. -/
def HasProperty (m : EditedMesh) : Prop := ∃ r ∈ m.information.faceData, r.resourceID ≠ 0

/-- There is an object-level property. -/
def HasObjectLevel (m : EditedMesh) : Prop := ∃ d ∈ m.information.defaultData, d.resourceID ≠ 0

/-- A mesh with a property on some face has an object-level property. -/
def ObjectLevelOk (m : EditedMesh) : Prop := m.HasProperty → m.HasObjectLevel

instance (m : EditedMesh) : Decidable m.HasProperty :=
  inferInstanceAs (Decidable (∃ _ ∈ _, _))

instance (m : EditedMesh) : Decidable m.HasObjectLevel :=
  inferInstanceAs (Decidable (∃ _ ∈ _, _))

/-- A record a face, all of them of existing properties. -/
structure SoundRecords (R : List (PropertyResource V)) (m : EditedMesh) : Prop where
  aligned : m.information.faceData.length = m.faces.length
  faces : ∀ r ∈ m.information.faceData, r.ExistsIn R
  default : ∀ d ∈ m.information.defaultData, d.ExistsIn R

/-! ## Calls that edit the geometry -/

/-- The records are as they were, or there is an empty one for a new face, or all are empty. -/
inductive Edits (m m' : EditedMesh) : Prop where
  | same (hi : m'.information = m.information) (hf : m'.faces.length = m.faces.length)
  | added (hi : m'.information =
        { m.information with faceData := m.information.faceData ++ [.invalid] })
      (hf : m'.faces.length = m.faces.length + 1)
  | reset (hi : m'.information = ⟨none, .replicate m'.faces.length .invalid⟩)

theorem existsIn_invalid : FaceProperties.invalid.ExistsIn R := .inl rfl

theorem Edits.sound (h : Edits m m') (hm : SoundRecords R m) : SoundRecords R m' := by
  cases h with
  | same hi hf => exact ⟨by rw [hi, hf, hm.aligned], by rw [hi]; exact hm.faces, by
      rw [hi]; exact hm.default⟩
  | added hi hf =>
    refine ⟨by rw [hi, hf, List.length_append, hm.aligned]; rfl, fun r hr => ?_, by
      rw [hi]; exact hm.default⟩
    rw [hi] at hr
    rcases List.mem_append.1 hr with hr | hr
    · exact hm.faces r hr
    · rw [List.mem_singleton.1 hr]
      exact existsIn_invalid
  | reset hi =>
    refine ⟨by rw [hi]; exact List.length_replicate, fun r hr => ?_, fun d hd => ?_⟩
    · rw [hi] at hr
      rw [List.eq_of_mem_replicate hr]
      exact existsIn_invalid
    · rw [hi] at hd
      cases hd

theorem Edits.objectLevelOk (h : Edits m m') (hm : ObjectLevelOk m) : ObjectLevelOk m' := by
  intro ⟨r, hr, hne⟩
  unfold HasObjectLevel
  cases h with
  | same hi hf =>
    rw [hi] at hr ⊢
    exact hm ⟨r, hr, hne⟩
  | added hi hf =>
    rw [hi] at hr ⊢
    rcases List.mem_append.1 hr with hr | hr
    · exact hm ⟨r, hr, hne⟩
    · rw [List.mem_singleton.1 hr] at hne
      exact absurd rfl hne
  | reset hi =>
    rw [hi] at hr
    rw [List.eq_of_mem_replicate hr] at hne
    exact absurd rfl hne

theorem Edits.refl (m : EditedMesh) : Edits m m := .same rfl rfl

/-- The records of a mesh without any. -/
theorem information_of_none (h : m.meshInformationHandler = none) :
    m.information = ⟨none, .replicate m.faces.length .invalid⟩ := by
  unfold information
  rw [h]
  rfl

theorem edits_of_handler (hh : m'.meshInformationHandler = m.meshInformationHandler)
    (hf : m'.faces.length = m.faces.length) : Edits m m' :=
  .same (by unfold information; rw [hh, hf]) hf

theorem information_of_some {h : MeshInformationHandler} (hh : m.meshInformationHandler = some h)
    (hp : h.properties = some p) : m.information = p := by
  unfold information
  rw [hh]
  show h.properties.getD _ = p
  rw [hp]
  rfl

theorem information_of_empty {h : MeshInformationHandler} (hh : m.meshInformationHandler = some h)
    (hp : h.properties = none) :
    m.information = ⟨none, .replicate m.faces.length .invalid⟩ := by
  unfold information
  rw [hh]
  show h.properties.getD _ = _
  rw [hp]
  rfl

/-- A face is added with an empty record. -/
theorem edits_allocFace (nodeIndices : Fin 3 → Int)
    (hm : m.information.faceData.length = m.faces.length) :
    Edits m (finalState (allocFace nodeIndices m)) := by
  by_cases hmax : meshMaxCount ≤ m.faces.length
  · have hcall : allocFace nodeIndices m = .error .tooManyFaces m := if_pos hmax
    rw [hcall]
    exact .refl m
  · have hlen : (m.faces ++ [(⟨nodeIndices⟩ : MeshFace)]).length = m.faces.length + 1 := by simp
    cases hh : m.meshInformationHandler with
    | none =>
      have hcall : allocFace nodeIndices m =
          .ok () { m with faces := m.faces ++ [⟨nodeIndices⟩] } := by
        unfold allocFace
        rw [if_neg hmax]
        simp only [hh]
      rw [hcall]
      refine .added ?_ hlen
      rw [information_of_none hh]
      refine (@information_of_none { m with faces := m.faces ++ [⟨nodeIndices⟩] } hh).trans ?_
      show MeshInformationProperties.mk none (.replicate (m.faces ++ [_]).length _) = _
      rw [hlen, List.replicate_succ']
    | some h =>
      cases hp : h.properties with
      | none =>
        have hadd (n : Nat) : Mesh.MeshInformationHandler.addFace h n = .ok h := by
          unfold Mesh.MeshInformationHandler.addFace
          rw [hp]
        have hcall : allocFace nodeIndices m =
            .ok () { m with faces := m.faces ++ [⟨nodeIndices⟩], meshInformationHandler := some h } := by
          unfold allocFace
          rw [if_neg hmax]
          simp only [hh, hadd]
        rw [hcall]
        refine .added ?_ hlen
        rw [information_of_empty hh hp]
        refine (information_of_empty rfl hp).trans ?_
        show MeshInformationProperties.mk none (.replicate (m.faces ++ [_]).length _) = _
        rw [hlen, List.replicate_succ']
      | some p =>
        rw [information_of_some hh hp] at hm
        have hadd : Mesh.MeshInformationHandler.addFace h (m.faces ++ [(⟨nodeIndices⟩ : MeshFace)]).length =
            .ok ⟨some { p with faceData := p.faceData ++ [.invalid] }⟩ := by
          unfold Mesh.MeshInformationHandler.addFace
          rw [hp]
          dsimp only
          rw [if_neg (by rw [hlen, hm]; exact fun h => h rfl)]
        have hcall : allocFace nodeIndices m = .ok () { m with
            faces := m.faces ++ [⟨nodeIndices⟩],
            meshInformationHandler := some ⟨some { p with faceData := p.faceData ++ [.invalid] }⟩ } := by
          unfold allocFace
          rw [if_neg hmax]
          simp only [hh, hadd]
        rw [hcall]
        refine .added ?_ hlen
        rw [information_of_some hh hp]
        rfl

/-- Without records there are none after a call either. -/
def KeepsNone (m m' : EditedMesh) : Prop :=
  m.meshInformationHandler = none → m'.meshInformationHandler = none

theorem keepsNone_refl (m : EditedMesh) : KeepsNone m m := id

theorem keepsNone_trans (m₁ m₂ m₃ : EditedMesh) (h₁ : KeepsNone m₁ m₂) (h₂ : KeepsNone m₂ m₃) :
    KeepsNone m₁ m₃ := fun h => h₂ (h₁ h)

theorem keepsNone_addNode (p : Position) : Frames KeepsNone (addNode p) := by
  intro m
  unfold addNode
  split_ifs
  · exact id
  · exact id
  · exact id

theorem keepsNone_allocFace (nodeIndices : Fin 3 → Int) :
    Frames KeepsNone (allocFace nodeIndices) := by
  intro m hh
  unfold allocFace
  split_ifs
  · exact hh
  · simp only [hh]
    rfl

theorem keepsNone_getCorner (n : Nat) (i : UInt32) : Frames KeepsNone (getCorner n i) := by
  intro m
  rcases getCorner_eq m n i with ⟨h, -⟩ | ⟨e, h⟩
  · rw [h]; exact id
  · rw [h]; exact id

theorem keepsNone_geometryTriangle (n : Nat) (t : Triangle) :
    Frames KeepsNone (addGeometryTriangle n t) := by
  unfold addGeometryTriangle
  refine .bind keepsNone_trans (keepsNone_getCorner n _) fun node0 => ?_
  refine .bind keepsNone_trans (keepsNone_getCorner n _) fun node1 => ?_
  refine .bind keepsNone_trans (keepsNone_getCorner n _) fun node2 => ?_
  split_ifs
  · exact .throw keepsNone_refl _
  · intro m
    unfold addFaceOfNodes
    split_ifs
    · exact id
    · exact keepsNone_allocFace _ m

theorem keepsNone_geometryVertex (p : Position) : Frames KeepsNone (addGeometryVertex p) := by
  intro m
  unfold addGeometryVertex
  split_ifs
  · exact id
  · exact keepsNone_addNode p m

/-- `SetGeometry` drops all records, unless it is refused at once. -/
theorem edits_setGeometry (vertices : Option (List Position)) (triangles : Option (List Triangle)) :
    Edits m (finalState (setGeometry vertices triangles m)) := by
  rcases vertices with _ | vertices
  · exact .refl m
  · rcases triangles with _ | triangles
    · exact .refl m
    · have hkeeps : Frames KeepsNone ((do
          vertices.forM addGeometryVertex
          triangles.forM (addGeometryTriangle vertices.length)) : EditedMeshM Unit) :=
        .bind keepsNone_trans (.forM keepsNone_refl keepsNone_trans keepsNone_geometryVertex vertices)
          fun _ => .forM keepsNone_refl keepsNone_trans (keepsNone_geometryTriangle _) triangles
      exact .reset (information_of_none (hkeeps { m with
        nodes := [], faces := [], beams := [], meshInformationHandler := none } rfl))

/-- The calls on the geometry, and those that drop or only read the records. -/
theorem edits_next (hm : m.information.faceData.length = m.faces.length) {c : PropertyCall}
    (hc : match c with
      | .setTriangleProperties .. | .setAllTriangleProperties .. | .setObjectLevelProperty .. => False
      | _ => True) : Edits m (finalState (propertyCall c m)) := by
  cases c with
  | addVertex p =>
    show Edits m (finalState (addNode p m))
    unfold addNode
    split_ifs
    · exact .refl m
    · exact .refl m
    · exact edits_of_handler rfl rfl
  | addTriangle t =>
    show Edits m (finalState (addFace (fun j => nfInt32 (t j)) m))
    unfold addFace
    split_ifs
    · exact .refl m
    · exact edits_allocFace _ hm
  | setVertex i p =>
    show Edits m (finalState ((getNode i.toNat >>= _) m))
    rcases getNode_eq m i.toNat with ⟨h, -⟩ | h
    · rw [bind_of_ok h]
      exact edits_of_handler rfl rfl
    · rw [bind_of_error h]
      exact .refl m
  | setTriangle i t =>
    show Edits m (finalState (setTriangle i t m))
    unfold setTriangle
    split_ifs
    · exact edits_of_handler rfl List.length_set
    · exact .refl m
  | setGeometry vertices triangles => exact edits_setGeometry vertices triangles
  | getProperties => exact .same rfl rfl
  | setTriangleProperties i p => exact hc.elim
  | setAllTriangleProperties ps null => exact hc.elim
  | setObjectLevelProperty r p => exact hc.elim
  | clearAllProperties => exact .reset rfl

/-! ## Calls that set properties -/

theorem setFaceData_of_lt {i : Nat} {r : FaceProperties} (h : i < m.information.faceData.length) :
    setFaceData i r m = .ok () (m.withInformation
      { m.information with faceData := m.information.faceData.set i r }) :=
  if_neg (Nat.not_le.2 h)

/-- `SetTriangleProperties` stores the record of an existing face. -/
theorem information_setTriangleProperties (i : UInt32) (r : FaceProperties) :
    (finalState (setTriangleProperties i r m)).faces = m.faces ∧
      (finalState (setTriangleProperties i r m)).information =
        { m.information with faceData := m.information.faceData.set i.toNat r } := by
  unfold setTriangleProperties getMeshInformationProperties
  rw [modify_bind]
  by_cases h : i.toNat < m.information.faceData.length
  · rw [setFaceData_of_lt (m := m.withInformation m.information) h]
    exact ⟨rfl, rfl⟩
  · have hthrows : setFaceData i.toNat r (m.withInformation m.information) =
        .error .invalidMeshInformationIndex (m.withInformation m.information) :=
      if_pos (Nat.not_lt.1 h)
    rw [hthrows]
    refine ⟨rfl, ?_⟩
    rw [List.set_eq_of_length_le (Nat.not_lt.1 h)]
    rfl

/-- The loop of `SetAllTriangleProperties`, from record `k` on. -/
theorem forM_setFaceData (ps : List FaceProperties) (k : Nat)
    (hlen : p.faceData.length = k + ps.length) :
    (ps.zipIdx k).forM (fun x => setFaceData x.2 x.1) (m.withInformation p) =
      .ok PUnit.unit (m.withInformation { p with faceData := p.faceData.take k ++ ps }) := by
  induction ps generalizing k p with
  | nil =>
    rw [List.append_nil, List.take_of_length_le (by rw [hlen]; simp)]
    rfl
  | cons r ps ih =>
    rw [List.length_cons] at hlen
    have hset : setFaceData k r (m.withInformation p) =
        .ok () (m.withInformation { p with faceData := p.faceData.set k r }) :=
      setFaceData_of_lt (m := m.withInformation p) (by
        rw [information_withInformation]
        omega)
    have hrest := @ih { p with faceData := p.faceData.set k r } (k + 1) (by
      rw [List.length_set]
      omega)
    rw [List.zipIdx_cons]
    show ((setFaceData k r : EditedMeshM PUnit) >>= fun _ =>
      (ps.zipIdx (k + 1)).forM fun x => setFaceData x.2 x.1) (m.withInformation p) = _
    refine (bind_of_ok hset).trans (hrest.trans ?_)
    congr 3
    show (p.faceData.set k r).take (k + 1) ++ ps = p.faceData.take k ++ r :: ps
    rw [List.take_add_one, List.take_set_of_le (le_refl k), List.getElem?_set_self (by omega)]
    simp

/-- `SetAllTriangleProperties` stores all records, and the first one as the default, where there is
none; or it throws at once. -/
theorem information_setAllTriangleProperties (hm : m.information.faceData.length = m.faces.length)
    (ps : List FaceProperties) (null : Bool) :
    if ps.length = m.faces.length ∧ null = false then
      (finalState (setAllTriangleProperties ps null m)).faces = m.faces ∧
        (finalState (setAllTriangleProperties ps null m)).information =
          ⟨m.information.defaultData.or ps.head?, ps⟩
    else finalState (setAllTriangleProperties ps null m) = m := by
  unfold setAllTriangleProperties
  rw [get_bind]
  split_ifs with h
  · obtain ⟨hlen, hnull⟩ := h
    let done : EditedMesh := m.withInformation { m.information with faceData := ps }
    have hloop : ps.zipIdx.forM (fun x => setFaceData x.2 x.1) (m.withInformation m.information) =
        .ok PUnit.unit done := forM_setFaceData ps 0 (by rw [hm, hlen, Nat.zero_add])
    rw [require_bind hlen, require_bind hnull, getMeshInformationProperties, modify_bind,
      bind_of_ok hloop]
    unfold prepareDefault
    have hfaces : done.faces.length = ps.length := hlen.symm
    cases hd : m.information.defaultData with
    | some d =>
      rw [if_neg fun hc => by
        have hnone : m.information.defaultData = none := hc.2
        rw [hd] at hnone
        cases hnone]
      exact ⟨rfl, by
        show MeshInformationProperties.mk m.information.defaultData ps = _
        rw [hd]
        rfl⟩
    | none =>
      cases ps with
      | nil =>
        rw [if_neg fun hc => by rw [hfaces] at hc; exact absurd hc.1 (Nat.lt_irrefl 0)]
        refine ⟨rfl, ?_⟩
        show MeshInformationProperties.mk m.information.defaultData [] = _
        rw [hd]
        rfl
      | cons r ps =>
        rw [if_pos ⟨by rw [hfaces]; exact Nat.succ_pos _, hd⟩]
        exact ⟨rfl, rfl⟩
  · by_cases hlen : ps.length = m.faces.length
    · rw [require_bind hlen, bind_of_error (require_of_neg (fun hnull => h ⟨hlen, hnull⟩) _ _)]
      rfl
    · rw [bind_of_error (require_of_neg hlen _ _)]
      rfl

/-- The records of the call are of existing properties. -/
def Exists (R : List (PropertyResource V)) : PropertyCall → Prop
  | .setTriangleProperties _ r => r.ExistsIn R
  | .setAllTriangleProperties ps _ => ∀ r ∈ ps, r.ExistsIn R
  | .setObjectLevelProperty resourceID propertyID =>
    FaceProperties.ExistsIn R ⟨resourceID, fun _ => propertyID⟩
  | _ => True

/-- A face gets a property only beside an object-level one, which the first entry of all may give
where there is no record of one; the object-level property is only taken away from a mesh without
properties on its faces. -/
def PropertyGuard (m : EditedMesh) : PropertyCall → Prop
  | .setTriangleProperties i r => i.toNat < m.faces.length → r.resourceID ≠ 0 →
      m.HasObjectLevel
  | .setAllTriangleProperties ps null => ps.length = m.faces.length → null = false →
      (∃ r ∈ ps, r.resourceID ≠ 0) →
        m.HasObjectLevel ∨ m.information.defaultData = none ∧ ∃ r ∈ ps.head?, r.resourceID ≠ 0
  | .setObjectLevelProperty resourceID _ => resourceID = 0 → ¬ m.HasProperty
  | _ => True

instance (m : EditedMesh) : DecidablePred m.PropertyGuard := fun c => by
  unfold PropertyGuard
  split <;> infer_instance

theorem sound_setInformation {q : MeshInformationProperties} (hf : m'.faces = m.faces)
    (hi : m'.information = q) (hlen : q.faceData.length = m.faces.length)
    (hfaces : ∀ r ∈ q.faceData, r.ExistsIn R) (hdefault : ∀ d ∈ q.defaultData, d.ExistsIn R) :
    SoundRecords R m' :=
  ⟨by rw [hi, hf, hlen], by rw [hi]; exact hfaces, by rw [hi]; exact hdefault⟩

theorem mem_or {α : Type} {a b : Option α} {x : α} (h : x ∈ a.or b) : x ∈ a ∨ x ∈ b := by
  cases a with
  | none => exact .inr h
  | some y => exact .inl h

/-- A call with existing properties keeps the records sound. -/
theorem sound_next (hm : SoundRecords R m) {c : PropertyCall} (hc : Exists R c) :
    SoundRecords R (finalState (propertyCall c m)) := by
  cases c with
  | setTriangleProperties i r =>
    obtain ⟨hf, hi⟩ := information_setTriangleProperties (m := m) i r
    refine sound_setInformation hf hi (by rw [List.length_set, hm.aligned]) (fun q hq => ?_) hm.default
    rcases List.mem_or_eq_of_mem_set hq with hq | rfl
    · exact hm.faces q hq
    · exact hc
  | setAllTriangleProperties ps null =>
    have hset := information_setAllTriangleProperties hm.aligned ps null
    show SoundRecords R (finalState (setAllTriangleProperties ps null m))
    split_ifs at hset with h
    · refine sound_setInformation hset.1 hset.2 h.1 hc fun d hd => ?_
      rcases mem_or hd with hd | hd
      · exact hm.default d hd
      · exact hc d (List.mem_of_mem_head? hd)
    · rw [hset]
      exact hm
  | setObjectLevelProperty resourceID propertyID =>
    refine sound_setInformation (m := m) rfl rfl hm.aligned hm.faces fun d hd => ?_
    cases hd
    exact hc
  | addVertex p => exact (edits_next hm.aligned trivial).sound hm
  | addTriangle t => exact (edits_next hm.aligned trivial).sound hm
  | setVertex i p => exact (edits_next hm.aligned trivial).sound hm
  | setTriangle i t => exact (edits_next hm.aligned trivial).sound hm
  | setGeometry vertices triangles => exact (edits_next hm.aligned trivial).sound hm
  | getProperties => exact (edits_next hm.aligned trivial).sound hm
  | clearAllProperties => exact (edits_next hm.aligned trivial).sound hm

/-- **A call keeps the rule exactly when it meets the guard.** -/
theorem objectLevelOk_next_iff (hm : SoundRecords R m) (hok : ObjectLevelOk m) (c : PropertyCall) :
    ObjectLevelOk (finalState (propertyCall c m)) ↔ m.PropertyGuard c := by
  cases c with
  | setTriangleProperties i r =>
    obtain ⟨-, hi⟩ := information_setTriangleProperties (m := m) i r
    show (∃ q ∈ (finalState (setTriangleProperties i r m)).information.faceData, q.resourceID ≠ 0) →
      (∃ d ∈ (finalState (setTriangleProperties i r m)).information.defaultData, d.resourceID ≠ 0) ↔ _
    rw [hi]
    refine ⟨fun h hlt hr => ?_, fun h ⟨q, hq, hne⟩ => ?_⟩
    · refine h ⟨r, List.mem_set (by rw [hm.aligned]; exact hlt) r, hr⟩
    · by_cases hlt : i.toNat < m.faces.length
      · rcases List.mem_or_eq_of_mem_set hq with hq | rfl
        · exact hok ⟨q, hq, hne⟩
        · exact h hlt hne
      · rw [List.set_eq_of_length_le (by rw [hm.aligned]; omega)] at hq
        exact hok ⟨q, hq, hne⟩
  | setAllTriangleProperties ps null =>
    have hset := information_setAllTriangleProperties hm.aligned ps null
    show ObjectLevelOk (finalState (setAllTriangleProperties ps null m)) ↔ _
    split_ifs at hset with h
    · unfold ObjectLevelOk HasProperty HasObjectLevel
      rw [hset.2]
      have hdefault : (∃ d ∈ m.information.defaultData.or ps.head?, d.resourceID ≠ 0) ↔
          m.HasObjectLevel ∨ m.information.defaultData = none ∧ ∃ r ∈ ps.head?, r.resourceID ≠ 0 := by
        unfold HasObjectLevel
        cases m.information.defaultData with
        | none => simp
        | some d => simp
      exact ⟨fun hall _ _ hp => hdefault.1 (hall hp), fun hg hp => hdefault.2 (hg h.1 h.2 hp)⟩
    · rw [hset]
      exact iff_of_true hok fun hlen hnull => absurd ⟨hlen, hnull⟩ h
  | setObjectLevelProperty resourceID propertyID =>
    have hdefault : (finalState (propertyCall (.setObjectLevelProperty resourceID propertyID) m)).HasObjectLevel ↔
        resourceID ≠ 0 := by
      refine ⟨fun ⟨d, hd, hne⟩ => ?_, fun hne => ⟨_, rfl, hne⟩⟩
      cases hd
      exact hne
    refine ⟨fun h hz hp => hdefault.1 (h hp) hz, fun h hp => hdefault.2 fun hz => h hz hp⟩
  | addVertex p => exact iff_of_true ((edits_next hm.aligned trivial).objectLevelOk hok) trivial
  | addTriangle t => exact iff_of_true ((edits_next hm.aligned trivial).objectLevelOk hok) trivial
  | setVertex i p => exact iff_of_true ((edits_next hm.aligned trivial).objectLevelOk hok) trivial
  | setTriangle i t => exact iff_of_true ((edits_next hm.aligned trivial).objectLevelOk hok) trivial
  | setGeometry vertices triangles =>
    exact iff_of_true ((edits_next hm.aligned trivial).objectLevelOk hok) trivial
  | getProperties => exact iff_of_true ((edits_next hm.aligned trivial).objectLevelOk hok) trivial
  | clearAllProperties =>
    exact iff_of_true ((edits_next hm.aligned trivial).objectLevelOk hok) trivial

/-! ## Writing -/

/-- The writer has the index of an existing property. -/
theorem mapPropertyIDToIndex_ok {mapping : PropertyIndexMapping} (hmap : Mapped mapping R)
    {r : FaceProperties} (hr : r.ExistsIn R) (hne : r.resourceID ≠ 0) (j : Fin 3) :
    ∃ index, mapping.mapPropertyIDToIndex r.resourceID (r.propertyIDs j) = .ok index := by
  obtain ⟨res, hres, hid, hk⟩ := hr.resolve_left hne j
  obtain ⟨i, hi⟩ := List.getElem?_of_mem hk
  refine ⟨i, ?_⟩
  unfold PropertyIndexMapping.mapPropertyIDToIndex
  rw [if_neg hne, (hmap r.resourceID (r.propertyIDs j) i).2 ⟨res, hres, hid, hi⟩]

/-- The writer reads the records, or there are none. -/
theorem properties_toMesh (m : EditedMesh) :
    m.toMesh.properties = some m.information ∨ m.toMesh.properties = none ∧
      m.information = ⟨none, .replicate m.faces.length .invalid⟩ := by
  unfold information
  show m.meshInformationHandler.bind (·.properties) = _ ∨ _
  cases hp : m.meshInformationHandler.bind (·.properties) with
  | none => exact .inr ⟨hp, rfl⟩
  | some p => exact .inl rfl

theorem objectLevelProperty_ok {mapping : PropertyIndexMapping} (hmap : Mapped mapping R)
    (hm : SoundRecords R m) :
    ∃ o, Writer.objectLevelProperty mapping m.toMesh = .ok o ∧ (o.1 ≠ 0 ↔ m.HasObjectLevel) := by
  unfold Writer.objectLevelProperty HasObjectLevel
  rcases properties_toMesh m with hp | ⟨hp, hi⟩
  · rw [hp, Option.bind_some]
    cases hd : m.information.defaultData with
    | none => exact ⟨(0, 0), rfl, by simp⟩
    | some d =>
      by_cases hz : d.resourceID = 0
      · exact ⟨(0, 0), if_pos hz, by simp [hz]⟩
      · obtain ⟨index, hindex⟩ := mapPropertyIDToIndex_ok hmap (hm.default d hd) hz 0
        refine ⟨(d.resourceID, index), ?_, by simp⟩
        simp only [if_neg hz, hindex]
        rfl
  · rw [hp, hi]
    exact ⟨(0, 0), rfl, by simp⟩

theorem faceProperty_ok {mapping : PropertyIndexMapping} (hmap : Mapped mapping R)
    (hm : SoundRecords R m) {i : Nat} (hi : i < m.faces.length) :
    ∃ q, Writer.faceProperty mapping m.toMesh i = .ok q ∧
      ∃ r, m.information.faceData[i]? = some r ∧ q.1 = r.resourceID := by
  obtain ⟨r, hr⟩ : ∃ r, m.information.faceData[i]? = some r :=
    ⟨_, List.getElem?_eq_getElem (by rw [hm.aligned]; exact hi)⟩
  unfold Writer.faceProperty
  rcases properties_toMesh m with hp | ⟨hp, hinfo⟩
  · rw [hp]
    simp only [hr]
    by_cases hz : r.resourceID = 0
    · rw [if_pos hz]
      exact ⟨_, rfl, r, rfl, hz.symm⟩
    · have hindex (j : Fin 3) := mapPropertyIDToIndex_ok hmap
        (hm.faces r (List.mem_of_getElem? hr)) hz j
      choose index hindex using hindex
      rw [if_neg hz, hindex 0, hindex 1, hindex 2]
      exact ⟨_, rfl, r, rfl, rfl⟩
  · rw [hp]
    rw [hinfo] at hr
    have hinvalid := List.eq_of_mem_replicate (List.mem_of_getElem? hr)
    refine ⟨_, rfl, r, ?_, by rw [hinvalid]; rfl⟩
    rw [hinfo]
    exact hr

/-- **The triangles of a mesh with sound records are written** exactly when it has an object-level
property or none on its faces. -/
theorem writeTriangles_iff {mapping : PropertyIndexMapping} (hmap : Mapped mapping R)
    (hm : SoundRecords R m) :
    (∃ triangles, Writer.writeTriangles mapping m.toMesh = .ok triangles) ↔ ObjectLevelOk m := by
  obtain ⟨o, ho, hlevel⟩ := objectLevelProperty_ok hmap hm
  choose! q hq r hr hres using fun i (hi : i < m.faces.length) => faceProperty_ok hmap hm hi
  have hfaces : (List.range m.toMesh.faces.length).mapM (Writer.faceProperty mapping m.toMesh) =
      .ok ((List.range m.faces.length).map q) :=
    mapM_ok fun i hi => hq i (List.mem_range.1 hi)
  have hany : ((List.range m.faces.length).map q).any (fun p => p.1 ≠ 0) = true ↔ m.HasProperty := by
    simp only [List.any_map, List.any_eq_true, List.mem_range, Function.comp, decide_eq_true_eq]
    refine ⟨fun ⟨i, hi, hne⟩ => ?_, fun ⟨x, hx, hne⟩ => ?_⟩
    · refine ⟨r i hi, List.mem_of_getElem? (hr i hi), ?_⟩
      rw [← hres i hi]
      exact hne
    · obtain ⟨i, hi⟩ := List.getElem?_of_mem hx
      have hlt : i < m.faces.length := by
        rw [← hm.aligned]
        exact (List.getElem?_eq_some_iff.1 hi).1
      have hsame : r i hlt = x := Option.some.inj ((hr i hlt).symm.trans hi)
      refine ⟨i, hlt, ?_⟩
      rw [hres i hlt, hsame]
      exact hne
  unfold Writer.writeTriangles
  rw [ho, hfaces]
  by_cases hthrows : ((List.range m.faces.length).map q).any (fun p => p.1 ≠ 0) = true ∧ o.1 = 0
  · refine iff_of_false (fun ⟨triangles, ht⟩ => ?_) fun hok => ?_
    · have hcall : (if ((List.range m.faces.length).map q).any (fun p => p.1 ≠ 0) = true ∧ o.1 = 0
          then throw .missingObjectLevelPID
          else pure (List.zipWith (Writer.writeFaceData o) m.toMesh.faces
            ((List.range m.faces.length).map q)) : Except Error (List TriangleElement)) =
          .ok triangles := ht
      rw [if_pos hthrows] at hcall
      cases hcall
    · exact hlevel.2 (hok (hany.1 hthrows.1)) hthrows.2
  · refine iff_of_true ⟨List.zipWith (Writer.writeFaceData o) m.toMesh.faces
      ((List.range m.faces.length).map q), ?_⟩ fun hp => ?_
    · show (if _ then _ else _ : Except Error (List TriangleElement)) = _
      rw [if_neg hthrows]
      rfl
    · by_contra hno
      exact hthrows ⟨hany.2 hp, by_contra fun hz => hno (hlevel.1 hz)⟩

/-! ## Runs -/

/-- A call with existing properties. -/
def ExistingCall (R : List (PropertyResource V)) := { c : PropertyCall // Exists R c }

/-- The mesh after a call, whether it throws or not. -/
def nextProperties (m : EditedMesh) (c : ExistingCall R) : EditedMesh :=
  finalState (propertyCall c.1 m)

theorem sound_new : SoundRecords R EditedMesh.new :=
  ⟨rfl, nofun, nofun⟩

theorem objectLevelOk_new : ObjectLevelOk EditedMesh.new := fun ⟨_, hr, _⟩ => nomatch hr

/-- **The meshes of a run of calls can all be written** exactly when every call meets the guard; and
each of them can exactly when it has an object-level property or none on its faces. -/
theorem meshes_written_iff {write : PropertyIndexMapping → PropertyResource V → Except Error E}
    {written : PropertyIndexMapping × List (PropertyResourceElement E)}
    (hn : (R.map (·.uniqueID)).Nodup)
    (hw : R.foldlM (Writer.writePropertyResource write) (.empty, []) = .ok written)
    (calls : List (ExistingCall R)) :
    ((∀ m, Reaches nextProperties .new calls m →
        ∃ triangles, Writer.writeTriangles written.1 m.toMesh = .ok triangles) ↔
      Guarded nextProperties (fun m c => m.PropertyGuard c.1) .new calls) ∧
    ∀ m, Reaches nextProperties .new calls m →
      ((∃ triangles, Writer.writeTriangles written.1 m.toMesh = .ok triangles) ↔
        (m.HasProperty → m.HasObjectLevel)) := by
  have hmap : Mapped written.1 R := (writePropertyResources_ok hn hw).1
  have hsound (m : EditedMesh) (hm : Reaches nextProperties .new calls m) : SoundRecords R m :=
    hm.inv (SoundRecords R) sound_new (fun _ c hs _ => sound_next hs c.2) (guarded_true _ _ _)
  refine ⟨?_, fun m hm => writeTriangles_iff hmap (hsound m hm)⟩
  rw [← guarded_iff (fun m => SoundRecords R m ∧ ObjectLevelOk m) ⟨sound_new, objectLevelOk_new⟩
    fun m c hm => ?_]
  · refine forall₂_congr fun m hm => ?_
    rw [writeTriangles_iff hmap (hsound m hm)]
    exact (and_iff_right (hsound m hm)).symm
  · show SoundRecords R (finalState (propertyCall c.1 m)) ∧ _ ↔ _
    rw [← objectLevelOk_next_iff hm.1 hm.2 c.1]
    exact and_iff_right (sound_next hm.1 c.2)

/-- A colour group with one colour. -/
def oneColor : List (PropertyResource Nat) :=
  [⟨1, .colorGroup, 0, ⟨SortedMap.empty.insert 1 255, 2⟩⟩]

theorem oneColor_exists : FaceProperties.ExistsIn oneColor ⟨1, fun _ => 1⟩ :=
  .inr fun _ => ⟨_, List.mem_singleton_self _, rfl, List.mem_singleton_self _⟩

/-- A triangle. -/
def triangleCalls : List (ExistingCall oneColor) :=
  [⟨.addVertex ![.ofRat 0, .ofRat 0, .ofRat 0], trivial⟩,
    ⟨.addVertex ![.ofRat 1, .ofRat 0, .ofRat 0], trivial⟩,
    ⟨.addVertex ![.ofRat 0, .ofRat 1, .ofRat 0], trivial⟩, ⟨.addTriangle ![0, 1, 2], trivial⟩]

/-- A triangle gets a colour behind the object. -/
theorem meshes_written_color :
    ∃ triangles, Writer.writeTriangles ⟨SortedMap.empty.insert (toLex (1, 1)) 0⟩
      (run nextProperties .new (triangleCalls ++ [⟨.setObjectLevelProperty 1 1, oneColor_exists⟩,
        ⟨.setTriangleProperties 0 ⟨1, fun _ => 1⟩, oneColor_exists⟩])).toMesh = .ok triangles := by
  refine (@meshes_written_iff _ _ oneColor (fun _ r => .ok r.group.entries.values) (_, [⟨1, [255]⟩])
    (by decide) rfl _).1.2 ?_ _ (reaches_run _ _)
  refine ⟨trivial, trivial, trivial, trivial, by decide, fun _ _ => ⟨_, rfl, by decide⟩, trivial⟩

/-- **A triangle that gets a colour** has no object-level property beside it. -/
theorem color_without_objectLevel :
    ¬ ∀ m, Reaches nextProperties .new
        (triangleCalls ++ [⟨.setTriangleProperties 0 ⟨1, fun _ => 1⟩, oneColor_exists⟩]) m →
      m.HasProperty → m.HasObjectLevel := by
  intro h
  have hp : (run nextProperties .new
      (triangleCalls ++ [⟨.setTriangleProperties 0 ⟨1, fun _ => 1⟩, oneColor_exists⟩])).HasProperty := by
    decide
  exact absurd (h _ (reaches_run _ _) hp) (by decide)

end EditedMesh

end NMR
