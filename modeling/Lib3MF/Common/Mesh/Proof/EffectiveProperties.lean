import Mathlib.Data.Fin.VecNotation
import Lib3MF.Common.Mesh.Proof.Records

/-!
# Effective properties after merging

A face has the property of its record, and where that has none the default of its mesh
(`effectiveProperties`). A mesh has one default, so a merge that brings another one changes the
faces that rely on it: `merges_preserve_iff` says of a sequence of merges that every mesh on the way
has the effective properties its faces had before exactly when no merge does that
(`KeepsDefaults`).
-/

namespace NMR

open Lib

/-- A record, or another one where it has no property. -/
def FaceProperties.orElse (r d : FaceProperties) : FaceProperties :=
  if r.resourceID = 0 then d else r

namespace Mesh

/-- The object-level default, when there is one. -/
def default? (m : Mesh) : Option FaceProperties := m.properties.bind (·.defaultData)

/-- The property of a face without one of its own. -/
def effectiveDefault (m : Mesh) : FaceProperties := (m.default?.getD .invalid).orElse .invalid

/-- The properties of the faces: their own, else the default. -/
def effectiveProperties (m : Mesh) : List FaceProperties :=
  m.records.map (·.orElse m.effectiveDefault)

/-- The properties of the faces that are copied: without nodes, there are none. -/
def copiedProperties (src : Mesh) : List FaceProperties :=
  src.mergedRecords.map (·.orElse src.effectiveDefault)

/-- A face has no property of its own. -/
def HasBareFace (m : Mesh) : Prop := ∃ r ∈ m.records, r.resourceID = 0

instance (m : Mesh) : Decidable m.HasBareFace := inferInstanceAs (Decidable (∃ r ∈ _, _))

/-- The default after the merge is what the bare faces of both meshes had. -/
def KeepsDefaults (uninit : FaceProperties) (m src : Mesh) : Prop :=
  src.nodes ≠ [] → src.faces ≠ [] →
    match src.properties with
    | none => m.effectiveDefault = .invalid
    | some q =>
      match q.defaultData, m.default? with
      | some _, _ => m.HasBareFace → src.effectiveDefault = m.effectiveDefault
      | none, some _ => src.HasBareFace → m.effectiveDefault = .invalid
      | none, none => m.HasBareFace ∨ src.HasBareFace → uninit.resourceID = 0

variable {m m' m₁ src : Mesh} {uninit : FaceProperties} {matrix : Matrix3}

/-! ## Records -/

/-- The handler has a record for each face. -/
def Consistent (m : Mesh) : Prop :=
  ∀ p, m.properties = some p → p.faceData.length = m.faces.length

theorem Consistent.records (h : Consistent m) : Records m m.records := by
  refine ⟨by simp [Mesh.records], fun p hp => ?_, fun hp r hr => ?_⟩
  · refine List.ext_getElem? fun j => ?_
    have hlen := h p hp
    rw [Mesh.records, List.getElem?_map]
    by_cases hj : j < m.faces.length
    · rw [List.getElem?_range hj, Option.map_some, record, hp, Option.bind_some,
        List.getElem?_eq_getElem (by omega), Option.getD_some]
    · rw [List.getElem?_eq_none (by omega), List.getElem?_eq_none (by simp; omega)]
      rfl
  · obtain ⟨j, -, rfl⟩ := List.mem_map.1 hr
    rw [record, hp]
    rfl

/-- New tables add invalid records, which faces without a table have. -/
theorem record_addInfoTableFrom (hd : MeshInformationHandler) (j : Nat) :
    (m.addInfoTableFrom hd).record j = m.record j := by
  unfold Mesh.addInfoTableFrom record properties
  dsimp only
  split_ifs with hc
  · have hnone : (m.meshInformationHandler.bind (·.properties)) = none := by
      cases hm : m.meshInformationHandler with
      | none => rfl
      | some h' =>
        rw [hm] at hc
        exact Option.isNone_iff_eq_none.1 hc.2
    rw [hnone]
    simp only [Option.bind_some, Option.bind_none, Option.getD_none]
    rw [List.getElem?_replicate]
    split_ifs <;> rfl
  · cases m.meshInformationHandler <;> rfl

/-- The mesh with the tables of the other one. -/
def withTables (m src : Mesh) : Mesh :=
  match src.meshInformationHandler with
  | none => m
  | some h => m.addInfoTableFrom h

theorem withTables_frame (m src : Mesh) :
    (m.withTables src).faces = m.faces ∧ (m.withTables src).records = m.records ∧
      (m.withTables src).default? = m.default? ∧
      (∀ p, m.properties = some p → (m.withTables src).properties = some p) ∧
      (src.properties.isSome → (m.withTables src).properties.isSome) := by
  unfold withTables
  cases hs : src.meshInformationHandler with
  | none => exact ⟨rfl, rfl, rfl, fun p h => h, fun h => by simp [properties, hs] at h⟩
  | some hd =>
    refine ⟨rfl, List.map_congr_left fun j _ => record_addInfoTableFrom hd j, ?_, fun p hp => ?_,
      fun h => ?_⟩
    · unfold default? Mesh.addInfoTableFrom properties
      dsimp only
      split_ifs with hc
      · cases hm : m.meshInformationHandler with
        | none => rfl
        | some h' =>
          rw [hm, Option.getD_some] at hc
          simp [Option.isNone_iff_eq_none.1 hc.2]
      · cases m.meshInformationHandler <;> rfl
    · unfold properties at hp
      obtain ⟨h', hm, hp⟩ := Option.bind_eq_some_iff.1 hp
      unfold Mesh.addInfoTableFrom properties
      simp [hm, hp]
    · have hd' : hd.properties.isSome := by simpa [properties, hs] using h
      unfold Mesh.addInfoTableFrom properties
      dsimp only
      split_ifs with hc
      · rfl
      · by_contra hn
        exact hc ⟨hd', by simpa using hn⟩

/-! ## The merge, part by part -/

/-- The parts of a merge that returns. -/
theorem mergeMesh_parts (h : m.mergeMesh uninit src matrix = .ok m') :
    ∃ m₁, m₁.faces = m.faces ∧ m₁.properties = (m.withTables src).properties ∧
      (src.nodes.length = 0 ∧ m' = m₁ ∨ src.nodes.length ≠ 0 ∧ ∃ m₂,
        src.faces.zipIdx.foldlM (mergeFace src m.nodes.length)
          (if src.faces.length = 0 then m₁ else m₁.cloneDefaultInfosFrom uninit src) = .ok m₂ ∧
        m'.faces = m₂.faces ∧ m'.properties = m₂.properties) := by
  unfold mergeMesh at h
  simp only [bind_eq_ok] at h
  obtain ⟨m₁, hnodes, h⟩ := h
  have hframe := withTables_frame m src
  have h₁ : m₁.faces = (m.withTables src).faces ∧
      m₁.properties = (m.withTables src).properties :=
    @foldlM_ok _ _ _ (fun _ m₀ => m₀.faces = (m.withTables src).faces ∧
      m₀.properties = (m.withTables src).properties) _ _ [] _ _
      (fun _ m₀ v m₀' _ hm hv => ⟨(addNode_frame hv).1.trans hm.1, (addNode_frame hv).2.trans hm.2⟩)
      ⟨rfl, rfl⟩ hnodes
  refine ⟨m₁, h₁.1.trans hframe.1, h₁.2, ?_⟩
  by_cases h0 : src.nodes.length = 0
  · rw [if_pos h0] at h
    exact .inl ⟨h0, (pure_eq_ok.1 h).symm⟩
  · rw [if_neg h0] at h
    simp only [bind_eq_ok] at h
    obtain ⟨m₂, hfaces, hbeams⟩ := h
    exact .inr ⟨h0, m₂, hfaces,
      @foldlM_ok _ _ _ (fun _ m₀ => m₀.faces = m₂.faces ∧ m₀.properties = m₂.properties) _ _ [] _ _
        (fun _ m₀ b m₀' _ hm hb =>
          ⟨(mergeBeam_frame hb).1.trans hm.1, (mergeBeam_frame hb).2.trans hm.2⟩) ⟨rfl, rfl⟩ hbeams⟩

theorem records_congr (hf : m'.faces = m.faces) (hp : m'.properties = m.properties) :
    m'.records = m.records := by
  unfold records record
  rw [hf, hp]

/-- Merging a face leaves the default. -/
theorem mergeFace_default {offset : Nat} {f : MeshFace × Nat}
    (h : mergeFace src offset m f = .ok m') : m'.default? = m.default? := by
  unfold Mesh.mergeFace at h
  split_ifs at h
  · cases h
  simp only [bind_eq_ok] at h
  obtain ⟨m₁, ha, hc⟩ := h
  have h₁ : m₁.default? = m.default? := by
    unfold default?
    rw [(addFace_spec ha).2]
    cases m.properties <;> rfl
  obtain ⟨-, ⟨-, rfl⟩ | ⟨p, q, r, hp, -, -, hp'⟩⟩ := cloneFaceInfosFrom_spec hc
  · exact h₁
  · rw [← h₁]
    unfold default?
    rw [hp', hp]
    rfl

/-- A face can only be added where there is a record for each. -/
theorem consistent_of_mergeFace {offset : Nat} {f : MeshFace × Nat}
    (h : mergeFace src offset m f = .ok m') : m.Consistent := by
  unfold Mesh.mergeFace at h
  split_ifs at h
  · cases h
  simp only [bind_eq_ok] at h
  obtain ⟨m₁, ha, -⟩ := h
  intro p hp
  unfold properties at hp
  obtain ⟨hd, hm, hp⟩ := Option.bind_eq_some_iff.1 hp
  unfold addFace at ha
  dsimp only at ha
  split_ifs at ha
  rw [hm] at ha
  unfold MeshInformationHandler.addFace at ha
  dsimp only at ha
  rw [hp] at ha
  dsimp only at ha
  split_ifs at ha with hne
  rw [List.length_append, List.length_singleton] at hne
  omega

/-- The first face of a loop that returns. -/
theorem first_of_foldlM {offset : Nat} (hne : src.faces ≠ [])
    (h : src.faces.zipIdx.foldlM (mergeFace src offset) m = .ok m') : m.Consistent := by
  cases hf : src.faces with
  | nil => exact absurd hf hne
  | cons f fs =>
    rw [hf, List.zipIdx_cons, List.foldlM_cons, bind_eq_ok] at h
    obtain ⟨m₁, h, -⟩ := h
    exact consistent_of_mergeFace h

theorem cloneDefaultInfosFrom_faceData {p : MeshInformationProperties}
    (h : m.properties = some p) : ∃ p', (m.cloneDefaultInfosFrom uninit src).properties = some p' ∧
      p'.faceData = p.faceData := by
  unfold Mesh.cloneDefaultInfosFrom
  cases src.properties with
  | none => exact ⟨p, h, rfl⟩
  | some q =>
    refine ⟨MeshInformationProperties.cloneDefaultInfosFrom uninit p q, ?_, rfl⟩
    rw [properties_mapProperties, h]
    rfl

/-- **A merge appends the records of the other mesh**, whatever the target. -/
theorem mergeMesh_appends (h : m.mergeMesh uninit src matrix = .ok m') :
    m'.records = m.records ++ src.mergedRecords := by
  obtain ⟨m₁, hf₁, hp₁, hcase⟩ := mergeMesh_parts h
  obtain ⟨hfaces, hrecords, -, hprops, -⟩ := withTables_frame m src
  have h₁ : m₁.records = m.records :=
    (records_congr (hf₁.trans hfaces.symm) hp₁).trans hrecords
  unfold mergedRecords
  obtain ⟨h0, rfl⟩ | ⟨h0, m₂, hloop, hf', hp'⟩ := hcase
  · rw [if_pos h0, List.append_nil, h₁]
  · rw [if_neg h0]
    by_cases hnone : src.faces = []
    · have hlen : src.faces.length = 0 := by rw [hnone]; rfl
      rw [if_pos hlen, hnone, List.zipIdx_nil, List.foldlM_nil, pure_eq_ok] at hloop
      subst hloop
      rw [records_congr hf' hp', h₁, records, records, hnone]
      simp
    · have hlen : src.faces.length ≠ 0 := fun hl => hnone (List.eq_nil_of_length_eq_zero hl)
      rw [if_neg hlen] at hloop
      have hcons : m.Consistent := by
        intro p hp
        obtain ⟨p', hp', hdata⟩ := @cloneDefaultInfosFrom_faceData m₁ src uninit p
          (hp₁.trans (hprops p hp))
        have hl := first_of_foldlM hnone hloop p' hp'
        have hframe : (m₁.cloneDefaultInfosFrom uninit src).faces = m₁.faces := by
          unfold Mesh.cloneDefaultInfosFrom
          cases src.properties <;> rfl
        rw [hdata, hframe, hf₁] at hl
        exact hl
      have hmerged := (mergeMesh_records hcons.records h).eq
      rw [hmerged, mergedRecords, if_neg h0]

/-- The default after a merge. -/
theorem mergeMesh_default (h : m.mergeMesh uninit src matrix = .ok m') :
    m'.default? =
      if src.nodes = [] ∨ src.faces = [] then m.default?
      else match src.properties with
        | none => m.default?
        | some q => some (q.defaultData.getD (m.default?.getD uninit)) := by
  obtain ⟨m₁, hf₁, hp₁, hcase⟩ := mergeMesh_parts h
  obtain ⟨-, -, hdefault, -, hsome⟩ := withTables_frame m src
  have h₁ : m₁.default? = m.default? := by
    rw [← hdefault, default?, default?, hp₁]
  obtain ⟨h0, rfl⟩ | ⟨h0, m₂, hloop, hf', hp'⟩ := hcase
  · rw [if_pos (.inl (List.eq_nil_of_length_eq_zero h0)), h₁]
  · have hnodes : src.nodes ≠ [] := fun hn => h0 (by rw [hn]; rfl)
    have hm₂ : m'.default? = (if src.faces.length = 0 then m₁
        else m₁.cloneDefaultInfosFrom uninit src).default? := by
      rw [default?, hp']
      exact @foldlM_ok _ _ _ (fun _ m₀ => m₀.default? = (if src.faces.length = 0 then m₁
        else m₁.cloneDefaultInfosFrom uninit src).default?) _ _ [] _ _
        (fun _ m₀ f m₀' _ hm hf => (mergeFace_default hf).trans hm) rfl hloop
    by_cases hnone : src.faces = []
    · rw [if_pos (.inr hnone), hm₂, if_pos (by rw [hnone]; rfl), h₁]
    · have hlen : src.faces.length ≠ 0 := fun hl => hnone (List.eq_nil_of_length_eq_zero hl)
      rw [if_neg (by simp [hnodes, hnone]), hm₂, if_neg hlen]
      unfold Mesh.cloneDefaultInfosFrom
      cases hq : src.properties with
      | none => exact h₁
      | some q =>
        have hs := hsome (by rw [hq]; rfl)
        rw [← hp₁] at hs
        obtain ⟨p, hp⟩ := Option.isSome_iff_exists.1 hs
        have hd : m.default? = p.defaultData := by rw [← h₁, default?, hp]; rfl
        show (m₁.mapProperties _).default? = _
        rw [default?, properties_mapProperties, hp, hd]
        rfl

/-! ## What keeps the effective properties -/

/-- Another default matters exactly to records without a property. -/
theorem map_orElse_iff {rs : List FaceProperties} {d d' : FaceProperties} :
    rs.map (·.orElse d) = rs.map (·.orElse d') ↔ ((∃ r ∈ rs, r.resourceID = 0) → d = d') := by
  rw [List.map_inj_left]
  unfold FaceProperties.orElse
  refine ⟨?_, fun h r hr => ?_⟩
  · rintro h ⟨r, hr, h0⟩
    have := h r hr
    rwa [if_pos h0, if_pos h0] at this
  · split_ifs with h0
    · exact h ⟨r, hr, h0⟩
    · rfl

theorem orElse_invalid_iff {r : FaceProperties} : r.orElse .invalid = .invalid ↔ r.resourceID = 0 := by
  unfold FaceProperties.orElse
  split_ifs with h0
  · exact iff_of_true rfl h0
  · refine iff_of_false (fun h => h0 ?_) h0
    rw [h]
    rfl

/-- Without a table, a face has no property. -/
theorem hasBareFace_of_none (hp : m.properties = none) (hf : m.faces ≠ []) : m.HasBareFace := by
  refine ⟨m.record 0, List.mem_map.2 ⟨0, ?_, rfl⟩, ?_⟩
  · exact List.mem_range.2 (List.length_pos_iff.2 hf)
  · rw [record, hp]
    rfl

theorem effectiveDefault_of_none (h : m.default? = none) : m.effectiveDefault = .invalid := by
  rw [effectiveDefault, h]
  rfl

/-- **A merge keeps the effective properties of both meshes exactly when it keeps the defaults that
their bare faces rely on.** -/
theorem mergeMesh_keeps_iff (h : m.mergeMesh uninit src matrix = .ok m') :
    m'.effectiveProperties = m.effectiveProperties ++ src.copiedProperties ↔
      KeepsDefaults uninit m src := by
  have hdefault := mergeMesh_default h
  have hsplit : m'.effectiveProperties = m.effectiveProperties ++ src.copiedProperties ↔
      (m.HasBareFace → m'.effectiveDefault = m.effectiveDefault) ∧
        ((∃ r ∈ src.mergedRecords, r.resourceID = 0) →
          m'.effectiveDefault = src.effectiveDefault) := by
    unfold effectiveProperties copiedProperties HasBareFace
    rw [mergeMesh_appends h, List.map_append, ← map_orElse_iff, ← map_orElse_iff]
    refine ⟨fun heq => List.append_inj heq (by simp), ?_⟩
    rintro ⟨h1, h2⟩
    rw [h1, h2]
  rw [hsplit]
  unfold KeepsDefaults
  by_cases hempty : src.nodes = [] ∨ src.faces = []
  · rw [if_pos hempty] at hdefault
    have hnone : src.mergedRecords = [] := by
      unfold mergedRecords records
      obtain hn | hf := hempty
      · rw [if_pos (by rw [hn]; rfl)]
      · rw [hf]
        simp
    refine iff_of_true ⟨fun _ => by rw [effectiveDefault, hdefault]; rfl, ?_⟩
      (fun hn hf => absurd hempty (by simp [hn, hf]))
    rw [hnone]
    rintro ⟨r, hr, -⟩
    cases hr
  · rw [if_neg hempty] at hdefault
    obtain ⟨hn, hf⟩ := not_or.1 hempty
    have hmerged : src.mergedRecords = src.records :=
      if_neg fun hl => hn (List.eq_nil_of_length_eq_zero hl)
    rw [hmerged]
    have hbare : (∃ r ∈ src.records, r.resourceID = 0) ↔ src.HasBareFace := Iff.rfl
    simp only [hbare, hn, hf, ne_eq, not_false_eq_true, forall_const]
    cases hq : src.properties with
    | none =>
      rw [hq] at hdefault
      have hd' : m'.effectiveDefault = m.effectiveDefault := by
        rw [effectiveDefault, hdefault]
        rfl
      have hs : src.effectiveDefault = .invalid := effectiveDefault_of_none (by rw [default?, hq]; rfl)
      simp only [hd', hs, hasBareFace_of_none hq hf, forall_const, true_and, implies_true]
    | some q =>
      rw [hq] at hdefault
      dsimp only at hdefault ⊢
      have hs : src.default? = q.defaultData := by
        rw [default?, hq]
        rfl
      cases hqd : q.defaultData with
      | some d =>
        have hd' : m'.effectiveDefault = src.effectiveDefault := by
          rw [effectiveDefault, hdefault, effectiveDefault, hs, hqd]
          rfl
        simp only [hd', implies_true, and_true]
      | none =>
        have hs' : src.effectiveDefault = .invalid := effectiveDefault_of_none (hs.trans hqd)
        cases hm : m.default? with
        | some d =>
          have hd' : m'.effectiveDefault = m.effectiveDefault := by
            rw [effectiveDefault, hdefault, effectiveDefault, hm, hqd]
            rfl
          simp only [hd', hs', implies_true, true_and]
        | none =>
          have hm' : m.effectiveDefault = .invalid := effectiveDefault_of_none hm
          have hd' : m'.effectiveDefault = uninit.orElse .invalid := by
            rw [effectiveDefault, hdefault, hm, hqd]
            rfl
          simp only [hd', hs', hm', orElse_invalid_iff, or_imp]

/-! ## Sequences of merges -/

/-- A call of `mergeMesh`. -/
structure MeshMerge where
  src : Mesh
  matrix : Matrix3
  uninit : FaceProperties

/-- The target after it. -/
def MeshMerge.apply (m : Mesh) (a : MeshMerge) : Except Error Mesh :=
  m.mergeMesh a.uninit a.src a.matrix

/-- Merges that all keep the defaults keep the effective properties. -/
theorem effectiveProperties_merges {m : Mesh} {merges : List MeshMerge}
    (h : ∀ done a m' m'', done ++ [a] <+: merges → done.foldlM MeshMerge.apply m = .ok m' →
      a.apply m' = .ok m'' → KeepsDefaults a.uninit m' a.src)
    (done : List MeshMerge) : ∀ m', done <+: merges → done.foldlM MeshMerge.apply m = .ok m' →
      m'.effectiveProperties =
        m.effectiveProperties ++ done.flatMap fun a => a.src.copiedProperties := by
  induction done using List.reverseRecOn with
  | nil =>
    intro m' _ hdone
    rw [List.foldlM_nil, pure_eq_ok] at hdone
    rw [hdone, List.flatMap_nil, List.append_nil]
  | append_singleton done a ih =>
    intro m'' hpre hboth
    rw [List.foldlM_append, bind_eq_ok] at hboth
    obtain ⟨m', hdone, ha⟩ := hboth
    rw [List.foldlM_cons, bind_eq_ok] at ha
    obtain ⟨m₁, ha, hnil⟩ := ha
    rw [List.foldlM_nil, pure_eq_ok] at hnil
    subst hnil
    have hm' := ih m' ((List.prefix_append done [a]).trans hpre) hdone
    rw [(mergeMesh_keeps_iff ha).2 (h done a m' m₁ hpre hdone ha), hm', List.flatMap_append,
      List.flatMap_singleton, List.append_assoc]

/-- **Every target on the way has the effective properties that its faces had in the meshes they
come from exactly when every merge that returns keeps the defaults.** -/
theorem merges_preserve_iff (m : Mesh) (merges : List MeshMerge) :
    (∀ done m', done <+: merges → done.foldlM MeshMerge.apply m = .ok m' →
      m'.effectiveProperties =
        m.effectiveProperties ++ done.flatMap fun a => a.src.copiedProperties) ↔
      ∀ done a m' m'', done ++ [a] <+: merges → done.foldlM MeshMerge.apply m = .ok m' →
        a.apply m' = .ok m'' → KeepsDefaults a.uninit m' a.src := by
  refine ⟨fun h done a m' m'' hpre hdone ha => ?_, effectiveProperties_merges⟩
  have hm' := h done m' ((List.prefix_append done [a]).trans hpre) hdone
  have hboth : (done ++ [a]).foldlM MeshMerge.apply m = .ok m'' := by
    rw [List.foldlM_append, bind_eq_ok]
    exact ⟨m', hdone, by rw [List.foldlM_cons, bind_eq_ok]; exact ⟨m'', ha, rfl⟩⟩
  have hm'' := h (done ++ [a]) m'' hpre hboth
  rw [List.flatMap_append, List.flatMap_singleton, ← List.append_assoc, ← hm'] at hm''
  exact (mergeMesh_keeps_iff ha).1 hm''

/-- A triangle with or without a default. -/
def plainTriangle (h : Option MeshInformationHandler) : Mesh :=
  ⟨[⟨0, 0, 0⟩, ⟨1, 0, 0⟩, ⟨0, 1, 0⟩], [⟨![0, 1, 2]⟩], [], h⟩

/-- A triangle without a property gets the default of one that is merged. -/
theorem merge_replaces_default :
    ¬ ∀ (m src : Mesh) (uninit : FaceProperties) (matrix : Matrix3) (m' : Mesh),
      m.mergeMesh uninit src matrix = .ok m' →
        m'.effectiveProperties = m.effectiveProperties ++ src.copiedProperties := by
  intro h
  have hok : ((plainTriangle none).mergeMesh .invalid
      (plainTriangle (some ⟨some ⟨some ⟨1, fun _ => 1⟩, [.invalid]⟩⟩)) .identity).isOk = true := by
    decide +kernel
  cases hm : (plainTriangle none).mergeMesh .invalid
      (plainTriangle (some ⟨some ⟨some ⟨1, fun _ => 1⟩, [.invalid]⟩⟩)) .identity with
  | error e => simp [hm, Except.isOk, Except.toBool] at hok
  | ok m' =>
    have hkeeps := (mergeMesh_keeps_iff hm).1 (h _ _ _ _ m' hm) (by decide) (by decide)
    have hbare : (plainTriangle none).HasBareFace := by decide
    exact absurd (hkeeps hbare) (by decide)

end Mesh

end NMR
