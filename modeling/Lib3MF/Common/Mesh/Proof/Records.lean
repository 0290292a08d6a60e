import Lib3MF.Lib.Except
import Lib3MF.Common.Mesh.Mesh

/-!
# The face records of a merged mesh

`Records m rs`: `rs` are the property records of the faces of `m`, a face of a mesh without
properties having the invalid one. Merging a mesh appends its records (`mergeMesh_records`),
patching renames them one by one (`patch_records`).
-/

namespace NMR

open Lib

namespace Mesh

/-- The property record of face `j`. -/
def record (m : Mesh) (j : Nat) : FaceProperties :=
  (m.properties.bind fun p => p.faceData[j]?).getD .invalid

/-- The property records of the faces. -/
def records (m : Mesh) : List FaceProperties := (List.range m.faces.length).map m.record

/-- The records `mergeMesh` appends: a mesh without nodes adds no faces. -/
def mergedRecords (src : Mesh) : List FaceProperties :=
  if src.nodes.length = 0 then [] else src.records

/-- `rs` are the records of the faces of `m`. -/
structure Records (m : Mesh) (rs : List FaceProperties) : Prop where
  length : rs.length = m.faces.length
  faceData : ∀ p, m.properties = some p → p.faceData = rs
  invalid : m.properties = none → ∀ r ∈ rs, r = .invalid

variable {m m' m₁ src : Mesh} {rs : List FaceProperties} {uninit : FaceProperties}

theorem records_empty : Records empty [] := ⟨rfl, nofun, nofun⟩

theorem Records.eq (h : Records m rs) : m.records = rs := by
  refine List.ext_getElem? fun j => ?_
  rw [records, List.getElem?_map]
  by_cases hj : j < m.faces.length
  · have hj' : j < rs.length := by rw [h.length]; exact hj
    rw [List.getElem?_range hj, Option.map_some, record, List.getElem?_eq_getElem hj']
    cases hp : m.properties with
    | none =>
      have := h.invalid hp _ (List.getElem_mem hj')
      rw [this]; rfl
    | some p =>
      have := h.faceData p hp
      rw [Option.bind_some, this, List.getElem?_eq_getElem hj', Option.getD_some]
  · have hrange : (List.range m.faces.length).length ≤ j := by
      rw [List.length_range]; omega
    have hrs : rs.length ≤ j := by rw [h.length]; omega
    rw [List.getElem?_eq_none hrange, List.getElem?_eq_none hrs]
    rfl

@[simp] theorem properties_mapProperties
    {f : MeshInformationProperties → MeshInformationProperties} :
    (m.mapProperties f).properties = m.properties.map f := by
  unfold properties mapProperties
  cases m.meshInformationHandler with
  | none => rfl
  | some h => rfl

/-- Only the faces and the properties matter. -/
theorem Records.congr (h : Records m rs) (hf : m'.faces = m.faces)
    (hp : m'.properties = m.properties) : Records m' rs :=
  ⟨by rw [hf]; exact h.length, by rw [hp]; exact h.faceData, by rw [hp]; exact h.invalid⟩

/-! ## Merging -/

theorem addNode_frame {v : Vec3} (h : m.addNode v = .ok m') :
    m'.faces = m.faces ∧ m'.properties = m.properties := by
  unfold addNode at h
  split_ifs at h
  cases h
  exact ⟨rfl, rfl⟩

theorem mergeBeam_frame {offset : Nat} {b : MeshBeam} (h : mergeBeam src offset m b = .ok m') :
    m'.faces = m.faces ∧ m'.properties = m.properties := by
  unfold mergeBeam at h
  split_ifs at h
  · cases h
  · simp only [addBeam] at h
    split_ifs at h
    cases h
    exact ⟨rfl, rfl⟩

/-- The faces there already get invalid records with their first properties. -/
theorem Records.addInfoTableFrom (h : Records m rs) (hd : MeshInformationHandler) :
    Records (m.addInfoTableFrom hd) rs ∧
      (hd.properties.isSome → (m.addInfoTableFrom hd).properties.isSome) := by
  unfold Mesh.addInfoTableFrom
  dsimp only
  split_ifs with hc
  · have hnone : m.properties = none := by
      unfold properties
      cases hm : m.meshInformationHandler with
      | none => rfl
      | some h' =>
        rw [hm, Option.getD_some] at hc
        exact Option.isNone_iff_eq_none.1 hc.2
    refine ⟨⟨h.length, fun p hp => ?_, fun hp => nomatch hp⟩, fun _ => rfl⟩
    cases hp
    exact (List.eq_replicate_iff.2 ⟨h.length, h.invalid hnone⟩).symm
  · have hprops : (some (m.meshInformationHandler.getD ⟨none⟩)).bind (·.properties) =
        m.properties := by
      unfold properties
      cases m.meshInformationHandler <;> rfl
    refine ⟨h.congr rfl hprops, fun hs => ?_⟩
    by_contra hn
    exact hc ⟨hs, by simpa [properties] using hn⟩

theorem Records.cloneDefaultInfosFrom (h : Records m rs) :
    Records (m.cloneDefaultInfosFrom uninit src) rs ∧
      (m.cloneDefaultInfosFrom uninit src).properties.isSome = m.properties.isSome := by
  unfold Mesh.cloneDefaultInfosFrom
  cases src.properties with
  | none => exact ⟨h, rfl⟩
  | some q =>
    refine ⟨⟨h.length, fun p hp => ?_, fun hp => ?_⟩, by simp⟩
    · rw [properties_mapProperties] at hp
      obtain ⟨p', hp', rfl⟩ := Option.map_eq_some_iff.1 hp
      exact h.faceData p' hp'
    · rw [properties_mapProperties] at hp
      exact h.invalid (Option.map_eq_none_iff.1 hp)

/-- A new face has an invalid record. -/
theorem addFace_spec {nodes : Fin 3 → Int} (h : m.addFace nodes = .ok m') :
    m'.faces = m.faces ++ [⟨nodes⟩] ∧
      m'.properties = m.properties.map fun p =>
        { p with faceData := p.faceData ++ [.invalid] } := by
  unfold addFace at h
  dsimp only at h
  split_ifs at h
  unfold properties
  cases hm : m.meshInformationHandler with
  | none =>
    rw [hm] at h
    cases h
    exact ⟨rfl, rfl⟩
  | some hd =>
    rw [hm] at h
    dsimp only at h
    split at h
    · cases h
    · rename_i hd' hadd
      cases h
      unfold MeshInformationHandler.addFace at hadd
      cases hp : hd.properties with
      | none =>
        rw [hp] at hadd
        cases hadd
        exact ⟨rfl, by simp [hp]⟩
      | some p =>
        rw [hp] at hadd
        dsimp only at hadd
        split_ifs at hadd
        cases hadd
        exact ⟨rfl, by simp [hp]⟩

theorem cloneFaceInfosFrom_spec {i j : Nat} (h : m.cloneFaceInfosFrom i src j = .ok m') :
    m'.faces = m.faces ∧ ((m.properties.isNone ∨ src.properties.isNone) ∧ m' = m ∨
      ∃ p q r, m.properties = some p ∧ src.properties = some q ∧ q.faceData[j]? = some r ∧
        m'.properties = some { p with faceData := p.faceData.set i r }) := by
  unfold cloneFaceInfosFrom at h
  split at h
  · rename_i p q hp hq
    split_ifs at h
    split at h
    · cases h
    · rename_i r hr
      cases h
      exact ⟨rfl, .inr ⟨p, q, r, hp, hq, hr, by rw [properties_mapProperties, hp]; rfl⟩⟩
  · rename_i hno
    cases h
    refine ⟨rfl, .inl ⟨?_, rfl⟩⟩
    cases hp : m.properties with
    | none => exact .inl rfl
    | some p =>
      cases hq : src.properties with
      | none => exact .inr rfl
      | some q => exact absurd hq (hno p q hp)

/-- A merged face brings its record. -/
theorem Records.mergeFace {offset : Nat} {f : MeshFace × Nat} (h : Records m rs)
    (hsome : src.properties.isSome → m.properties.isSome)
    (hf : mergeFace src offset m f = .ok m') :
    Records m' (rs ++ [src.record f.2]) ∧ (src.properties.isSome → m'.properties.isSome) := by
  unfold Mesh.mergeFace at hf
  split_ifs at hf
  · cases hf
  simp only [bind_eq_ok] at hf
  obtain ⟨m₁, ha, hc⟩ := hf
  obtain ⟨hfaces, hprops⟩ := addFace_spec ha
  obtain ⟨hfaces', hcase⟩ := cloneFaceInfosFrom_spec hc
  have hlen : (rs ++ [src.record f.2]).length = m'.faces.length := by
    rw [hfaces', hfaces, List.length_append, List.length_append, h.length]
    rfl
  rcases hcase with ⟨hnone, rfl⟩ | ⟨p, q, r, hp, hq, hr, hp'⟩
  · -- then the other mesh has no properties
    have hsrc : src.properties = none := by
      rcases hnone with hn | hn
      · rw [hprops, Option.isNone_map] at hn
        cases hs : src.properties with
        | none => rfl
        | some q =>
          have := hsome (by rw [hs]; rfl)
          rw [Option.isNone_iff_eq_none.1 hn] at this
          cases this
      · exact Option.isNone_iff_eq_none.1 hn
    have hrec : src.record f.2 = .invalid := by rw [record, hsrc]; rfl
    refine ⟨⟨hlen, fun p hp => ?_, fun hp r hr => ?_⟩, fun hs => by rw [hsrc] at hs; cases hs⟩
    · rw [hprops] at hp
      obtain ⟨p₀, hp₀, rfl⟩ := Option.map_eq_some_iff.1 hp
      rw [hrec, ← h.faceData p₀ hp₀]
    · rw [hprops] at hp
      rcases List.mem_append.1 hr with hr | hr
      · exact h.invalid (Option.map_eq_none_iff.1 hp) r hr
      · rw [List.mem_singleton.1 hr, hrec]
  · rw [hprops] at hp
    obtain ⟨p₀, hp₀, rfl⟩ := Option.map_eq_some_iff.1 hp
    have hrec : src.record f.2 = r := by rw [record, hq, Option.bind_some, hr]; rfl
    refine ⟨⟨hlen, fun p' he => ?_, fun he => by rw [hp'] at he; cases he⟩,
      fun _ => by rw [hp']; rfl⟩
    rw [hp'] at he
    cases he
    have hidx : m₁.faces.length - 1 = p₀.faceData.length := by
      rw [hfaces, List.length_append, h.faceData p₀ hp₀, h.length]
      rfl
    rw [hidx, hrec, ← h.faceData p₀ hp₀]
    simp

/-- The state of a merge: what is to be copied has a place. -/
def Merging (src m : Mesh) (rs : List FaceProperties) : Prop :=
  Records m rs ∧ (src.properties.isSome → m.properties.isSome)

theorem Merging.congr (h : Merging src m rs) (hf : m'.faces = m.faces ∧
    m'.properties = m.properties) : Merging src m' rs :=
  ⟨h.1.congr hf.1 hf.2, by rw [hf.2]; exact h.2⟩

theorem merging_infoTable (h : Records m rs) :
    Merging src (match src.meshInformationHandler with
      | none => m
      | some hd => m.addInfoTableFrom hd) rs := by
  cases hs : src.meshInformationHandler with
  | none => exact ⟨h, fun hp => by simp [properties, hs] at hp⟩
  | some hd =>
    obtain ⟨h₁, h₂⟩ := h.addInfoTableFrom hd
    exact ⟨h₁, fun hp => h₂ (by simpa [properties, hs] using hp)⟩

theorem Merging.mergeFaces {offset : Nat} (h : Merging src m rs)
    (hf : src.faces.zipIdx.foldlM (mergeFace src offset) m = .ok m') :
    Merging src m' (rs ++ src.records) := by
  have h0 : Merging src m (rs ++ (([] : List (MeshFace × Nat)).map fun f => src.record f.2)) := by
    simpa using h
  have := foldlM_ok (fun done m => Merging src m (rs ++ done.map fun f => src.record f.2))
    (fun done m f m' _ hm hf => by
      obtain ⟨hr, hs⟩ := hm.1.mergeFace hm.2 hf
      rw [List.map_append, ← List.append_assoc]
      exact ⟨hr, hs⟩) h0 hf
  rw [List.nil_append] at this
  have hrec : (src.faces.zipIdx.map fun f => src.record f.2) = src.records := by
    rw [records, List.range_eq_range', ← List.zipIdx_map_snd 0 src.faces, List.map_map]
    rfl
  rwa [hrec] at this

/-- **Merging a mesh appends its records.** -/
theorem mergeMesh_records {matrix : Matrix3} (h : Records m rs)
    (hm : m.mergeMesh uninit src matrix = .ok m') : Records m' (rs ++ src.mergedRecords) := by
  unfold mergeMesh at hm
  simp only [bind_eq_ok] at hm
  obtain ⟨m₁, hnodes, hm⟩ := hm
  have h₁ : Merging src m₁ rs := @foldlM_ok _ _ _ (fun _ m => Merging src m rs) _ _ [] _ _
    (fun _ m v m' _ hm hv => hm.congr (addNode_frame hv)) (merging_infoTable h) hnodes
  unfold mergedRecords
  split_ifs at hm ⊢ with h0 hf
  · cases hm
    rw [List.append_nil]
    exact h₁.1
  · simp only [bind_eq_ok] at hm
    obtain ⟨m₂, hfaces, hbeams⟩ := hm
    have h₂ := h₁.mergeFaces hfaces
    exact (@foldlM_ok _ _ _ (fun _ m => Merging src m (rs ++ src.records)) _ _ [] _ _
      (fun _ m b m' _ hm hb => hm.congr (mergeBeam_frame hb)) h₂ hbeams).1
  · simp only [bind_eq_ok] at hm
    obtain ⟨m₂, hfaces, hbeams⟩ := hm
    obtain ⟨hr, hs⟩ := @Records.cloneDefaultInfosFrom m₁ src rs uninit h₁.1
    have h₁' : Merging src (m₁.cloneDefaultInfosFrom uninit src) rs :=
      ⟨hr, fun h => by rw [hs]; exact h₁.2 h⟩
    have h₂ := h₁'.mergeFaces hfaces
    exact (@foldlM_ok _ _ _ (fun _ m => Merging src m (rs ++ src.records)) _ _ [] _ _
      (fun _ m b m' _ hm hb => hm.congr (mergeBeam_frame hb)) h₂ hbeams).1

/-! ## Patching -/

/-- Patching renames the resource of every record. -/
theorem patch_records {oldToNew : Nat → Nat} (h : Records m rs)
    (hp : m.patchMeshInformationResources oldToNew = .ok m') :
    List.Forall₂ (fun r r' => patchRecord oldToNew r = .ok r') rs m'.records := by
  unfold patchMeshInformationResources at hp
  cases hm : m.properties with
  | none =>
    rw [hm] at hp
    cases hp
    rw [h.eq, List.forall₂_same]
    intro r hr
    rw [h.invalid hm r hr]
    rfl
  | some p =>
    rw [hm] at hp
    have hdata := h.faceData p hm
    have hlen : p.faceData.length = m.faces.length := by rw [hdata, h.length]
    simp only [bind_eq_ok] at hp
    obtain ⟨d, -, rs', hrs', hp⟩ := hp
    rw [if_neg (by omega)] at hp
    cases hp
    rw [← hlen, List.take_length, hdata] at hrs'
    have hall := mapM_eq_ok.1 hrs'
    have hrec : Records (m.mapProperties fun _ =>
        ⟨d, rs' ++ p.faceData.drop m.faces.length⟩) rs' := by
      refine ⟨hall.length_eq.symm.trans h.length, fun q hq => ?_, fun hq => ?_⟩
      · rw [properties_mapProperties, hm] at hq
        cases hq
        rw [← hlen, List.drop_length, List.append_nil]
      · rw [properties_mapProperties, hm] at hq
        cases hq
    rw [hrec.eq]
    exact hall

end Mesh

end NMR
