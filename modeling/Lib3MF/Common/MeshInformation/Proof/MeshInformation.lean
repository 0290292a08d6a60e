import Lib3MF.Common.MeshInformation.MeshInformation
import Lib3MF.Common.Proof.CPagedVector

/-!
# The records of an information

The data blocks of a container are those of a paged vector (`asPaged`), so what is proved there
says where a record lies. `RecordsOf n o`: the information `o` has a record for each of `n` faces,
and each is what was last written for its face.
-/

namespace NMR

open Lib CPagedVector

namespace CMeshInformationContainer

variable {c : CMeshInformationContainer} {ptrs : List Pointer} {xs : List FaceProperties}

/-- The data blocks as a paged vector. -/
def asPaged (c : CMeshInformationContainer) : CPagedVector FaceProperties :=
  ⟨meshInformationCounterBufferSize, c.faceCount, c.currentDataBlock, c.dataBlocks, c.memory⟩

/-- The records `xs` lie at `ptrs`. -/
structure Lies (c : CMeshInformationContainer) (ptrs : List Pointer) (xs : List FaceProperties) :
    Prop where
  recordSize : c.recordSize ≠ 0
  lists : Lists c.asPaged ptrs xs
  counts : Counts c.asPaged ptrs

/-- A record is added where the vector allocates it. -/
theorem addFaceData_of_allocData {w : CPagedVector FaceProperties} {k : BitVec 32} {p : Pointer}
    (hr : c.recordSize ≠ 0)
    (h : c.asPaged.allocData (fun _ => .invalid) = .ok (w, k, p)) :
    ∃ d, addFaceData w.count c = .ok p d ∧ d.asPaged = w ∧ d.recordSize = c.recordSize := by
  obtain ⟨d, hd⟩ : ∃ d, d =
      if c.faceCount % meshInformationCounterBufferSize = 0 then c.newBlock else c := ⟨_, rfl⟩
  have hpaged : d.asPaged = if c.asPaged.count % c.asPaged.blockSize = 0 then
      c.asPaged.newBlock fun _ => .invalid else c.asPaged := by
    rw [hd]
    by_cases h0 : c.faceCount % meshInformationCounterBufferSize = 0
    · rw [if_pos h0]
      exact (if_pos h0).symm
    · rw [if_neg h0]
      exact (if_neg h0).symm
  have hsize : d.recordSize = c.recordSize := by
    rw [hd]
    split_ifs <;> rfl
  unfold CPagedVector.allocData at h
  unfold addFaceData
  rw [if_neg hr]
  dsimp only at h ⊢
  rw [← hpaged] at h
  rw [← hd]
  have hhead : d.asPaged.headBlock = d.currentDataBlock := rfl
  rw [hhead] at h
  cases hb : d.currentDataBlock with
  | none =>
    rw [hb] at h
    cases h
  | some block =>
    rw [hb] at h
    obtain ⟨rfl, -, rfl⟩ : _ ∧ _ ∧ _ := by simpa using h
    exact ⟨_, if_pos rfl, rfl, hsize⟩

/-- **`addFaceData`** appends a record. -/
theorem Lies.addFaceData (h : Lies c ptrs xs) (hlt : ptrs.length + 1 < 2 ^ 32) :
    ∃ d p x, addFaceData (BitVec.ofNat 32 (ptrs.length + 1)) c = .ok p d ∧
      Lies d (ptrs ++ [p]) (xs ++ [x]) := by
  obtain ⟨w, p, x, hw, hl, hcount⟩ := h.lists.allocData h.counts fun _ => .invalid
  obtain ⟨d, hd, rfl, hsize⟩ := addFaceData_of_allocData h.recordSize hw
  have hc : c.asPaged.count.toNat = ptrs.length := h.counts
  have hto : (c.asPaged.count + 1).toNat = ptrs.length + 1 := by
    rw [BitVec.toNat_add, hc]
    exact Nat.mod_eq_of_lt hlt
  have hn : d.asPaged.count = BitVec.ofNat 32 (ptrs.length + 1) := by
    rw [hcount, ← hto, BitVec.ofNat_toNat, BitVec.setWidth_eq]
  refine ⟨d, p, x, hn ▸ hd, hsize ▸ h.recordSize, hl, ?_⟩
  rw [Counts, hcount, hto, List.length_append, List.length_singleton]

/-- **`getFaceData`** is where the record lies. -/
theorem Lies.getFaceData (h : Lies c ptrs xs) (i : BitVec 32) :
    c.getFaceData i = match ptrs[i.toNat]? with
      | some p => .ok p
      | none => .error (.throws .invalidMeshInformationIndex) := by
  have hget := h.lists.getData h.counts i
  unfold CPagedVector.getData at hget
  unfold CMeshInformationContainer.getFaceData
  have hc : c.faceCount.toNat = ptrs.length := h.counts
  by_cases hi : c.faceCount ≤ i
  · have hnone : ptrs[i.toNat]? = none := by
      rw [List.getElem?_eq_none_iff, ← hc]
      exact hi
    rw [if_pos hi, hnone]
  · rw [if_neg (show ¬ c.asPaged.count ≤ i from hi)] at hget
    obtain ⟨p, hp⟩ : ∃ p, ptrs[i.toNat]? = some p := by
      refine ⟨_, List.getElem?_eq_getElem ?_⟩
      rw [← hc]
      exact Nat.lt_of_not_le hi
    rw [hp] at hget ⊢
    rw [if_neg hi]
    exact hget

/-- A record written where it lies. -/
theorem Lies.write (h : Lies c ptrs xs) {i : Nat} {p : Pointer} (hp : ptrs[i]? = some p)
    (r : FaceProperties) :
    Lies { c with memory := c.memory.write p r } ptrs (xs.set i r) :=
  ⟨h.recordSize, h.lists.write hp r, h.counts⟩

/-- The container a constructor makes. -/
theorem create_lies {size : BitVec 32} (hsize : size ≠ 0) {n : Nat} (hn : n < 2 ^ 32) :
    ∃ c ptrs xs, create n size = .ok c ∧ Lies c ptrs xs ∧ ptrs.length = n := by
  unfold create
  induction n with
  | zero =>
    refine ⟨_, [], [], rfl, ⟨hsize, ?_, rfl⟩, rfl⟩
    exact (@lists_create _ _ meshInformationCounterBufferSize (if_neg (by decide))).1
  | succ n ih =>
    obtain ⟨c, ptrs, xs, hc, hl, hlen⟩ := ih (Nat.lt_of_succ_lt hn)
    obtain ⟨d, p, x, hd, hl'⟩ := hl.addFaceData (by rwa [hlen])
    rw [hlen] at hd
    refine ⟨d, ptrs ++ [p], xs ++ [x], ?_, hl', by rw [List.length_append, hlen]; rfl⟩
    rw [List.range_succ, List.foldlM_append]
    refine bind_eq_ok.2 ⟨c, hc, ?_⟩
    rw [List.foldlM_cons, hd]
    rfl

end CMeshInformationContainer

namespace CMeshInformation

variable {o o' other : CMeshInformation} {ptrs : List Pointer} {xs : List FaceProperties} {n : Nat}

/-- The records of the information, each what was last written for its face. -/
structure Records (o : CMeshInformation) (ptrs : List Pointer) (xs : List FaceProperties) :
    Prop where
  lies : o.container.Lies ptrs xs
  written : ∀ (i : Nat) (x : FaceProperties), xs[i]? = some x → o.written i = some x

/-- The information has records for `n` faces. -/
def RecordsOf (n : Nat) (o : CMeshInformation) : Prop :=
  ∃ ptrs xs, Records o ptrs xs ∧ ptrs.length = n

/-- A record that is written. -/
theorem Records.writeFace (h : Records o ptrs xs) {i : Nat} {p : Pointer}
    (hp : ptrs[i]? = some p) (r : FaceProperties) :
    Records (o.writeFace i p r) ptrs (xs.set i r) := by
  refine ⟨h.lies.write hp r, fun j x hx => ?_⟩
  show Function.update o.written i (some r) j = some x
  rw [List.getElem?_set] at hx
  by_cases hij : i = j
  · subst hij
    rw [if_pos rfl] at hx
    split_ifs at hx
    rw [Function.update_self]
    exact hx
  · rw [if_neg hij] at hx
    rw [Function.update_of_ne (Ne.symm hij)]
    exact h.written j x hx

/-- What `setFaceData` and `cloneFaceInfosFrom` keep. -/
def Kept (n : Nat) (o : CMeshInformation) : CMeshInformation → Prop :=
  fun o' => RecordsOf n o' ∧ o'.type = o.type

theorem RecordsOf.getFaceData (h : RecordsOf n o) (i : BitVec 32) :
    (∃ p, o.getFaceData i = .ok p ∧ ∀ r, Kept n o (o.writeFace i.toNat p r)) ∨
      o.getFaceData i = .error (.throws .invalidMeshInformationIndex) := by
  obtain ⟨ptrs, xs, hr, hlen⟩ := h
  have hget := hr.lies.getFaceData i
  cases hp : ptrs[i.toNat]? with
  | none =>
    rw [hp] at hget
    exact .inr hget
  | some p =>
    rw [hp] at hget
    exact .inl ⟨p, hget, fun r => ⟨⟨ptrs, _, hr.writeFace hp r, hlen⟩, rfl⟩⟩

theorem RecordsOf.setFaceData (h : RecordsOf n o) (i : BitVec 32) (r : FaceProperties) :
    Ends (setFaceData i r o) (Kept n o) (Kept n o) := by
  unfold CMeshInformation.setFaceData
  rcases h.getFaceData i with ⟨p, hp, hw⟩ | he
  · rw [hp]
    exact hw r
  · rw [he]
    exact ⟨h, rfl⟩

theorem RecordsOf.cloneFaceInfosFrom (h : RecordsOf n o) (i j : BitVec 32) :
    Ends (cloneFaceInfosFrom i other j o) (Kept n o) (Kept n o) := by
  unfold CMeshInformation.cloneFaceInfosFrom
  rcases h.getFaceData i with ⟨p, hp, hw⟩ | he
  · rw [hp]
    dsimp only
    cases other.getFaceData j >>= other.deref with
    | error e => exact ⟨h, rfl⟩
    | ok r => exact hw r
  · rw [he]
    exact ⟨h, rfl⟩

/-- **`addFace`** adds an invalid record. -/
theorem RecordsOf.addFace (h : RecordsOf n o) (hn : n + 1 < 2 ^ 32) :
    ∃ o', addFace (BitVec.ofNat 32 (n + 1)) o = .ok () o' ∧ RecordsOf (n + 1) o' ∧
      o'.type = o.type := by
  obtain ⟨ptrs, xs, hr, rfl⟩ := h
  obtain ⟨d, p, x, hd, hl⟩ := hr.lies.addFaceData hn
  have hc : o.container.faceCount.toNat = ptrs.length := hr.lies.counts
  have hlen : ptrs.length = xs.length := hr.lies.lists.length_eq
  have hp : (ptrs ++ [p])[ptrs.length]? = some p := List.getElem?_concat_length
  have hset : (xs ++ [x]).set ptrs.length .invalid = xs ++ [.invalid] := by
    rw [hlen, List.set_append_right _ _ (Nat.le_refl _), Nat.sub_self]
    rfl
  refine ⟨writeFace { o with container := d } ptrs.length p .invalid, ?_,
    ⟨ptrs ++ [p], xs ++ [.invalid], ⟨?_, fun i y hy => ?_⟩, by simp⟩, rfl⟩
  · unfold CMeshInformation.addFace
    rw [hd]
    dsimp only
    rw [hc]
  · rw [← hset]
    exact hl.write hp _
  · show Function.update o.written ptrs.length _ i = _
    rw [List.getElem?_append] at hy
    split_ifs at hy with hi
    · rw [Function.update_of_ne (by omega)]
      exact hr.written i y hy
    · rw [List.getElem?_singleton] at hy
      split_ifs at hy with h0
      have hi' : i = ptrs.length := by omega
      rw [hi', Function.update_self]
      exact hy

/-- The records of the faces before `k` are written. -/
def WrittenBefore (type : MeshInformationType) (ptrs : List Pointer) (k : Nat)
    (o : CMeshInformation) : Prop :=
  ∃ ys, o.container.Lies ptrs ys ∧ o.type = type ∧
    ∀ (i : Nat) (x : FaceProperties), i < k → ys[i]? = some x → o.written i = some x

theorem WrittenBefore.setFaceData {type : MeshInformationType} {ptrs : List Pointer} {k : Nat}
    (h : WrittenBefore type ptrs k o) (hk : k < ptrs.length) (hn : ptrs.length < 2 ^ 32) :
    ∃ o', setFaceData (BitVec.ofNat 32 k) .invalid o = .ok () o' ∧
      WrittenBefore type ptrs (k + 1) o' := by
  obtain ⟨ys, hys, htype, hwritten⟩ := h
  obtain ⟨p, hp⟩ : ∃ p, ptrs[k]? = some p := ⟨_, List.getElem?_eq_getElem hk⟩
  have hto : (BitVec.ofNat 32 k).toNat = k := by
    rw [BitVec.toNat_ofNat]
    exact Nat.mod_eq_of_lt (Nat.lt_trans hk hn)
  refine ⟨o.writeFace k p .invalid, ?_, ys.set k .invalid, hys.write hp _, htype,
    fun i x hi hx => ?_⟩
  · unfold CMeshInformation.setFaceData CMeshInformation.getFaceData
    rw [hys.getFaceData, hto, hp]
  · show Function.update o.written k _ i = _
    rw [List.getElem?_set] at hx
    by_cases hki : k = i
    · subst hki
      rw [if_pos rfl] at hx
      split_ifs at hx
      rw [Function.update_self]
      exact hx
    · rw [if_neg hki] at hx
      rw [Function.update_of_ne (Ne.symm hki)]
      exact hwritten i x (by omega) hx

/-- The information a constructor makes. -/
theorem create_records (type : MeshInformationType) {n : Nat} (hn : n < 2 ^ 32) :
    ∃ o, create type n = .ok o ∧ RecordsOf n o ∧ o.type = type := by
  obtain ⟨c, ptrs, xs, hc, hl, rfl⟩ :=
    @CMeshInformationContainer.create_lies sizeOfMeshInformationProperties (by decide) n hn
  have hstart : WrittenBefore type ptrs 0 ⟨type, c, 0, fun _ => none⟩ :=
    ⟨xs, hl, rfl, fun i x hi => absurd hi (Nat.not_lt_zero i)⟩
  obtain ⟨o, ho, ys, hys, htype, hwritten⟩ : ∃ o, create type ptrs.length = .ok o ∧
      WrittenBefore type ptrs ptrs.length o := by
    unfold create
    rw [hc]
    refine foldlM_range_total _ (fun k o hk hw => ?_) hstart
    obtain ⟨o', hset, hw'⟩ := hw.setFaceData hk hn
    exact ⟨o', by rw [hset], hw'⟩
  refine ⟨o, ho, ⟨ptrs, ys, ⟨hys, fun i x hx => hwritten i x ?_ hx⟩, rfl⟩, htype⟩
  rw [hys.lists.length_eq]
  exact (List.getElem?_eq_some_iff.1 hx).1

end CMeshInformation

end NMR
