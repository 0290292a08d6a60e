import Lib3MF.Common.ChunkedBinaryStream.Proof.RoundTrip

/-!
# Arrays of integers come back

Arrays that were added come back as they were, in any order of reads, exactly when the chunks
fit (`readsBack_iff`). The stream need not be readable: `beginChunk` leaves the compressed
properties size of a chunk unset, and the size of an empty chunk stays so
(`emptyChunk_not_readsBack`).
-/

namespace NMR

open Lib StoredArray ChunkedBinaryStreamReaderChunk
open ChunkedBinaryStreamWriter (intEntryType intWords)

/-- Finishing succeeds, the IDs are different, and the reader opened on the stream finds under
each of them the array it was returned for, whatever was read before. -/
def ReadsBack (lzma : Lzma) (w : ChunkedBinaryStreamWriter)
    (added : List (BitVec 32 × List (BitVec 32))) : Prop :=
  (added.map Prod.fst).Nodup ∧ ∃ w' r, w.finishWriting lzma = .ok w' ∧
    ChunkedBinaryStreamReader.new w'.exportStream.buffer = .ok r ∧
    ∀ r', AfterReads lzma r r' → ∀ x ∈ added,
      r'.getTypedChunkEntryCount x.1 .int32Array = .ok x.2.length ∧
      ∃ r'', r'.readIntArray lzma x.1 x.2.length = .ok (x.2, r'')

variable {lzma : Lzma} {uninit : Nat → BitVec 32}

/-- **Delta prediction is undone**, also where a difference wraps. -/
theorem undelta_zipWith (x : BitVec 32) (xs : List (BitVec 32)) :
    undelta x (List.zipWith (fun y x => y - x) xs (x :: xs)) = xs := by
  induction xs generalizing x with
  | nil => rfl
  | cons y xs ih =>
    rw [List.zipWith_cons_cons, undelta, BitVec.sub_add_cancel, ih]

theorem undelta_intWords (data : List (BitVec 32)) :
    undelta 0 (intWords .deltaPrediction data) = data := by
  cases data with
  | nil => rfl
  | cons x xs =>
    change (x + 0#32) :: undelta (x + 0#32) (List.zipWith (fun y x => y - x) xs (x :: xs)) = _
    rw [BitVec.add_zero, undelta_zipWith]

/-- The values of an entry whose words were written with a prediction. -/
theorem readValues_intWords {c : ChunkedBinaryStreamReaderChunk} {p : ChunkedBinaryPredictionType}
    {data : List (BitVec 32)} (h : Positioned (intWords p data) c)
    {type : ChunkedBinaryPredictionType → BitVec 32}
    (hne : type .deltaPrediction ≠ type .noPrediction) :
    ChunkedBinaryStreamReader.readValues (type .noPrediction) (type .deltaPrediction) (type p)
      data.length c = .ok (data, c.advance data.length) := by
  have hlen := length_intWords p data
  unfold ChunkedBinaryStreamReader.readValues
  by_cases hz : data.length = 0
  · rw [if_pos hz, hz, List.length_eq_zero_iff.1 hz]
    rfl
  · rw [if_neg hz]
    cases p with
    | noPrediction =>
      rw [if_pos rfl]
      exact h.readNoPrediction
    | deltaPrediction =>
      rw [if_neg hne, if_pos rfl]
      have hr := h.readDeltaPrediction 0
      rw [undelta_intWords, hlen] at hr
      exact hr

/-- The number of integers of an entry. -/
theorem getInformation_int {c : ChunkedBinaryStreamReaderChunk} {e : Nat}
    {entry : BinaryChunkFileEntry} {p : ChunkedBinaryPredictionType} {n : Nat}
    (he : c.chunkEntries[e]? = some entry) (ht : entry.entryType = intEntryType p)
    (hs : entry.sizeInBytes.toNat = 4 * n) : c.getInformation e = .ok (.int32Array, n) := by
  unfold getInformation
  rw [he]
  dsimp only
  rw [if_pos (by rw [ht]; cases p <;> decide), if_neg (by omega), hs,
    Nat.mul_div_cancel_left _ (by decide)]

/-- A returned ID is the one of the array as it is stored. -/
theorem map_fst_added {added : List (BitVec 32 × List (BitVec 32))} {arrays : List StoredArray}
    (h : List.Forall₂ IsStoredAs added arrays) :
    added.map Prod.fst = arrays.map StoredArray.id := by
  induction h with
  | nil => rfl
  | cons hx _ ih =>
    obtain ⟨p, rfl⟩ := hx
    rw [List.map_cons, List.map_cons, ih]

/-- Where the array of an ID is. -/
theorem exists_place {chunks : List (List StoredArray)} {a : StoredArray}
    (ha : a ∈ chunks.flatten) :
    ∃ (i e : Nat) (arrays : _), chunks[i]? = some arrays ∧ arrays[e]? = some a := by
  obtain ⟨arrays, hmem, ha⟩ := List.mem_flatten.1 ha
  obtain ⟨i, hi⟩ := List.mem_iff_getElem?.1 hmem
  obtain ⟨e, he⟩ := List.mem_iff_getElem?.1 ha
  exact ⟨i, e, arrays, hi, he⟩

/-- The size an array was found with, from its read. -/
theorem readIntArray_seek {r r' : ChunkedBinaryStreamReader} {entryID : BitVec 32} {n : Nat}
    {vs : List (BitVec 32)} (h : r.readIntArray lzma entryID n = .ok (vs, r')) :
    ∃ j c t, r.seekToEntry lzma entryID = .ok (j, c, t, 4 * n) := by
  simp only [ChunkedBinaryStreamReader.readIntArray, guard_eq_ok, bind_eq_ok, Prod.exists] at h
  obtain ⟨j, c, t, m, hs, hmod, hn, -⟩ := h
  refine ⟨j, c, t, ?_⟩
  rw [hs]
  have : m = 4 * n := by omega
  rw [this]

/-- **Reading an array of integers.** -/
theorem readIntArray_of_seek {r : ChunkedBinaryStreamReader} {entryID : BitVec 32} {j : Nat}
    {c : ChunkedBinaryStreamReaderChunk} {p : ChunkedBinaryPredictionType}
    {data : List (BitVec 32)}
    (hs : r.seekToEntry lzma entryID = .ok (j, c, intEntryType p, 4 * data.length))
    (hp : Positioned (intWords p data) c) :
    ∃ r', r.readIntArray lzma entryID data.length = .ok (data, r') := by
  simp only [ChunkedBinaryStreamReader.readIntArray, guard_eq_ok, bind_eq_ok, pure_eq_ok,
    Prod.exists]
  have hne : intEntryType .deltaPrediction ≠ intEntryType .noPrediction := by decide
  exact ⟨_, j, c, _, _, hs, by omega, by omega, data, _, readValues_intWords hp hne, rfl⟩

/-- The size an entry records is the size of its array. -/
theorem Fits.sizeInBytes {chunks : List (List StoredArray)} {arrays : List StoredArray}
    {a : StoredArray} {i e : Nat} (hfit : Fits lzma uninit chunks) (hi : chunks[i]? = some arrays)
    (he : arrays[e]? = some a) : (BitVec.ofNat 32 a.size).toNat = a.size := by
  have hle := totalSize_take_le arrays (e + 1)
  have htotal := hfit.size arrays (List.mem_of_getElem? hi)
    (List.ne_nil_of_mem (List.mem_of_getElem? he))
  have hmax : binaryChunkFileMaxChunkDataSize < 2 ^ 32 := by decide
  rw [totalSize_take_succ he] at hle
  rw [BitVec.toNat_ofNat, Nat.mod_eq_of_lt (by omega)]

/-- **Arrays of integers come back exactly when the chunks fit.** -/
theorem readsBack_iff (hl : lzma.Lossless) {calls : List WriterCall}
    {w : ChunkedBinaryStreamWriter} {added : List (BitVec 32 × List (BitVec 32))}
    (h : writeCalls lzma uninit calls = .ok (w, added)) :
    ReadsBack lzma w added ↔
      (∀ arrays ∈ (Contents.ofCalls calls).chunks, Compresses lzma arrays) ∧
        Fits lzma uninit (Contents.ofCalls calls).chunks := by
  obtain ⟨hlay, hadd⟩ := writeCalls_layout h
  have hnum := (Contents.numbered_ofCalls calls).nodup_iff
  rw [← map_fst_added hadd] at hnum
  constructor
  · rintro ⟨hn, w', r, hfin, hnew, hread⟩
    refine ⟨fun arrays ha => ?_, ?_⟩
    · rcases List.mem_append.1 ha with ha | ha
      · exact hlay.compresses ha
      · exact hlay.finishWriting_isOk.1 ⟨w', hfin⟩ arrays (Option.mem_toList.1 ha)
    · obtain ⟨records, hw⟩ := hlay.finishWriting hfin
      refine hw.fits hl (by rw [← map_fst_added hadd]; exact hn) (hnum.1 hn) hnew fun a ha => ?_
      obtain ⟨x, hx, p, rfl⟩ := forall₂_mem hadd.flip ha
      obtain ⟨r', hr'⟩ := (hread r .refl x hx).2
      have hs := readIntArray_seek hr'
      rw [size, length_intWords]
      exact hs
  · rintro ⟨hcomp, hfit⟩
    have hn := hnum.2 hfit.count
    obtain ⟨w', hfin⟩ := hlay.finishWriting_isOk.2 fun arrays ha =>
      hcomp arrays (List.mem_append_right _ (Option.mem_toList.2 ha))
    obtain ⟨records, hw⟩ := hlay.finishWriting hfin
    have hn' := hn
    rw [map_fst_added hadd] at hn'
    obtain ⟨r, hnew⟩ := hw.new_total (hw.length_le hfit) hfit hn'
    obtain ⟨-, -, hopen⟩ := hw.opens hnew
    refine ⟨hn, w', r, hfin, hnew, fun r' hr' x hx => ?_⟩
    have hsame := hr'.sameButCache fun c hc => by
      rw [hopen.chunks] at hc
      obtain ⟨rec, -, rfl⟩ := List.mem_map.1 hc
      rfl
    obtain ⟨a, ha, p, rfl⟩ := forall₂_mem hadd hx
    obtain ⟨i, e, arrays, hi, he⟩ := exists_place ha
    obtain ⟨c, hfind, hent, c', hs, hp⟩ := hw.seekToEntry hl (hw.length_le hfit) hfit hopen
      hsame hi he
    have hsize : (⟨x.1, intEntryType p, intWords p x.2⟩ : StoredArray).size = 4 * x.2.length := by
      rw [size, length_intWords]
    rw [hsize] at hs
    refine ⟨?_, readIntArray_of_seek hs hp⟩
    have hinfo : c.getInformation e = .ok (.int32Array, x.2.length) := by
      refine getInformation_int (p := p) (by rw [hent, getElem?_entries he 0]) rfl ?_
      dsimp only
      rw [hfit.sizeInBytes hi he, hsize]
    simp only [ChunkedBinaryStreamReader.getTypedChunkEntryCount, guard_eq_ok, bind_eq_ok,
      pure_eq_ok, Prod.exists]
    exact ⟨i, c, e, hfind, _, _, hinfo, by simp, rfl⟩

/-! ## Two streams -/

/-- A compression that is known for some `data` only. -/
def entryLzma (data out props : List UInt8) : Lzma where
  compress n k d :=
    if d = data ∧ out.length ≤ n ∧ props.length ≤ k then some (out, props) else none
  uncompress destLen o p :=
    if destLen = data.length ∧ o = out ∧ p = props then some data else none

theorem entryLzma_lossless {data out props : List UInt8} (ho : out ≠ []) (hp : props ≠ []) :
    (entryLzma data out props).Lossless := by
  have h : ∀ n k d o p, (entryLzma data out props).compress n k d = some (o, p) →
      (d = data ∧ out.length ≤ n ∧ props.length ≤ k) ∧ o = out ∧ p = props := by
    intro n k d o p h
    simp only [entryLzma] at h
    split_ifs at h with hc
    cases h
    exact ⟨hc, rfl, rfl⟩
  refine ⟨fun n k d o p hc => ?_, fun n k d o p hc => ?_, fun n k d o p hc => ?_⟩
  · obtain ⟨⟨-, hn, hk⟩, rfl, rfl⟩ := h n k d o p hc
    exact ⟨hn, hk⟩
  · obtain ⟨-, rfl, rfl⟩ := h n k d o p hc
    exact ⟨ho, hp⟩
  · obtain ⟨⟨rfl, -, -⟩, rfl, rfl⟩ := h n k d o p hc
    simp [entryLzma]

/-- What `LzmaCompress` gives for the bytes 1, …, 8. -/
def sampleLzma : Lzma := entryLzma [1, 2, 3, 4, 5, 6, 7, 8]
  [0, 0, 128, 126, 94, 62, 174, 165, 109, 118, 154, 70, 64] [0x9E, 0, 0, 0x80, 0]

theorem sampleLzma_lossless : sampleLzma.Lossless := entryLzma_lossless nofun nofun

/-- A chunk of two integers with delta prediction, and an empty one. -/
def sampleCalls : List WriterCall :=
  [.addIntArray [0x04030201, 0x0C0A0806] .deltaPrediction, .beginChunk]

def sampleArray : StoredArray := ⟨1, 2, [0x04030201, 0x08070605]⟩

theorem chunks_sampleCalls : (Contents.ofCalls sampleCalls).chunks = [[sampleArray], []] := by
  decide

theorem compressed_sampleArray : compressed sampleLzma [sampleArray] = some
    ([0, 0, 128, 126, 94, 62, 174, 165, 109, 118, 154, 70, 64], [0x9E, 0, 0, 0x80, 0]) := by
  decide

theorem readsBack_sample : ∃ w added,
    writeCalls sampleLzma (fun _ => 0) sampleCalls = .ok (w, added) ∧
    ReadsBack sampleLzma w added := by
  refine ⟨_, _, rfl, ?_⟩
  refine (@readsBack_iff _ (fun _ => 0) sampleLzma_lossless sampleCalls _ _ rfl).2 ?_
  rw [chunks_sampleCalls]
  refine ⟨?_, by decide, by decide, by decide, ?_, ?_, ?_, fun _ _ _ => by decide⟩
  · simp [Compresses, compressed_sampleArray]
  · intro i arrays hi hne
    exact (List.getElem?_eq_some_iff.1 hi).1
  · simp [totalSize, size, sampleArray, binaryChunkFileMaxChunkDataSize]
  · simp [compressed_sampleArray, binaryChunkFileMaxChunkDataSize]

/-- A stream with an empty chunk, whose properties size happens to be large, cannot be opened. -/
theorem emptyChunk_not_readsBack : ∃ w added,
    writeCalls sampleLzma (fun _ => 0xCCCCCCCC) [.beginChunk] = .ok (w, added) ∧
    ¬ ReadsBack sampleLzma w added := by
  have hwrite : (writeCalls sampleLzma (fun _ => 0xCCCCCCCC) [.beginChunk]).toBool := by
    decide +kernel
  have hopen : (do
      let x ← writeCalls sampleLzma (fun _ => 0xCCCCCCCC) [.beginChunk]
      let w ← x.1.finishWriting sampleLzma
      ChunkedBinaryStreamReader.new w.exportStream.buffer).toBool = false := by decide +kernel
  cases hx : writeCalls sampleLzma (fun _ => 0xCCCCCCCC) [.beginChunk] with
  | error e =>
    rw [hx] at hwrite
    cases hwrite
  | ok x =>
    refine ⟨x.1, x.2, rfl, ?_⟩
    rintro ⟨-, w', r, hfin, hnew, -⟩
    have hr : (do
        let x ← writeCalls sampleLzma (fun _ => 0xCCCCCCCC) [.beginChunk]
        let w ← x.1.finishWriting sampleLzma
        ChunkedBinaryStreamReader.new w.exportStream.buffer) = .ok r := by
      simp only [hx, bind_eq_ok]
      exact ⟨x, rfl, w', hfin, hnew⟩
    rw [hr] at hopen
    cases hopen

end NMR
