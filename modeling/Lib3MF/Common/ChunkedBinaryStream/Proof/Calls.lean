import Lib3MF.Common.ChunkedBinaryStream.Proof.Layout

/-!
# Runs of the writer

A run is a sequence of calls on a new writer, `finishWriting` coming last. `contents` is what
the calls add, without a stream; the writer reaches the `Layout` of it (`runCalls_layout`) and
finishing gives a stream that holds it (`Layout.finishWriting`, `Written`).
-/

namespace NMR

open Lib StoredArray
open ChunkedBinaryStreamWriter (intEntryType intWords)

/-- A call of the writer, of integers. -/
inductive WriterCall where
  | beginChunk
  | addIntArray (data : List (BitVec 32)) (predictionType : ChunkedBinaryPredictionType)
  deriving DecidableEq

/-- The calls on a writer, with the returned IDs and the arrays they were returned for. -/
def runCalls (lzma : Lzma) (uninit : Nat → BitVec 32) (w : ChunkedBinaryStreamWriter) :
    List WriterCall → Except Error (ChunkedBinaryStreamWriter × List (BitVec 32 × List (BitVec 32)))
  | [] => .ok (w, [])
  | .beginChunk :: calls => do
    let w ← w.beginChunk lzma uninit
    runCalls lzma uninit w calls
  | .addIntArray data predictionType :: calls => do
    let (w, entryID) ← w.addIntArray lzma uninit data predictionType
    let (w, added) ← runCalls lzma uninit w calls
    return (w, (entryID, data) :: added)

/-- The calls on a new writer. -/
def writeCalls (lzma : Lzma) (uninit : Nat → BitVec 32) (calls : List WriterCall) :
    Except Error (ChunkedBinaryStreamWriter × List (BitVec 32 × List (BitVec 32))) := do
  runCalls lzma uninit (← ChunkedBinaryStreamWriter.new) calls

namespace Contents

/-- What a call adds. -/
def call (cs : Contents) : WriterCall → Contents
  | .beginChunk => cs.beginChunk
  | .addIntArray data predictionType =>
    cs.add ⟨cs.nextID, intEntryType predictionType, intWords predictionType data⟩

/-- What the calls on a new writer add. -/
def ofCalls (calls : List WriterCall) : Contents := calls.foldl call .empty

/-- The arrays have the IDs 1, 2, … -/
def Numbered (cs : Contents) : Prop :=
  ∀ k a, cs.chunks.flatten[k]? = some a → a.id = BitVec.ofNat 32 (k + 1)

theorem Numbered.add {cs : Contents} (h : cs.Numbered) (entryType : BitVec 32)
    (words : List (BitVec 32)) : (cs.add ⟨cs.nextID, entryType, words⟩).Numbered := by
  intro k a hk
  rw [flatten_add] at hk
  rcases Nat.lt_trichotomy k cs.chunks.flatten.length with hlt | rfl | hgt
  · exact h k a (by rwa [List.getElem?_append_left hlt] at hk)
  · rw [List.getElem?_concat_length] at hk
    cases hk
    rfl
  · have hge : (cs.chunks.flatten ++ [(⟨cs.nextID, entryType, words⟩ : StoredArray)]).length ≤ k := by
      rw [List.length_append, List.length_singleton]
      exact hgt
    rw [List.getElem?_eq_none hge] at hk
    cases hk

theorem Numbered.beginChunk {cs : Contents} (h : cs.Numbered) : cs.beginChunk.Numbered := by
  intro k a hk
  exact h k a (by rwa [flatten_beginChunk] at hk)

theorem Numbered.call {cs : Contents} (h : cs.Numbered) (c : WriterCall) :
    (cs.call c).Numbered := by
  cases c with
  | beginChunk => exact h.beginChunk
  | addIntArray data predictionType => exact h.add _ _

theorem numbered_ofCalls (calls : List WriterCall) : (ofCalls calls).Numbered := by
  have h : ∀ cs : Contents, cs.Numbered → (calls.foldl call cs).Numbered := by
    induction calls with
    | nil => exact fun cs hcs => hcs
    | cons c calls ih => exact fun cs hcs => ih _ (hcs.call c)
  exact h .empty fun k a hk => by simp [empty, chunks] at hk

end Contents

variable {lzma : Lzma} {uninit : Nat → BitVec 32} {extra : Nat} {cs : Contents}
  {w w' : ChunkedBinaryStreamWriter} {added : List (BitVec 32 × List (BitVec 32))}

/-! ## The calls -/

/-- A new writer has only written a header. -/
theorem layout_new (h : ChunkedBinaryStreamWriter.new = .ok w) : Layout lzma uninit 0 .empty w := by
  obtain ⟨-, -, hw, hb, hp⟩ := ChunkedBinaryStreamWriter.writeHeader_spec h
  have hlen : w.exportStream.buffer.length = 52 := by
    rw [hb, List.length_append, headerCodec.length_encode]
    rfl
  refine ⟨by rw [hw], hp, by rw [hlen]; rfl, by rw [hw]; rfl, by rw [hw]; rfl, ?_, ?_, ?_, ?_⟩
  · intro i arrays c hi
    simp [Contents.empty] at hi
  · intro _
    rw [hw]
  · intro arrays ha
    cases ha
  · intro arrays ha
    simp [Contents.empty, Contents.chunks] at ha

theorem length_intWords (p : ChunkedBinaryPredictionType) (data : List (BitVec 32)) :
    (intWords p data).length = data.length := by
  cases p with
  | noPrediction => rfl
  | deltaPrediction =>
    cases data with
    | nil => rfl
    | cons x xs => simp [intWords, Nat.add_comm]

/-- **Adding an array of integers.** -/
theorem Layout.addIntArray (h : Layout lzma uninit extra cs w) {data : List (BitVec 32)}
    {p : ChunkedBinaryPredictionType} {id : BitVec 32}
    (ha : w.addIntArray lzma uninit data p = .ok (w', id)) :
    Layout lzma uninit extra (cs.call (.addIntArray data p)) w' ∧ id = cs.nextID := by
  simp only [ChunkedBinaryStreamWriter.addIntArray, guard_eq_ok, bind_eq_ok] at ha
  obtain ⟨-, hne, w₁, hw₁, ha⟩ := ha
  cases hc : w₁.currentChunk with
  | none =>
    rw [hc] at ha
    cases ha
  | some c =>
    rw [hc] at ha
    obtain ⟨cs₁, arrays, hadd, hid, hcs⟩ := h.open hw₁ hc
    have hws : intWords p data ≠ [] := by
      intro he
      have hl := length_intWords p data
      rw [he] at hl
      exact hne hl.symm
    have hsize : data.length * 4 = 4 * (intWords p data).length := by
      rw [length_intWords, Nat.mul_comm]
    simp only [pure_eq_ok] at ha
    have hpush : Layout lzma uninit extra (cs₁.add ⟨cs₁.nextID, intEntryType p, intWords p data⟩)
          (w₁.pushEntry c (intEntryType p) (data.length * 4) (intWords p data)).1 ∧
        (w₁.pushEntry c (intEntryType p) (data.length * 4) (intWords p data)).2 = cs₁.nextID :=
      hadd.pushEntry hws hsize
    obtain ⟨hl, hid'⟩ := hpush
    rw [hcs, hid] at hl
    rw [ha] at hl hid'
    exact ⟨hl, hid'.trans hid⟩

/-- The array a call returned the ID for, as it is stored. -/
def IsStoredAs (x : BitVec 32 × List (BitVec 32)) (a : StoredArray) : Prop :=
  ∃ p, a = ⟨x.1, intEntryType p, intWords p x.2⟩

/-- **The run lemma**: the writer holds what the calls add. -/
theorem runCalls_layout {calls : List WriterCall} (h : Layout lzma uninit extra cs w)
    (hr : runCalls lzma uninit w calls = .ok (w', added)) :
    Layout lzma uninit extra (calls.foldl Contents.call cs) w' ∧
      ∃ new, (calls.foldl Contents.call cs).chunks.flatten = cs.chunks.flatten ++ new ∧
        List.Forall₂ IsStoredAs added new := by
  induction calls generalizing cs w added with
  | nil =>
    cases hr
    exact ⟨h, [], by simp, .nil⟩
  | cons c calls ih =>
    cases c with
    | beginChunk =>
      simp only [runCalls, bind_eq_ok] at hr
      obtain ⟨w₁, hw₁, hr⟩ := hr
      obtain ⟨hl, new, hnew, hf⟩ := ih (h.beginChunk hw₁) hr
      refine ⟨hl, new, ?_, hf⟩
      rw [Contents.flatten_beginChunk] at hnew
      exact hnew
    | addIntArray data p =>
      simp only [runCalls, bind_eq_ok, pure_eq_ok, Prod.exists] at hr
      obtain ⟨w₁, id, hw₁, w₂, added₂, hr, he⟩ := hr
      cases he
      obtain ⟨hl₁, rfl⟩ := h.addIntArray hw₁
      obtain ⟨hl, new, hnew, hf⟩ := ih hl₁ hr
      refine ⟨hl, ⟨cs.nextID, intEntryType p, intWords p data⟩ :: new, ?_, .cons ⟨p, rfl⟩ hf⟩
      rw [List.foldl_cons, hnew, Contents.call, Contents.flatten_add, List.append_assoc]
      rfl

/-- A run on a new writer. -/
theorem writeCalls_layout {calls : List WriterCall}
    (h : writeCalls lzma uninit calls = .ok (w, added)) :
    Layout lzma uninit 0 (.ofCalls calls) w ∧
      List.Forall₂ IsStoredAs added (Contents.ofCalls calls).chunks.flatten := by
  simp only [writeCalls, bind_eq_ok] at h
  obtain ⟨w₀, hw₀, hr⟩ := h
  obtain ⟨hl, new, hnew, hf⟩ := runCalls_layout (layout_new hw₀) hr
  refine ⟨hl, ?_⟩
  rw [Contents.ofCalls, hnew]
  exact hf

/-! ## Finishing -/

/-- A chunk that is not empty compresses into the buffers it gets. -/
def Compresses (lzma : Lzma) (arrays : List StoredArray) : Prop :=
  arrays ≠ [] → (compressed lzma arrays).isSome

/-- Where the chunk table of a stream starts. -/
def tableStart (lzma : Lzma) (chunks : List (List StoredArray)) : Nat :=
  52 + (chunks.map (chunkSize lzma)).sum

/-- The size of a finished stream. -/
def streamSize (lzma : Lzma) (chunks : List (List StoredArray)) : Nat :=
  tableStart lzma chunks + 56 * chunks.length

/-- A finished stream of these chunks, with the records in its chunk table. Bytes of calls that threw
stand before the table. -/
structure Written (lzma : Lzma) (uninit : Nat → BitVec 32) (extra : Nat) (chunks : List (List StoredArray))
    (file : List UInt8) (records : List BinaryChunkFileChunk) : Prop where
  length : file.length = streamSize lzma chunks + extra
  header : At file 0 (headerCodec.encode ⟨binaryChunkFileHeaderSign, binaryChunkFileHeaderVersion,
    BitVec.ofNat 32 chunks.length, BitVec.ofNat 64 (tableStart lzma chunks + extra)⟩)
  count : records.length = chunks.length
  table : At file (tableStart lzma chunks + extra) (chunkCodec.encodeAll records)
  stored : ∀ (i : Nat) arrays c, chunks[i]? = some arrays → records[i]? = some c →
    Stored lzma (uninit i) file arrays c
  words : ∀ arrays ∈ chunks, ∀ a ∈ arrays, a.words ≠ []

namespace ChunkedBinaryStreamWriter

theorem writeChunkTable_spec (hp : w.exportStream.position = w.exportStream.buffer.length)
    (h : w.writeChunkTable = .ok w') :
    w' = { w with
      chunkTableStart := BitVec.ofNat 64 w.exportStream.buffer.length
      exportStream := w'.exportStream } ∧
    w'.exportStream.buffer = w.exportStream.buffer ++ chunkCodec.encodeAll w.chunks := by
  simp only [writeChunkTable, guard_eq_ok, pure_eq_ok] at h
  obtain ⟨-, -, rfl⟩ := h
  rw [hp]
  refine ⟨rfl, ?_⟩
  dsimp only
  split_ifs with hc
  · rw [ExportStreamMemory.writeBuffer_end hp]
  · rw [List.length_eq_zero_iff.1 (by omega : w.chunks.length = 0)]
    simp

theorem writeChunkTable_isOk (hf : w.isFinished = false) (hc : w.currentChunk = none) :
    ∃ w', w.writeChunkTable = .ok w' := by
  simp only [writeChunkTable, guard_eq_ok, pure_eq_ok]
  exact ⟨_, by simp [hf], by simp [hc], rfl⟩

theorem writeHeader_isOk (hf : w.isFinished = false) (hc : w.currentChunk = none) :
    ∃ w', w.writeHeader = .ok w' := by
  simp only [writeHeader, guard_eq_ok, bind_eq_ok, pure_eq_ok]
  exact ⟨_, by simp [hf], by simp [hc], _, ExportStreamMemory.seekPosition_zero, _,
    ExportStreamMemory.seekFromEnd_zero, rfl⟩

/-- Writing the data of a chunk fails only where the compression does. -/
theorem writeData_isOk {c : BinaryChunkFileChunk} {data : List (BitVec 32)}
    {s : ExportStreamMemory} : (∃ x, writeData lzma c data s = .ok x) ↔
      (data ≠ [] → (lzma.compress (c.uncompressedDataSize * 2).toNat
        (c.uncompressedDataSize * 2).toNat (codec32.encodeAll data)).isSome) := by
  unfold writeData
  split_ifs with hd
  · simp [List.length_eq_zero_iff.1 hd]
  · have hne : data ≠ [] := fun he => hd (by rw [he]; rfl)
    dsimp only
    split
    · simp_all
    · simp_all

end ChunkedBinaryStreamWriter

/-- Whether the open chunk can be finished. -/
theorem Layout.finishOpenChunk_isOk (h : Layout lzma uninit extra cs w) :
    (∃ w', w.finishOpenChunk lzma = .ok w') ↔
      ∀ arrays, cs.current = Option.some arrays → Compresses lzma arrays := by
  unfold ChunkedBinaryStreamWriter.finishOpenChunk
  cases hc : cs.current with
  | none =>
    rw [h.none hc]
    simp
  | some arrays =>
    obtain ⟨c, hcur, hopen⟩ := h.some arrays hc
    have hne : w.currentChunkData ≠ [] ↔ arrays ≠ [] := by
      refine not_congr ?_
      rw [hopen.data]
      refine ⟨fun he => ?_, fun he => by rw [he]; rfl⟩
      by_contra hx
      refine flatMap_words_ne_nil hx (h.words arrays ?_) he
      simp [Contents.chunks, hc]
    have hsize : (ChunkedBinaryStreamWriter.writeEntryTable c w.currentChunkEntries
        w.exportStream).1.uncompressedDataSize = BitVec.ofNat 32 (totalSize arrays) := by
      obtain ⟨start, -, hrec⟩ := hopen.record
      unfold ChunkedBinaryStreamWriter.writeEntryTable
      split_ifs <;> rw [hrec]
    rw [hcur]
    simp only [Option.isSome_some, if_true, ChunkedBinaryStreamWriter.finishChunk, hcur, bind_eq_ok,
      pure_eq_ok, Option.some.injEq, forall_eq']
    rw [Compresses, ← hne, compressed, ← hsize, chunkBytes, ← hopen.data]
    refine Iff.trans ⟨fun ⟨_, x, hx, _⟩ => ⟨x, hx⟩, fun ⟨x, hx⟩ => ⟨_, x, hx, rfl⟩⟩
      ChunkedBinaryStreamWriter.writeData_isOk

/-- **Finishing** fails only where the compression of the open chunk does. -/
theorem Layout.finishWriting_isOk (h : Layout lzma uninit extra cs w) :
    (∃ w', w.finishWriting lzma = .ok w') ↔
      ∀ arrays, cs.current = Option.some arrays → Compresses lzma arrays := by
  rw [← h.finishOpenChunk_isOk]
  unfold ChunkedBinaryStreamWriter.finishWriting
  rw [h.finished]
  simp only [Bool.false_eq_true, if_false, bind_eq_ok, pure_eq_ok]
  constructor
  · rintro ⟨_, w₁, h₁, _⟩
    exact ⟨w₁, h₁⟩
  · rintro ⟨w₁, h₁⟩
    obtain ⟨hl, hcur⟩ := h.finishOpenChunk h₁
    obtain ⟨w₂, h₂⟩ := ChunkedBinaryStreamWriter.writeChunkTable_isOk hl.finished hcur
    obtain ⟨hw₂, -⟩ := ChunkedBinaryStreamWriter.writeChunkTable_spec hl.position h₂
    obtain ⟨w₃, h₃⟩ := ChunkedBinaryStreamWriter.writeHeader_isOk (w := w₂)
      (by rw [hw₂]; exact hl.finished) (by rw [hw₂]; exact hcur)
    exact ⟨_, w₁, h₁, w₂, h₂, w₃, h₃, rfl⟩

/-- The chunks that are finished could be compressed. -/
theorem Layout.compresses (h : Layout lzma uninit extra cs w) {arrays : List StoredArray}
    (ha : arrays ∈ cs.closed) : Compresses lzma arrays := by
  intro hne
  obtain ⟨i, hi, rfl⟩ := List.getElem_of_mem ha
  have hlt : i < w.chunks.length := by
    rw [h.count]
    exact hi
  obtain ⟨_, out, props, -, hc, -⟩ :=
    (h.closed i _ _ (List.getElem?_eq_getElem hi) (List.getElem?_eq_getElem hlt)).data hne
  rw [hc]
  rfl

/-- **Finishing** leaves a stream of the chunks. -/
theorem Layout.finishWriting (h : Layout lzma uninit extra cs w) (hf : w.finishWriting lzma = .ok w') :
    ∃ records, Written lzma uninit extra cs.chunks w'.exportStream.buffer records := by
  unfold ChunkedBinaryStreamWriter.finishWriting at hf
  rw [h.finished] at hf
  simp only [Bool.false_eq_true, if_false, bind_eq_ok, pure_eq_ok] at hf
  obtain ⟨w₁, h₁, w₂, h₂, w₃, h₃, rfl⟩ := hf
  obtain ⟨hl, hcur⟩ := h.finishOpenChunk h₁
  obtain ⟨hw₂, hb₂⟩ := ChunkedBinaryStreamWriter.writeChunkTable_spec hl.position h₂
  obtain ⟨-, -, -, hb₃, -⟩ := ChunkedBinaryStreamWriter.writeHeader_spec h₃
  have hchunks₂ : w₂.chunks = w₁.chunks := by rw [hw₂]
  have hcur₂ : w₂.currentChunk = Option.none := by
    rw [hw₂]
    exact hcur
  have hstart : w₂.chunkTableStart = BitVec.ofNat 64 w₁.exportStream.buffer.length := by rw [hw₂]
  have hlen : w₁.exportStream.buffer.length = tableStart lzma cs.chunks + extra := hl.length
  have hcount : w₁.chunks.length = cs.chunks.length := hl.count
  have hold : (w₁.exportStream.buffer.take 52).length = 52 := by
    rw [List.length_take, hlen, tableStart]
    omega
  -- the stream before the header is written again, its first 52 bytes apart
  have hsplit : w₁.exportStream.buffer ++ chunkCodec.encodeAll w₁.chunks =
      w₁.exportStream.buffer.take 52 ++
        (w₁.exportStream.buffer.drop 52 ++ chunkCodec.encodeAll w₁.chunks) := by
    rw [← List.append_assoc, List.take_append_drop]
  have hdrop : w₂.exportStream.buffer.drop 52 =
      w₁.exportStream.buffer.drop 52 ++ chunkCodec.encodeAll w₁.chunks := by
    rw [hb₂, hsplit, List.drop_left' hold]
  have hgc : w₂.getChunkCount = BitVec.ofNat 32 cs.chunks.length := by
    rw [ChunkedBinaryStreamWriter.getChunkCount, hcur₂, hchunks₂, hcount]
    rfl
  rw [hdrop, hgc, hstart, hlen] at hb₃
  refine ⟨w₁.chunks, ?_, ?_, hcount, ?_, ?_, ?_⟩
  · dsimp only
    rw [hb₃, List.length_append, headerCodec.length_encode, List.length_append,
      List.length_drop, chunkCodec.length_encodeAll, hlen, hcount, size_headerCodec,
      size_chunkCodec, streamSize, tableStart]
    omega
  · exact ⟨[], _, rfl, hb₃⟩
  · dsimp only
    rw [hb₃]
    have hat := at_end w₁.exportStream.buffer (chunkCodec.encodeAll w₁.chunks)
    rw [hsplit, hlen] at hat
    refine hat.replace ?_ ?_
    · rw [hold, tableStart]
      omega
    · rw [hold, headerCodec.length_encode]
      rfl
  · intro i arrays c hi hr
    have hst : Stored lzma (uninit i)
        (w₁.exportStream.buffer ++ chunkCodec.encodeAll w₁.chunks) arrays c :=
      (hl.closed i arrays c hi hr).append
    rw [hsplit] at hst
    dsimp only
    rw [hb₃]
    exact hst.header hold (headerCodec.length_encode _)
  · have hcs : (⟨cs.chunks, Option.none⟩ : Contents).chunks = cs.chunks := by
      rw [Contents.chunks, Option.toList_none, List.append_nil]
    intro arrays ha
    exact hl.words arrays (by rw [hcs]; exact ha)

end NMR
