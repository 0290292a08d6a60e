import Lib3MF.Lib.Except
import Lib3MF.Common.ChunkedBinaryStream.Writer

/-!
# What the writer writes

A run of the writer adds arrays to chunks (`Contents`, the arrays as the words they are stored
as). `Layout` relates the state of the writer to them: a finished chunk stands in the stream with
its entry table and its compressed data (`Stored`), the open one in memory (`Opened`). Every call
keeps it (`Layout.beginChunk`, `Adding.pushEntry`), and finishing leaves a stream that is laid
out by its chunk table (`Written`).
-/

namespace NMR

open Lib

/-- An array as it is stored. -/
structure StoredArray where
  id : BitVec 32
  entryType : BitVec 32
  words : List (BitVec 32)
  deriving DecidableEq

namespace StoredArray

/-- The bytes an array takes. -/
def size (a : StoredArray) : Nat := 4 * a.words.length

/-- The bytes the arrays of a chunk take. -/
def totalSize (arrays : List StoredArray) : Nat := (arrays.map size).sum

/-- The bytes of the arrays of a chunk. -/
def chunkBytes (arrays : List StoredArray) : List UInt8 :=
  codec32.encodeAll (arrays.flatMap words)

/-- The entry table of the arrays of a chunk, the first being at `pos`. -/
def entries : Nat → List StoredArray → List BinaryChunkFileEntry
  | _, [] => []
  | pos, a :: arrays =>
    ⟨a.id, a.entryType, BitVec.ofNat 32 pos, BitVec.ofNat 32 a.size⟩ ::
      entries (pos + a.size) arrays

variable {arrays : List StoredArray} {a : StoredArray}

theorem totalSize_append (l l' : List StoredArray) :
    totalSize (l ++ l') = totalSize l + totalSize l' := by
  simp [totalSize]

theorem length_chunkBytes (arrays : List StoredArray) :
    (chunkBytes arrays).length = totalSize arrays := by
  rw [chunkBytes, codec32.length_encodeAll, size_codec32, List.length_flatMap, totalSize]
  induction arrays with
  | nil => rfl
  | cons a l ih =>
    rw [List.map_cons, List.map_cons, List.sum_cons, List.sum_cons, Nat.mul_add, ih, size]

theorem entries_append (pos : Nat) (l l' : List StoredArray) :
    entries pos (l ++ l') = entries pos l ++ entries (pos + totalSize l) l' := by
  induction l generalizing pos with
  | nil => simp [entries, totalSize]
  | cons a l ih =>
    rw [List.cons_append, entries, ih, entries, List.cons_append, totalSize, totalSize,
      List.map_cons, List.sum_cons, Nat.add_assoc]

theorem length_entries (pos : Nat) (l : List StoredArray) : (entries pos l).length = l.length := by
  induction l generalizing pos with
  | nil => rfl
  | cons a l ih => rw [entries, List.length_cons, ih, List.length_cons]

/-- Entry `k`: its position is the size of the arrays before it. -/
theorem getElem?_entries {k : Nat} (h : arrays[k]? = some a) (pos : Nat) :
    (entries pos arrays)[k]? = some ⟨a.id, a.entryType,
      BitVec.ofNat 32 (pos + totalSize (arrays.take k)), BitVec.ofNat 32 a.size⟩ := by
  induction arrays generalizing k pos with
  | nil => simp at h
  | cons b l ih =>
    cases k with
    | zero =>
      cases h
      rfl
    | succ k =>
      rw [entries, List.getElem?_cons_succ, ih (by simpa using h)]
      rw [List.take_succ_cons, totalSize, totalSize, List.map_cons, List.sum_cons, Nat.add_assoc]

end StoredArray

open StoredArray

/-- The arrays of the finished chunks and of the open one. -/
structure Contents where
  closed : List (List StoredArray)
  current : Option (List StoredArray)

namespace Contents

/-- Nothing yet. -/
def empty : Contents := ⟨[], none⟩

/-- All chunks. -/
def chunks (c : Contents) : List (List StoredArray) := c.closed ++ c.current.toList

/-- The number of arrays. -/
def count (c : Contents) : Nat := c.chunks.flatten.length

/-- A new chunk. -/
def beginChunk (c : Contents) : Contents := ⟨c.chunks, some []⟩

/-- One array more, in a new chunk if none is open. -/
def add (c : Contents) (a : StoredArray) : Contents := ⟨c.closed, some (c.current.getD [] ++ [a])⟩

/-- The ID the next array gets. -/
def nextID (c : Contents) : BitVec 32 := BitVec.ofNat 32 (c.count + 1)

variable {c : Contents}

theorem flatten_add (c : Contents) (a : StoredArray) :
    (c.add a).chunks.flatten = c.chunks.flatten ++ [a] := by
  obtain ⟨closed, - | arrays⟩ := c <;> simp [add, chunks]

theorem flatten_beginChunk (c : Contents) : c.beginChunk.chunks.flatten = c.chunks.flatten := by
  simp [beginChunk, chunks]

theorem count_add (c : Contents) (a : StoredArray) : (c.add a).count = c.count + 1 := by
  rw [count, flatten_add, List.length_append]
  rfl

end Contents

/-! ## Chunks in the stream -/

/-- What the compression of a chunk gives, for buffers of twice its recorded size. -/
def compressed (lzma : Lzma) (arrays : List StoredArray) : Option (List UInt8 × List UInt8) :=
  lzma.compress (BitVec.ofNat 32 (totalSize arrays) * 2).toNat
    (BitVec.ofNat 32 (totalSize arrays) * 2).toNat (chunkBytes arrays)

/-- The bytes a finished chunk takes in the stream. -/
def chunkSize (lzma : Lzma) (arrays : List StoredArray) : Nat :=
  if arrays = [] then 0
  else 16 * arrays.length +
    match compressed lzma arrays with
    | some (out, props) => out.length + props.length
    | none => 0

/-- The stream holds the arrays of the `i`-th chunk as its record `c` says. -/
structure Stored (lzma : Lzma) (garbage : BitVec 32) (file : List UInt8)
    (arrays : List StoredArray) (c : BinaryChunkFileChunk) : Prop where
  entryCount : c.entryCount = BitVec.ofNat 32 arrays.length
  size : c.uncompressedDataSize = BitVec.ofNat 32 (totalSize arrays)
  empty : arrays = [] →
    c.entryTableStart = 0 ∧ c.compressedDataSize = 0 ∧ c.compressedPropsSize = garbage
  table : arrays ≠ [] → ∃ pos, 52 ≤ pos ∧ c.entryTableStart = BitVec.ofNat 64 pos ∧
    At file pos (entryCodec.encodeAll (entries 0 arrays))
  data : arrays ≠ [] → ∃ pos out props, 52 ≤ pos ∧
    compressed lzma arrays = some (out, props) ∧
    c.compressedDataSize = BitVec.ofNat 32 out.length ∧
    c.compressedPropsSize = BitVec.ofNat 32 props.length ∧
    c.compressedDataStart = BitVec.ofNat 64 pos ∧ At file pos (out ++ props)

/-- The writer has the arrays of the open chunk `c` in memory. An entry table that is in the stream
already was written by a call that could not compress the chunk. -/
structure Opened (garbage : BitVec 32) (arrays : List StoredArray) (c : BinaryChunkFileChunk)
    (w : ChunkedBinaryStreamWriter) : Prop where
  record : ∃ start, (arrays = [] → start = 0) ∧
    c = ⟨BitVec.ofNat 32 arrays.length, start, 0, 0, garbage, BitVec.ofNat 32 (totalSize arrays)⟩
  entries : w.currentChunkEntries = StoredArray.entries 0 arrays
  data : w.currentChunkData = arrays.flatMap words

/-- The writer after the arrays of `cs` were added, with `extra` bytes in the stream of calls that
threw. -/
structure Layout (lzma : Lzma) (uninit : Nat → BitVec 32) (extra : Nat) (cs : Contents)
    (w : ChunkedBinaryStreamWriter) : Prop where
  finished : w.isFinished = false
  position : w.exportStream.position = w.exportStream.buffer.length
  length : w.exportStream.buffer.length = 52 + (cs.closed.map (chunkSize lzma)).sum + extra
  counter : w.elementIDCounter = cs.nextID
  count : w.chunks.length = cs.closed.length
  closed : ∀ (i : Nat) arrays c, cs.closed[i]? = some arrays → w.chunks[i]? = some c →
    Stored lzma (uninit i) w.exportStream.buffer arrays c
  none : cs.current = none → w.currentChunk = none
  some : ∀ arrays, cs.current = some arrays →
    ∃ c, w.currentChunk = some c ∧ Opened (uninit w.chunks.length) arrays c w
  words : ∀ arrays ∈ cs.chunks, ∀ a ∈ arrays, a.words ≠ []

variable {lzma : Lzma} {uninit : Nat → BitVec 32} {extra : Nat} {cs : Contents}
  {w w' : ChunkedBinaryStreamWriter} {arrays : List StoredArray} {c c' : BinaryChunkFileChunk}
  {file more : List UInt8} {garbage : BitVec 32} {s s' : ExportStreamMemory}

theorem Stored.append (h : Stored lzma garbage file arrays c) :
    Stored lzma garbage (file ++ more) arrays c where
  entryCount := h.entryCount
  size := h.size
  empty := h.empty
  table := fun hne => by
    obtain ⟨pos, h52, hs, hat⟩ := h.table hne
    exact ⟨pos, h52, hs, hat.append⟩
  data := fun hne => by
    obtain ⟨pos, out, props, h52, hc, h₁, h₂, h₃, hat⟩ := h.data hne
    exact ⟨pos, out, props, h52, hc, h₁, h₂, h₃, hat.append⟩

/-- A new header does not touch a chunk. -/
theorem Stored.header {old new : List UInt8} (h : Stored lzma garbage (old ++ file) arrays c)
    (ho : old.length = 52) (hn : new.length = 52) :
    Stored lzma garbage (new ++ file) arrays c where
  entryCount := h.entryCount
  size := h.size
  empty := h.empty
  table := fun hne => by
    obtain ⟨pos, h52, hs, hat⟩ := h.table hne
    exact ⟨pos, h52, hs, hat.replace (by omega) (by omega)⟩
  data := fun hne => by
    obtain ⟨pos, out, props, h52, hc, h₁, h₂, h₃, hat⟩ := h.data hne
    exact ⟨pos, out, props, h52, hc, h₁, h₂, h₃, hat.replace (by omega) (by omega)⟩

/-! ## The calls of the writer -/

namespace ChunkedBinaryStreamWriter

theorem writeHeader_spec (h : w.writeHeader = .ok w') :
    w.isFinished = false ∧ w.currentChunk = none ∧
      w' = { w with exportStream := w'.exportStream } ∧
      w'.exportStream.buffer = headerCodec.encode ⟨binaryChunkFileHeaderSign,
        binaryChunkFileHeaderVersion, w.getChunkCount, w.chunkTableStart⟩ ++
        w.exportStream.buffer.drop 52 ∧
      w'.exportStream.position = w'.exportStream.buffer.length := by
  simp only [writeHeader, guard_eq_ok, bind_eq_ok, pure_eq_ok] at h
  obtain ⟨hf, hc, s₁, h₁, s₂, h₂, rfl⟩ := h
  rw [ExportStreamMemory.seekPosition_zero, Except.ok.injEq] at h₁
  rw [ExportStreamMemory.seekFromEnd_zero, Except.ok.injEq] at h₂
  subst h₁ h₂
  refine ⟨by simpa using hf, by simpa using hc, rfl, ?_, rfl⟩
  rw [ExportStreamMemory.buffer_writeBuffer_zero rfl, headerCodec.length_encode]
  rfl

theorem writeEntryTable_spec {entries : List BinaryChunkFileEntry}
    (hp : s.position = s.buffer.length) (hne : entries ≠ [])
    (h : writeEntryTable c entries s = (c', s')) :
    c' = { c with
      entryCount := BitVec.ofNat 32 entries.length
      entryTableStart := BitVec.ofNat 64 s.buffer.length } ∧
    s'.buffer = s.buffer ++ entryCodec.encodeAll entries ∧ s'.position = s'.buffer.length := by
  unfold writeEntryTable at h
  rw [if_neg (by simpa using hne), ExportStreamMemory.writeBuffer_end hp] at h
  cases h
  exact ⟨by rw [hp], rfl, rfl⟩

theorem writeData_spec {data : List (BitVec 32)} (hp : s.position = s.buffer.length)
    (hne : data ≠ []) (h : writeData lzma c data s = .ok (c', s')) :
    ∃ out props, lzma.compress (c.uncompressedDataSize * 2).toNat
        (c.uncompressedDataSize * 2).toNat (codec32.encodeAll data) = some (out, props) ∧
      c' = { c with
        compressedDataSize := BitVec.ofNat 32 out.length
        compressedPropsSize := BitVec.ofNat 32 props.length
        compressedDataStart := BitVec.ofNat 64 s.buffer.length } ∧
      s'.buffer = s.buffer ++ (out ++ props) ∧ s'.position = s'.buffer.length := by
  unfold writeData at h
  rw [if_neg (by simpa using hne)] at h
  dsimp only at h
  split at h
  · cases h
  · rename_i out props hc
    rw [ExportStreamMemory.writeBuffer_end hp, ExportStreamMemory.writeBuffer_end rfl] at h
    cases h
    exact ⟨out, props, hc, by rw [hp], by simp, rfl⟩

end ChunkedBinaryStreamWriter

theorem flatMap_words_ne_nil (hne : arrays ≠ []) (hw : ∀ a ∈ arrays, a.words ≠ []) :
    arrays.flatMap words ≠ [] := by
  obtain ⟨a, l, rfl⟩ := List.exists_cons_of_ne_nil hne
  intro he
  rw [List.flatMap_cons, List.append_eq_nil_iff] at he
  exact hw a List.mem_cons_self he.1

/-- **Finishing a chunk** puts its arrays into the stream. -/
theorem Layout.finishChunk (h : Layout lzma uninit extra cs w) (hc : cs.current = Option.some arrays)
    (hf : w.finishChunk lzma = .ok w') :
    Layout lzma uninit extra ⟨cs.chunks, Option.none⟩ w' ∧ w'.currentChunk = Option.none := by
  obtain ⟨c, hcur, hopen⟩ := h.some arrays hc
  have hchunks : cs.chunks = cs.closed ++ [arrays] := by rw [Contents.chunks, hc]; rfl
  have hcount : (⟨cs.chunks, Option.none⟩ : Contents).chunks = cs.chunks := by
    rw [Contents.chunks, Option.toList_none, List.append_nil]
  have hwords : ∀ a ∈ arrays, a.words ≠ [] := h.words arrays (by simp [hchunks])
  unfold ChunkedBinaryStreamWriter.finishChunk at hf
  rw [hcur] at hf
  dsimp only at hf
  rcases ht : ChunkedBinaryStreamWriter.writeEntryTable c w.currentChunkEntries w.exportStream
    with ⟨c₁, s₁⟩
  rw [ht] at hf
  simp only [bind_eq_ok, pure_eq_ok, Prod.exists] at hf
  obtain ⟨c₂, s₂, hd, rfl⟩ := hf
  -- what the finished chunk leaves in the stream
  have hstored : ∃ tail, s₂.buffer = w.exportStream.buffer ++ tail ∧
      s₂.position = s₂.buffer.length ∧ tail.length = chunkSize lzma arrays ∧
      Stored lzma (uninit w.chunks.length) s₂.buffer arrays c₂ := by
    by_cases hne : arrays = []
    · subst hne
      have he : w.currentChunkEntries = [] := hopen.entries
      have hd' : w.currentChunkData = [] := hopen.data
      rw [he] at ht
      cases ht
      rw [hd'] at hd
      cases hd
      obtain ⟨start, hstart, hrec⟩ := hopen.record
      refine ⟨[], by simp, h.position, by simp [chunkSize], ?_⟩
      rw [hrec, hstart rfl]
      exact ⟨rfl, rfl, fun _ => ⟨rfl, rfl, rfl⟩, fun hx => absurd rfl hx, fun hx => absurd rfl hx⟩
    · have hle : w.currentChunkEntries ≠ [] := by
        rw [hopen.entries]
        intro he
        have := length_entries 0 arrays
        rw [he] at this
        exact hne (List.length_eq_zero_iff.1 this.symm)
      have hld : w.currentChunkData ≠ [] := by
        rw [hopen.data]
        exact flatMap_words_ne_nil hne hwords
      obtain ⟨hc₁, hb₁, hp₁⟩ := ChunkedBinaryStreamWriter.writeEntryTable_spec h.position hle ht
      obtain ⟨out, props, hcomp, hc₂, hb₂, hp₂⟩ :=
        ChunkedBinaryStreamWriter.writeData_spec hp₁ hld hd
      obtain ⟨start, -, hrec⟩ := hopen.record
      have hcomp' : compressed lzma arrays = Option.some (out, props) := by
        rw [hc₁, hrec, hopen.data] at hcomp
        exact hcomp
      refine ⟨entryCodec.encodeAll w.currentChunkEntries ++ (out ++ props),
        by rw [hb₂, hb₁, List.append_assoc], hp₂, ?_, ?_⟩
      · rw [List.length_append, entryCodec.length_encodeAll, hopen.entries, length_entries,
          List.length_append, chunkSize, if_neg hne, hcomp', size_entryCodec]
      · have h52 : 52 ≤ w.exportStream.buffer.length := by
          have := h.length
          omega
        subst hc₂ hc₁
        refine ⟨?_, by rw [hrec], fun hx => absurd hx hne, fun _ => ?_, fun _ => ?_⟩
        · dsimp only
          rw [hopen.entries, length_entries]
        · refine ⟨w.exportStream.buffer.length, h52, rfl, ?_⟩
          rw [hb₂, hb₁, ← hopen.entries]
          exact (at_end _ _).append
        · refine ⟨s₁.buffer.length, out, props, ?_, hcomp', rfl, rfl, rfl, ?_⟩
          · rw [hb₁, List.length_append]
            omega
          · rw [hb₂]
            exact at_end _ _
  obtain ⟨tail, hb, hp, hl, hst⟩ := hstored
  refine ⟨⟨h.finished, hp, ?_, ?_, ?_, ?_, fun _ => rfl, ?_, ?_⟩, rfl⟩
  · have hsum : (cs.chunks.map (chunkSize lzma)).sum =
        (cs.closed.map (chunkSize lzma)).sum + chunkSize lzma arrays := by
      rw [hchunks, List.map_append, List.sum_append]
      rfl
    dsimp only
    rw [hb, List.length_append, h.length, hl, hsum]
    omega
  · dsimp only
    rw [h.counter, Contents.nextID, Contents.nextID, Contents.count, Contents.count, hcount]
  · dsimp only
    rw [hchunks, List.length_append, List.length_append, h.count]
    rfl
  · intro i as r hi hr
    dsimp only at hi hr ⊢
    rw [hchunks] at hi
    rcases lt_trichotomy i cs.closed.length with hlt | rfl | hgt
    · rw [List.getElem?_append_left hlt] at hi
      rw [List.getElem?_append_left (by rw [h.count]; exact hlt)] at hr
      rw [hb]
      exact (h.closed i as r hi hr).append
    · rw [List.getElem?_concat_length] at hi
      rw [← h.count, List.getElem?_concat_length] at hr
      cases hi
      cases hr
      rw [← h.count]
      exact hst
    · have hge : (cs.closed ++ [arrays]).length ≤ i := by
        rw [List.length_append, List.length_singleton]
        exact hgt
      rw [List.getElem?_eq_none hge] at hi
      cases hi
  · intro a ha
    cases ha
  · rw [hcount]
    exact h.words

/-- What the writer is like before an array is added to the chunk `c`. -/
def Adding (lzma : Lzma) (uninit : Nat → BitVec 32) (extra : Nat) (cs : Contents) (arrays : List StoredArray)
    (w : ChunkedBinaryStreamWriter) (c : BinaryChunkFileChunk) : Prop :=
  Layout lzma uninit extra cs w ∧ cs.current = Option.some arrays ∧ w.currentChunk = Option.some c ∧
    Opened (uninit w.chunks.length) arrays c w

theorem Layout.finishOpenChunk (h : Layout lzma uninit extra cs w)
    (hf : w.finishOpenChunk lzma = .ok w') :
    Layout lzma uninit extra ⟨cs.chunks, Option.none⟩ w' ∧ w'.currentChunk = Option.none := by
  unfold ChunkedBinaryStreamWriter.finishOpenChunk at hf
  cases hc : cs.current with
  | none =>
    have hn := h.none hc
    rw [hn] at hf
    cases hf
    have hcs : (⟨cs.chunks, Option.none⟩ : Contents) = cs := by
      obtain ⟨closed, current⟩ := cs
      cases hc
      simp [Contents.chunks]
    rw [hcs]
    exact ⟨h, hn⟩
  | some arrays =>
    obtain ⟨c, hcur, -⟩ := h.some arrays hc
    rw [hcur] at hf
    exact h.finishChunk hc hf

/-- **Beginning a chunk** finishes the open one and opens an empty one. -/
theorem Layout.beginChunk (h : Layout lzma uninit extra cs w) (hb : w.beginChunk lzma uninit = .ok w') :
    Layout lzma uninit extra cs.beginChunk w' := by
  simp only [ChunkedBinaryStreamWriter.beginChunk, guard_eq_ok, bind_eq_ok, pure_eq_ok] at hb
  obtain ⟨-, w₁, hw₁, rfl⟩ := hb
  obtain ⟨hl, -⟩ := h.finishOpenChunk hw₁
  refine ⟨hl.finished, hl.position, hl.length, ?_, hl.count, hl.closed, fun hn => ?_,
    fun arrays ha => ?_, fun arrays ha a hm => ?_⟩
  · rw [hl.counter]
    simp only [Contents.nextID, Contents.count, Contents.flatten_beginChunk]
    rw [Contents.chunks, Option.toList_none, List.append_nil]
  · cases hn
  · cases ha
    exact ⟨_, rfl, ⟨0, fun _ => rfl, rfl⟩, rfl, rfl⟩
  · rw [Contents.chunks] at ha
    rcases List.mem_append.1 ha with ha | ha
    · exact h.words arrays ha a hm
    · rw [List.mem_singleton.1 ha] at hm
      cases hm

/-- An array is added to the open chunk, or to a new one. -/
theorem Layout.open (h : Layout lzma uninit extra cs w) {w₁ : ChunkedBinaryStreamWriter}
    (hw : w.beginFirstChunk lzma uninit = .ok w₁) (hc : w₁.currentChunk = Option.some c) :
    ∃ cs₁ arrays, Adding lzma uninit extra cs₁ arrays w₁ c ∧ cs₁.nextID = cs.nextID ∧
      ∀ a, cs₁.add a = cs.add a := by
  unfold ChunkedBinaryStreamWriter.beginFirstChunk at hw
  cases hcur : cs.current with
  | some arrays =>
    obtain ⟨c₁, hc₁, hopen⟩ := h.some arrays hcur
    rw [hc₁] at hw
    cases hw
    rw [hc] at hc₁
    cases hc₁
    exact ⟨cs, arrays, ⟨h, hcur, hc, hopen⟩, rfl, fun a => rfl⟩
  | none =>
    rw [h.none hcur] at hw
    have hl := h.beginChunk hw
    obtain ⟨c₁, hc₁, hopen⟩ := hl.some [] rfl
    rw [hc] at hc₁
    cases hc₁
    have hchunks : cs.chunks = cs.closed := by
      rw [Contents.chunks, hcur, Option.toList_none, List.append_nil]
    refine ⟨cs.beginChunk, [], ⟨hl, rfl, hc, hopen⟩, ?_, fun a => ?_⟩
    · rw [Contents.nextID, Contents.nextID, Contents.count, Contents.count,
        Contents.flatten_beginChunk]
    · simp only [Contents.add, Contents.beginChunk, hchunks, hcur]
      rfl

/-- **Adding an array** gives it the next ID. -/
theorem Adding.pushEntry (h : Adding lzma uninit extra cs arrays w c) {entryType : BitVec 32}
    {size : Nat} {ws : List (BitVec 32)} (hws : ws ≠ []) (hsize : size = 4 * ws.length) :
    Layout lzma uninit extra (cs.add ⟨cs.nextID, entryType, ws⟩) (w.pushEntry c entryType size ws).1 ∧
      (w.pushEntry c entryType size ws).2 = cs.nextID := by
  obtain ⟨hl, hcur, hc, hopen⟩ := h
  refine ⟨⟨hl.finished, hl.position, hl.length, ?_, hl.count, hl.closed, fun hn => (nomatch hn),
    fun as ha => ?_, fun as ha a hm => ?_⟩, hl.counter⟩
  · dsimp only [ChunkedBinaryStreamWriter.pushEntry]
    rw [hl.counter, Contents.nextID, Contents.nextID, Contents.count_add]
    exact (BitVec.ofNat_add (cs.count + 1) 1).symm
  · simp only [Contents.add, hcur, Option.getD_some, Option.some.injEq] at ha
    subst ha
    obtain ⟨start, -, hrec⟩ := hopen.record
    refine ⟨_, rfl, ⟨start, fun he => absurd he (by simp), ?_⟩, ?_, ?_⟩
    · have h1 : totalSize [⟨cs.nextID, entryType, ws⟩] = size := by
        rw [hsize]
        simp [totalSize, StoredArray.size]
      rw [hrec, totalSize_append, h1, List.length_append, BitVec.ofNat_add, BitVec.ofNat_add]
      rfl
    · dsimp only [ChunkedBinaryStreamWriter.pushEntry]
      rw [hopen.entries, hrec, entries_append, Nat.zero_add, entries, entries, hl.counter,
        hsize]
      rfl
    · dsimp only [ChunkedBinaryStreamWriter.pushEntry]
      rw [hopen.data, List.flatMap_append, List.flatMap_singleton]
  · rw [Contents.chunks] at ha
    rcases List.mem_append.1 ha with ha | ha
    · exact hl.words as (by rw [Contents.chunks]; exact List.mem_append_left _ ha) a hm
    · simp only [Contents.add, hcur, Option.getD_some, Option.toList_some,
        List.mem_singleton] at ha
      subst ha
      rcases List.mem_append.1 hm with hm | hm
      · exact hl.words arrays (by rw [Contents.chunks, hcur]; simp) a hm
      · rw [List.mem_singleton.1 hm]
        exact hws

end NMR
