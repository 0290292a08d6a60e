import Lib3MF.Common.ChunkedBinaryStream.Reader

/-!
# Reading from an opened stream

Reads change nothing of a reader but its cache (`AfterReads.sameButCache`): a chunk holds no data or
the data its record leads to (`loadedData`). A chunk that is at some words reads them back
(`Positioned`), delta prediction being undone by running sums (`undelta`).
-/

namespace NMR

open Lib

/-- Undo delta prediction, from the last value on. -/
def undelta : BitVec 32 → List (BitVec 32) → List (BitVec 32)
  | _, [] => []
  | lastValue, x :: xs => (x + lastValue) :: undelta (x + lastValue) xs

namespace ChunkedBinaryStreamReaderChunk

variable {lzma : Lzma} {stream : List UInt8} {c c' : ChunkedBinaryStreamReaderChunk}
  {ws : List (BitVec 32)}

/-! ## Reading words -/

/-- The chunk is at the words `ws`, which are the rest of an entry. -/
structure Positioned (ws : List (BitVec 32)) (c : ChunkedBinaryStreamReaderChunk) : Prop where
  bytes : At c.bytes c.currentReadPosition (codec32.encodeAll ws)
  stop : c.currentEndPosition = c.currentReadPosition + 4 * ws.length

/-- The chunk after `n` words were read. -/
def advance (c : ChunkedBinaryStreamReaderChunk) (n : Nat) : ChunkedBinaryStreamReaderChunk :=
  { c with currentReadPosition := c.currentReadPosition + 4 * n }

theorem advance_advance (m n : Nat) : (c.advance m).advance n = c.advance (m + n) := by
  simp only [advance, Nat.mul_add, Nat.add_assoc]

/-- Reading a word. -/
theorem Positioned.readInt32 {x : BitVec 32} (h : Positioned (x :: ws) c) :
    c.readInt32 = .ok (x, c.advance 1) ∧ Positioned ws (c.advance 1) := by
  have hat := h.bytes
  have hstop := h.stop
  have hlen := hat.length_le
  rw [codec32.length_encodeAll, size_codec32] at hlen
  rw [codec32.encodeAll_cons] at hat
  have hword := hat.left.take_drop
  have hrest := hat.right
  rw [codec32.length_encode, size_codec32] at hword hrest
  rw [List.length_cons] at hstop hlen
  refine ⟨?_, hrest, ?_⟩
  · unfold ChunkedBinaryStreamReaderChunk.readInt32
    rw [if_neg (by omega), if_neg (by omega), if_neg (by omega), hword, codec32.decode_encode]
    rfl
  · simp only [advance]
    omega

/-- Reading an array without prediction. -/
theorem Positioned.readNoPrediction (h : Positioned ws c) :
    c.readNoPrediction ws.length = .ok (ws, c.advance ws.length) := by
  induction ws generalizing c with
  | nil => rfl
  | cons x ws ih =>
    obtain ⟨hx, hrest⟩ := h.readInt32
    simp only [List.length_cons, ChunkedBinaryStreamReaderChunk.readNoPrediction, bind_eq_ok,
      pure_eq_ok, Prod.exists]
    refine ⟨x, _, hx, ws, _, ih hrest, ?_⟩
    rw [advance_advance, Nat.add_comm]

/-- Reading an array with delta prediction. -/
theorem Positioned.readDeltaPrediction (h : Positioned ws c) (lastValue : BitVec 32) :
    c.readDeltaPrediction ws.length lastValue =
      .ok (undelta lastValue ws, c.advance ws.length) := by
  induction ws generalizing c lastValue with
  | nil => rfl
  | cons x ws ih =>
    obtain ⟨hx, hrest⟩ := h.readInt32
    simp only [List.length_cons, ChunkedBinaryStreamReaderChunk.readDeltaPrediction, bind_eq_ok,
      pure_eq_ok, Prod.exists]
    refine ⟨x, _, hx, undelta (x + lastValue) ws, _, ih hrest _, ?_⟩
    rw [advance_advance, Nat.add_comm]
    rfl

/-- Reading a word moves the position only. -/
theorem readInt32_chunk {x : BitVec 32} (h : c.readInt32 = .ok (x, c')) : c' = c.advance 1 := by
  unfold ChunkedBinaryStreamReaderChunk.readInt32 at h
  split_ifs at h
  cases h
  rfl

theorem readNoPrediction_chunk {n : Nat} (h : c.readNoPrediction n = .ok (ws, c')) :
    c' = c.advance n := by
  induction n generalizing c ws with
  | zero =>
    cases h
    rfl
  | succ n ih =>
    simp only [ChunkedBinaryStreamReaderChunk.readNoPrediction, bind_eq_ok, pure_eq_ok,
      Prod.exists] at h
    obtain ⟨x, c₁, h₁, ws', c₂, h₂, he⟩ := h
    cases he
    rw [ih h₂, readInt32_chunk h₁, advance_advance, Nat.add_comm]

theorem readDeltaPrediction_chunk {n : Nat} {lastValue : BitVec 32}
    (h : c.readDeltaPrediction n lastValue = .ok (ws, c')) : c' = c.advance n := by
  induction n generalizing c ws lastValue with
  | zero =>
    cases h
    rfl
  | succ n ih =>
    simp only [ChunkedBinaryStreamReaderChunk.readDeltaPrediction, bind_eq_ok, pure_eq_ok,
      Prod.exists] at h
    obtain ⟨x, c₁, h₁, ws', c₂, h₂, he⟩ := h
    cases he
    rw [ih h₂, readInt32_chunk h₁, advance_advance, Nat.add_comm]

/-! ## Entries -/

/-- Where entry `e` ends: at the next one, or with the data. -/
def stopOf (c : ChunkedBinaryStreamReaderChunk) (e : Nat) : Nat :=
  match c.chunkEntries[e + 1]? with
  | some next => next.positionInChunk.toNat
  | none => c.bytes.length

theorem seekToEntry_eq_ok {e : Nat} {x : ChunkedBinaryStreamReaderChunk × BitVec 32 × Nat} :
    c.seekToEntry e = .ok x ↔ ∃ entry, c.chunkEntries[e]? = some entry ∧
      entry.positionInChunk.toNat ≤ c.bytes.length ∧
      entry.positionInChunk.toNat + entry.sizeInBytes.toNat = c.stopOf e ∧
      x = ({ c with
          currentReadPosition := entry.positionInChunk.toNat
          currentEndPosition := c.stopOf e }, entry.entryType, entry.sizeInBytes.toNat) := by
  unfold ChunkedBinaryStreamReaderChunk.seekToEntry
  cases he : c.chunkEntries[e]? with
  | none => simp
  | some entry =>
    simp only [Option.some.injEq, exists_eq_left']
    change (if _ then _ else if c.stopOf e < _ then _ else if c.stopOf e - _ ≠ _ then _ else
      Except.ok ({ c with
          currentReadPosition := entry.positionInChunk.toNat
          currentEndPosition := c.stopOf e }, entry.entryType,
        c.stopOf e - entry.positionInChunk.toNat)) = _ ↔ _
    split_ifs with h₁ h₂ h₃
    · simp only [false_iff, not_and]
      omega
    · simp only [false_iff, not_and]
      omega
    · simp only [false_iff, not_and]
      omega
    · rw [not_not] at h₃
      rw [Except.ok.injEq, h₃, eq_comm]
      refine ⟨fun hx => ⟨by omega, by omega, hx⟩, fun hx => hx.2.2⟩

/-! ## The cache -/

theorem length_fill (size : Nat) (bytes : List UInt8) : (fill size bytes).length = size := by
  rw [fill, List.length_take, List.length_append, List.length_replicate]
  omega

theorem fill_of_length {bytes : List UInt8} {size : Nat} (h : bytes.length = size) :
    fill size bytes = bytes := by
  rw [fill, List.take_left' h]

/-- The data have the size the record gives. -/
theorem length_loadedData {r : BinaryChunkFileChunk} {d : List UInt8}
    (h : loadedData lzma stream r = .ok d) : d.length = r.uncompressedDataSize.toNat := by
  unfold loadedData at h
  dsimp only at h
  by_cases hs : 0 < r.uncompressedDataSize.toNat
  · rw [if_pos hs] at h
    simp only [guard_eq_ok, bind_eq_ok] at h
    obtain ⟨-, -, _, -, _, -, h⟩ := h
    split at h
    · cases h
    · cases h
      exact length_fill _ _
  · rw [if_neg hs] at h
    cases h
    rw [List.length_nil]
    omega

theorem loadData_eq_ok : c.loadData lzma stream = .ok c' ↔
    (c.data.isSome ∧ c' = c) ∨ (c.data = none ∧ ∃ d, loadedData lzma stream c.chunk = .ok d ∧
      c' = { c with data := some d, currentReadPosition := 0, currentEndPosition := 0 }) := by
  unfold ChunkedBinaryStreamReaderChunk.loadData
  split_ifs with hd
  · rw [Except.ok.injEq]
    constructor
    · rintro rfl
      exact .inl ⟨hd, rfl⟩
    · rintro (⟨-, rfl⟩ | ⟨hn, -⟩)
      · rfl
      · rw [hn] at hd
        cases hd
  · have hn : c.data = none := by simpa using hd
    simp only [bind_eq_ok, pure_eq_ok]
    constructor
    · rintro ⟨d, hl, rfl⟩
      exact .inr ⟨hn, d, hl, rfl⟩
    · rintro (⟨hs, -⟩ | ⟨-, d, hl, rfl⟩)
      · exact absurd hs hd
      · exact ⟨d, hl, rfl⟩

end ChunkedBinaryStreamReaderChunk

open ChunkedBinaryStreamReaderChunk

/-- `c` is the chunk `c₀` of a stream that was just opened, with data that are cached perhaps. -/
structure Cached (lzma : Lzma) (stream : List UInt8) (c₀ c : ChunkedBinaryStreamReaderChunk) :
    Prop where
  chunk : c.chunk = c₀.chunk
  entries : c.chunkEntries = c₀.chunkEntries
  data : ∀ d, c.data = some d → loadedData lzma stream c₀.chunk = .ok d

variable {lzma : Lzma} {stream : List UInt8} {c₀ c c' : ChunkedBinaryStreamReaderChunk}
  {r₀ r r' : ChunkedBinaryStreamReader}

theorem Cached.refl (h : c₀.data = none) : Cached lzma stream c₀ c₀ :=
  ⟨rfl, rfl, fun d hd => by rw [h] at hd; cases hd⟩

/-- After loading, the data are there. -/
theorem Cached.load (h : Cached lzma stream c₀ c) (hl : c.loadData lzma stream = .ok c') :
    Cached lzma stream c₀ c' ∧ ∃ d, c'.data = some d ∧ loadedData lzma stream c₀.chunk = .ok d := by
  rcases loadData_eq_ok.1 hl with ⟨hs, rfl⟩ | ⟨-, d, hd, rfl⟩
  · obtain ⟨d, hd⟩ := Option.isSome_iff_exists.1 hs
    exact ⟨h, d, hd, h.data d hd⟩
  · rw [h.chunk] at hd
    exact ⟨⟨h.chunk, h.entries, fun d' hd' => by cases hd'; exact hd⟩, d, rfl, hd⟩

theorem Cached.load_ok (h : Cached lzma stream c₀ c) {d : List UInt8}
    (hd : loadedData lzma stream c₀.chunk = .ok d) :
    ∃ c', c.loadData lzma stream = .ok c' ∧ Cached lzma stream c₀ c' ∧ c'.data = some d := by
  cases hc : c.data with
  | some d' =>
    have := h.data d' hc
    rw [hd] at this
    cases this
    exact ⟨c, loadData_eq_ok.2 (.inl ⟨by rw [hc]; rfl, rfl⟩), h, hc⟩
  | none =>
    have hl := loadData_eq_ok.2 (.inr ⟨hc, d, by rw [h.chunk]; exact hd, rfl⟩)
    exact ⟨_, hl, (h.load hl).1, rfl⟩

/-- What moving to an entry keeps. -/
theorem Cached.seek (h : Cached lzma stream c₀ c) {e n : Nat} {t : BitVec 32}
    (hs : c.seekToEntry e = .ok (c', t, n)) : Cached lzma stream c₀ c' := by
  obtain ⟨_, -, -, -, he⟩ := seekToEntry_eq_ok.1 hs
  cases he
  exact ⟨h.chunk, h.entries, h.data⟩

theorem Cached.advance (h : Cached lzma stream c₀ c) (n : Nat) :
    Cached lzma stream c₀ (c.advance n) := ⟨h.chunk, h.entries, h.data⟩

theorem Cached.unload (h : Cached lzma stream c₀ c) : Cached lzma stream c₀ c.unloadData := by
  unfold unloadData
  split_ifs
  · exact h
  · exact ⟨h.chunk, h.entries, fun d hd => (nomatch hd)⟩

/-! ## The reader -/

/-- A reader that differs in its cache only. -/
structure SameButCache (lzma : Lzma) (r₀ r : ChunkedBinaryStreamReader) : Prop where
  source : r.importStream = r₀.importStream
  map : r.chunkMap = r₀.chunkMap
  length : r.chunks.length = r₀.chunks.length
  chunk : ∀ (i : Nat) c₀ c, r₀.chunks[i]? = some c₀ → r.chunks[i]? = some c →
    Cached lzma r₀.importStream c₀ c

/-- The readers that reads lead to, in any order. -/
inductive AfterReads (lzma : Lzma) (r₀ : ChunkedBinaryStreamReader) :
    ChunkedBinaryStreamReader → Prop where
  | refl : AfterReads lzma r₀ r₀
  | int {r r' : ChunkedBinaryStreamReader} {entryID : BitVec 32} {n : Nat} {vs : List (BitVec 32)} :
    AfterReads lzma r₀ r → r.readIntArray lzma entryID n = .ok (vs, r') → AfterReads lzma r₀ r'
  | float {r r' : ChunkedBinaryStreamReader} {entryID : BitVec 32} {n : Nat} {vs : List ℚ} :
    AfterReads lzma r₀ r → r.readFloatArray lzma entryID n = .ok (vs, r') → AfterReads lzma r₀ r'
  | clearCache {r : ChunkedBinaryStreamReader} :
    AfterReads lzma r₀ r → AfterReads lzma r₀ r.clearCache

variable {entryID t : BitVec 32} {i n : Nat}

theorem SameButCache.refl (h : ∀ c ∈ r.chunks, c.data = none) : SameButCache lzma r r :=
  ⟨rfl, rfl, rfl, fun i c₀ c h₀ hc => by
    rw [h₀] at hc
    cases hc
    exact .refl (h c₀ (List.mem_of_getElem? h₀))⟩

theorem seekToEntry_eq_some :
    r.seekToEntry lzma entryID = .ok (i, c', t, n) ↔ ∃ e c c₁,
      r.chunkMap.find? entryID.toNat = some (i, e) ∧ r.chunks[i]? = some c ∧
      c.loadData lzma r.importStream = .ok c₁ ∧ c₁.seekToEntry e = .ok (c', t, n) := by
  simp only [ChunkedBinaryStreamReader.seekToEntry, bind_eq_ok, pure_eq_ok, Prod.exists]
  constructor
  · rintro ⟨i', c, e, hf, c₁, hl, c₂, t', n', hs, he⟩
    cases he
    unfold ChunkedBinaryStreamReader.findChunkByEntry at hf
    split at hf
    · cases hf
    · rename_i i₁ e₁ hm
      split at hf
      · cases hf
      · rename_i c₃ hc
        cases hf
        exact ⟨e, c, c₁, hm, hc, hl, hs⟩
  · rintro ⟨e, c, c₁, hm, hc, hl, hs⟩
    refine ⟨i, c, e, ?_, c₁, hl, c', t, n, hs, rfl⟩
    unfold ChunkedBinaryStreamReader.findChunkByEntry
    rw [hm]
    dsimp only
    rw [hc]

/-- Putting a chunk back that differs in its cache. -/
theorem SameButCache.setChunk (h : SameButCache lzma r₀ r)
    (hc : ∀ c₀, r₀.chunks[i]? = some c₀ → Cached lzma r₀.importStream c₀ c) :
    SameButCache lzma r₀ (r.setChunk i c) where
  source := h.source
  map := h.map
  length := by rw [ChunkedBinaryStreamReader.setChunk, List.length_set, h.length]
  chunk := fun j c₀ c' h₀ hj => by
    rw [ChunkedBinaryStreamReader.setChunk, List.getElem?_set] at hj
    split_ifs at hj with he hl
    · cases hj
      exact hc c₀ (by rw [he]; exact h₀)
    · exact h.chunk j c₀ c' h₀ hj

/-- The chunk a read is left with. -/
theorem SameButCache.seek (h : SameButCache lzma r₀ r)
    (hs : r.seekToEntry lzma entryID = .ok (i, c', t, n)) :
    ∀ c₀, r₀.chunks[i]? = some c₀ → Cached lzma r₀.importStream c₀ c' := by
  intro c₀ h₀
  obtain ⟨e, c, c₁, -, hc, hl, hs⟩ := seekToEntry_eq_some.1 hs
  rw [h.source] at hl
  exact ((h.chunk i c₀ c h₀ hc).load hl).1.seek hs

theorem readValues_chunk {a b : BitVec 32} {vs : List (BitVec 32)}
    (h : ChunkedBinaryStreamReader.readValues a b t n c = .ok (vs, c')) : c' = c.advance n := by
  unfold ChunkedBinaryStreamReader.readValues at h
  split_ifs at h with hz
  · cases h
    rw [hz]
    rfl
  · exact readNoPrediction_chunk h
  · exact readDeltaPrediction_chunk h

/-- **Reads change the cache only.** -/
theorem AfterReads.sameButCache (h₀ : ∀ c ∈ r₀.chunks, c.data = none) (h : AfterReads lzma r₀ r) :
    SameButCache lzma r₀ r := by
  induction h with
  | refl => exact .refl h₀
  | int _ hr ih =>
    simp only [ChunkedBinaryStreamReader.readIntArray, guard_eq_ok, bind_eq_ok, pure_eq_ok,
      Prod.exists] at hr
    obtain ⟨i, c, t, m, hs, -, -, vs, c', hv, he⟩ := hr
    cases he
    rw [readValues_chunk hv]
    exact ih.setChunk fun c₀ hc => (ih.seek hs c₀ hc).advance _
  | float _ hr ih =>
    simp only [ChunkedBinaryStreamReader.readFloatArray, guard_eq_ok, bind_eq_ok, pure_eq_ok,
      Prod.exists] at hr
    obtain ⟨i, c, t, m, hs, -, -, -, u, c₁, hu, vs, c', hv, he⟩ := hr
    cases he
    rw [readValues_chunk hv, readInt32_chunk hu]
    exact ih.setChunk fun c₀ hc => ((ih.seek hs c₀ hc).advance _).advance _
  | clearCache _ ih =>
    refine ⟨ih.source, ih.map, ?_, fun i c₀ c hc₀ hc => ?_⟩
    · rw [ChunkedBinaryStreamReader.clearCache, List.length_map, ih.length]
    · rw [ChunkedBinaryStreamReader.clearCache, List.getElem?_map, Option.map_eq_some_iff] at hc
      obtain ⟨c', hc', rfl⟩ := hc
      exact (ih.chunk i c₀ c' hc₀ hc').unload

end NMR
