import Lib3MF.Common.ChunkedBinaryStream.Reader

/-!
# Opening a stream

What the reader knows of any stream it opens: its chunks are the records of the chunk table with
their entry tables (`ofRecord`), each within the limits (`Allowed`), and the map leads exactly
from an ID to the entry that has it (`Indexed`). It opens a stream whose records are allowed and
whose entries have different IDs (`readHeader_total`).
-/

namespace NMR

open Lib

namespace ChunkedBinaryStreamReaderChunk

/-- The chunk of a record, with its entry table. -/
def ofRecord (stream : List UInt8) (c : BinaryChunkFileChunk) : ChunkedBinaryStreamReaderChunk :=
  ⟨c, entryCodec.decodeAll c.entryCount.toNat
    ((stream.drop c.entryTableStart.toNat).take (entryCodec.size * c.entryCount.toNat)), none, 0, 0⟩

/-- A record within the limits, its entry table within the stream. -/
structure Allowed (stream : List UInt8) (c : BinaryChunkFileChunk) : Prop where
  uncompressed : c.uncompressedDataSize.toNat ≤ binaryChunkFileMaxChunkDataSize
  compressed : c.compressedDataSize.toNat ≤ binaryChunkFileMaxChunkDataSize
  props : c.compressedPropsSize.toNat ≤ binaryChunkFileMaxChunkDataSize
  entries : c.entryCount.toNat ≤ binaryChunkFileMaxEntryCount
  table : c.entryTableStart.toNat + entryCodec.size * c.entryCount.toNat ≤ stream.length

variable {stream : List UInt8} {m m' : SortedMap Nat (Nat × Nat)} {c : BinaryChunkFileChunk}
  {i : Nat}

theorem new_eq_ok {x : ChunkedBinaryStreamReaderChunk × SortedMap Nat (Nat × Nat)} :
    new stream m c i = .ok x ↔ Allowed stream c ∧ x.1 = ofRecord stream c ∧
      (ofRecord stream c).chunkEntries.zipIdx.foldlM (registerEntry i) m = .ok x.2 := by
  simp only [new, guard_eq_ok, bind_eq_ok, pure_eq_ok, readAt_eq_ok, not_lt]
  constructor
  · rintro ⟨h₁, h₂, h₃, h₄, _, ⟨h₅, rfl⟩, m', hm, rfl⟩
    exact ⟨⟨h₁, h₂, h₃, h₄, h₅⟩, rfl, hm⟩
  · rintro ⟨⟨h₁, h₂, h₃, h₄, h₅⟩, hx, hm⟩
    exact ⟨h₁, h₂, h₃, h₄, _, ⟨h₅, rfl⟩, x.2, hm, Prod.ext hx.symm rfl⟩

theorem registerEntry_eq_ok {e : BinaryChunkFileEntry × Nat} :
    registerEntry i m e = .ok m' ↔
      m.find? e.1.entryID.toNat = none ∧ m' = m.insert e.1.entryID.toNat (i, e.2) := by
  unfold registerEntry
  split_ifs with h
  · rw [Option.isSome_iff_ne_none] at h
    simp [h]
  · rw [Option.not_isSome_iff_eq_none] at h
    simp [h, eq_comm]

end ChunkedBinaryStreamReaderChunk

open ChunkedBinaryStreamReaderChunk

/-! ## The map -/

/-- The entry `p.2` of the chunk `p.1` has the ID `k`. -/
def IsEntry (chunks : List ChunkedBinaryStreamReaderChunk) (k : Nat) (p : Nat × Nat) : Prop :=
  ∃ c e, chunks[p.1]? = some c ∧ c.chunkEntries[p.2]? = some e ∧ e.entryID.toNat = k

/-- The map leads from every ID to its entry. -/
def Indexed (chunks : List ChunkedBinaryStreamReaderChunk) (m : SortedMap Nat (Nat × Nat)) : Prop :=
  ∀ k p, m.find? k = some p ↔ IsEntry chunks k p

/-- The IDs of the entries of a chunk. -/
def entryIDs (c : ChunkedBinaryStreamReaderChunk) : List Nat :=
  c.chunkEntries.map (·.entryID.toNat)

variable {stream : List UInt8} {m m' : SortedMap Nat (Nat × Nat)}
  {chunks : List ChunkedBinaryStreamReaderChunk} {c : ChunkedBinaryStreamReaderChunk}
  {r : ChunkedBinaryStreamReader} {records : List BinaryChunkFileChunk}

theorem isEntry_concat {k : Nat} {p : Nat × Nat} : IsEntry (chunks ++ [c]) k p ↔
    IsEntry chunks k p ∨
      (p.1 = chunks.length ∧ ∃ e, c.chunkEntries[p.2]? = some e ∧ e.entryID.toNat = k) := by
  rcases Nat.lt_trichotomy p.1 chunks.length with hlt | heq | hgt
  · simp only [IsEntry, List.getElem?_append_left hlt, hlt.ne, false_and, or_false]
  · have hnone : ¬ IsEntry chunks k p := by
      intro ⟨c', _, hc', _⟩
      rw [heq, List.getElem?_eq_none le_rfl] at hc'
      cases hc'
    simp only [IsEntry, heq, List.getElem?_concat_length, Option.some.injEq, true_and] at hnone ⊢
    constructor
    · rintro ⟨c', e, rfl, he⟩
      exact .inr ⟨e, he⟩
    · rintro (h | ⟨e, he⟩)
      · exact absurd h hnone
      · exact ⟨c, e, rfl, he⟩
  · have h₁ : (chunks ++ [c])[p.1]? = none :=
      List.getElem?_eq_none (by rw [List.length_append, List.length_singleton]; exact hgt)
    have h₂ : chunks[p.1]? = none := List.getElem?_eq_none hgt.le
    simp [IsEntry, h₁, h₂, hgt.ne']

/-- Registering the entries of one chunk more. -/
theorem Indexed.register (h : Indexed chunks m)
    (hr : c.chunkEntries.zipIdx.foldlM (registerEntry chunks.length) m = .ok m') :
    Indexed (chunks ++ [c]) m' := by
  have hinv := foldlM_zipIdx_ok
    (fun done (m : SortedMap Nat (Nat × Nat)) => ∀ k p, m.find? k = some p ↔ IsEntry chunks k p ∨
      (p.1 = chunks.length ∧ ∃ e, done[p.2]? = some e ∧ e.entryID.toNat = k))
    (fun done m e m' hinv he k p => ?_) (fun k p => by simp [h k p]) hr
  · intro k p
    rw [hinv k p, isEntry_concat]
  · obtain ⟨hnone, rfl⟩ := registerEntry_eq_ok.1 he
    dsimp only at hnone
    rw [SortedMap.find?_insert]
    by_cases hk : k = e.entryID.toNat
    · -- the ID was not there before
      have hno : ∀ p, ¬ (IsEntry chunks k p ∨
          (p.1 = chunks.length ∧ ∃ e, done[p.2]? = some e ∧ e.entryID.toNat = k)) := fun p hp => by
        have := (hinv k p).2 hp
        rw [hk, hnone] at this
        cases this
      rw [if_pos hk, hnone, Option.getD_none, Option.some.injEq]
      constructor
      · rintro rfl
        exact .inr ⟨rfl, e, List.getElem?_concat_length, hk.symm⟩
      · rintro (hp | ⟨hp, e', he', hid⟩)
        · exact absurd (.inl hp) (hno p)
        · rcases Nat.lt_trichotomy p.2 done.length with hlt | heq | hgt
          · rw [List.getElem?_append_left hlt] at he'
            exact absurd (.inr ⟨hp, e', he', hid⟩) (hno p)
          · rw [← hp, ← heq]
          · rw [List.getElem?_eq_none (by rw [List.length_append]; exact hgt)] at he'
            cases he'
    · rw [if_neg hk, hinv k p]
      refine or_congr Iff.rfl (and_congr_right fun _ => exists_congr fun e' => ?_)
      refine and_congr_left fun hid => ?_
      rcases Nat.lt_trichotomy p.2 done.length with hlt | heq | hgt
      · rw [List.getElem?_append_left hlt]
      · rw [heq, List.getElem?_concat_length, List.getElem?_eq_none le_rfl, Option.some.injEq]
        refine ⟨nofun, fun he' => ?_⟩
        rw [he'] at hk
        exact absurd hid.symm hk
      · rw [List.getElem?_eq_none hgt.le,
          List.getElem?_eq_none (by rw [List.length_append]; exact hgt)]

/-- Registering entries with new IDs. -/
theorem registerEntries_total {ids : List Nat} {i : Nat} (hids : (ids ++ entryIDs c).Nodup)
    (hm : ∀ k, (m.find? k).isSome → k ∈ ids) :
    ∃ m', c.chunkEntries.zipIdx.foldlM (registerEntry i) m = .ok m' ∧
      ∀ k, (m'.find? k).isSome → k ∈ ids ++ entryIDs c := by
  refine foldlM_zipIdx_total (fun done (m : SortedMap Nat (Nat × Nat)) => ∀ k, (m.find? k).isSome →
    k ∈ ids ++ done.map fun e : BinaryChunkFileEntry => e.entryID.toNat)
    (fun done e rest m hd hm => ?_) (by simpa using hm)
  rw [entryIDs, ← hd, List.map_append, List.map_cons, ← List.append_assoc] at hids
  have hnew : m.find? e.entryID.toNat = none := by
    by_contra hx
    have hmem := hm _ (Option.isSome_iff_ne_none.2 hx)
    exact (List.nodup_append.1 hids).2.2 _ hmem _ List.mem_cons_self rfl
  refine ⟨_, registerEntry_eq_ok.2 ⟨hnew, rfl⟩, fun k hk => ?_⟩
  rw [SortedMap.find?_insert] at hk
  rw [List.map_append, ← List.append_assoc, List.mem_append]
  split_ifs at hk with he
  · exact .inr (by simp [he])
  · exact .inl (hm k hk)

/-! ## The chunks -/

theorem addChunk_eq_ok {r' : ChunkedBinaryStreamReader} {x : BinaryChunkFileChunk × Nat} :
    r.addChunk x = .ok r' ↔ Allowed r.importStream x.1 ∧ ∃ m',
      (ofRecord r.importStream x.1).chunkEntries.zipIdx.foldlM (registerEntry x.2) r.chunkMap =
        .ok m' ∧
      r' = ⟨r.importStream, r.chunks ++ [ofRecord r.importStream x.1], m'⟩ := by
  simp only [ChunkedBinaryStreamReader.addChunk, bind_eq_ok, pure_eq_ok, new_eq_ok, Prod.exists]
  constructor
  · rintro ⟨_, m', ⟨ha, rfl, hm⟩, rfl⟩
    exact ⟨ha, m', hm, rfl⟩
  · rintro ⟨ha, m', hm, rfl⟩
    exact ⟨_, m', ⟨ha, rfl, hm⟩, rfl⟩

/-- What opening a stream gives for the records of its chunk table. -/
structure Opens (stream : List UInt8) (records : List BinaryChunkFileChunk)
    (r : ChunkedBinaryStreamReader) : Prop where
  source : r.importStream = stream
  chunks : r.chunks = records.map (ofRecord stream)
  allowed : ∀ c ∈ records, Allowed stream c
  indexed : Indexed r.chunks r.chunkMap

theorem opens_nil (stream : List UInt8) : Opens stream [] ⟨stream, [], .empty⟩ :=
  ⟨rfl, rfl, fun _ hc => (nomatch hc), fun k p => by simp [IsEntry]⟩

/-- One chunk more. -/
theorem Opens.addChunk {r' : ChunkedBinaryStreamReader} {x : BinaryChunkFileChunk}
    (h : Opens stream records r) (ha : r.addChunk (x, records.length) = .ok r') :
    Opens stream (records ++ [x]) r' := by
  obtain ⟨hall, m', hm, rfl⟩ := addChunk_eq_ok.1 ha
  rw [h.source] at hall hm
  refine ⟨h.source, ?_, fun c hc => ?_, ?_⟩
  · rw [h.chunks, List.map_append, List.map_singleton, h.source]
  · rcases List.mem_append.1 hc with hc | hc
    · exact h.allowed c hc
    · rw [List.mem_singleton.1 hc]
      exact hall
  · have hlen : records.length = r.chunks.length := by rw [h.chunks, List.length_map]
    dsimp only at hm ⊢
    rw [hlen] at hm
    rw [h.source]
    exact h.indexed.register hm

/-- Chunks with new IDs. -/
theorem addChunks_total (hall : ∀ c ∈ records, Allowed stream c)
    (hids : (records.flatMap fun c => entryIDs (ofRecord stream c)).Nodup) :
    ∃ r, records.zipIdx.foldlM ChunkedBinaryStreamReader.addChunk ⟨stream, [], .empty⟩ = .ok r := by
  have hopen := @foldlM_zipIdx_total _ _ _
    (fun done (r : ChunkedBinaryStreamReader) => r.importStream = stream ∧
      ∀ k, (r.chunkMap.find? k).isSome → k ∈ done.flatMap fun c => entryIDs (ofRecord stream c))
    ChunkedBinaryStreamReader.addChunk records ⟨stream, [], .empty⟩
    (fun done c rest r hd hr => ?_) ⟨rfl, fun k hk => by simp at hk⟩
  · obtain ⟨r, hr, -⟩ := hopen
    exact ⟨r, hr⟩
  · obtain ⟨hs, hm⟩ := hr
    rw [← hd, List.flatMap_append, List.flatMap_cons, ← List.append_assoc] at hids
    obtain ⟨m', hm', hk⟩ := registerEntries_total (i := done.length) (List.nodup_append.1 hids).1 hm
    refine ⟨_, addChunk_eq_ok.2 ⟨?_, m', ?_, rfl⟩, hs, fun k hx => ?_⟩
    · rw [hs]
      exact hall c (by simp [← hd])
    · rw [hs]
      exact hm'
    · rw [List.flatMap_append, List.flatMap_singleton]
      exact hk k hx

/-! ## The stream -/

/-- The header of a stream. -/
def headerOf (stream : List UInt8) : BinaryChunkFileHeader :=
  headerCodec.decode ((stream.drop 0).take headerCodec.size)

/-- The records of the chunk table of a stream. -/
def recordsOf (stream : List UInt8) : List BinaryChunkFileChunk :=
  chunkCodec.decodeAll (headerOf stream).chunkCount.toNat
    ((stream.drop (headerOf stream).chunkTableStart.toNat).take
      (chunkCodec.size * (headerOf stream).chunkCount.toNat))

/-- **What the reader knows of a stream it opens.** -/
theorem readHeader_opens (h : ChunkedBinaryStreamReader.readHeader stream = .ok r) :
    (headerOf stream).chunkCount.toNat ≤ binaryChunkFileMaxChunkCount ∧
      Opens stream (recordsOf stream) r := by
  simp only [ChunkedBinaryStreamReader.readHeader, guard_eq_ok, bind_eq_ok, readAt_eq_ok,
    not_lt, not_not] at h
  obtain ⟨-, _, ⟨-, rfl⟩, -, -, hcount, h⟩ := h
  refine ⟨hcount, ?_⟩
  change (if (headerOf stream).chunkCount.toNat = 0 then _ else _) = _ at h
  split_ifs at h with hz
  · cases h
    rw [recordsOf, hz]
    exact opens_nil stream
  · simp only [bind_eq_ok, readAt_eq_ok] at h
    obtain ⟨_, ⟨-, rfl⟩, h⟩ := h
    exact foldlM_zipIdx_ok (Opens stream) (fun done r x r' hinv ha => hinv.addChunk ha)
      (opens_nil stream) h

/-- **Which streams the reader opens.** -/
theorem readHeader_total (hlen : headerCodec.size ≤ stream.length)
    (hsign : (headerOf stream).sign = binaryChunkFileHeaderSign)
    (hversion : (headerOf stream).version = binaryChunkFileHeaderVersion)
    (hcount : (headerOf stream).chunkCount.toNat ≤ binaryChunkFileMaxChunkCount)
    (htable : (headerOf stream).chunkTableStart.toNat +
      chunkCodec.size * (headerOf stream).chunkCount.toNat ≤ stream.length)
    (hall : ∀ c ∈ recordsOf stream, Allowed stream c)
    (hids : ((recordsOf stream).flatMap fun c => entryIDs (ofRecord stream c)).Nodup) :
    ∃ r, ChunkedBinaryStreamReader.readHeader stream = .ok r := by
  simp only [ChunkedBinaryStreamReader.readHeader, guard_eq_ok, bind_eq_ok, readAt_eq_ok,
    not_lt, not_not]
  have hr : ∃ r, (if (headerOf stream).chunkCount.toNat = 0 then
      pure ⟨stream, [], .empty⟩ else do
        let table ← readAt stream (headerOf stream).chunkTableStart.toNat
          (chunkCodec.size * (headerOf stream).chunkCount.toNat)
        (chunkCodec.decodeAll (headerOf stream).chunkCount.toNat table).zipIdx.foldlM
          ChunkedBinaryStreamReader.addChunk ⟨stream, [], .empty⟩) =
      (.ok r : Except Error ChunkedBinaryStreamReader) := by
    split_ifs with hz
    · exact ⟨_, rfl⟩
    · obtain ⟨r, hr⟩ := addChunks_total hall hids
      simp only [bind_eq_ok, readAt_eq_ok]
      exact ⟨r, _, ⟨htable, rfl⟩, hr⟩
  obtain ⟨r, hr⟩ := hr
  exact ⟨r, hlen, _, ⟨by rw [Nat.zero_add]; exact hlen, rfl⟩, hsign, hversion, hcount, hr⟩

end NMR
