import Mathlib.Data.List.Nodup
import Mathlib.Data.List.Flatten
import Lib3MF.Common.ChunkedBinaryStream.Proof.Calls
import Lib3MF.Common.ChunkedBinaryStream.Proof.Opening
import Lib3MF.Common.ChunkedBinaryStream.Proof.Reading

/-!
# Written streams, opened

A stream of chunks can be opened and every array found in it with its size exactly when the
chunks fit (`Written.fits`, `Written.seekToEntry`). `Fits` is the limits of the reader, which the
writer does not check.
-/

namespace NMR

open Lib StoredArray ChunkedBinaryStreamReaderChunk

/-- The number of chunks the header of a stream gives. -/
def visible (chunks : List (List StoredArray)) : Nat := chunks.length % 2 ^ 32

/-- What the reader takes of the chunks of a stream. -/
structure Fits (lzma : Lzma) (uninit : Nat → BitVec 32) (chunks : List (List StoredArray)) :
    Prop where
  stream : streamSize lzma chunks ≤ importStreamMaxMemStreamSize
  count : chunks.flatten.length ≤ 2 ^ 32
  chunkCount : visible chunks ≤ binaryChunkFileMaxChunkCount
  shown : ∀ (i : Nat) arrays, chunks[i]? = some arrays → arrays ≠ [] → i < visible chunks
  size : ∀ arrays ∈ chunks, arrays ≠ [] → totalSize arrays ≤ binaryChunkFileMaxChunkDataSize
  compressed : ∀ arrays ∈ chunks, arrays ≠ [] → ∀ out props,
    compressed lzma arrays = some (out, props) →
    out.length ≤ binaryChunkFileMaxChunkDataSize ∧ props.length ≤ binaryChunkFileMaxChunkDataSize
  empty : ∀ (i : Nat), chunks[i]? = some [] → i < visible chunks →
    (uninit i).toNat ≤ binaryChunkFileMaxChunkDataSize

variable {lzma : Lzma} {uninit : Nat → BitVec 32} {extra : Nat} {chunks : List (List StoredArray)}
  {file : List UInt8} {records : List BinaryChunkFileChunk} {arrays : List StoredArray}
  {a : StoredArray} {c : BinaryChunkFileChunk} {garbage : BitVec 32} {i e : Nat}

/-! ## IDs -/

/-- An ID tells the place of an array. -/
theorem place_of_id {arrays' : List StoredArray} {a' : StoredArray} {i' e' : Nat}
    (hn : (chunks.flatten.map StoredArray.id).Nodup) (hi : chunks[i]? = some arrays)
    (he : arrays[e]? = some a) (hi' : chunks[i']? = some arrays') (he' : arrays'[e']? = some a')
    (hid : a.id = a'.id) : i = i' ∧ e = e' := by
  rw [List.map_flatten, List.nodup_flatten, List.pairwise_map] at hn
  obtain ⟨hchunk, hdisj⟩ := hn
  have hmem : a.id ∈ arrays.map StoredArray.id := List.mem_map_of_mem (List.mem_of_getElem? he)
  have hmem' : a.id ∈ arrays'.map StoredArray.id := by
    rw [hid]
    exact List.mem_map_of_mem (List.mem_of_getElem? he')
  obtain ⟨hlt, rfl⟩ := List.getElem?_eq_some_iff.1 hi
  obtain ⟨hlt', rfl⟩ := List.getElem?_eq_some_iff.1 hi'
  have hii : i = i' := by
    rcases Nat.lt_trichotomy i i' with h | h | h
    · exact absurd hmem' (List.pairwise_iff_getElem.1 hdisj i i' hlt hlt' h hmem)
    · exact h
    · exact absurd hmem (List.pairwise_iff_getElem.1 hdisj i' i hlt' hlt h hmem')
  subst hii
  refine ⟨rfl, ?_⟩
  have hnd := hchunk _ (List.mem_map_of_mem (List.getElem_mem hlt))
  have hlen : e < (chunks[i].map StoredArray.id).length := by
    rw [List.length_map]
    exact (List.getElem?_eq_some_iff.1 he).1
  refine (List.getElem?_inj hlen hnd).1 ?_
  rw [List.getElem?_map, List.getElem?_map, he, he', Option.map_some, Option.map_some, hid]

/-- The IDs of numbered arrays are different as long as the counter does not wrap. -/
theorem Contents.Numbered.nodup_iff {cs : Contents} (h : cs.Numbered) :
    (cs.chunks.flatten.map StoredArray.id).Nodup ↔ cs.chunks.flatten.length ≤ 2 ^ 32 := by
  have hid : ∀ k, k < cs.chunks.flatten.length →
      (cs.chunks.flatten.map StoredArray.id)[k]? = some (BitVec.ofNat 32 (k + 1)) := by
    intro k hk
    have ha := List.getElem?_eq_getElem hk
    rw [List.getElem?_map, ha, Option.map_some, h k _ ha]
  have hlen : (cs.chunks.flatten.map StoredArray.id).length = cs.chunks.flatten.length :=
    List.length_map ..
  constructor
  · intro hn
    by_contra hgt
    have heq : (cs.chunks.flatten.map StoredArray.id)[0]? =
        (cs.chunks.flatten.map StoredArray.id)[2 ^ 32]? := by
      rw [hid 0 (by omega), hid _ (by omega)]
      rfl
    have hlt : 0 < (cs.chunks.flatten.map StoredArray.id).length := by omega
    have := (List.getElem?_inj hlt hn).1 heq
    omega
  · intro hle
    rw [List.nodup_iff_getElem?_ne_getElem?]
    intro x y hxy hy heq
    rw [hlen] at hy
    rw [hid x (by omega), hid y hy, Option.some.injEq] at heq
    have := congrArg BitVec.toNat heq
    rw [BitVec.toNat_ofNat, BitVec.toNat_ofNat] at this
    omega

/-! ## Chunks of a written stream -/

theorem toNat_ofNat_64 {n : Nat} (h : n ≤ importStreamMaxMemStreamSize) :
    (BitVec.ofNat 64 n).toNat = n := by
  rw [BitVec.toNat_ofNat]
  exact Nat.mod_eq_of_lt (lt_of_le_of_lt h (by decide))

/-- The entry table of a chunk, as far as the recorded count goes. -/
theorem Stored.chunkEntries (h : Stored lzma garbage file arrays c)
    (hf : file.length ≤ importStreamMaxMemStreamSize) :
    (ofRecord file c).chunkEntries = (entries 0 arrays).take (arrays.length % 2 ^ 32) := by
  have hcount : c.entryCount.toNat = arrays.length % 2 ^ 32 := by
    rw [h.entryCount, BitVec.toNat_ofNat]
  unfold ofRecord
  dsimp only
  rw [hcount]
  by_cases hne : arrays = []
  · subst hne
    rfl
  · obtain ⟨pos, -, hs, hat⟩ := h.table hne
    have := hat.length_le
    rw [hs, toNat_ofNat_64 (by omega)]
    exact hat.decodeAll (by rw [length_entries]; exact Nat.mod_le _ _)

/-- A chunk that fits is allowed. -/
theorem Stored.allowed (h : Stored lzma garbage file arrays c)
    (hf : file.length ≤ importStreamMaxMemStreamSize)
    (hsize : totalSize arrays ≤ binaryChunkFileMaxChunkDataSize)
    (hlen : arrays.length ≤ binaryChunkFileMaxEntryCount)
    (hc : arrays ≠ [] → ∀ out props, compressed lzma arrays = some (out, props) →
      out.length ≤ binaryChunkFileMaxChunkDataSize ∧
        props.length ≤ binaryChunkFileMaxChunkDataSize)
    (he : arrays = [] → garbage.toNat ≤ binaryChunkFileMaxChunkDataSize) : Allowed file c := by
  have hcount : c.entryCount.toNat ≤ arrays.length := by
    rw [h.entryCount, BitVec.toNat_ofNat]
    exact Nat.mod_le _ _
  have htotal : c.uncompressedDataSize.toNat ≤ binaryChunkFileMaxChunkDataSize := by
    rw [h.size, BitVec.toNat_ofNat]
    exact le_trans (Nat.mod_le _ _) hsize
  by_cases hne : arrays = []
  · obtain ⟨h₁, h₂, h₃⟩ := h.empty hne
    refine ⟨htotal, by rw [h₂]; exact Nat.zero_le _, by rw [h₃]; exact he hne, by omega, ?_⟩
    rw [hne, List.length_nil] at hcount
    rw [h₁, Nat.le_zero.1 hcount]
    exact Nat.zero_le _
  · obtain ⟨pos, -, hs, hat⟩ := h.table hne
    obtain ⟨_, out, props, -, hcomp, h₂, h₃, -, -⟩ := h.data hne
    obtain ⟨ho, hp⟩ := hc hne out props hcomp
    have hle := hat.length_le
    rw [entryCodec.length_encodeAll, length_entries] at hle
    refine ⟨htotal, ?_, ?_, by omega, ?_⟩
    · rw [h₂, BitVec.toNat_ofNat]
      exact le_trans (Nat.mod_le _ _) ho
    · rw [h₃, BitVec.toNat_ofNat]
      exact le_trans (Nat.mod_le _ _) hp
    · rw [hs, toNat_ofNat_64 (by omega)]
      have := Nat.mul_le_mul_left entryCodec.size hcount
      omega

/-- What is in a chunk that fits. -/
theorem Stored.loadedData (h : Stored lzma garbage file arrays c) (hl : lzma.Lossless)
    (hf : file.length ≤ importStreamMaxMemStreamSize) (hne : arrays ≠ [])
    (hsize : totalSize arrays ≤ binaryChunkFileMaxChunkDataSize)
    (hc : ∀ out props, compressed lzma arrays = some (out, props) →
      out.length ≤ binaryChunkFileMaxChunkDataSize ∧
        props.length ≤ binaryChunkFileMaxChunkDataSize)
    (hw : ∀ a ∈ arrays, a.words ≠ []) :
    loadedData lzma file c = .ok (chunkBytes arrays) := by
  obtain ⟨pos, out, props, -, hcomp, h₁, h₂, h₃, hat⟩ := h.data hne
  obtain ⟨ho, hp⟩ := hc out props hcomp
  obtain ⟨hone, hpne⟩ := hl.ne_nil _ _ _ _ _ hcomp
  have hone' : 0 < out.length := List.length_pos_iff.2 hone
  have hpne' : 0 < props.length := List.length_pos_iff.2 hpne
  have hmax : binaryChunkFileMaxChunkDataSize < 2 ^ 32 := by decide
  have hle := hat.length_le
  have htotal : c.uncompressedDataSize.toNat = totalSize arrays := by
    rw [h.size, BitVec.toNat_ofNat, Nat.mod_eq_of_lt (by omega)]
  have hout : c.compressedDataSize.toNat = out.length := by
    rw [h₁, BitVec.toNat_ofNat, Nat.mod_eq_of_lt (by omega)]
  have hprops : c.compressedPropsSize.toNat = props.length := by
    rw [h₂, BitVec.toNat_ofNat, Nat.mod_eq_of_lt (by omega)]
  have hstart : c.compressedDataStart.toNat = pos := by
    rw [h₃]
    exact toNat_ofNat_64 (by omega)
  have hpos : 0 < totalSize arrays := by
    rw [← length_chunkBytes, chunkBytes, codec32.length_encodeAll, size_codec32]
    have := List.length_pos_iff.2 (flatMap_words_ne_nil hne hw)
    omega
  have hne₁ : c.compressedPropsSize ≠ 0 := by
    intro he
    rw [he] at hprops
    exact absurd hprops.symm hpne'.ne'
  have hne₂ : c.compressedDataSize ≠ 0 := by
    intro he
    rw [he] at hout
    exact absurd hout.symm hone'.ne'
  rw [List.length_append] at hle
  unfold ChunkedBinaryStreamReaderChunk.loadedData
  dsimp only
  rw [htotal, if_pos hpos, hout, hprops, hstart]
  simp only [guard_eq_ok, bind_eq_ok, readAt_eq_ok]
  refine ⟨hne₁, hne₂, _, ⟨by omega, rfl⟩, _, ⟨by omega, rfl⟩, ?_⟩
  have hinv : lzma.uncompress (totalSize arrays) out props = some (chunkBytes arrays) := by
    rw [← length_chunkBytes]
    exact hl.inverse _ _ _ _ _ hcomp
  rw [hat.left.take_drop, hat.right.take_drop, hinv]
  dsimp only
  rw [fill_of_length (length_chunkBytes arrays)]
  rfl

/-- The array at entry `e` of the data of a chunk. -/
theorem at_chunkBytes (he : arrays[e]? = some a) :
    At (chunkBytes arrays) (totalSize (arrays.take e)) (codec32.encodeAll a.words) := by
  obtain ⟨hlt, rfl⟩ := List.getElem?_eq_some_iff.1 he
  have hsplit : arrays = arrays.take e ++ arrays[e] :: arrays.drop (e + 1) := by simp
  refine ⟨chunkBytes (arrays.take e), chunkBytes (arrays.drop (e + 1)), length_chunkBytes _, ?_⟩
  conv_lhs => rw [hsplit]
  rw [chunkBytes, List.flatMap_append, List.flatMap_cons, codec32.encodeAll_append,
    codec32.encodeAll_append]
  rfl

theorem totalSize_take_succ (he : arrays[e]? = some a) :
    totalSize (arrays.take (e + 1)) = totalSize (arrays.take e) + a.size := by
  rw [List.take_add_one, he, totalSize_append]
  simp [totalSize]

theorem totalSize_take_le (arrays : List StoredArray) (k : Nat) :
    totalSize (arrays.take k) ≤ totalSize arrays := by
  conv_rhs => rw [← List.take_append_drop k arrays, totalSize_append]
  exact Nat.le_add_right _ _

/-- Where an entry ends, as recorded. -/
theorem stopOf_eq {rc : ChunkedBinaryStreamReaderChunk} (hent : rc.chunkEntries = entries 0 arrays)
    (hlen : rc.bytes.length = totalSize arrays % 2 ^ 32) (e : Nat) :
    rc.stopOf e = totalSize (arrays.take (e + 1)) % 2 ^ 32 := by
  unfold stopOf
  rw [hent]
  cases hn : arrays[e + 1]? with
  | some next =>
    rw [getElem?_entries hn]
    dsimp only
    rw [BitVec.toNat_ofNat, Nat.zero_add]
  | none =>
    have hlast : arrays.length ≤ e + 1 := List.getElem?_eq_none_iff.1 hn
    rw [List.getElem?_eq_none (by rw [length_entries]; exact hlast), List.take_of_length_le hlast]
    exact hlen

/-- **An entry of a chunk with its data**: its words are where the record says. -/
theorem seekToEntry_of_data {rc : ChunkedBinaryStreamReaderChunk}
    (hent : rc.chunkEntries = entries 0 arrays) (hdata : rc.data = some (chunkBytes arrays))
    (hsize : totalSize arrays ≤ binaryChunkFileMaxChunkDataSize) (he : arrays[e]? = some a) :
    ∃ rc', rc.seekToEntry e = .ok (rc', a.entryType, a.size) ∧ Positioned a.words rc' := by
  have hbytes : rc.bytes = chunkBytes arrays := by rw [bytes, hdata, Option.getD_some]
  have hmax : binaryChunkFileMaxChunkDataSize < 2 ^ 32 := by decide
  have hnext := totalSize_take_succ he
  have hle := totalSize_take_le arrays (e + 1)
  have hstop := stopOf_eq hent
    (by rw [hbytes, length_chunkBytes, Nat.mod_eq_of_lt (by omega)]) e
  have hpos : (BitVec.ofNat 32 (0 + totalSize (arrays.take e))).toNat =
      totalSize (arrays.take e) := by
    rw [BitVec.toNat_ofNat, Nat.zero_add, Nat.mod_eq_of_lt (by omega)]
  have hsz : (BitVec.ofNat 32 a.size).toNat = a.size := by
    rw [BitVec.toNat_ofNat, Nat.mod_eq_of_lt (by omega)]
  rw [Nat.mod_eq_of_lt (by omega)] at hstop
  have hentry : rc.chunkEntries[e]? = some ⟨a.id, a.entryType,
      BitVec.ofNat 32 (0 + totalSize (arrays.take e)), BitVec.ofNat 32 a.size⟩ := by
    rw [hent, getElem?_entries he]
  refine ⟨{ rc with
      currentReadPosition := totalSize (arrays.take e)
      currentEndPosition := rc.stopOf e }, seekToEntry_eq_ok.2 ⟨_, hentry, ?_, ?_, ?_⟩, ?_, ?_⟩
  · dsimp only
    rw [hpos, hbytes, length_chunkBytes]
    omega
  · dsimp only
    rw [hpos, hsz, hstop, hnext]
  · dsimp only
    rw [hpos, hsz]
  · change At rc.bytes _ _
    rw [hbytes]
    exact at_chunkBytes he
  · change rc.stopOf e = _
    rw [hstop, hnext]
    rfl

/-! ## Opening a written stream -/

section

variable {r r' : ChunkedBinaryStreamReader}

theorem Written.headerOf (h : Written lzma uninit extra chunks file records) :
    headerOf file = ⟨binaryChunkFileHeaderSign, binaryChunkFileHeaderVersion,
      BitVec.ofNat 32 chunks.length, BitVec.ofNat 64 (tableStart lzma chunks + extra)⟩ := by
  have hhead := h.header.take_drop
  rw [headerCodec.length_encode] at hhead
  rw [NMR.headerOf, hhead, headerCodec.decode_encode]

theorem Written.tableStart_le (h : Written lzma uninit extra chunks file records)
    (hf : file.length ≤ importStreamMaxMemStreamSize) :
    tableStart lzma chunks + extra ≤ importStreamMaxMemStreamSize := by
  have := h.table.length_le
  omega

theorem visible_le (chunks : List (List StoredArray)) : visible chunks ≤ chunks.length :=
  Nat.mod_le _ _

/-- The records the reader sees. -/
theorem Written.recordsOf (h : Written lzma uninit extra chunks file records)
    (hf : file.length ≤ importStreamMaxMemStreamSize) :
    recordsOf file = records.take (visible chunks) := by
  rw [NMR.recordsOf, h.headerOf, toNat_ofNat_64 (h.tableStart_le hf), BitVec.toNat_ofNat]
  exact h.table.decodeAll (by rw [h.count]; exact visible_le chunks)

theorem Written.record (h : Written lzma uninit extra chunks file records)
    (hi : chunks[i]? = some arrays) :
    ∃ c, records[i]? = some c ∧ Stored lzma (uninit i) file arrays c := by
  have hlt : i < records.length := by
    rw [h.count]
    exact (List.getElem?_eq_some_iff.1 hi).1
  exact ⟨_, List.getElem?_eq_getElem hlt, h.stored i _ _ hi (List.getElem?_eq_getElem hlt)⟩

theorem length_le_totalSize (hw : ∀ a ∈ arrays, a.words ≠ []) :
    4 * arrays.length ≤ totalSize arrays := by
  induction arrays with
  | nil => exact Nat.zero_le _
  | cons a l ih =>
    have ha := List.length_pos_iff.2 (hw a List.mem_cons_self)
    have hl := ih fun b hb => hw b (List.mem_cons_of_mem _ hb)
    rw [totalSize, List.map_cons, List.sum_cons, List.length_cons, size]
    rw [totalSize] at hl
    omega

/-- The arrays of a chunk that fits are few. -/
theorem Fits.length_le (hfit : Fits lzma uninit chunks) (hmem : arrays ∈ chunks)
    (hw : ∀ a ∈ arrays, a.words ≠ []) : 4 * arrays.length ≤ binaryChunkFileMaxChunkDataSize := by
  by_cases hne : arrays = []
  · rw [hne]
    exact Nat.zero_le _
  · exact le_trans (length_le_totalSize hw) (hfit.size arrays hmem hne)

/-- A stream that fits can be opened. -/
theorem Written.length_le (h : Written lzma uninit 0 chunks file records)
    (hfit : Fits lzma uninit chunks) : file.length ≤ importStreamMaxMemStreamSize := by
  rw [h.length]
  exact hfit.stream

/-- The entry table of a chunk of a stream that fits. -/
theorem Written.chunkEntries (h : Written lzma uninit extra chunks file records)
    (hf : file.length ≤ importStreamMaxMemStreamSize) (hfit : Fits lzma uninit chunks) (hi : chunks[i]? = some arrays) (hc : records[i]? = some c) :
    (ofRecord file c).chunkEntries = entries 0 arrays := by
  have hmem := List.mem_of_getElem? hi
  have hlen := hfit.length_le hmem (h.words arrays hmem)
  have hmax : binaryChunkFileMaxChunkDataSize < 2 ^ 32 := by decide
  rw [(h.stored i _ _ hi hc).chunkEntries hf,
    Nat.mod_eq_of_lt (by omega), List.take_of_length_le (by rw [length_entries])]

theorem map_entryID (pos : Nat) (arrays : List StoredArray) :
    (entries pos arrays).map (·.entryID.toNat) = arrays.map (·.id.toNat) := by
  induction arrays generalizing pos with
  | nil => rfl
  | cons a l ih => rw [entries, List.map_cons, ih, List.map_cons]

/-- The IDs in a stream that fits. -/
theorem Written.entryIDs (h : Written lzma uninit extra chunks file records)
    (hf : file.length ≤ importStreamMaxMemStreamSize) (hfit : Fits lzma uninit chunks) :
    (records.map fun c => entryIDs (ofRecord file c)) =
      chunks.map fun arrays => arrays.map (·.id.toNat) := by
  apply List.ext_getElem?
  intro i
  rw [List.getElem?_map, List.getElem?_map]
  cases hi : chunks[i]? with
  | none =>
    have hge : records[i]? = none := by
      rw [List.getElem?_eq_none_iff, h.count]
      exact List.getElem?_eq_none_iff.1 hi
    rw [hge]
    rfl
  | some arrays =>
    obtain ⟨c, hc, -⟩ := h.record hi
    rw [hc, Option.map_some, Option.map_some, NMR.entryIDs, h.chunkEntries hf hfit hi hc, map_entryID]

/-- The reader opens a stream that fits. -/
theorem Written.new_total (h : Written lzma uninit extra chunks file records)
    (hf : file.length ≤ importStreamMaxMemStreamSize) (hfit : Fits lzma uninit chunks)
    (hn : (chunks.flatten.map StoredArray.id).Nodup) :
    ∃ r, ChunkedBinaryStreamReader.new file = .ok r := by
  have htable := h.table.length_le
  rw [chunkCodec.length_encodeAll, h.count] at htable
  have hvis := visible_le chunks
  have hread : ∃ r, ChunkedBinaryStreamReader.readHeader file = .ok r := by
    refine readHeader_total ?_ ?_ ?_ ?_ ?_ ?_ ?_
    · have := h.header.length_le
      rw [headerCodec.length_encode] at this
      omega
    · rw [h.headerOf]
    · rw [h.headerOf]
    · rw [h.headerOf, BitVec.toNat_ofNat]
      exact hfit.chunkCount
    · rw [h.headerOf, toNat_ofNat_64 (h.tableStart_le hf), BitVec.toNat_ofNat]
      have := Nat.mul_le_mul_left chunkCodec.size hvis
      rw [visible] at this
      omega
    · intro c hc
      rw [h.recordsOf hf] at hc
      obtain ⟨i, hlt, rfl⟩ := List.getElem_of_mem hc
      rw [List.length_take, h.count] at hlt
      rw [List.getElem_take]
      have hi := List.getElem?_eq_getElem (by omega : i < chunks.length)
      have hmem := List.mem_of_getElem? hi
      have hlen := hfit.length_le hmem (h.words _ hmem)
      have hmax : binaryChunkFileMaxChunkDataSize ≤ 4 * binaryChunkFileMaxEntryCount := by decide
      refine (h.stored i _ _ hi (List.getElem?_eq_getElem _)).allowed hf ?_ (by omega)
        (hfit.compressed _ hmem) fun he => hfit.empty i (by rw [hi, he]) (by omega)
      by_cases hne : chunks[i] = []
      · rw [hne]
        exact Nat.zero_le _
      · exact hfit.size _ hmem hne
    · rw [h.recordsOf hf, List.flatMap_def, List.map_take, h.entryIDs hf hfit, ← List.map_take]
      have hmap : (chunks.map fun arrays => arrays.map (·.id.toNat)).flatten =
          (chunks.flatten.map StoredArray.id).map BitVec.toNat := by
        rw [List.map_map, List.map_flatten]
        rfl
      refine List.Nodup.sublist ((List.take_sublist _ _).map _).flatten ?_
      rw [hmap]
      exact hn.map fun (x y : BitVec 32) (hxy : x.toNat = y.toNat) => BitVec.eq_of_toNat_eq hxy
  obtain ⟨r, hr⟩ := hread
  refine ⟨r, ?_⟩
  simp only [ChunkedBinaryStreamReader.new, importStreamSharedMemory, if_neg (not_lt.2 hf)]
  exact hr

/-- What the reader knows of a written stream. -/
theorem Written.opens (h : Written lzma uninit extra chunks file records)
    (hr : ChunkedBinaryStreamReader.new file = .ok r) :
    file.length ≤ importStreamMaxMemStreamSize ∧
      visible chunks ≤ binaryChunkFileMaxChunkCount ∧
      Opens file (records.take (visible chunks)) r := by
  simp only [ChunkedBinaryStreamReader.new, bind_eq_ok] at hr
  obtain ⟨_, hs, hr⟩ := hr
  unfold importStreamSharedMemory at hs
  split_ifs at hs with hf
  cases hs
  rw [not_lt] at hf
  obtain ⟨hcount, hopen⟩ := readHeader_opens hr
  rw [h.headerOf, BitVec.toNat_ofNat] at hcount
  rw [h.recordsOf hf] at hopen
  exact ⟨hf, hcount, hopen⟩

theorem Opens.getElem? (hopen : Opens file (records.take (visible chunks)) r)
    (hc : records[i]? = some c) (hi : i < visible chunks) :
    r.chunks[i]? = some (ofRecord file c) := by
  rw [hopen.chunks, List.getElem?_map, List.getElem?_take_of_lt hi, hc, Option.map_some]

/-- **Every array of a stream that fits is found**, whatever was read before. -/
theorem Written.seekToEntry (h : Written lzma uninit extra chunks file records) (hl : lzma.Lossless)
    (hf : file.length ≤ importStreamMaxMemStreamSize) (hfit : Fits lzma uninit chunks)
    (hopen : Opens file (records.take (visible chunks)) r) (hs : SameButCache lzma r r')
    (hi : chunks[i]? = some arrays) (he : arrays[e]? = some a) :
    ∃ c, r'.findChunkByEntry a.id = .ok (i, c, e) ∧ c.chunkEntries = entries 0 arrays ∧
      ∃ c', r'.seekToEntry lzma a.id = .ok (i, c', a.entryType, a.size) ∧
        Positioned a.words c' := by
  have hmem := List.mem_of_getElem? hi
  have hne : arrays ≠ [] := List.ne_nil_of_mem (List.mem_of_getElem? he)
  have hvis := hfit.shown i arrays hi hne
  obtain ⟨c, hc, hst⟩ := h.record hi
  have hc₀ := hopen.getElem? hc hvis
  have hent := h.chunkEntries hf hfit hi hc
  have hfind : r'.chunkMap.find? a.id.toNat = some (i, e) := by
    rw [hs.map, hopen.indexed]
    exact ⟨_, _, hc₀, by rw [hent, getElem?_entries he], rfl⟩
  have hlt : i < r'.chunks.length := by
    rw [hs.length]
    exact (List.getElem?_eq_some_iff.1 hc₀).1
  have hc₁ := List.getElem?_eq_getElem hlt
  have hcached := hs.chunk i _ _ hc₀ hc₁
  rw [hopen.source] at hcached
  have hload := hst.loadedData hl hf hne (hfit.size arrays hmem hne) (hfit.compressed _ hmem hne)
    (h.words arrays hmem)
  obtain ⟨c₂, hl₂, hcached₂, hd₂⟩ := hcached.load_ok hload
  obtain ⟨c₃, hs₃, hp₃⟩ := seekToEntry_of_data (hcached₂.entries.trans hent) hd₂
    (hfit.size arrays hmem hne) he
  refine ⟨r'.chunks[i], ?_, hcached.entries.trans hent, c₃, ?_, hp₃⟩
  · unfold ChunkedBinaryStreamReader.findChunkByEntry
    rw [hfind]
    dsimp only
    rw [hc₁]
  · refine seekToEntry_eq_some.2 ⟨e, _, c₂, hfind, hc₁, ?_, hs₃⟩
    rw [hs.source, hopen.source]
    exact hl₂

/-! ## The limits are necessary -/

/-- An array that is found is in a chunk the reader sees, and no position before its end wraps. -/
theorem Written.seek_place (h : Written lzma uninit extra chunks file records)
    (hn : (chunks.flatten.map StoredArray.id).Nodup)
    (hr : ChunkedBinaryStreamReader.new file = .ok r) (hi : chunks[i]? = some arrays)
    (he : arrays[e]? = some a)
    (hs : ∃ j c t, r.seekToEntry lzma a.id = .ok (j, c, t, a.size)) :
    i < visible chunks ∧ e < arrays.length % 2 ^ 32 ∧
      (arrays.length % 2 ^ 32 = arrays.length →
        totalSize (arrays.take e) % 2 ^ 32 + a.size =
          totalSize (arrays.take (e + 1)) % 2 ^ 32) := by
  obtain ⟨j, c₂, t, hs⟩ := hs
  obtain ⟨hf, -, hopen⟩ := h.opens hr
  obtain ⟨e', c, c₁, hfind, hc, hload, hseek⟩ := seekToEntry_eq_some.1 hs
  obtain ⟨c', entry, hc', hentry, hid⟩ := (hopen.indexed _ _).1 hfind
  dsimp only at hc' hentry
  rw [hc] at hc'
  cases hc'
  -- the chunk is the one of some arrays, and the entry the one of an array with the same ID
  rw [hopen.chunks, List.getElem?_map, Option.map_eq_some_iff] at hc
  obtain ⟨rec, hrec, rfl⟩ := hc
  obtain ⟨hj, -⟩ := List.getElem?_eq_some_iff.1 hrec
  rw [List.length_take, h.count] at hj
  rw [List.getElem?_take_of_lt (by omega)] at hrec
  have hchunk := List.getElem?_eq_getElem (by omega : j < chunks.length)
  have hst := h.stored j _ _ hchunk hrec
  have hent := hst.chunkEntries hf
  rw [hent] at hentry
  have hlt : e' < chunks[j].length % 2 ^ 32 := by
    by_contra hge
    rw [List.getElem?_eq_none (by rw [List.length_take]; omega)] at hentry
    cases hentry
  rw [List.getElem?_take_of_lt hlt] at hentry
  have hlt' : e' < chunks[j].length := lt_of_lt_of_le hlt (Nat.mod_le _ _)
  have ha' := List.getElem?_eq_getElem hlt'
  rw [getElem?_entries ha', Option.some.injEq] at hentry
  have hid' : a.id = (chunks[j][e']).id := by
    rw [← hentry] at hid
    exact BitVec.eq_of_toNat_eq hid.symm
  obtain ⟨rfl, rfl⟩ := place_of_id hn hi he hchunk ha' hid'
  rw [hchunk, Option.some.injEq] at hi
  subst hi
  refine ⟨by omega, hlt, fun hlen => ?_⟩
  rw [hlen, List.take_of_length_le (length_entries ..).le] at hent
  -- the data have the recorded size
  obtain ⟨-, d, hd, hloaded⟩ := (Cached.refl rfl).load hload
  rw [hopen.source] at hloaded
  have hdlen := length_loadedData hloaded
  obtain ⟨entry₁, hentry₁, -, hstop, hx⟩ := seekToEntry_eq_ok.1 hseek
  have hkeep : c₁.chunkEntries = (ofRecord file rec).chunkEntries := by
    rcases loadData_eq_ok.1 hload with ⟨-, rfl⟩ | ⟨-, _, -, rfl⟩ <;> rfl
  rw [hkeep, hent, getElem?_entries ha', Option.some.injEq] at hentry₁
  have hbytes : c₁.bytes.length = totalSize chunks[i] % 2 ^ 32 := by
    rw [bytes, hd, Option.getD_some, hdlen, ← BitVec.toNat_ofNat, ← hst.size]
    rfl
  rw [stopOf_eq (hkeep.trans hent) hbytes] at hstop
  have hsz : a.size = entry₁.sizeInBytes.toNat := by
    rw [Prod.mk.injEq, Prod.mk.injEq] at hx
    exact hx.2.2
  rw [hsz, ← hstop, ← hentry₁, Nat.zero_add]
  dsimp only
  rw [BitVec.toNat_ofNat (totalSize _)]

/-- Positions that do not wrap up to the end of each array are exact. -/
theorem totalSize_exact (h : ∀ (e : Nat) a, arrays[e]? = some a →
    totalSize (arrays.take e) % 2 ^ 32 + a.size = totalSize (arrays.take (e + 1)) % 2 ^ 32) :
    totalSize arrays % 2 ^ 32 = totalSize arrays := by
  have hk : ∀ k ≤ arrays.length, totalSize (arrays.take k) % 2 ^ 32 = totalSize (arrays.take k) := by
    intro k
    induction k with
    | zero => exact fun _ => rfl
    | succ k ih =>
      intro hlt
      have ha := List.getElem?_eq_getElem hlt
      rw [← h k _ ha, ih (by omega), totalSize_take_succ ha]
  have := hk arrays.length le_rfl
  rwa [List.take_length] at this

/-- **The limits are necessary**: where the reader opens the stream and finds every array with
its size, the chunks fit. -/
theorem Written.fits (h : Written lzma uninit 0 chunks file records) (hl : lzma.Lossless)
    (hn : (chunks.flatten.map StoredArray.id).Nodup) (hcount : chunks.flatten.length ≤ 2 ^ 32)
    (hr : ChunkedBinaryStreamReader.new file = .ok r)
    (hs : ∀ a ∈ chunks.flatten, ∃ j c t, r.seekToEntry lzma a.id = .ok (j, c, t, a.size)) :
    Fits lzma uninit chunks := by
  obtain ⟨hf, hvis, hopen⟩ := h.opens hr
  have hplace : ∀ {i e : Nat} {arrays a}, chunks[i]? = some arrays → arrays[e]? = some a → _ :=
    fun {i e arrays a} hi he => h.seek_place hn hr hi he (hs a
      (List.mem_flatten_of_mem (List.mem_of_getElem? hi) (List.mem_of_getElem? he)))
  have hshown : ∀ (i : Nat) arrays, chunks[i]? = some arrays → arrays ≠ [] →
      i < visible chunks := by
    intro i arrays hi hne
    exact (hplace hi (List.getElem?_eq_getElem (List.length_pos_iff.2 hne))).1
  have hallowed : ∀ (i : Nat) arrays, chunks[i]? = some arrays → i < visible chunks →
      ∃ c, Stored lzma (uninit i) file arrays c ∧ Allowed file c := by
    intro i arrays hi hlt
    obtain ⟨c, hc, hst⟩ := h.record hi
    refine ⟨c, hst, hopen.allowed c ?_⟩
    exact List.mem_of_getElem? ((List.getElem?_take_of_lt hlt).trans hc)
  have hmax : binaryChunkFileMaxChunkDataSize < 2 ^ 32 := by decide
  have hsize : ∀ arrays ∈ chunks, arrays ≠ [] → totalSize arrays % 2 ^ 32 = totalSize arrays := by
    intro arrays hmem hne
    obtain ⟨i, hlt, rfl⟩ := List.getElem_of_mem hmem
    have hi := List.getElem?_eq_getElem hlt
    have hpos := List.length_pos_iff.2 hne
    have hlast := List.getElem?_eq_getElem (by omega : chunks[i].length - 1 < chunks[i].length)
    have hle := Nat.mod_le chunks[i].length (2 ^ 32)
    have hlen := (hplace hi hlast).2.1
    exact totalSize_exact fun e a he => (hplace hi he).2.2 (by omega)
  refine ⟨h.length.ge.trans hf, hcount, hvis, hshown, ?_, ?_, ?_⟩
  · intro arrays hmem hne
    obtain ⟨i, hlt, rfl⟩ := List.getElem_of_mem hmem
    have hi := List.getElem?_eq_getElem hlt
    obtain ⟨c, hst, hall⟩ := hallowed i _ hi (hshown i _ hi hne)
    have := hall.uncompressed
    rw [hst.size, BitVec.toNat_ofNat, hsize _ hmem hne] at this
    exact this
  · intro arrays hmem hne out props hcomp
    obtain ⟨i, hlt, rfl⟩ := List.getElem_of_mem hmem
    have hi := List.getElem?_eq_getElem hlt
    obtain ⟨c, hst, hall⟩ := hallowed i _ hi (hshown i _ hi hne)
    obtain ⟨_, out', props', -, hcomp', h₁, h₂, -, -⟩ := hst.data hne
    rw [hcomp, Option.some.injEq, Prod.mk.injEq] at hcomp'
    obtain ⟨rfl, rfl⟩ := hcomp'
    -- the results fit buffers whose size is a 32-bit number
    have hfits := hl.fits _ _ _ _ _ hcomp
    have hbuf := (BitVec.ofNat 32 (totalSize chunks[i]) * 2).isLt
    have ho := hall.compressed
    have hp := hall.props
    rw [h₁, BitVec.toNat_ofNat, Nat.mod_eq_of_lt (by omega)] at ho
    rw [h₂, BitVec.toNat_ofNat, Nat.mod_eq_of_lt (by omega)] at hp
    exact ⟨ho, hp⟩
  · intro i hi hlt
    obtain ⟨c, hst, hall⟩ := hallowed i _ hi hlt
    rw [← (hst.empty rfl).2.2]
    exact hall.props

end

end NMR
