import Lib3MF.Lib.Run
import Lib3MF.Common.ChunkedBinaryStream.ReaderSession
import Lib3MF.Common.ChunkedBinaryStream.Proof.Opening
import Lib3MF.Common.ChunkedBinaryStream.Proof.Reading

/-!
# What reads of any stream give

The stream is any bytes that can be opened, and the decoder any function. A call that does not
throw gives values of the entry, from bytes that the decoder has produced, and the number
`getTypedChunkEntryCount` gives, exactly when it is `Honest` (`reads_iff`): the decoder has
produced the bytes up to the end of the entry, and an entry of no values has the type of the call.
-/

namespace NMR

open Lib ChunkedBinaryStreamReaderChunk

namespace ChunkedBinaryStreamReader

variable {lzma : Lzma} {scale : BitVec 32 → BitVec 32 → BitVec 32} {α : Type}
  {r₀ r r' : ChunkedBinaryStreamReader} {c c₀ c' : ChunkedBinaryStreamReaderChunk} {i n : Nat}
  {entryID a b t : BitVec 32} {ws : List (BitVec 32)}

/-! ## Functions of one chunk -/

theorem getElem?_setChunk (h : r.chunks[i]? = some c) : (r.setChunk i c').chunks[i]? = some c' := by
  obtain ⟨hlt, -⟩ := List.getElem?_eq_some_iff.1 h
  rw [setChunk, List.getElem?_set, if_pos rfl, if_pos hlt]

variable {f : ChunkedBinaryStreamReaderChunk → Except Error (α × ChunkedBinaryStreamReaderChunk)}

theorem onChunk_ok {x : α} (h : r.chunks[i]? = some c) (hf : f c = .ok (x, c')) :
    onChunk i f r = .ok x (r.setChunk i c') := by
  unfold onChunk
  rw [h]
  dsimp only
  rw [hf]

theorem onChunk_error {e : Error} (h : r.chunks[i]? = some c) (hf : f c = .error e) :
    onChunk i f r = .error e r := by
  unfold onChunk
  rw [h]
  dsimp only
  rw [hf]

/-- The reader still differs in its cache only. -/
def KeepsCache (lzma : Lzma) (r₀ r r' : ChunkedBinaryStreamReader) : Prop :=
  SameButCache lzma r₀ r → SameButCache lzma r₀ r'

theorem KeepsCache.refl (r : ChunkedBinaryStreamReader) : KeepsCache lzma r₀ r r := fun h => h

theorem KeepsCache.trans (r r₁ r₂ : ChunkedBinaryStreamReader) (h₁ : KeepsCache lzma r₀ r r₁)
    (h₂ : KeepsCache lzma r₀ r₁ r₂) : KeepsCache lzma r₀ r r₂ := fun h => h₂ (h₁ h)

theorem keeps_onChunk (hf : ∀ c₀ c x c', Cached lzma r₀.importStream c₀ c → f c = .ok (x, c') →
    Cached lzma r₀.importStream c₀ c') : Frames (KeepsCache lzma r₀) (onChunk i f) := by
  intro r h
  unfold onChunk
  cases hc : r.chunks[i]? with
  | none => exact h
  | some c =>
    dsimp only
    cases hx : f c with
    | error e => exact h
    | ok x =>
      exact h.setChunk fun c₀ h₀ => hf c₀ c x.1 x.2 (h.chunk i c₀ c h₀ hc) hx

theorem keeps_readInt32 : Frames (KeepsCache lzma r₀) (onChunk i (·.readInt32)) :=
  keeps_onChunk fun c₀ c x c' h hx => by
    rw [readInt32_chunk hx]
    exact h.advance 1

theorem keeps_readNoPredictionM (n : Nat) :
    Frames (KeepsCache lzma r₀) (readNoPredictionM i n) := by
  induction n with
  | zero => exact Frames.pure KeepsCache.refl _
  | succ n ih =>
    exact Frames.bind KeepsCache.trans keeps_readInt32 fun _ =>
      Frames.bind KeepsCache.trans ih fun _ => Frames.pure KeepsCache.refl _

theorem keeps_readDeltaPredictionM (n : Nat) (lastValue : BitVec 32) :
    Frames (KeepsCache lzma r₀) (readDeltaPredictionM i n lastValue) := by
  induction n generalizing lastValue with
  | zero => exact Frames.pure KeepsCache.refl _
  | succ n ih =>
    exact Frames.bind KeepsCache.trans keeps_readInt32 fun _ =>
      Frames.bind KeepsCache.trans (ih _) fun _ => Frames.pure KeepsCache.refl _

theorem keeps_readValuesM : Frames (KeepsCache lzma r₀) (readValuesM a b t i n) := by
  unfold readValuesM
  split_ifs
  · exact Frames.pure KeepsCache.refl _
  · exact keeps_readNoPredictionM n
  · exact keeps_readDeltaPredictionM n 0
  · exact Frames.throw KeepsCache.refl _

theorem keeps_require {p : Prop} [Decidable p] {e : Error} :
    Frames (KeepsCache lzma r₀) (require p e) := by
  unfold require
  split_ifs
  · exact Frames.pure KeepsCache.refl _
  · exact Frames.throw KeepsCache.refl _

theorem keeps_seekToEntryM : Frames (KeepsCache lzma r₀) (seekToEntryM lzma entryID) := by
  intro r h
  unfold seekToEntryM
  rw [get_bind]
  cases r.findChunkByEntry entryID with
  | error e => exact h
  | ok x =>
    obtain ⟨i, -, e⟩ := x
    have hload : Frames (KeepsCache lzma r₀) (onChunk i fun c => do
        let c ← c.loadData lzma r.importStream
        return ((), c)) := by
      refine keeps_onChunk fun c₀ c x c' hc hx => ?_
      obtain ⟨c₁, hl, he⟩ := bind_eq_ok.1 hx
      cases he
      rw [h.source] at hl
      exact (hc.load hl).1
    refine Frames.bind KeepsCache.trans hload (fun _ =>
      Frames.bind KeepsCache.trans (keeps_onChunk fun c₀ c x c' hc hx => ?_) fun _ =>
        Frames.pure KeepsCache.refl _) r h
    obtain ⟨⟨c₁, t, m⟩, hs, he⟩ := bind_eq_ok.1 hx
    cases he
    exact hc.seek hs

theorem keeps_clearCache (h : SameButCache lzma r₀ r) : SameButCache lzma r₀ r.clearCache := by
  refine ⟨h.source, h.map, ?_, fun i c₀ c hc₀ hc => ?_⟩
  · rw [clearCache, List.length_map, h.length]
  · rw [clearCache, List.getElem?_map, Option.map_eq_some_iff] at hc
    obtain ⟨c', hc', rfl⟩ := hc
    exact (h.chunk i c₀ c' hc₀ hc').unload

/-- **One call** changes the cache only, whether it throws or not. -/
theorem keeps_read (call : ReadCall) : Frames (KeepsCache lzma r₀) (read scale lzma call) := by
  cases call with
  | readIntArray entryID n =>
    exact Frames.bind KeepsCache.trans keeps_seekToEntryM fun _ =>
      Frames.bind KeepsCache.trans keeps_require fun _ =>
      Frames.bind KeepsCache.trans keeps_require fun _ => keeps_readValuesM
  | readFloatArray entryID n =>
    exact Frames.bind KeepsCache.trans keeps_seekToEntryM fun _ =>
      Frames.bind KeepsCache.trans keeps_require fun _ =>
      Frames.bind KeepsCache.trans keeps_require fun _ =>
      Frames.bind KeepsCache.trans keeps_require fun _ =>
      Frames.bind KeepsCache.trans keeps_readInt32 fun _ =>
      Frames.bind KeepsCache.trans keeps_readValuesM fun _ => Frames.pure KeepsCache.refl _
  | clearCache => exact fun r h => keeps_clearCache h

/-! ## Reading at a position -/

theorem readNoPredictionM_ok (h : r.chunks[i]? = some c) (hp : Positioned ws c) :
    ∃ r', readNoPredictionM i ws.length r = .ok ws r' := by
  induction ws generalizing r c with
  | nil => exact ⟨r, rfl⟩
  | cons x ws ih =>
    obtain ⟨hx, hrest⟩ := hp.readInt32
    obtain ⟨r', hr'⟩ := ih (getElem?_setChunk h) hrest
    refine ⟨r', (bind_of_ok (onChunk_ok h hx)).trans ?_⟩
    exact bind_of_ok hr'

theorem readDeltaPredictionM_ok (h : r.chunks[i]? = some c) (hp : Positioned ws c)
    (lastValue : BitVec 32) :
    ∃ r', readDeltaPredictionM i ws.length lastValue r = .ok (undelta lastValue ws) r' := by
  induction ws generalizing r c lastValue with
  | nil => exact ⟨r, rfl⟩
  | cons x ws ih =>
    obtain ⟨hx, hrest⟩ := hp.readInt32
    obtain ⟨r', hr'⟩ := ih (getElem?_setChunk h) hrest (x + lastValue)
    refine ⟨r', (bind_of_ok (onChunk_ok h hx)).trans ?_⟩
    exact bind_of_ok hr'

/-- The values of the entry at which a chunk is. -/
theorem readValuesM_cases (h : r.chunks[i]? = some c) (hp : Positioned ws c) (a b t : BitVec 32) :
    ((ws.length ≠ 0 → t = a ∨ t = b) ∧ ∃ vs r', readValuesM a b t i ws.length r = .ok vs r' ∧
      vs.length = ws.length ∧
      (ws.length ≠ 0 → t = a ∧ vs = ws ∨ t = b ∧ vs = undelta 0 ws)) ∨
    (¬ (ws.length ≠ 0 → t = a ∨ t = b) ∧
      ∃ e r', readValuesM a b t i ws.length r = .error e r') := by
  have hlen (last : BitVec 32) (ws : List (BitVec 32)) : (undelta last ws).length = ws.length := by
    induction ws generalizing last with
    | nil => rfl
    | cons x ws ih => exact congrArg (· + 1) (ih _)
  unfold readValuesM
  by_cases hz : ws.length = 0
  · rw [if_pos hz]
    exact .inl ⟨fun hn => absurd hz hn, [], r, rfl, hz.symm, fun hn => absurd hz hn⟩
  rw [if_neg hz]
  by_cases ha : t = a
  · obtain ⟨r', hr'⟩ := readNoPredictionM_ok h hp
    rw [if_pos ha]
    exact .inl ⟨fun _ => .inl ha, ws, r', hr', rfl, fun _ => .inl ⟨ha, rfl⟩⟩
  rw [if_neg ha]
  by_cases hb : t = b
  · obtain ⟨r', hr'⟩ := readDeltaPredictionM_ok h hp 0
    rw [if_pos hb]
    exact .inl ⟨fun _ => .inr hb, _, r', hr', hlen 0 ws, fun _ => .inr ⟨hb, rfl⟩⟩
  · rw [if_neg hb]
    exact .inr ⟨fun hn => (hn hz).elim ha hb, _, _, rfl⟩

/-- The end of an entry is behind the data. -/
theorem readInt32_short (h : r.chunks[i]? = some c) (hend : c.bytes.length < c.currentEndPosition) :
    ∃ e, onChunk i (·.readInt32) r = .error e r := by
  have hread : ∃ e, c.readInt32 = .error e := by
    unfold readInt32
    split_ifs
    · exact ⟨_, rfl⟩
    · exact ⟨_, rfl⟩
  obtain ⟨e, he⟩ := hread
  exact ⟨e, onChunk_error h he⟩

theorem readValuesM_short (h : r.chunks[i]? = some c) (hn : n ≠ 0)
    (hend : c.bytes.length < c.currentEndPosition) :
    ∃ e r', readValuesM a b t i n r = .error e r' := by
  obtain ⟨e, he⟩ := readInt32_short h hend
  obtain ⟨m, rfl⟩ := Nat.exists_eq_succ_of_ne_zero hn
  unfold readValuesM
  rw [if_neg hn]
  split_ifs
  · exact ⟨e, r, bind_of_error he⟩
  · exact ⟨e, r, bind_of_error he⟩
  · exact ⟨_, _, rfl⟩

end ChunkedBinaryStreamReader

/-! ## The entry of a call -/

/-- What the decoder produces for a chunk. -/
def produced (lzma : Lzma) (stream : List UInt8) (c : BinaryChunkFileChunk) : List UInt8 :=
  let start := c.compressedDataStart.toNat
  (lzma.uncompress c.uncompressedDataSize.toNat
    ((stream.drop start).take c.compressedDataSize.toNat)
    ((stream.drop (start + c.compressedDataSize.toNat)).take c.compressedPropsSize.toNat)).getD []

/-- Where an entry has to end: at the next one, or with the chunk. -/
def entryStop (c : ChunkedBinaryStreamReaderChunk) (e : Nat) : Nat :=
  match c.chunkEntries[e + 1]? with
  | some next => next.positionInChunk.toNat
  | none => c.chunk.uncompressedDataSize.toNat

/-- The entry under an ID, whose chunk can be loaded and which passes `seekToEntry`. -/
structure EntryAt (lzma : Lzma) (r : ChunkedBinaryStreamReader) (entryID : BitVec 32) (i e : Nat)
    (c : ChunkedBinaryStreamReaderChunk) (entry : BinaryChunkFileEntry) : Prop where
  find : r.chunkMap.find? entryID.toNat = some (i, e)
  chunk : r.chunks[i]? = some c
  listed : c.chunkEntries[e]? = some entry
  loads : ∃ d, loadedData lzma r.importStream c.chunk = .ok d
  start : entry.positionInChunk.toNat ≤ c.chunk.uncompressedDataSize.toNat
  stop : entry.positionInChunk.toNat + entry.sizeInBytes.toNat = entryStop c e

theorem EntryAt.unique {lzma : Lzma} {r : ChunkedBinaryStreamReader} {entryID : BitVec 32}
    {i e i' e' : Nat} {c c' : ChunkedBinaryStreamReaderChunk} {entry entry' : BinaryChunkFileEntry}
    (h : EntryAt lzma r entryID i e c entry) (h' : EntryAt lzma r entryID i' e' c' entry') :
    i = i' ∧ e = e' ∧ c = c' ∧ entry = entry' := by
  have hfind := h.find
  rw [h'.find] at hfind
  cases hfind
  have hchunk := h.chunk
  rw [h'.chunk] at hchunk
  cases hchunk
  have hentry := h.listed
  rw [h'.listed] at hentry
  cases hentry
  exact ⟨rfl, rfl, rfl, rfl⟩

variable {lzma : Lzma} {scale : BitVec 32 → BitVec 32 → BitVec 32}
  {r₀ r : ChunkedBinaryStreamReader} {c c₀ : ChunkedBinaryStreamReaderChunk} {i e : Nat}
  {entryID : BitVec 32} {entry : BinaryChunkFileEntry} {d : List UInt8}

/-- The data of a chunk are what the decoder has produced, filled up with zeros. -/
theorem loadedData_eq (h : loadedData lzma r.importStream c.chunk = .ok d) :
    d = fill c.chunk.uncompressedDataSize.toNat (produced lzma r.importStream c.chunk) := by
  have hlen := length_loadedData h
  unfold loadedData at h
  dsimp only at h
  by_cases hs : 0 < c.chunk.uncompressedDataSize.toNat
  · rw [if_pos hs] at h
    simp only [guard_eq_ok, bind_eq_ok, readAt_eq_ok] at h
    obtain ⟨-, -, _, ⟨-, rfl⟩, _, ⟨-, rfl⟩, h⟩ := h
    unfold produced
    dsimp only
    split at h
    · cases h
    · rename_i bytes hbytes
      cases h
      rw [hbytes]
      rfl
  · have hzero : c.chunk.uncompressedDataSize.toNat = 0 := by omega
    rw [hzero] at hlen ⊢
    rw [List.length_eq_zero_iff.1 hlen, fill, List.take_zero]

/-- Bytes that the decoder has produced are those of the data. -/
theorem take_drop_fill {size pos n : Nat} {bytes : List UInt8} (hs : pos + n ≤ size)
    (hb : pos + n ≤ bytes.length) :
    ((fill size bytes).drop pos).take n = (bytes.drop pos).take n := by
  unfold fill
  rw [List.drop_take, List.take_take, Nat.min_eq_left (by omega),
    List.drop_append_of_le_length (by omega), List.take_append_of_le_length]
  rw [List.length_drop]
  omega

namespace ChunkedBinaryStreamReader

theorem findChunkByEntry_eq_ok {x : Nat × ChunkedBinaryStreamReaderChunk × Nat} :
    r.findChunkByEntry entryID = .ok x ↔
      r.chunkMap.find? entryID.toNat = some (x.1, x.2.2) ∧ r.chunks[x.1]? = some x.2.1 := by
  obtain ⟨i, c, e⟩ := x
  unfold findChunkByEntry
  cases hm : r.chunkMap.find? entryID.toNat with
  | none => simp
  | some p =>
    obtain ⟨i', e'⟩ := p
    dsimp only
    cases hc : r.chunks[i']? with
    | none =>
      simp only [Option.some.injEq, Prod.mk.injEq, false_iff, not_and, reduceCtorEq]
      rintro ⟨rfl, rfl⟩ hc'
      rw [hc] at hc'
      cases hc'
    | some c' =>
      simp only [Option.some.injEq, Prod.mk.injEq, Except.ok.injEq]
      constructor
      · rintro ⟨rfl, rfl, rfl⟩
        exact ⟨⟨rfl, rfl⟩, hc⟩
      · rintro ⟨⟨rfl, rfl⟩, hc'⟩
        rw [hc] at hc'
        cases hc'
        exact ⟨rfl, rfl, rfl⟩

/-- **Moving to an entry** succeeds where the entry passes the checks, and loads its chunk. -/
theorem seekToEntryM_cases (hs : SameButCache lzma r₀ r) (entryID : BitVec 32) :
    (∃ i e c₀ entry, ∃ c : ChunkedBinaryStreamReaderChunk, ∃ d r', EntryAt lzma r₀ entryID i e c₀ entry ∧
      seekToEntryM lzma entryID r = .ok (i, entry.entryType, entry.sizeInBytes.toNat) r' ∧
      loadedData lzma r₀.importStream c₀.chunk = .ok d ∧
      r'.chunks[i]? = some { c with
        data := some d
        currentReadPosition := entry.positionInChunk.toNat
        currentEndPosition := entry.positionInChunk.toNat + entry.sizeInBytes.toNat }) ∨
    ((∀ i e c₀ entry, ¬ EntryAt lzma r₀ entryID i e c₀ entry) ∧
      ∃ err r', seekToEntryM lzma entryID r = .error err r') := by
  unfold seekToEntryM
  rw [get_bind]
  cases hfind : r.findChunkByEntry entryID with
  | error err =>
    refine .inr ⟨fun i e c₀ entry h => ?_, err, r, rfl⟩
    have hlt : i < r.chunks.length := by
      rw [hs.length]
      exact (List.getElem?_eq_some_iff.1 h.chunk).1
    have hok : r.findChunkByEntry entryID = .ok (i, r.chunks[i], e) :=
      findChunkByEntry_eq_ok.2 ⟨hs.map ▸ h.find, List.getElem?_eq_getElem hlt⟩
    rw [hfind] at hok
    cases hok
  | ok x =>
    obtain ⟨i, c, e⟩ := x
    obtain ⟨hmap, hc⟩ := findChunkByEntry_eq_ok.1 hfind
    dsimp only at hmap hc
    rw [hs.map] at hmap
    have hlt : i < r₀.chunks.length := by
      rw [← hs.length]
      exact (List.getElem?_eq_some_iff.1 hc).1
    have hc₀ := List.getElem?_eq_getElem hlt
    have hcached := hs.chunk i _ c hc₀ hc
    -- the only entry that it can be
    have honly : ∀ i' e' c' entry, EntryAt lzma r₀ entryID i' e' c' entry →
        i' = i ∧ e' = e ∧ c' = r₀.chunks[i] := by
      intro i' e' c' entry h
      have hf := h.find
      rw [hmap] at hf
      cases hf
      have hk := h.chunk
      rw [hc₀] at hk
      cases hk
      exact ⟨rfl, rfl, rfl⟩
    cases hload : loadedData lzma r₀.importStream (r₀.chunks[i]).chunk with
    | error err =>
      refine .inr ⟨fun i' e' c' entry h => ?_, ?_⟩
      · obtain ⟨rfl, rfl, rfl⟩ := honly _ _ _ _ h
        obtain ⟨d, hd⟩ := h.loads
        rw [hload] at hd
        cases hd
      · have hdata : c.data = none := by
          cases hd : c.data with
          | none => rfl
          | some d =>
            have := hcached.data d hd
            rw [hload] at this
            cases this
        have he : c.loadData lzma r.importStream = .error err := by
          unfold loadData
          rw [hdata, hcached.chunk, hs.source, hload]
          rfl
        refine ⟨err, r, bind_of_error (onChunk_error hc ?_)⟩
        rw [he]
        rfl
    | ok d =>
      obtain ⟨c₁, hl, hcached₁, hd⟩ := hcached.load_ok hload
      rw [← hs.source] at hl
      have hbytes : c₁.bytes = d := by rw [bytes, hd, Option.getD_some]
      have hlen : d.length = (r₀.chunks[i]).chunk.uncompressedDataSize.toNat :=
        length_loadedData hload
      have hstop : c₁.stopOf e = entryStop r₀.chunks[i] e := by
        unfold stopOf entryStop
        rw [hcached₁.entries, hbytes]
        cases r₀.chunks[i].chunkEntries[e + 1]? with
        | none => exact hlen
        | some next => rfl
      have hfirst : onChunk i (fun c => do
          let c ← c.loadData lzma r.importStream
          return ((), c)) r = .ok () (r.setChunk i c₁) :=
        onChunk_ok hc (by rw [hl]; rfl)
      have hc₁ : (r.setChunk i c₁).chunks[i]? = some c₁ := getElem?_setChunk hc
      dsimp only
      rw [bind_of_ok hfirst]
      cases hseek : c₁.seekToEntry e with
      | error err =>
        refine .inr ⟨fun i' e' c' entry h => ?_, err, r.setChunk i c₁,
          bind_of_error (onChunk_error hc₁ (by rw [hseek]; rfl))⟩
        obtain ⟨rfl, rfl, rfl⟩ := honly _ _ _ _ h
        have hok := seekToEntry_eq_ok.2 ⟨entry, hcached₁.entries ▸ h.listed,
          by rw [hbytes, hlen]; exact h.start, by rw [hstop]; exact h.stop, rfl⟩
        rw [hseek] at hok
        cases hok
      | ok x =>
        obtain ⟨entry, hentry, hstart, hend, rfl⟩ := seekToEntry_eq_ok.1 hseek
        rw [hstop] at hend
        have hat : EntryAt lzma r₀ entryID i e r₀.chunks[i] entry := by
          refine ⟨hmap, hc₀, hcached₁.entries ▸ hentry, ⟨d, hload⟩, ?_, hend⟩
          rw [← hlen, ← hbytes]
          exact hstart
        -- the chunk after the seek
        let c₂ := { c₁ with
          currentReadPosition := entry.positionInChunk.toNat
          currentEndPosition := c₁.stopOf e }
        refine .inl ⟨i, e, r₀.chunks[i], entry, c₁, d, (r.setChunk i c₁).setChunk i c₂, hat,
          bind_of_ok (onChunk_ok (x := (entry.entryType, entry.sizeInBytes.toNat)) hc₁
            (by rw [hseek]; rfl)), hload, ?_⟩
        rw [getElem?_setChunk hc₁, hend]
        dsimp only [c₂]
        rw [hstop, ← hd]

end ChunkedBinaryStreamReader

/-! ## The calls -/

/-- What a call that reads an array asks for: the values it takes, the words they are stored in,
and the types of entries that it knows. -/
structure ArrayRead where
  entryID : BitVec 32
  dataCount : Nat
  words : Nat
  dataType : ChunkedBinaryDataType
  noPrediction : BitVec 32
  deltaPrediction : BitVec 32

/-- The type is one of the two. -/
def ArrayRead.IsType (a : ArrayRead) (t : BitVec 32) : Prop :=
  t = a.noPrediction ∨ t = a.deltaPrediction

namespace ReadCall

/-- The array of a call. -/
def array : ReadCall → Option ArrayRead
  | .readIntArray entryID dataCount => some ⟨entryID, dataCount, dataCount, .int32Array,
    entryTypeInt32ArrayNoPrediction, entryTypeInt32ArrayDeltaPrediction⟩
  | .readFloatArray entryID dataCount => some ⟨entryID, dataCount, dataCount + 1, .floatArray,
    entryTypeFloat32ArrayNoPrediction, entryTypeFloat32ArrayDeltaPrediction⟩
  | .clearCache => none

/-- The values that a call takes from the bytes of an entry of type `t`. -/
def Decodes (scale : BitVec 32 → BitVec 32 → BitVec 32) (t : BitVec 32) (bytes : List UInt8)
    (values : List (BitVec 32)) : ReadCall → Prop
  | .readIntArray _ _ => ∃ words, bytes = codec32.encodeAll words ∧
    (t = entryTypeInt32ArrayNoPrediction ∧ values = words ∨
      t = entryTypeInt32ArrayDeltaPrediction ∧ values = undelta 0 words)
  | .readFloatArray _ _ => ∃ units words, bytes = codec32.encodeAll (units :: words) ∧
    (t = entryTypeFloat32ArrayNoPrediction ∧ values = words.map (fun x => scale x units) ∨
      t = entryTypeFloat32ArrayDeltaPrediction ∧
        values = (undelta 0 words).map fun x => scale x units)
  | .clearCache => False

end ReadCall

/-- The bytes of an entry. -/
def entryBytes (bytes : List UInt8) (entry : BinaryChunkFileEntry) : List UInt8 :=
  (bytes.drop entry.positionInChunk.toNat).take entry.sizeInBytes.toNat

/-- What the checks of a call let through. -/
structure ArrayRead.Accepts (a : ArrayRead) (c : BinaryChunkFileChunk) (entry : BinaryChunkFileEntry) :
    Prop where
  size : entry.sizeInBytes.toNat = 4 * a.words
  inside : entry.positionInChunk.toNat + entry.sizeInBytes.toNat ≤ c.uncompressedDataSize.toNat
  type : a.dataCount ≠ 0 → a.IsType entry.entryType

theorem EntryAt.not_accepts {a : ArrayRead} (h : EntryAt lzma r₀ entryID i e c entry)
    (hn : ¬ a.Accepts c.chunk entry) : ∀ i' e' c' entry', EntryAt lzma r₀ entryID i' e' c' entry' →
      ¬ a.Accepts c'.chunk entry' := by
  intro i' e' c' entry' h'
  obtain ⟨-, -, rfl, rfl⟩ := h.unique h'
  exact hn

/-- A chunk that was moved to an entry within its data is at the words of the entry. -/
theorem positioned_of_data {pos n : Nat} (h : pos + 4 * n ≤ d.length) :
    Positioned (codec32.decodeAll n ((d.drop pos).take (4 * n)))
      { c with data := some d, currentReadPosition := pos, currentEndPosition := pos + 4 * n } := by
  have hlen : ((d.drop pos).take (4 * n)).length = 4 * n := by
    rw [List.length_take, List.length_drop]
    omega
  refine ⟨⟨d.take pos, d.drop (pos + 4 * n), ?_, ?_⟩, ?_⟩
  · rw [List.length_take]
    exact Nat.min_eq_left (by omega)
  · have henc : codec32.encodeAll (codec32.decodeAll n ((d.drop pos).take (4 * n))) =
        (d.drop pos).take (4 * n) := Codec.encodeAll_decodeAll_word hlen
    rw [henc, ← List.drop_drop, List.take_append_drop, List.take_append_drop]
    rfl
  · rw [Codec.length_decodeAll]

/-- The words of an entry within the data are its bytes. -/
theorem encodeAll_entryBytes {n : Nat} (hsize : entry.sizeInBytes.toNat = 4 * n)
    (hin : entry.positionInChunk.toNat + 4 * n ≤ d.length) :
    entryBytes d entry = codec32.encodeAll
      (codec32.decodeAll n ((d.drop entry.positionInChunk.toNat).take (4 * n))) := by
  have hlen : ((d.drop entry.positionInChunk.toNat).take (4 * n)).length = 4 * n := by
    rw [List.length_take, List.length_drop]
    omega
  unfold entryBytes
  rw [hsize]
  exact (Codec.encodeAll_decodeAll_word hlen).symm

namespace ChunkedBinaryStreamReader

/-- What a call that succeeds has read, from the data `d` of the chunk. -/
structure Gave (lzma : Lzma) (scale : BitVec 32 → BitVec 32 → BitVec 32)
    (r₀ : ChunkedBinaryStreamReader) (call : ReadCall) (a : ArrayRead) (i e : Nat)
    (c : ChunkedBinaryStreamReaderChunk) (entry : BinaryChunkFileEntry) (d : List UInt8)
    (values : List (BitVec 32)) : Prop where
  found : EntryAt lzma r₀ a.entryID i e c entry
  readable : a.Accepts c.chunk entry
  data : loadedData lzma r₀.importStream c.chunk = .ok d
  filled : values.length = a.dataCount
  decodes : a.dataCount ≠ 0 → call.Decodes scale entry.entryType (entryBytes d entry) values

theorem readIntArrayM_cases (scale : BitVec 32 → BitVec 32 → BitVec 32)
    (hs : SameButCache lzma r₀ r) (n : Nat) {a : ArrayRead}
    (ha : (ReadCall.readIntArray entryID n).array = some a) :
    (∃ i e c entry d values r', readIntArrayM lzma entryID n r = .ok values r' ∧
      Gave lzma scale r₀ (.readIntArray entryID n) a i e c entry d values) ∨
    ((∀ i e c entry, EntryAt lzma r₀ a.entryID i e c entry → ¬ a.Accepts c.chunk entry) ∧
      ∃ err r', readIntArrayM lzma entryID n r = .error err r') := by
  cases ha
  unfold readIntArrayM
  obtain ⟨i, e, c₀, entry, c, d, r', hat, hok, hd, hc⟩ | ⟨hnone, err, r', herr⟩ :=
    seekToEntryM_cases hs entryID
  · have hlen : d.length = c₀.chunk.uncompressedDataSize.toNat := length_loadedData hd
    have hstart := hat.start
    rw [bind_of_ok hok]
    dsimp only
    by_cases hmod : entry.sizeInBytes.toNat % 4 = 0
    · rw [require_bind hmod]
      by_cases hn : n = entry.sizeInBytes.toNat / 4
      · rw [require_bind hn]
        have hsize : entry.sizeInBytes.toNat = 4 * n := by omega
        by_cases hin : entry.positionInChunk.toNat + 4 * n ≤ d.length
        · have hp := positioned_of_data (c := c) hin
          rw [hsize] at hc
          have hcount := Codec.length_decodeAll codec32 n
            ((d.drop entry.positionInChunk.toNat).take (4 * n))
          obtain ⟨htype, vs, r'', hvs, hl, hval⟩ | ⟨htype, err, r'', herr⟩ :=
            readValuesM_cases hc hp entryTypeInt32ArrayNoPrediction
              entryTypeInt32ArrayDeltaPrediction entry.entryType
          · rw [hcount] at hvs hl htype hval
            refine .inl ⟨i, e, c₀, entry, d, vs, r'', hvs, hat, ⟨hsize, by omega, htype⟩, hd, hl,
              fun hne => ⟨_, encodeAll_entryBytes hsize hin, hval hne⟩⟩
          · rw [hcount] at herr htype
            exact .inr ⟨hat.not_accepts fun hr => htype hr.type, err, r'', herr⟩
        · have hne : n ≠ 0 := by omega
          have hshort := readValuesM_short (a := entryTypeInt32ArrayNoPrediction)
            (b := entryTypeInt32ArrayDeltaPrediction) (t := entry.entryType) hc hne
            (by rw [bytes, Option.getD_some]; dsimp only; omega)
          refine .inr ⟨hat.not_accepts fun hr => ?_, hshort⟩
          have := hr.inside
          omega
      · refine .inr ⟨hat.not_accepts fun hr => ?_, _, _, bind_of_error (require_of_neg hn _ _)⟩
        have hsize := hr.size
        dsimp only at hsize
        omega
    · refine .inr ⟨hat.not_accepts fun hr => ?_, _, _, bind_of_error (require_of_neg hmod _ _)⟩
      have hsize := hr.size
      dsimp only at hsize
      omega
  · exact .inr ⟨fun i e c entry h => absurd h (hnone i e c entry), err, r', bind_of_error herr⟩

theorem readFloatArrayM_cases (scale : BitVec 32 → BitVec 32 → BitVec 32)
    (hs : SameButCache lzma r₀ r) (n : Nat) {a : ArrayRead}
    (ha : (ReadCall.readFloatArray entryID n).array = some a) :
    (∃ i e c entry d values r', readFloatArrayM scale lzma entryID n r = .ok values r' ∧
      Gave lzma scale r₀ (.readFloatArray entryID n) a i e c entry d values) ∨
    ((∀ i e c entry, EntryAt lzma r₀ a.entryID i e c entry → ¬ a.Accepts c.chunk entry) ∧
      ∃ err r', readFloatArrayM scale lzma entryID n r = .error err r') := by
  cases ha
  unfold readFloatArrayM
  obtain ⟨i, e, c₀, entry, c, d, r', hat, hok, hd, hc⟩ | ⟨hnone, err, r', herr⟩ :=
    seekToEntryM_cases hs entryID
  · have hlen : d.length = c₀.chunk.uncompressedDataSize.toNat := length_loadedData hd
    have hstart := hat.start
    rw [bind_of_ok hok]
    dsimp only
    by_cases hchecks : entry.sizeInBytes.toNat % 4 = 0 ∧ 4 ≤ entry.sizeInBytes.toNat ∧
        n = (entry.sizeInBytes.toNat - 4) / 4
    · obtain ⟨hmod, hmin, hn⟩ := hchecks
      rw [require_bind hmod, require_bind hmin, require_bind hn]
      have hsize : entry.sizeInBytes.toNat = 4 * (n + 1) := by omega
      by_cases hin : entry.positionInChunk.toNat + 4 * (n + 1) ≤ d.length
      · have hp := positioned_of_data (c := c) hin
        have hbytes := encodeAll_entryBytes hsize hin
        have hcount := Codec.length_decodeAll codec32 (n + 1)
          ((d.drop entry.positionInChunk.toNat).take (4 * (n + 1)))
        rw [hsize] at hc
        -- the units come first
        obtain ⟨units, words, hwords⟩ := List.exists_cons_of_length_eq_add_one hcount
        rw [hwords] at hp hbytes hcount
        obtain ⟨hunits, hrest⟩ := hp.readInt32
        have hl : words.length = n := Nat.succ.inj hcount
        rw [bind_of_ok (onChunk_ok (f := fun c => c.readFloat) hc hunits)]
        obtain ⟨htype, vs, r'', hvs, hlen', hval⟩ | ⟨htype, err, r'', herr⟩ :=
          readValuesM_cases (getElem?_setChunk hc) hrest entryTypeFloat32ArrayNoPrediction
            entryTypeFloat32ArrayDeltaPrediction entry.entryType
        · rw [hl] at hvs hlen' htype hval
          rw [bind_of_ok hvs]
          refine .inl ⟨i, e, c₀, entry, d, _, r'', rfl, hat, ⟨hsize, by omega, htype⟩, hd,
            (List.length_map _).trans hlen', fun hne => ⟨units, words, hbytes, ?_⟩⟩
          obtain ⟨ht, rfl⟩ | ⟨ht, rfl⟩ := hval hne
          · exact .inl ⟨ht, rfl⟩
          · exact .inr ⟨ht, rfl⟩
        · rw [hl] at herr htype
          exact .inr ⟨hat.not_accepts fun hr => htype hr.type, err, r'', bind_of_error herr⟩
      · obtain ⟨err, herr⟩ := readInt32_short hc
          (by rw [bytes, Option.getD_some]; dsimp only; omega)
        refine .inr ⟨hat.not_accepts fun hr => ?_, err, r', bind_of_error herr⟩
        have := hr.inside
        omega
    · have hnot : ¬ ArrayRead.Accepts ⟨entryID, n, n + 1, .floatArray,
          entryTypeFloat32ArrayNoPrediction, entryTypeFloat32ArrayDeltaPrediction⟩ c₀.chunk
          entry := by
        intro hr
        have hsize := hr.size
        dsimp only at hsize
        exact hchecks ⟨by omega, by omega, by omega⟩
      refine .inr ⟨hat.not_accepts hnot, ?_⟩
      by_cases hmod : entry.sizeInBytes.toNat % 4 = 0
      · rw [require_bind hmod]
        by_cases hmin : 4 ≤ entry.sizeInBytes.toNat
        · rw [require_bind hmin]
          exact ⟨_, _, bind_of_error (require_of_neg (fun hn => hchecks ⟨hmod, hmin, hn⟩) _ _)⟩
        · exact ⟨_, _, bind_of_error (require_of_neg hmin _ _)⟩
      · exact ⟨_, _, bind_of_error (require_of_neg hmod _ _)⟩
  · exact .inr ⟨fun i e c entry h => absurd h (hnone i e c entry), err, r', bind_of_error herr⟩

/-- **A call that reads an array** succeeds where the entry passes its checks. -/
theorem read_cases (scale : BitVec 32 → BitVec 32 → BitVec 32) (hs : SameButCache lzma r₀ r) {call : ReadCall} {a : ArrayRead}
    (ha : call.array = some a) :
    (∃ i e c entry d values r', read scale lzma call r = .ok values r' ∧
      Gave lzma scale r₀ call a i e c entry d values) ∨
    ((∀ i e c entry, EntryAt lzma r₀ a.entryID i e c entry → ¬ a.Accepts c.chunk entry) ∧
      ∃ err r', read scale lzma call r = .error err r') := by
  cases call with
  | readIntArray entryID n => exact readIntArrayM_cases scale hs n ha
  | readFloatArray entryID n => exact readFloatArrayM_cases scale hs n ha
  | clearCache => cases ha

/-- The type that `getInformation` reports. -/
theorem getInformation_eq {e : Nat} (h : c.chunkEntries[e]? = some entry) :
    c.getInformation e =
      if entry.entryType = entryTypeInt32ArrayNoPrediction ∨
          entry.entryType = entryTypeInt32ArrayDeltaPrediction then
        if entry.sizeInBytes.toNat % 4 ≠ 0 then .error .invalidChunkData
        else .ok (.int32Array, entry.sizeInBytes.toNat / 4)
      else if entry.entryType = entryTypeFloat32ArrayNoPrediction ∨
          entry.entryType = entryTypeFloat32ArrayDeltaPrediction then
        if entry.sizeInBytes.toNat < 4 then .error .invalidChunkData
        else if entry.sizeInBytes.toNat % 4 ≠ 0 then .error .invalidChunkData
        else .ok (.floatArray, (entry.sizeInBytes.toNat - 4) / 4)
      else .ok (.unknown, 0) := by
  unfold getInformation
  rw [h]

/-- **The count that is reported** is the one of the call where the type is. -/
theorem getTypedChunkEntryCount_iff (hs : SameButCache lzma r₀ r) {call : ReadCall} {a : ArrayRead}
    (ha : call.array = some a) (h : EntryAt lzma r₀ a.entryID i e c entry)
    (hsize : entry.sizeInBytes.toNat = 4 * a.words) :
    r.getTypedChunkEntryCount a.entryID a.dataType = .ok a.dataCount ↔
      a.IsType entry.entryType := by
  have hlt : i < r.chunks.length := by
    rw [hs.length]
    exact (List.getElem?_eq_some_iff.1 h.chunk).1
  have hchunk := List.getElem?_eq_getElem hlt
  have hfind : r.findChunkByEntry a.entryID = .ok (i, r.chunks[i], e) :=
    findChunkByEntry_eq_ok.2 ⟨hs.map ▸ h.find, hchunk⟩
  have hlisted : (r.chunks[i]).chunkEntries[e]? = some entry := by
    rw [(hs.chunk i c _ h.chunk hchunk).entries]
    exact h.listed
  unfold getTypedChunkEntryCount
  rw [hfind]
  show ((r.chunks[i]).getInformation e >>= _) = _ ↔ _
  rw [getInformation_eq hlisted]
  cases call with
  | readIntArray entryID n =>
    cases ha
    unfold ArrayRead.IsType
    dsimp only at hsize ⊢
    by_cases ht : entry.entryType = entryTypeInt32ArrayNoPrediction ∨
        entry.entryType = entryTypeInt32ArrayDeltaPrediction
    · rw [if_pos ht, if_neg (by omega), hsize, Nat.mul_div_cancel_left n (by decide)]
      exact iff_of_true rfl ht
    · rw [if_neg ht]
      refine iff_of_false (fun hok => ?_) ht
      split_ifs at hok <;> cases hok
  | readFloatArray entryID n =>
    cases ha
    unfold ArrayRead.IsType
    dsimp only at hsize ⊢
    by_cases hi : entry.entryType = entryTypeInt32ArrayNoPrediction ∨
        entry.entryType = entryTypeInt32ArrayDeltaPrediction
    · refine iff_of_false (fun hok => ?_) (fun ht => ?_)
      · rw [if_pos hi, if_neg (by omega)] at hok
        cases hok
      · obtain hi | hi := hi
        · rw [hi] at ht
          exact absurd ht (by decide)
        · rw [hi] at ht
          exact absurd ht (by decide)
    rw [if_neg hi]
    by_cases ht : entry.entryType = entryTypeFloat32ArrayNoPrediction ∨
        entry.entryType = entryTypeFloat32ArrayDeltaPrediction
    · have hcount : (4 * (n + 1) - 4) / 4 = n := by omega
      rw [if_pos ht, if_neg (by omega), if_neg (by omega), hsize, hcount]
      exact iff_of_true rfl ht
    · rw [if_neg ht]
      refine iff_of_false (fun hok => ?_) ht
      cases hok
  | clearCache => cases ha

end ChunkedBinaryStreamReader

/-! ## Every sequence of calls -/

/-- The values come from bytes of the entry that the decoder has produced. -/
def Genuine (lzma : Lzma) (scale : BitVec 32 → BitVec 32 → BitVec 32)
    (r₀ : ChunkedBinaryStreamReader) (call : ReadCall) (values : List (BitVec 32)) : Prop :=
  values ≠ [] → ∃ a i e c entry, call.array = some a ∧
    r₀.chunkMap.find? a.entryID.toNat = some (i, e) ∧ r₀.chunks[i]? = some c ∧
    c.chunkEntries[e]? = some entry ∧
    entry.positionInChunk.toNat + entry.sizeInBytes.toNat ≤
      (produced lzma r₀.importStream c.chunk).length ∧
    call.Decodes scale entry.entryType (entryBytes (produced lzma r₀.importStream c.chunk) entry)
      values

/-- What a call in the state `r` that does not throw has to give. -/
structure Delivers (lzma : Lzma) (scale : BitVec 32 → BitVec 32 → BitVec 32)
    (r₀ r : ChunkedBinaryStreamReader) (call : ReadCall) (values : List (BitVec 32)) : Prop where
  genuine : Genuine lzma scale r₀ call values
  filled : ∀ a, call.array = some a → values.length = a.dataCount
  count : ∀ a, call.array = some a →
    r.getTypedChunkEntryCount a.entryID a.dataType = .ok a.dataCount

/-- An entry of the size of the call, within its chunk: an empty one has the type of the call, and
of another one that has it the decoder has produced all bytes. -/
def Honest (lzma : Lzma) (r₀ : ChunkedBinaryStreamReader) (call : ReadCall) : Prop :=
  ∀ a i e c entry, call.array = some a → EntryAt lzma r₀ a.entryID i e c entry →
    entry.sizeInBytes.toNat = 4 * a.words →
    entry.positionInChunk.toNat + entry.sizeInBytes.toNat ≤ c.chunk.uncompressedDataSize.toNat →
    (a.dataCount = 0 → a.IsType entry.entryType) ∧
    (a.dataCount ≠ 0 → a.IsType entry.entryType →
      entry.positionInChunk.toNat + entry.sizeInBytes.toNat ≤
        (produced lzma r₀.importStream c.chunk).length)

/-- **One call**, whatever was read before. -/
theorem delivers_iff (hs : SameButCache lzma r₀ r) (call : ReadCall) :
    (∀ values r', ChunkedBinaryStreamReader.read scale lzma call r = .ok values r' →
      Delivers lzma scale r₀ r call values) ↔ Honest lzma r₀ call := by
  cases ha : call.array with
  | none =>
    refine iff_of_true (fun values r' h => ?_) (fun a i e c entry h => ?_)
    · cases call with
      | clearCache =>
        cases h
        exact ⟨fun hne => absurd rfl hne, fun a h => (nomatch h), fun a h => (nomatch h)⟩
      | readIntArray | readFloatArray => cases ha
    · rw [ha] at h
      cases h
  | some a =>
    obtain ⟨i, e, c, entry, d, values, r', hok, hgave⟩ | ⟨hnone, err, r', herr⟩ :=
      ChunkedBinaryStreamReader.read_cases scale hs ha
    · have hat := hgave.found
      have hr := hgave.readable
      have hcount := ChunkedBinaryStreamReader.getTypedChunkEntryCount_iff hs ha hat hr.size
      have hdata := loadedData_eq hgave.data
      constructor
      · intro h a' i' e' c' entry' ha' hat' hsize hin
        rw [ha] at ha'
        cases ha'
        obtain ⟨rfl, rfl, rfl, rfl⟩ := hat.unique hat'
        have hdel := h values r' hok
        refine ⟨fun _ => hcount.1 (hdel.count a ha), fun hne _ => ?_⟩
        have hvals : values ≠ [] := by
          intro hnil
          have hlen := hgave.filled
          rw [hnil] at hlen
          exact hne hlen.symm
        obtain ⟨a', i', e', c', entry', ha', hfind, hchunk, hlisted, hle, -⟩ := hdel.genuine hvals
        rw [ha] at ha'
        cases ha'
        rw [hat.find] at hfind
        cases hfind
        rw [hat.chunk] at hchunk
        cases hchunk
        rw [hat.listed] at hlisted
        cases hlisted
        exact hle
      · intro hhon vs r'' hvs
        rw [hok] at hvs
        cases hvs
        obtain ⟨hempty, hfull⟩ := hhon a i e c entry ha hat hr.size hr.inside
        have htype : a.IsType entry.entryType := by
          by_cases hz : a.dataCount = 0
          · exact hempty hz
          · exact hr.type hz
        refine ⟨fun hne => ?_, fun a' ha' => ?_, fun a' ha' => ?_⟩
        · have hnz : a.dataCount ≠ 0 := by
            rw [← hgave.filled]
            exact fun hz => hne (List.length_eq_zero_iff.1 hz)
          have hle := hfull hnz htype
          refine ⟨a, i, e, c, entry, ha, hat.find, hat.chunk, hat.listed, hle, ?_⟩
          have hdec := hgave.decodes hnz
          unfold entryBytes at hdec ⊢
          rwa [hdata, take_drop_fill hr.inside hle] at hdec
        · rw [ha] at ha'
          cases ha'
          exact hgave.filled
        · rw [ha] at ha'
          cases ha'
          exact hcount.2 htype
    · refine iff_of_true (fun values r'' h => ?_) (fun a' i e c entry ha' hat hsize hin => ?_)
      · rw [herr] at h
        cases h
      · rw [ha] at ha'
        cases ha'
        have hnot := hnone i e c entry hat
        have hbad : ¬ (a.dataCount ≠ 0 → a.IsType entry.entryType) :=
          fun ht => hnot ⟨hsize, hin, ht⟩
        rw [Classical.not_imp] at hbad
        exact ⟨fun hz => absurd hz hbad.1, fun _ ht => absurd ht hbad.2⟩

/-- **Every sequence of reads of every stream**: a call in a state that is reached gives what it
has to, or throws, exactly when it is honest. -/
theorem reads_iff {file : List UInt8} (hnew : ChunkedBinaryStreamReader.new file = .ok r₀)
    {calls : List ReadCall}
    (ht : Reaches (ChunkedBinaryStreamReader.afterRead scale lzma) r₀ calls r) (call : ReadCall) :
    (∀ values r', ChunkedBinaryStreamReader.read scale lzma call r = .ok values r' →
      Delivers lzma scale r₀ r call values) ↔ Honest lzma r₀ call := by
  have hempty : ∀ c ∈ r₀.chunks, c.data = none := by
    simp only [ChunkedBinaryStreamReader.new, bind_eq_ok] at hnew
    obtain ⟨stream, -, hread⟩ := hnew
    obtain ⟨-, hopen⟩ := readHeader_opens hread
    intro c hc
    rw [hopen.chunks] at hc
    obtain ⟨record, -, rfl⟩ := List.mem_map.1 hc
    rfl
  have hs : SameButCache lzma r₀ r :=
    ht.inv (SameButCache lzma r₀) (.refl hempty)
      (fun s a h _ => ChunkedBinaryStreamReader.keeps_read a s h) (guarded_true r₀ calls _)
  exact delivers_iff hs call

/-- A stream of one chunk of four bytes, compressed to one, with an array of one integer. -/
def shortFile : List UInt8 :=
  headerCodec.encode ⟨binaryChunkFileHeaderSign, binaryChunkFileHeaderVersion, 1, 52⟩ ++
    chunkCodec.encode ⟨1, 108, 124, 1, 1, 4⟩ ++ entryCodec.encode ⟨1, 1, 0, 4⟩ ++ [0, 0]

/-- A decoder that succeeds with the bytes `bytes`. -/
def constLzma (bytes : List UInt8) : Lzma where
  compress _ _ _ := none
  uncompress _ _ _ := some bytes

/-- The stream, opened. -/
def shortReader : ChunkedBinaryStreamReader :=
  ⟨shortFile, [⟨⟨1, 108, 124, 1, 1, 4⟩, [⟨1, 1, 0, 4⟩], none, 0, 0⟩], SortedMap.empty.insert 1 (0, 0)⟩

theorem new_shortFile : ChunkedBinaryStreamReader.new shortFile = .ok shortReader := by
  have h : (ChunkedBinaryStreamReader.new shortFile).toOption = some shortReader := by
    decide +kernel
  cases hx : ChunkedBinaryStreamReader.new shortFile with
  | error e =>
    rw [hx] at h
    cases h
  | ok r =>
    rw [hx] at h
    cases h
    rfl

theorem entryAt_shortReader (bytes : List UInt8) : EntryAt (constLzma bytes) shortReader 1 0 0
    ⟨⟨1, 108, 124, 1, 1, 4⟩, [⟨1, 1, 0, 4⟩], none, 0, 0⟩ ⟨1, 1, 0, 4⟩ := by
  refine ⟨by decide, rfl, rfl, ⟨fill 4 bytes, ?_⟩, by decide, by decide⟩
  have hlen : shortFile.length = 126 := by decide +kernel
  unfold loadedData
  dsimp only
  rw [if_pos (by decide)]
  simp only [guard_eq_ok, bind_eq_ok, readAt_eq_ok]
  refine ⟨by decide, by decide, _, ⟨?_, rfl⟩, _, ⟨?_, rfl⟩, rfl⟩
  · show 124 + 1 ≤ shortFile.length
    omega
  · show 124 + 1 + 1 ≤ shortFile.length
    omega

/-- After another read that has thrown, the integer is read from the four bytes. -/
theorem reads_shortFile : Honest (constLzma [1, 2, 3, 4]) shortReader (.readIntArray 1 1) ∧
    ∀ values r', ChunkedBinaryStreamReader.read (fun x _ => x)
      (constLzma [1, 2, 3, 4]) (.readIntArray 1 1)
      (run (ChunkedBinaryStreamReader.afterRead (fun x _ => x) (constLzma [1, 2, 3, 4])) shortReader
        [.readFloatArray 1 0]) = .ok values r' →
      Delivers (constLzma [1, 2, 3, 4]) (fun x _ => x) shortReader
        (run (ChunkedBinaryStreamReader.afterRead (fun x _ => x) (constLzma [1, 2, 3, 4]))
          shortReader [.readFloatArray 1 0]) (.readIntArray 1 1) values := by
  have hhonest : Honest (constLzma [1, 2, 3, 4]) shortReader (.readIntArray 1 1) := by
    intro a i e c entry ha hat _ _
    cases ha
    obtain ⟨rfl, rfl, rfl, rfl⟩ := (entryAt_shortReader [1, 2, 3, 4]).unique hat
    exact ⟨nofun, fun _ _ => by decide⟩
  exact ⟨hhonest, (reads_iff new_shortFile (reaches_run _ _) _).2 hhonest⟩

/-- **A decoder that produces nothing**, and reports success: the zeros of the buffer are read. -/
theorem short_read_not_delivers : ChunkedBinaryStreamReader.new shortFile = .ok shortReader ∧
    ¬ ∀ values r', ChunkedBinaryStreamReader.read (fun x _ => x) (constLzma [])
      (.readIntArray 1 1) shortReader = .ok values r' →
      Delivers (constLzma []) (fun x _ => x) shortReader shortReader (.readIntArray 1 1) values := by
  have hs : SameButCache (constLzma []) shortReader shortReader := by
    refine .refl fun c hc => ?_
    rw [List.mem_singleton.1 hc]
  refine ⟨new_shortFile, fun h => ?_⟩
  have hhon := (delivers_iff hs _).1 h
  obtain ⟨-, hfull⟩ := hhon _ _ _ _ _ rfl (entryAt_shortReader []) rfl (by decide)
  exact absurd (hfull nofun (.inl rfl)) (by decide)

end NMR
