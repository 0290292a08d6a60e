import Lib3MF.Common.ChunkedBinaryStream.Proof.WriterSession

/-!
# Runs of the writer in which calls throw

A call of `addIntArray` or `addFloatArray` that throws leaves the writer as it was exactly when it
is rejected before it takes an ID (`untouched_iff`). A session is a writer with what was added to
it; where every call is either accepted or rejected in time, the writer stays consistent and a
stream that it finishes gives all arrays back (`sessions_hold`), also when chunks could not be
compressed in between.
-/

namespace NMR

open Lib StoredArray
open ChunkedBinaryStreamWriter (intEntryType floatEntryType intWords finishChunkM beginChunkM
  finishWritingM addIntArrayM addFloatArrayM Discretizable discretized)

variable {lzma : Lzma} {uninit : Nat → BitVec 32} {platform : IntPlatform} {extra : Nat}
  {cs : Contents} {w w' : ChunkedBinaryStreamWriter} {arrays : List StoredArray}

/-! ## One call -/

namespace SessionCall

/-- Calls of `addIntArray` and `addFloatArray`. -/
def Adds : SessionCall → Prop
  | .addIntArray .. | .addFloatArray .. => True
  | _ => False

/-- The call is rejected by the checks that come first, or it passes the others. -/
def Accepted (platform : IntPlatform) (w : ChunkedBinaryStreamWriter) : SessionCall → Prop
  | .addIntArray data predictionType => w.Rejects data ∨ predictionType ≠ none
  | .addFloatArray data predictionType units =>
    (units.value ≤ 0 ∨ w.Rejects data) ∨
      ∃ xs p, data = some xs ∧ predictionType = some p ∧ Discretizable platform units.value p xs
  | _ => True

end SessionCall

/-- Data, entries, sizes and the ID counter are as before. -/
structure Untouched (w w' : ChunkedBinaryStreamWriter) : Prop where
  data : w'.currentChunkData = w.currentChunkData
  entries : w'.currentChunkEntries = w.currentChunkEntries
  chunk : w'.currentChunk = w.currentChunk
  counter : w'.elementIDCounter = w.elementIDCounter

theorem not_untouched_of_counter (h : w'.elementIDCounter = w.elementIDCounter + 1) :
    ¬ Untouched w w' := by
  intro hu
  have hc := hu.counter
  rw [h] at hc
  exact absurd hc (by simp)

/-- **One call that throws** leaves the writer as it was exactly when it is rejected in time. -/
theorem untouched_iff {c : SessionCall} (hc : c.Adds) :
    (∀ e w', ChunkedBinaryStreamWriter.call lzma uninit platform c w = .error e w' →
      Untouched w w') ↔ c.Accepted platform w := by
  have hsame : Untouched w w := ⟨rfl, rfl, rfl, rfl⟩
  cases c with
  | addIntArray data predictionType =>
    obtain ⟨hrej, e, he⟩ | ⟨hrej, hp, e, w₁, he, hid⟩ | ⟨xs, p, -, -, -, hp, w₁, hok, -⟩ :=
      ChunkedBinaryStreamWriter.addIntArrayM_cases lzma uninit w data predictionType
    · refine iff_of_true (fun e' w' h => ?_) (.inl hrej)
      rw [ChunkedBinaryStreamWriter.call, bind_of_error he] at h
      cases h
      exact hsame
    · refine iff_of_false (fun h => ?_) (not_or.2 ⟨hrej, not_not.2 hp⟩)
      exact not_untouched_of_counter hid (h e w₁ (bind_of_error he))
    · refine iff_of_true (fun e' w' h => ?_) (.inr (by rw [hp]; nofun))
      rw [ChunkedBinaryStreamWriter.call, bind_of_ok hok] at h
      cases h
  | addFloatArray data predictionType units =>
    obtain ⟨hrej, e, he⟩ | ⟨hrej, hp, e, w₁, he, hid⟩ | ⟨xs, p, -, -, hd, hp, hdis, w₁, hok, -⟩ :=
      ChunkedBinaryStreamWriter.addFloatArrayM_cases lzma uninit platform w data predictionType
        units
    · refine iff_of_true (fun e' w' h => ?_) (.inl hrej)
      rw [ChunkedBinaryStreamWriter.call, bind_of_error he] at h
      cases h
      exact hsame
    · refine iff_of_false (fun h => ?_) (not_or.2 ⟨hrej, hp⟩)
      exact not_untouched_of_counter hid (h e w₁ (bind_of_error he))
    · refine iff_of_true (fun e' w' h => ?_) (.inr ⟨xs, p, hd, hp, hdis⟩)
      rw [ChunkedBinaryStreamWriter.call, bind_of_ok hok] at h
      cases h
  | beginChunk | finishChunk | finishWriting => exact hc.elim

/-! ## The other calls -/

/-- `finishChunk` fails when the compression does, and leaves the entry table in the stream. -/
theorem finishChunkM_cases (lzma : Lzma) {c : BinaryChunkFileChunk} (hc : w.currentChunk = some c) :
    (∃ w', w.finishChunk lzma = .ok w' ∧ finishChunkM lzma w = .ok () w') ∨
    ∃ c' s e, ChunkedBinaryStreamWriter.writeEntryTable c w.currentChunkEntries w.exportStream =
        (c', s) ∧ ChunkedBinaryStreamWriter.writeData lzma c' w.currentChunkData s = .error e ∧
      finishChunkM lzma w = .error e { w with exportStream := s, currentChunk := some c' } := by
  unfold ChunkedBinaryStreamWriter.finishChunk finishChunkM
  rw [hc]
  dsimp only
  rcases ht : ChunkedBinaryStreamWriter.writeEntryTable c w.currentChunkEntries w.exportStream
    with ⟨c', s⟩
  dsimp only
  cases hd : ChunkedBinaryStreamWriter.writeData lzma c' w.currentChunkData s with
  | error e => exact .inr ⟨c', s, e, rfl, hd, rfl⟩
  | ok x => exact .inl ⟨_, rfl, rfl⟩

/-- A chunk that cannot be compressed stays open. -/
theorem Layout.failed (h : Layout lzma uninit extra cs w) {c c' : BinaryChunkFileChunk}
    {s : ExportStreamMemory} {e : Error} (hc : w.currentChunk = Option.some c)
    (ht : ChunkedBinaryStreamWriter.writeEntryTable c w.currentChunkEntries w.exportStream = (c', s))
    (hd : ChunkedBinaryStreamWriter.writeData lzma c' w.currentChunkData s = .error e) :
    ∃ extra', Layout lzma uninit extra' cs
      { w with exportStream := s, currentChunk := Option.some c' } := by
  cases hcur : cs.current with
  | none =>
    rw [h.none hcur] at hc
    cases hc
  | some arrays =>
    obtain ⟨c₁, hc₁, hopen⟩ := h.some arrays hcur
    rw [hc] at hc₁
    cases hc₁
    -- there are data to compress, so the entry table is not empty
    have hne : arrays ≠ [] := by
      intro he
      have hdata := hopen.data
      rw [he] at hdata
      unfold ChunkedBinaryStreamWriter.writeData at hd
      rw [hdata] at hd
      cases hd
    have hle : w.currentChunkEntries ≠ [] := by
      intro he
      have hlen := length_entries 0 arrays
      rw [← hopen.entries, he] at hlen
      exact hne (List.length_eq_zero_iff.1 hlen.symm)
    obtain ⟨hc', hb, hp⟩ := ChunkedBinaryStreamWriter.writeEntryTable_spec h.position hle ht
    obtain ⟨start, -, hrec⟩ := hopen.record
    refine ⟨extra + (entryCodec.encodeAll w.currentChunkEntries).length, h.finished, hp, ?_,
      h.counter, h.count, fun i arrays c hi hr => ?_, fun hn => ?_, fun as ha => ?_, h.words⟩
    · dsimp only
      rw [hb, List.length_append, h.length]
      omega
    · dsimp only
      rw [hb]
      exact (h.closed i arrays c hi hr).append
    · rw [hcur] at hn
      cases hn
    · rw [hcur] at ha
      cases ha
      refine ⟨c', rfl, ⟨BitVec.ofNat 64 w.exportStream.buffer.length, fun he => absurd he hne, ?_⟩,
        hopen.entries, hopen.data⟩
      rw [hc', hrec, hopen.entries, length_entries]

/-- `finishChunk`, if a chunk is open. -/
theorem finishOpenChunkM_cases (lzma : Lzma) (w : ChunkedBinaryStreamWriter) :
    (∃ w', w.finishOpenChunk lzma = .ok w' ∧
      doIf (w.currentChunk.isSome) (finishChunkM lzma) w = .ok () w') ∨
    ∃ c e w', w.currentChunk = some c ∧ finishChunkM lzma w = .error e w' ∧
      doIf (w.currentChunk.isSome) (finishChunkM lzma) w = .error e w' := by
  unfold ChunkedBinaryStreamWriter.finishOpenChunk
  cases hc : w.currentChunk with
  | none => exact .inl ⟨w, rfl, doIf_of_neg (by simp) _ _⟩
  | some c =>
    have hdo : doIf ((some c).isSome) (finishChunkM lzma) w = finishChunkM lzma w :=
      doIf_of_pos rfl _ _
    rw [hdo]
    obtain ⟨w', hok, hw'⟩ | ⟨c', s, e, -, -, he⟩ := finishChunkM_cases lzma hc
    · exact .inl ⟨w', hok, hw'⟩
    · exact .inr ⟨c, e, _, rfl, he, he⟩

/-- **`finishChunk`** finishes the open chunk, or leaves it open. -/
theorem Layout.finishChunkM (h : Layout lzma uninit extra cs w) :
    Ends (finishChunkM lzma w)
      (fun w' => Layout lzma uninit extra ⟨cs.chunks, Option.none⟩ w' ∧
        w'.currentChunk = Option.none)
      (fun w' => ∃ extra', Layout lzma uninit extra' cs w') := by
  cases hc : w.currentChunk with
  | none =>
    have he : NMR.ChunkedBinaryStreamWriter.finishChunkM lzma w = .error .noStreamChunkOpen w := by
      unfold ChunkedBinaryStreamWriter.finishChunkM
      rw [hc]
    rw [he]
    exact ⟨extra, h⟩
  | some c =>
    obtain ⟨w', hok, hw'⟩ | ⟨c', s, e, ht, hd, he⟩ := finishChunkM_cases lzma hc
    · rw [hw']
      refine h.finishOpenChunk ?_
      unfold ChunkedBinaryStreamWriter.finishOpenChunk
      rw [hc]
      exact hok
    · rw [he]
      exact h.failed hc ht hd

/-- **`beginChunk`.** -/
theorem Layout.beginChunkM (h : Layout lzma uninit extra cs w) :
    Ends (beginChunkM lzma uninit w) (fun w' => Layout lzma uninit extra cs.beginChunk w')
      (fun w' => ∃ extra', Layout lzma uninit extra' cs w') := by
  unfold ChunkedBinaryStreamWriter.beginChunkM
  rw [get_bind, require_bind h.finished]
  obtain ⟨w₁, hok, hdo⟩ | ⟨c, e, w₁, -, he, hdo⟩ := finishOpenChunkM_cases lzma w
  · rw [bind_of_ok hdo]
    refine h.beginChunk ?_
    simp only [ChunkedBinaryStreamWriter.beginChunk, guard_eq_ok, bind_eq_ok]
    exact ⟨by simp [h.finished], w₁, hok, rfl⟩
  · rw [bind_of_error hdo]
    have hfin := h.finishChunkM
    rwa [he] at hfin

theorem ofExcept_ok {f : ChunkedBinaryStreamWriter → Except Error ChunkedBinaryStreamWriter}
    (h : f w = .ok w') : ChunkedBinaryStreamWriter.ofExcept f w = .ok () w' := by
  unfold ChunkedBinaryStreamWriter.ofExcept
  rw [h]

/-- **`finishWriting`** leaves a stream of the chunks, or the last one open. -/
theorem Layout.finishWritingM (h : Layout lzma uninit extra cs w) :
    Ends (finishWritingM lzma w)
      (fun w' => w'.isFinished = true ∧ w'.currentChunk = Option.none ∧
        ∃ records, Written lzma uninit extra cs.chunks w'.exportStream.buffer records)
      (fun w' => ∃ extra', Layout lzma uninit extra' cs w') := by
  unfold ChunkedBinaryStreamWriter.finishWritingM
  rw [get_bind, doIf_of_pos h.finished]
  obtain ⟨w₁, h₁, hdo⟩ | ⟨c, e, w₁, -, he, hdo⟩ := finishOpenChunkM_cases lzma w
  · obtain ⟨hl, hcur⟩ := h.finishOpenChunk h₁
    obtain ⟨w₂, h₂⟩ := ChunkedBinaryStreamWriter.writeChunkTable_isOk hl.finished hcur
    obtain ⟨hw₂, -⟩ := ChunkedBinaryStreamWriter.writeChunkTable_spec hl.position h₂
    have hcur₂ : w₂.currentChunk = Option.none := by
      rw [hw₂]
      exact hcur
    obtain ⟨w₃, h₃⟩ := ChunkedBinaryStreamWriter.writeHeader_isOk (w := w₂)
      (by rw [hw₂]; exact hl.finished) hcur₂
    obtain ⟨-, -, hw₃, -⟩ := ChunkedBinaryStreamWriter.writeHeader_spec h₃
    rw [bind_of_ok hdo, bind_of_ok (ofExcept_ok h₂), bind_of_ok (ofExcept_ok h₃)]
    have hwritten {w' : ChunkedBinaryStreamWriter} (hw : w.finishWriting lzma = .ok w') :=
      h.finishWriting hw
    refine ⟨rfl, ?_, @hwritten { w₃ with isFinished := true } ?_⟩
    · dsimp only
      rw [hw₃]
      exact hcur₂
    · unfold ChunkedBinaryStreamWriter.finishWriting
      rw [h.finished]
      simp only [Bool.false_eq_true, if_false, bind_eq_ok]
      exact ⟨w₁, h₁, w₂, h₂, w₃, h₃, rfl⟩
  · rw [bind_of_error hdo]
    have hfin := h.finishChunkM
    rwa [he] at hfin

/-- **Adding an array** to the writer. -/
theorem Layout.adds (h : Layout lzma uninit extra cs w) {entryType : BitVec 32}
    {words : List (BitVec 32)} (hne : words ≠ [])
    (ha : ChunkedBinaryStreamWriter.Adds lzma uninit w w' entryType words) :
    Layout lzma uninit extra (cs.add ⟨cs.nextID, entryType, words⟩) w' := by
  obtain ⟨w₁, c, hbegin, hc, -, rfl⟩ := ha.added
  obtain ⟨cs₁, arrays, hadd, hid, hcs⟩ := h.open hbegin hc
  rw [← hcs, ← hid]
  exact (hadd.pushEntry hne rfl).1

/-! ## Sessions -/

/-- An array that was added, under the ID that was returned: the integers, or the floats in
units. -/
inductive AddedArray where
  | ints (entryID : BitVec 32) (data : List (BitVec 32))
  | floats (entryID : BitVec 32) (values : List Int) (units : NfFloat)

namespace AddedArray

/-- The array as it is stored. -/
def IsStored : AddedArray → StoredArray → Prop
  | .ints entryID data, a => ∃ p, a = ⟨entryID, intEntryType p, intWords p data⟩
  | .floats entryID values units, a =>
    ∃ p, a = ⟨entryID, floatEntryType p, units.bits :: intWords p (values.map (BitVec.ofInt 32))⟩

/-- The reader gives its length and its values. -/
def ComesBack (lzma : Lzma) (r : ChunkedBinaryStreamReader) : AddedArray → Prop
  | .ints entryID data => r.getTypedChunkEntryCount entryID .int32Array = .ok data.length ∧
    ∃ r', r.readIntArray lzma entryID data.length = .ok (data, r')
  | .floats entryID values units =>
    r.getTypedChunkEntryCount entryID .floatArray = .ok values.length ∧
    ∃ r', r.readFloatArray lzma entryID values.length =
      .ok (values.map fun v => (BitVec.ofInt 32 v).toInt * units.value, r')

end AddedArray

namespace SessionCall

/-- What a call that succeeds adds to the chunks. -/
def after (platform : IntPlatform) (cs : Contents) : SessionCall → Contents
  | .beginChunk => cs.beginChunk
  | .finishChunk | .finishWriting => ⟨cs.chunks, none⟩
  | .addIntArray (some data) (some p) => cs.add ⟨cs.nextID, intEntryType p, intWords p data⟩
  | .addFloatArray (some data) (some p) units => cs.add ⟨cs.nextID, floatEntryType p,
    units.bits :: intWords p ((discretized platform units.value p data).map (BitVec.ofInt 32))⟩
  | .addIntArray .. | .addFloatArray .. => cs

/-- The array that it has added, with the ID that it returns. -/
def added (platform : IntPlatform) : SessionCall → Option (BitVec 32) → List AddedArray
  | .addIntArray (some data) _, some entryID => [.ints entryID data]
  | .addFloatArray (some data) (some p) units, some entryID =>
    [.floats entryID (discretized platform units.value p data) units]
  | _, _ => []

end SessionCall

/-- A writer, its chunks, and the arrays that were added. -/
structure Session where
  writer : ChunkedBinaryStreamWriter
  contents : Contents
  added : List AddedArray

namespace Session

/-- A new writer. -/
def start (w : ChunkedBinaryStreamWriter) : Session := ⟨w, .empty, []⟩

/-- One call. When it throws nothing is added. -/
def step (lzma : Lzma) (uninit : Nat → BitVec 32) (platform : IntPlatform) (s : Session)
    (c : SessionCall) : Session :=
  match ChunkedBinaryStreamWriter.call lzma uninit platform c s.writer with
  | .ok entryID w => ⟨w, c.after platform s.contents, s.added ++ c.added platform entryID⟩
  | .error _ w => { s with writer := w }

/-- The invariant: the writer holds the chunks, or a stream of them, and they hold the arrays. -/
structure Holds (lzma : Lzma) (uninit : Nat → BitVec 32) (s : Session) : Prop where
  unfinished : s.writer.isFinished = false → ∃ extra, Layout lzma uninit extra s.contents s.writer
  finished : s.writer.isFinished = true → s.writer.currentChunk = none ∧
    ∃ extra records, Written lzma uninit extra s.contents.chunks s.writer.exportStream.buffer records
  numbered : s.contents.Numbered
  stored : List.Forall₂ AddedArray.IsStored s.added s.contents.chunks.flatten

variable {s : Session} {c : SessionCall}

theorem step_of_ok {entryID : Option (BitVec 32)}
    (h : ChunkedBinaryStreamWriter.call lzma uninit platform c s.writer = .ok entryID w) :
    s.step lzma uninit platform c =
      ⟨w, c.after platform s.contents, s.added ++ c.added platform entryID⟩ := by
  unfold step
  rw [h]

theorem step_of_error {e : Error}
    (h : ChunkedBinaryStreamWriter.call lzma uninit platform c s.writer = .error e w) :
    s.step lzma uninit platform c = { s with writer := w } := by
  unfold step
  rw [h]

/-- A call that throws leaves a writer of the same chunks. -/
theorem Holds.error (h : Holds lzma uninit s) (hw : ∃ extra, Layout lzma uninit extra s.contents w) :
    Holds lzma uninit { s with writer := w } := by
  obtain ⟨extra, hw⟩ := hw
  refine ⟨fun _ => ⟨extra, hw⟩, fun hf => ?_, h.numbered, h.stored⟩
  rw [hw.finished] at hf
  cases hf

/-- A call that opens or finishes a chunk, or the stream, keeps the arrays. -/
theorem Holds.same (h : Holds lzma uninit s)
    (hopen : w.isFinished = false → ∃ extra, Layout lzma uninit extra cs w)
    (hdone : w.isFinished = true → w.currentChunk = none ∧
      ∃ extra records, Written lzma uninit extra cs.chunks w.exportStream.buffer records)
    (hflat : cs.chunks.flatten = s.contents.chunks.flatten) :
    Holds lzma uninit ⟨w, cs, s.added ++ []⟩ := by
  refine ⟨hopen, hdone, fun k a hk => ?_, ?_⟩
  · dsimp only at hk
    rw [hflat] at hk
    exact h.numbered k a hk
  · dsimp only
    rw [hflat, List.append_nil]
    exact h.stored

/-- One array more. -/
theorem Holds.add (h : Holds lzma uninit s) {entryType : BitVec 32} {words : List (BitVec 32)}
    {x : AddedArray} (hf : s.writer.isFinished = false) (hne : words ≠ [])
    (ha : ChunkedBinaryStreamWriter.Adds lzma uninit s.writer w entryType words)
    (hx : x.IsStored ⟨s.writer.elementIDCounter, entryType, words⟩) :
    Holds lzma uninit
      ⟨w, s.contents.add ⟨s.contents.nextID, entryType, words⟩, s.added ++ [x]⟩ := by
  obtain ⟨extra, hl⟩ := h.unfinished hf
  have hadd := hl.adds hne ha
  rw [hl.counter] at hx
  refine ⟨fun _ => ⟨extra, hadd⟩, fun hf' => ?_, h.numbered.add _ _, ?_⟩
  · dsimp only at hf'
    rw [hadd.finished] at hf'
    cases hf'
  · dsimp only
    rw [Contents.flatten_add]
    exact List.rel_append h.stored (.cons hx .nil)

theorem chunks_finished (cs : Contents) : (⟨cs.chunks, none⟩ : Contents).chunks = cs.chunks := by
  rw [Contents.chunks, Option.toList_none, List.append_nil]

/-- The calls that add nothing, on a writer that is not finished. -/
theorem Holds.step_open (h : Holds lzma uninit s) (hc : ¬ c.Adds)
    (hf : s.writer.isFinished = false) : Holds lzma uninit (s.step lzma uninit platform c) := by
  obtain ⟨extra, hl⟩ := h.unfinished hf
  have hflat : (⟨s.contents.chunks, none⟩ : Contents).chunks.flatten =
      s.contents.chunks.flatten := by rw [chunks_finished]
  have hopen {cs : Contents} {w : ChunkedBinaryStreamWriter} (hw : Layout lzma uninit extra cs w) :
      w.isFinished = true → w.currentChunk = none ∧ ∃ extra records,
        Written lzma uninit extra cs.chunks w.exportStream.buffer records := by
    intro ht
    rw [hw.finished] at ht
    cases ht
  cases c with
  | beginChunk =>
    have hends := hl.beginChunkM
    cases hx : beginChunkM lzma uninit s.writer with
    | ok x w =>
      rw [hx] at hends
      rw [step_of_ok (bind_of_ok hx)]
      exact h.same (fun _ => ⟨extra, hends⟩) (hopen hends) (Contents.flatten_beginChunk _)
    | error e w =>
      rw [hx] at hends
      rw [step_of_error (bind_of_error hx)]
      exact h.error hends
  | finishChunk =>
    have hends := hl.finishChunkM
    cases hx : finishChunkM lzma s.writer with
    | ok x w =>
      rw [hx] at hends
      rw [step_of_ok (bind_of_ok hx)]
      exact h.same (fun _ => ⟨extra, hends.1⟩) (hopen hends.1) hflat
    | error e w =>
      rw [hx] at hends
      rw [step_of_error (bind_of_error hx)]
      exact h.error hends
  | finishWriting =>
    have hends := hl.finishWritingM
    cases hx : finishWritingM lzma s.writer with
    | ok x w =>
      rw [hx] at hends
      obtain ⟨hdone, hcur, records, hw⟩ := hends
      rw [step_of_ok (bind_of_ok hx)]
      refine h.same (fun hn => ?_) (fun _ => ⟨hcur, extra, records, ?_⟩) hflat
      · rw [hdone] at hn
        cases hn
      · rw [SessionCall.after, chunks_finished]
        exact hw
    | error e w =>
      rw [hx] at hends
      rw [step_of_error (bind_of_error hx)]
      exact h.error hends
  | addIntArray | addFloatArray => exact absurd trivial hc

/-- The same calls on a finished one. -/
theorem Holds.step_finished (h : Holds lzma uninit s) (hc : ¬ c.Adds)
    (hf : s.writer.isFinished = true) : Holds lzma uninit (s.step lzma uninit platform c) := by
  obtain ⟨hcur, hw⟩ := h.finished hf
  cases c with
  | beginChunk =>
    have he : beginChunkM lzma uninit s.writer = .error .streamWriterAlreadyFinished s.writer := by
      unfold ChunkedBinaryStreamWriter.beginChunkM
      rw [get_bind]
      exact bind_of_error (require_of_neg (by simp [hf]) _ _)
    rw [step_of_error (bind_of_error he)]
    exact h
  | finishChunk =>
    have he : finishChunkM lzma s.writer = .error .noStreamChunkOpen s.writer := by
      unfold ChunkedBinaryStreamWriter.finishChunkM
      rw [hcur]
    rw [step_of_error (bind_of_error he)]
    exact h
  | finishWriting =>
    have hok : finishWritingM lzma s.writer = .ok () s.writer := by
      unfold ChunkedBinaryStreamWriter.finishWritingM
      rw [get_bind]
      exact doIf_of_neg (by simp [hf]) _ _
    rw [step_of_ok (bind_of_ok hok)]
    refine h.same (fun hn => ?_) (fun _ => ⟨hcur, ?_⟩) (by rw [SessionCall.after, chunks_finished])
    · rw [hf] at hn
      cases hn
    · rw [SessionCall.after, chunks_finished]
      exact hw
  | addIntArray | addFloatArray => exact absurd trivial hc

/-- **The step lemma**: a call that adds nothing, or that is accepted, keeps the invariant. -/
theorem Holds.step (h : Holds lzma uninit s) (hc : c.Accepted platform s.writer) :
    Holds lzma uninit (s.step lzma uninit platform c) := by
  cases c with
  | addIntArray data predictionType =>
    obtain ⟨-, e, he⟩ | ⟨hrej, hp, -⟩ | ⟨xs, p, hne, hf, rfl, rfl, w, hok, hadds⟩ :=
      ChunkedBinaryStreamWriter.addIntArrayM_cases lzma uninit s.writer data predictionType
    · rw [step_of_error (bind_of_error he)]
      exact h
    · exact absurd hc (not_or.2 ⟨hrej, not_not.2 hp⟩)
    · have hwords : intWords p xs ≠ [] := by
        intro hnil
        have hlen := length_intWords p xs
        rw [hnil] at hlen
        exact hne (List.length_eq_zero_iff.1 hlen.symm)
      rw [step_of_ok (bind_of_ok hok)]
      exact h.add hf hwords hadds ⟨p, rfl⟩
  | addFloatArray data predictionType units =>
    obtain ⟨-, e, he⟩ | ⟨hrej, hp, -⟩ | ⟨xs, p, hne, hf, rfl, rfl, -, w, hok, hadds⟩ :=
      ChunkedBinaryStreamWriter.addFloatArrayM_cases lzma uninit platform s.writer data predictionType
        units
    · rw [step_of_error (bind_of_error he)]
      exact h
    · exact absurd hc (not_or.2 ⟨hrej, hp⟩)
    · rw [step_of_ok (bind_of_ok hok)]
      exact h.add hf (List.cons_ne_nil _ _) hadds ⟨p, rfl⟩
  | beginChunk | finishChunk | finishWriting =>
    cases hf : s.writer.isFinished with
    | false => exact h.step_open (by simp [SessionCall.Adds]) hf
    | true => exact h.step_finished (by simp [SessionCall.Adds]) hf

/-- A new writer. -/
theorem holds_start (h : ChunkedBinaryStreamWriter.new = .ok w) : Holds lzma uninit (start w) := by
  have hl : Layout lzma uninit 0 .empty w := layout_new h
  refine ⟨fun _ => ⟨0, hl⟩, fun hf => ?_, fun k a hk => ?_, .nil⟩
  · rw [start, hl.finished] at hf
    cases hf
  · simp [start, Contents.empty, Contents.chunks] at hk

end Session

/-! ## What a session keeps -/

/-- Entries one after the other, from a position to `stop`. -/
def Contiguous (stop : BitVec 32) : BitVec 32 → List BinaryChunkFileEntry → Prop
  | pos, [] => pos = stop
  | pos, entry :: entries =>
    entry.positionInChunk = pos ∧ Contiguous stop (pos + entry.sizeInBytes) entries

/-- The size of the open chunk is the one of its data, and its entries fill it. -/
structure Consistent (w : ChunkedBinaryStreamWriter) : Prop where
  size : ∀ c, w.currentChunk = some c →
    c.uncompressedDataSize = BitVec.ofNat 32 (4 * w.currentChunkData.length)
  contiguous : ∀ c, w.currentChunk = some c →
    Contiguous c.uncompressedDataSize 0 w.currentChunkEntries

theorem contiguous_entries (pos : Nat) (arrays : List StoredArray) :
    Contiguous (BitVec.ofNat 32 (pos + totalSize arrays)) (BitVec.ofNat 32 pos)
      (entries pos arrays) := by
  induction arrays generalizing pos with
  | nil => rfl
  | cons a arrays ih =>
    have hsum : pos + totalSize (a :: arrays) = pos + a.size + totalSize arrays := by
      rw [totalSize, List.map_cons, List.sum_cons, ← Nat.add_assoc, totalSize]
    refine ⟨rfl, ?_⟩
    dsimp only
    rw [hsum, ← BitVec.ofNat_add]
    exact ih (pos + a.size)

theorem totalSize_eq (arrays : List StoredArray) :
    totalSize arrays = 4 * (arrays.flatMap words).length := by
  rw [← length_chunkBytes, chunkBytes, codec32.length_encodeAll, size_codec32]

/-- The invariant makes the writer consistent. -/
theorem Session.Holds.consistent {s : Session} (h : s.Holds lzma uninit) : Consistent s.writer := by
  have hopen : ∀ c, s.writer.currentChunk = some c → ∃ garbage arrays, Opened garbage arrays c
      s.writer := by
    intro c hc
    cases hf : s.writer.isFinished with
    | true =>
      rw [(h.finished hf).1] at hc
      cases hc
    | false =>
      obtain ⟨extra, hl⟩ := h.unfinished hf
      cases hcur : s.contents.current with
      | none =>
        rw [hl.none hcur] at hc
        cases hc
      | some arrays =>
        obtain ⟨c', hc', hopened⟩ := hl.some arrays hcur
        rw [hc] at hc'
        cases hc'
        exact ⟨_, arrays, hopened⟩
  refine ⟨fun c hc => ?_, fun c hc => ?_⟩
  · obtain ⟨_, arrays, hopened⟩ := hopen c hc
    obtain ⟨start, -, hrec⟩ := hopened.record
    rw [hrec, hopened.data, totalSize_eq]
  · obtain ⟨_, arrays, hopened⟩ := hopen c hc
    obtain ⟨start, -, hrec⟩ := hopened.record
    have hcon := contiguous_entries 0 arrays
    rw [Nat.zero_add] at hcon
    rw [hrec, hopened.entries]
    exact hcon

/-- The number of floats of an entry. -/
theorem getInformation_float {c : ChunkedBinaryStreamReaderChunk} {e : Nat}
    {entry : BinaryChunkFileEntry} {p : ChunkedBinaryPredictionType} {n : Nat}
    (he : c.chunkEntries[e]? = some entry) (ht : entry.entryType = floatEntryType p)
    (hs : entry.sizeInBytes.toNat = 4 * (n + 1)) : c.getInformation e = .ok (.floatArray, n) := by
  unfold ChunkedBinaryStreamReaderChunk.getInformation
  rw [he]
  dsimp only
  rw [if_neg (by rw [ht]; cases p <;> decide), if_pos (by rw [ht]; cases p <;> decide),
    if_neg (by omega), if_neg (by omega), hs]
  congr
  omega

/-- **A stored array is read back** from a stream that fits. -/
theorem Written.comesBack {chunks : List (List StoredArray)} {file : List UInt8}
    {records : List BinaryChunkFileChunk} {r r' : ChunkedBinaryStreamReader} {x : AddedArray}
    {a : StoredArray} (h : Written lzma uninit extra chunks file records) (hl : lzma.Lossless)
    (hf : file.length ≤ importStreamMaxMemStreamSize) (hfit : Fits lzma uninit chunks)
    (hopen : Opens file (records.take (visible chunks)) r) (hs : SameButCache lzma r r')
    (ha : a ∈ chunks.flatten) (hx : x.IsStored a) : x.ComesBack lzma r' := by
  obtain ⟨i, e, arrays, hi, he⟩ := exists_place ha
  obtain ⟨c, hfind, hent, c', hseek, hp⟩ := h.seekToEntry hl hf hfit hopen hs hi he
  have hentry : c.chunkEntries[e]? = some ⟨a.id, a.entryType,
      BitVec.ofNat 32 (0 + totalSize (arrays.take e)), BitVec.ofNat 32 a.size⟩ := by
    rw [hent]
    exact getElem?_entries he 0
  have hsize := hfit.sizeInBytes hi he
  cases x with
  | ints entryID data =>
    obtain ⟨p, rfl⟩ := hx
    have hlen : (⟨entryID, intEntryType p, intWords p data⟩ : StoredArray).size =
        4 * data.length := by rw [size, length_intWords]
    have hinfo : c.getInformation e = .ok (.int32Array, data.length) :=
      getInformation_int hentry rfl (hsize.trans hlen)
    rw [hlen] at hseek
    refine ⟨?_, readIntArray_of_seek hseek hp⟩
    simp only [ChunkedBinaryStreamReader.getTypedChunkEntryCount, guard_eq_ok, bind_eq_ok,
      pure_eq_ok, Prod.exists]
    exact ⟨i, c, e, hfind, _, _, hinfo, by simp, rfl⟩
  | floats entryID values units =>
    obtain ⟨p, rfl⟩ := hx
    have hlen : (⟨entryID, floatEntryType p, units.bits :: intWords p (values.map
        (BitVec.ofInt 32))⟩ : StoredArray).size = 4 * (values.length + 1) := by
      rw [size, List.length_cons, length_intWords, List.length_map]
    have hinfo : c.getInformation e = .ok (.floatArray, values.length) :=
      getInformation_float hentry rfl (hsize.trans hlen)
    rw [hlen, ← List.length_map (BitVec.ofInt 32)] at hseek
    obtain ⟨r'', hr⟩ := readFloatArray_of_seek hseek hp
    rw [List.length_map, List.map_map] at hr
    refine ⟨?_, r'', hr⟩
    simp only [ChunkedBinaryStreamReader.getTypedChunkEntryCount, guard_eq_ok, bind_eq_ok,
      pure_eq_ok, Prod.exists]
    exact ⟨i, c, e, hfind, _, _, hinfo, by simp, rfl⟩

namespace Session

/-- The reader opens the stream, and every array comes back, whatever was read before. -/
def ReadsBack (lzma : Lzma) (s : Session) : Prop :=
  ∃ r, ChunkedBinaryStreamReader.new s.writer.exportStream.buffer = .ok r ∧
    ∀ r', AfterReads lzma r r' → ∀ x ∈ s.added, x.ComesBack lzma r'

/-- A stream that is finished and within the limits of the reader gives everything back. -/
theorem Holds.readsBack {s : Session} (h : s.Holds lzma uninit) (hl : lzma.Lossless)
    (hdone : s.writer.isFinished = true)
    (hf : s.writer.exportStream.buffer.length ≤ importStreamMaxMemStreamSize)
    (hfit : Fits lzma uninit s.contents.chunks) : s.ReadsBack lzma := by
  obtain ⟨-, extra, records, hw⟩ := h.finished hdone
  obtain ⟨r, hnew⟩ := hw.new_total hf hfit (h.numbered.nodup_iff.2 hfit.count)
  obtain ⟨-, -, hopen⟩ := hw.opens hnew
  refine ⟨r, hnew, fun r' hr' x hx => ?_⟩
  have hsame := hr'.sameButCache fun c hc => by
    rw [hopen.chunks] at hc
    obtain ⟨rec, -, rfl⟩ := List.mem_map.1 hc
    rfl
  obtain ⟨a, ha, hstored⟩ := forall₂_mem h.stored hx
  exact hw.comesBack hl hf hfit hopen hsame ha hstored

end Session

/-- **In a session whose arrays are all accepted, or rejected in time**, the writer is consistent
in every state, a call that throws leaves it as it was, and a finished stream gives all arrays
back. -/
theorem sessions_hold (hl : lzma.Lossless) {w₀ : ChunkedBinaryStreamWriter}
    (hnew : ChunkedBinaryStreamWriter.new = .ok w₀) {calls : List SessionCall}
    (hg : Guarded (Session.step lzma uninit platform) (fun s c => c.Accepted platform s.writer)
      (.start w₀) calls) {t : Session}
    (ht : Reaches (Session.step lzma uninit platform) (.start w₀) calls t) :
    Consistent t.writer ∧
      (∀ c : SessionCall, c.Adds →
        ((∀ e w', ChunkedBinaryStreamWriter.call lzma uninit platform c t.writer = .error e w' →
          Untouched t.writer w') ↔ c.Accepted platform t.writer)) ∧
      (t.writer.isFinished = true →
        t.writer.exportStream.buffer.length ≤ importStreamMaxMemStreamSize →
        Fits lzma uninit t.contents.chunks → t.ReadsBack lzma) := by
  have h : t.Holds lzma uninit :=
    ht.inv (Session.Holds lzma uninit) (Session.holds_start hnew) (fun _ _ hs hc => hs.step hc) hg
  exact ⟨h.consistent, fun _ hc => untouched_iff hc, h.readsBack hl⟩

/-- A new writer, as its constructor leaves it. -/
theorem new_spec : ∃ w₀ stream, ChunkedBinaryStreamWriter.new = .ok w₀ ∧
    w₀ = ⟨stream, 1, false, 0, true, [], none, [], []⟩ := by
  have hnew : ∃ w₀, ChunkedBinaryStreamWriter.new = .ok w₀ :=
    ChunkedBinaryStreamWriter.writeHeader_isOk rfl rfl
  obtain ⟨w₀, hnew⟩ := hnew
  obtain ⟨-, -, hw, -⟩ := ChunkedBinaryStreamWriter.writeHeader_spec hnew
  exact ⟨w₀, w₀.exportStream, hnew, hw⟩

/-- An array that is stored, and one that is rejected. -/
theorem sessions_hold_unitOne : ∃ w₀, ChunkedBinaryStreamWriter.new = .ok w₀ ∧
    Consistent (run (Session.step unitLzma (fun _ => 0) intAbs) (.start w₀)
      [.addFloatArray (some [sampleFloat]) (some .noPrediction) unitOne,
        .addIntArray none none]).writer := by
  obtain ⟨w₀, -, hnew, -⟩ := new_spec
  have hin : Discretizable intAbs unitOne.value .noPrediction [sampleFloat] := by
    intro x hx
    rw [List.mem_singleton.1 hx]
    decide +kernel
  have hguard : Guarded (Session.step unitLzma (fun _ => 0) intAbs)
      (fun s c => c.Accepted intAbs s.writer) (.start w₀)
      [.addFloatArray (some [sampleFloat]) (some .noPrediction) unitOne,
        .addIntArray none none] :=
    ⟨.inr ⟨_, _, rfl, rfl, hin⟩, .inl (.inr (.inl rfl)), trivial⟩
  exact ⟨w₀, hnew, (sessions_hold unitLzma_lossless hnew hguard (reaches_run _ _)).1⟩

/-- The float 1.5e9, which is out of range in units of 1. -/
def largeFloat : NfFloat := ⟨0x4EB2D05E, by decide⟩

theorem value_largeFloat : largeFloat.value / unitOne.value = 1500000000 := by decide +kernel

/-- The check of that float fails, whatever the build. -/
theorem discretize_largeFloat (platform : IntPlatform) :
    ChunkedBinaryStreamWriter.discretize platform (largeFloat.value / unitOne.value) =
      .error .binaryChunkDiscretizationValueOutOfRange := by
  have hvalue : platform.toInt 64 (1500000000 : ℚ) = 1500000000 := by
    have htrunc : truncate (1500000000 : ℚ) = 1500000000 := by decide +kernel
    unfold IntPlatform.toInt
    rw [htrunc, if_pos (by decide)]
  have habs : platform.abs 1500000000 = 1500000000 := platform.abs_int _ (by decide) (by decide)
  unfold ChunkedBinaryStreamWriter.discretize
  rw [value_largeFloat, hvalue]
  dsimp only
  rw [habs]
  exact if_pos (by decide)

/-- What the call leaves. -/
theorem addFloatArray_largeFloat (platform : IntPlatform) :
    ∃ w₀ e w', ChunkedBinaryStreamWriter.new = .ok w₀ ∧
      ChunkedBinaryStreamWriter.call unitLzma (fun _ => 0) platform
        (.addFloatArray (some [largeFloat]) (some .noPrediction) unitOne) w₀ = .error e w' ∧
      ¬ Untouched w₀ w' ∧ ¬ Consistent w' := by
  obtain ⟨w₀, stream, hnew, hw⟩ := new_spec
  have hpos : ¬ unitOne.value ≤ 0 := by decide +kernel
  let w' : ChunkedBinaryStreamWriter := ⟨stream, 2, false, 0, false, [],
    some ⟨0, 0, 0, 0, 0, 0⟩, [], [unitOne.bits]⟩
  have hpush : ChunkedBinaryStreamWriter.pushFloats platform unitOne.value .noPrediction
      [largeFloat] w' = .error .binaryChunkDiscretizationValueOutOfRange w' :=
    bind_of_error (bind_of_error
      (ChunkedBinaryStreamWriter.discretizeM_error (discretize_largeFloat platform)))
  refine ⟨w₀, .binaryChunkDiscretizationValueOutOfRange, w', hnew, bind_of_error ?_, ?_, ?_⟩
  · subst hw
    unfold ChunkedBinaryStreamWriter.addFloatArrayM
    rw [require_bind hpos]
    have hend := bind_of_error (f := fun _ => ChunkedBinaryStreamWriter.endArray 1
      (floatEntryType .noPrediction) 8) hpush
    exact hend
  · subst hw
    exact not_untouched_of_counter rfl
  · intro hcon
    have hsize := hcon.size _ rfl
    exact absurd hsize (by decide : ¬ (0 : BitVec 32) = BitVec.ofNat 32 (4 * 1))

/-- **A float out of range leaves the unit in the data**, and takes an ID, with the `abs` of `int`
and with that of 64 bits. -/
theorem addFloatArray_touches :
    (∃ w₀ e w', ChunkedBinaryStreamWriter.new = .ok w₀ ∧
      ChunkedBinaryStreamWriter.call unitLzma (fun _ => 0) intAbs
        (.addFloatArray (some [largeFloat]) (some .noPrediction) unitOne) w₀ = .error e w' ∧
      ¬ Untouched w₀ w' ∧ ¬ Consistent w') ∧
    ∃ w₀ e w', ChunkedBinaryStreamWriter.new = .ok w₀ ∧
      ChunkedBinaryStreamWriter.call unitLzma (fun _ => 0) int64Abs
        (.addFloatArray (some [largeFloat]) (some .noPrediction) unitOne) w₀ = .error e w' ∧
      ¬ Untouched w₀ w' ∧ ¬ Consistent w' :=
  ⟨addFloatArray_largeFloat intAbs, addFloatArray_largeFloat int64Abs⟩

end NMR
