import Lib3MF.Lib.Run
import Lib3MF.Lib.State
import Lib3MF.Common.Platform.ZIPSession

/-!
# Streams of closed entries

In every state a run of the ZIP writer can reach, only the stream of the current entry is still
initialized (`Quiet`), so that a write to any other is rejected, and nothing is changed by it
(`writeStream_rejected`). This is so in both modes, whatever was thrown before.
-/

namespace NMR

open Lib PortableZIPWriter

variable {σ : Type} {d : Deflate σ} {z z' : PortableZIPWriter σ}

/-! ## One step of a function -/

theorem zip_get_bind {α : Type} (f : PortableZIPWriter σ → ZIPWriterM σ α) (z : PortableZIPWriter σ) :
    (get >>= f) z = f z z := rfl

theorem seek_ok {f : ExportStreamMemory → Except Error ExportStreamMemory} {s : ExportStreamMemory}
    (h : f z.exportStream = .ok s) : seek f z = .ok () { z with exportStream := s } := by
  rw [seek, zip_get_bind]
  simp only [h]
  rfl

theorem seek_error {f : ExportStreamMemory → Except Error ExportStreamMemory} {e : Error}
    (h : f z.exportStream = .error e) : seek f z = .error (.thrown e) z := by
  rw [seek, zip_get_bind]
  simp only [h]
  rfl

/-- What the functions between the opening and the closing of an entry leave alone. -/
structure SameStreams (z z' : PortableZIPWriter σ) : Prop where
  streams : z'.streams = z.streams
  currentStream : z'.currentStream = z.currentStream
  currentEntry : z'.currentEntry = none ↔ z.currentEntry = none
  entries : z'.entries = z.entries
  writeZIP64 : z'.writeZIP64 = z.writeZIP64
  isFinished : z'.isFinished = z.isFinished

namespace SameStreams

theorem refl (z : PortableZIPWriter σ) : SameStreams z z := ⟨rfl, rfl, Iff.rfl, rfl, rfl, rfl⟩

theorem trans (z₁ z₂ z₃ : PortableZIPWriter σ) (h : SameStreams z₁ z₂) (h' : SameStreams z₂ z₃) :
    SameStreams z₁ z₃ :=
  ⟨h'.streams.trans h.streams, h'.currentStream.trans h.currentStream,
    h'.currentEntry.trans h.currentEntry, h'.entries.trans h.entries,
    h'.writeZIP64.trans h.writeZIP64, h'.isFinished.trans h.isFinished⟩

theorem write (bytes : List UInt8) :
    Frames SameStreams (PortableZIPWriter.write bytes : ZIPWriterM σ Unit) :=
  fun _ => ⟨rfl, rfl, Iff.rfl, rfl, rfl, rfl⟩

theorem seek (f : ExportStreamMemory → Except Error ExportStreamMemory) :
    Frames SameStreams (PortableZIPWriter.seek f : ZIPWriterM σ Unit) := by
  intro z
  cases h : f z.exportStream with
  | error e => rw [seek_error h]; exact refl z
  | ok s => rw [seek_ok h]; exact ⟨rfl, rfl, Iff.rfl, rfl, rfl, rfl⟩

theorem calculateChecksum (key : BitVec 32) (bytes : List UInt8) :
    Frames SameStreams (PortableZIPWriter.calculateChecksum key bytes : ZIPWriterM σ Unit) := by
  intro z
  rw [PortableZIPWriter.calculateChecksum, zip_get_bind]
  cases h : z.currentEntry with
  | none => exact refl z
  | some e =>
    by_cases hk : key ≠ z.currentEntryKey
    · simp only [if_pos hk]
      exact refl z
    · simp only [if_neg hk]
      exact ⟨rfl, rfl, by rw [h]; exact ⟨nofun, nofun⟩, rfl, rfl, rfl⟩

theorem writeDeflatedBuffer (key : BitVec 32) (bytes : List UInt8) :
    Frames SameStreams (PortableZIPWriter.writeDeflatedBuffer key bytes : ZIPWriterM σ Unit) := by
  intro z
  rw [PortableZIPWriter.writeDeflatedBuffer, zip_get_bind]
  cases h : z.currentEntry with
  | none => exact refl z
  | some e =>
    by_cases hk : key ≠ z.currentEntryKey
    · simp only [if_pos hk]
      exact refl z
    · simp only [if_neg hk]
      exact ⟨rfl, rfl, by rw [h]; exact ⟨nofun, nofun⟩, rfl, rfl, rfl⟩

theorem putByte (s : ExportStreamZIP σ) (b : UInt8) : Frames SameStreams (s.putByte b) := by
  unfold ExportStreamZIP.putByte
  split
  · exact Frames.bind trans (writeDeflatedBuffer _ _) fun _ => Frames.pure refl _
  · exact Frames.pure refl _

theorem writeChunk (d : Deflate σ) (s : ExportStreamZIP σ) (bytes : List UInt8) :
    Frames SameStreams (s.writeChunk d bytes) :=
  Frames.bind trans (calculateChecksum _ _) fun _ => Frames.foldlM refl trans putByte _ _

theorem writeBuffer (d : Deflate σ) (s : ExportStreamZIP σ) (bytes : List UInt8) :
    Frames SameStreams (s.writeBuffer d bytes) := by
  unfold ExportStreamZIP.writeBuffer
  split
  · exact Frames.foldlM refl trans (writeChunk d) _ _
  · exact Frames.throw refl _

theorem flushZIPStream (d : Deflate σ) (s : ExportStreamZIP σ) :
    Frames SameStreams (s.flushZIPStream d) := by
  unfold ExportStreamZIP.flushZIPStream
  split
  · refine Frames.bind trans (Frames.foldlM refl trans putByte _ _) fun s => ?_
    refine Frames.bind trans ?_ fun _ => Frames.pure refl _
    unfold ExportStreamZIP.writeRest
    split
    · exact writeDeflatedBuffer _ _
    · exact Frames.pure refl _
  · exact Frames.throw refl _

theorem patchHeader (e : PortableZIPWriterEntry) :
    Frames SameStreams (PortableZIPWriter.patchHeader e : ZIPWriterM σ Unit) := by
  refine Frames.bind trans (Frames.get refl) fun z => ?_
  refine Frames.bind trans (seek _) fun _ => Frames.bind trans (write _) fun _ => ?_
  split
  · refine Frames.bind trans (seek _) fun _ => Frames.bind trans (write _) fun _ => seek _
  · exact seek _

end SameStreams

/-! ## The streams that are still initialized -/

/-- Only the stream of the current entry is initialized. -/
structure Quiet (z : PortableZIPWriter σ) : Prop where
  initialized : ∀ i s, z.streams[i]? = some s → s.isInitialized = true → z.currentStream = some i
  currentStream : z.currentEntry = none → z.currentStream = none

theorem Quiet.of_same (h : SameStreams z z') (hq : Quiet z) : Quiet z' where
  initialized i s hs hi := by
    rw [h.streams] at hs
    rw [h.currentStream]
    exact hq.initialized i s hs hi
  currentStream hc := h.currentStream.trans (hq.currentStream (h.currentEntry.1 hc))

/-- No stream is initialized. -/
def AllFinished (z : PortableZIPWriter σ) : Prop :=
  ∀ (i : Nat) (s : ExportStreamZIP σ), z.streams[i]? = some s → s.isInitialized = false

theorem AllFinished.of_same (h : z'.streams = z.streams) (ha : AllFinished z) :
    AllFinished z' := by
  intro i s hs
  rw [h] at hs
  exact ha i s hs

theorem AllFinished.quiet (h : AllFinished z) (hc : z.currentEntry = none → z.currentStream = none) :
    Quiet z :=
  ⟨fun i s hs hi => absurd hi (by rw [h i s hs]; exact Bool.false_ne_true), hc⟩

theorem Quiet.allFinished (h : Quiet z) (hc : z.currentEntry = none) : AllFinished z := by
  intro i s hs
  cases hi : s.isInitialized with
  | false => rfl
  | true =>
    have := h.initialized i s hs hi
    rw [h.currentStream hc] at this
    cases this

/-- Only an initialized stream takes bytes. -/
theorem writeBuffer_ok {s s' : ExportStreamZIP σ} {bytes : List UInt8}
    (h : s.writeBuffer d bytes z = .ok s' z') : s.isInitialized = true := by
  unfold ExportStreamZIP.writeBuffer at h
  split at h
  · assumption
  · cases h

/-- A stream that is flushed is finished. -/
theorem flushZIPStream_ok {s s' : ExportStreamZIP σ} (h : s.flushZIPStream d z = .ok s' z') :
    s'.isInitialized = false := by
  unfold ExportStreamZIP.flushZIPStream at h
  split at h
  · obtain ⟨t, z₁, _, h⟩ := bind_state_ok.1 h
    obtain ⟨_, z₂, _, h⟩ := bind_state_ok.1 h
    cases h
    rfl
  · cases h

/-- The stream of an index, after another one was put back. -/
theorem getElem?_set_stream {streams : List (ExportStreamZIP σ)} {i j : Nat}
    {s' t : ExportStreamZIP σ} (h : (streams.set i s')[j]? = some t) :
    i = j ∧ t = s' ∨ i ≠ j ∧ streams[j]? = some t := by
  by_cases hij : i = j
  · subst hij
    have hlt : i < (streams.set i s').length := (List.getElem?_eq_some_iff.1 h).1
    rw [List.length_set] at hlt
    rw [List.getElem?_set_self hlt] at h
    exact .inl ⟨rfl, (Option.some.inj h).symm⟩
  · rw [List.getElem?_set_ne hij] at h
    exact .inr ⟨hij, h⟩

theorem Quiet.writeStream (i : Nat) (bytes : List UInt8) (hq : Quiet z) :
    Quiet (finalState (writeStream d i bytes z)) := by
  unfold PortableZIPWriter.writeStream
  rw [zip_get_bind]
  cases hs : z.streams[i]? with
  | none => exact hq
  | some s =>
    refine (Ends.bind ((SameStreams.writeBuffer d s bytes).ends z) ?_).final
      (fun _ h => h) fun _ h => hq.of_same h
    intro s' z₁ hw hf
    refine ⟨fun j t ht hinit => ?_, (hq.of_same hf).currentStream⟩
    rcases getElem?_set_stream ht with ⟨rfl, rfl⟩ | ⟨_, ht⟩
    · exact (hq.of_same hf).initialized i s (hf.streams ▸ hs) (writeBuffer_ok hw)
    · exact (hq.of_same hf).initialized j t ht hinit

/-- A write to a stream that is not the current one is rejected, and changes nothing. -/
theorem writeStream_rejected (hq : Quiet z) {i : Nat} (hi : z.currentStream ≠ some i)
    (bytes : List UInt8) : ∃ e, writeStream d i bytes z = .error e z := by
  unfold PortableZIPWriter.writeStream
  rw [zip_get_bind]
  cases hs : z.streams[i]? with
  | none => exact ⟨_, rfl⟩
  | some s =>
    have hinit : s.isInitialized = false := by
      cases h : s.isInitialized with
      | false => rfl
      | true => exact absurd (hq.initialized i s hs h) hi
    refine ⟨.thrown .zipAlreadyFinished, bind_of_error ?_⟩
    show (if s.isInitialized then _ else throwNMR .zipAlreadyFinished : ZIPWriterM σ _) z = _
    rw [hinit]
    rfl

/-- Flushing the current stream finishes it, and so all. -/
theorem flushCurrentStream_ends (hq : Quiet z) :
    Ends (flushCurrentStream d z)
      (fun z' => AllFinished z' ∧ (z'.currentEntry = none ↔ z.currentEntry = none)) Quiet := by
  unfold flushCurrentStream
  rw [zip_get_bind]
  cases hc : z.currentStream with
  | none => exact hq
  | some i =>
    dsimp only
    cases hs : z.streams[i]? with
    | none => exact hq
    | some s =>
      refine Ends.bind (((SameStreams.flushZIPStream d s).ends z).mono (fun _ h => h)
        fun _ h => hq.of_same h) fun s' z₁ hfl hf => ?_
      refine ⟨fun j t ht => ?_, hf.currentEntry⟩
      rcases getElem?_set_stream ht with ⟨rfl, rfl⟩ | ⟨hij, ht⟩
      · exact flushZIPStream_ok hfl
      · cases hinit : t.isInitialized with
        | false => rfl
        | true =>
          have := hq.initialized j t (hf.streams ▸ ht) hinit
          rw [hc] at this
          exact absurd (Option.some.inj this) hij

/-- Between two entries: nothing is open. -/
structure Settled (z : PortableZIPWriter σ) : Prop where
  allFinished : AllFinished z
  currentEntry : z.currentEntry = none
  currentStream : z.currentStream = none

theorem Settled.of_same (h : Settled z) (hs : z'.streams = z.streams) (he : z'.currentEntry = none)
    (hc : z'.currentStream = none) : Settled z' := ⟨h.allFinished.of_same hs, he, hc⟩

theorem Settled.quiet (h : Settled z) : Quiet z := h.allFinished.quiet fun _ => h.currentStream

theorem finishEntry_ends (hq : Quiet z) (hc : z.currentEntry ≠ none) :
    Ends (finishEntry d z) AllFinished Quiet := by
  refine Ends.bind (flushCurrentStream_ends hq) fun _ z₁ _ h => ?_
  have hc₁ : z₁.currentEntry ≠ none := fun h' => hc (h.2.1 h')
  have hq₁ : Quiet z₁ := h.1.quiet fun h' => absurd h' hc₁
  rw [zip_get_bind]
  cases he : z₁.currentEntry with
  | none => exact absurd he hc₁
  | some e =>
    have hpatch := ((SameStreams.patchHeader e).ends z₁).mono (fun _ hs => h.1.of_same hs.streams)
      fun _ hs => hq₁.of_same hs
    by_cases hl : (!z₁.writeZIP64 && decide (TooLarge e)) = true
    · simp only [if_pos hl]
      exact hq₁
    · simp only [if_neg hl]
      exact hpatch

theorem closeEntry_ends (hq : Quiet z) : Ends (closeEntry d z) Settled Quiet := by
  unfold closeEntry
  rw [zip_get_bind]
  by_cases hf : z.isFinished = true
  · simp only [if_pos hf]
    exact hq
  · simp only [if_neg hf]
    show Ends ((if z.currentEntry.isSome then finishEntry d >>= fun _ => forgetEntry
      else forgetEntry : ZIPWriterM σ Unit) z) Settled Quiet
    cases hc : z.currentEntry with
    | none => exact ⟨(hq.allFinished hc).of_same rfl, rfl, rfl⟩
    | some e =>
      refine Ends.bind (finishEntry_ends hq (by rw [hc]; nofun)) fun _ z₁ _ h => ?_
      exact ⟨h.of_same rfl, rfl, rfl⟩

/-- The stream of a new entry is the current one. -/
theorem newStream_ends (h : AllFinished z) (hc : z.currentEntry ≠ none) :
    Ends (newStream d z) Quiet Quiet := by
  unfold newStream
  rw [zip_get_bind]
  by_cases hk : z.currentEntryKey = 0
  · simp only [if_pos hk]
    exact h.quiet fun h' => absurd h' hc
  · simp only [if_neg hk]
    refine ⟨fun i s hs hi => ?_, fun h' => absurd h' hc⟩
    show some z.streams.length = some i
    have hs' : (z.streams ++ [⟨z.currentEntryKey, true, d.init, []⟩])[i]? = some s := hs
    by_cases hlt : i < z.streams.length
    · rw [List.getElem?_append_left hlt] at hs'
      rw [h i s hs'] at hi
      cases hi
    · have hlen := (List.getElem?_eq_some_iff.1 hs').1
      rw [List.length_append, List.length_singleton] at hlen
      congr 1
      omega

theorem beginEntry_ends (name : List UInt8) (h : AllFinished z) :
    Ends (beginEntry d name z) Quiet Quiet := by
  unfold beginEntry
  rw [zip_get_bind]
  apply Ends.bind (p := AllFinished)
  · exact h.of_same rfl
  intro _ z₁ _ h₁
  rw [zip_get_bind]
  have hrest : ∀ (e : PortableZIPWriterEntry) (t : PortableZIPWriter σ), AllFinished t →
      Ends (newStream d { t with currentEntry := some e }) Quiet Quiet :=
    fun e t ht => newStream_ends (ht.of_same rfl) nofun
  by_cases h64 : z.writeZIP64 = true
  · simp only [if_pos h64]
    exact hrest _ _ (h₁.of_same rfl)
  · simp only [if_neg h64]
    exact hrest _ _ h₁

theorem createEntry_ends (name : List UInt8) (hq : Quiet z) :
    Ends (createEntry d name z) Quiet Quiet := by
  unfold createEntry
  rw [zip_get_bind]
  by_cases hf : z.isFinished = true
  · simp only [if_pos hf]
    exact hq
  simp only [if_neg hf]
  refine Ends.bind (closeEntry_ends hq) fun _ z₁ _ h => ?_
  apply Ends.bind (p := Settled)
  · exact ⟨h.allFinished.of_same rfl, h.currentEntry, h.currentStream⟩
  intro _ z₂ _ h₂
  rw [zip_get_bind]
  by_cases hmax : zipFileMaxEntries ≤ z₂.nextEntryKey
  · simp only [if_pos hmax]
    exact h₂.quiet
  simp only [if_neg hmax]
  by_cases hlen : zipFileMaxFileNameLength < (removeLeadingPathDelimiter name).length
  · simp only [if_pos hlen]
    exact h₂.quiet
  simp only [if_neg hlen]
  exact beginEntry_ends _ h₂.allFinished

theorem SameStreams.checkCurrentEntry :
    Frames SameStreams (PortableZIPWriter.checkCurrentEntry : ZIPWriterM σ Unit) := by
  unfold PortableZIPWriter.checkCurrentEntry
  apply Frames.bind trans (Frames.get refl)
  intro z
  split
  · exact Frames.throw refl _
  · split
    · exact Frames.throw refl _
    · exact Frames.pure refl _

theorem SameStreams.writeDirectoryEntry (e : PortableZIPWriterEntry) :
    Frames SameStreams (PortableZIPWriter.writeDirectoryEntry e : ZIPWriterM σ Unit) := by
  unfold PortableZIPWriter.writeDirectoryEntry
  apply Frames.bind trans (Frames.get refl)
  intro z
  by_cases h64 : z.writeZIP64 = true
  · simp only [h64]
    exact Frames.bind trans (write _) fun _ => write _
  · simp only [h64]
    apply Frames.bind trans checkCurrentEntry
    intro _
    exact Frames.bind trans (write _) fun _ => Frames.pure refl _

theorem writeEnd_ends (start : Nat) (h : Settled z) : Ends (writeEnd start z) Settled Settled := by
  unfold PortableZIPWriter.writeEnd
  rw [zip_get_bind]
  by_cases h64 : z.writeZIP64 = true
  · simp only [if_pos h64]
    exact h.of_same rfl h.currentEntry h.currentStream
  · simp only [if_neg h64]
    exact h.of_same rfl h.currentEntry h.currentStream

theorem writeDirectory_ends (hq : Quiet z) : Ends (writeDirectory d z) Quiet Quiet := by
  refine Ends.bind (closeEntry_ends hq) fun _ z₁ _ h => ?_
  rw [zip_get_bind]
  have hloop := Frames.forM SameStreams.refl SameStreams.trans
    (SameStreams.writeDirectoryEntry (σ := σ)) z₁.entries
  refine Ends.bind ((hloop.ends z₁).mono (fun z₂ hs => ?_) fun z₂ hs => h.quiet.of_same hs)
    fun _ z₂ _ h₂ => (writeEnd_ends _ h₂).mono (fun _ hs => hs.quiet) fun _ hs => hs.quiet
  exact h.of_same hs.streams (hs.currentEntry.2 h.currentEntry)
    (hs.currentStream.trans h.currentStream)

theorem finalState_writer (s : ZIPSession σ) (c : ZIPCall) : (s.step d c).writer =
    match c with
    | .createEntry name => finalState (createEntry d name s.writer)
    | .writeBuffer i bytes => finalState (writeStream d i bytes s.writer)
    | .closeEntry => finalState (closeEntry d s.writer)
    | .writeDirectory => finalState (writeDirectory d s.writer) := by
  cases c with
  | createEntry name =>
    simp only [ZIPSession.step]
    cases createEntry d name s.writer with
    | ok i z => rfl
    | error e z => rfl
  | writeBuffer i bytes =>
    simp only [ZIPSession.step]
    cases writeStream d i bytes s.writer with
    | ok u z => rfl
    | error e z => rfl
  | closeEntry => rfl
  | writeDirectory => rfl

theorem Quiet.step {s : ZIPSession σ} (hq : Quiet s.writer) (c : ZIPCall) :
    Quiet (s.step d c).writer := by
  rw [finalState_writer]
  cases c with
  | createEntry name => exact (createEntry_ends name hq).final (fun _ h => h) fun _ h => h
  | writeBuffer i bytes => exact hq.writeStream i bytes
  | closeEntry => exact (closeEntry_ends hq).final (fun _ h => h.quiet) fun _ h => h
  | writeDirectory => exact (writeDirectory_ends hq).final (fun _ h => h) fun _ h => h

/-- In every state of a run only the current stream is initialized. -/
theorem Quiet.run {s : ZIPSession σ} (hq : Quiet s.writer) (calls : List ZIPCall) :
    Quiet (Lib.run (ZIPSession.step d) s calls).writer := by
  induction calls generalizing s with
  | nil => exact hq
  | cons c calls ih => exact ih (hq.step c)

theorem quiet_new (writeZIP64 : Bool) : Quiet (ZIPSession.new writeZIP64 : ZIPSession σ).writer :=
  ⟨fun _ _ hs => (nomatch hs), fun _ => rfl⟩

end NMR
