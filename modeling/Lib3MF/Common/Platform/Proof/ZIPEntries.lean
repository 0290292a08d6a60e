import Lib3MF.Common.Platform.Proof.ZIPStreams

/-!
# Writing an entry

While an item is written, the archive ends with its local header, its sizes still zero, and what
deflating its data has given so far, less what waits in the buffer of its stream (`Writing`).
Closing the entry brings the rest out and the sizes in, with nothing else changed
(`finishEntry_writing`).
-/

namespace NMR

open Lib PortableZIPWriter

variable {σ : Type} {d : Deflate σ} {z : PortableZIPWriter σ} {s : ExportStreamZIP σ} {x : ZIPItem}
  {e : PortableZIPWriterEntry} {base w : List UInt8} {pos : Nat}

/-! ## Compressed bytes that reach the archive -/

/-- More compressed bytes of an entry. -/
def PortableZIPWriterEntry.grow (e : PortableZIPWriterEntry) (w : List UInt8) :
    PortableZIPWriterEntry :=
  { e with compressedSize := e.compressedSize + BitVec.ofNat 64 w.length }

/-- The writer after compressed bytes of the current entry. -/
def PortableZIPWriter.emit (z : PortableZIPWriter σ) (w : List UInt8) : PortableZIPWriter σ :=
  { z with
    exportStream := ⟨z.exportStream.buffer ++ w, (z.exportStream.buffer ++ w).length⟩
    currentEntry := z.currentEntry.map (·.grow w) }

theorem emit_nil (h : z.exportStream.position = z.exportStream.buffer.length) : z.emit [] = z := by
  obtain ⟨⟨buffer, position⟩, _, _, _, _, _, c, _, _⟩ := z
  have hp : position = buffer.length := h
  subst hp
  simp only [PortableZIPWriter.emit, List.append_nil]
  cases c with
  | none => rfl
  | some e => simp [PortableZIPWriterEntry.grow]

theorem emit_emit (w' : List UInt8) : (z.emit w).emit w' = z.emit (w ++ w') := by
  simp only [PortableZIPWriter.emit, List.append_assoc, Option.map_map]
  congr 1
  cases z.currentEntry with
  | none => rfl
  | some e =>
    simp [PortableZIPWriterEntry.grow, BitVec.ofNat_add, BitVec.add_assoc]

theorem writeDeflatedBuffer_eq (hc : z.currentEntry.isSome = true)
    (ha : z.exportStream.position = z.exportStream.buffer.length) (w : List UInt8) :
    writeDeflatedBuffer z.currentEntryKey w z = .ok () (z.emit w) := by
  obtain ⟨e, he⟩ := Option.isSome_iff_exists.1 hc
  rw [writeDeflatedBuffer, zip_get_bind]
  simp only [he, ne_eq, not_true_eq_false, if_false]
  rw [ExportStreamMemory.writeBuffer_end ha]
  show EStateM.Result.ok _ _ = _
  simp [PortableZIPWriter.emit, he, PortableZIPWriterEntry.grow]

/-- The output goes to the buffer of the stream, and from there to the archive when it is full. -/
theorem foldlM_putByte (hc : z.currentEntry.isSome = true)
    (ha : z.exportStream.position = z.exportStream.buffer.length)
    (hk : s.entryKey = z.currentEntryKey) (output : List UInt8) :
    ∃ w rest, w ++ rest = s.outBuffer ++ output ∧
      output.foldlM ExportStreamZIP.putByte s z = .ok { s with outBuffer := rest } (z.emit w) := by
  induction output generalizing z s with
  | nil =>
    refine ⟨[], s.outBuffer, by simp, ?_⟩
    rw [emit_nil ha]
    rfl
  | cons b output ih =>
    rw [List.foldlM_cons]
    by_cases hfull : (s.outBuffer ++ [b]).length = zipExportBufferSize
    · have hput : s.putByte b z = .ok { s with outBuffer := [] } (z.emit (s.outBuffer ++ [b])) := by
        rw [ExportStreamZIP.putByte, if_pos hfull, hk, bind_of_ok (writeDeflatedBuffer_eq hc ha _)]
        rfl
      rw [bind_of_ok hput]
      obtain ⟨w, rest, hw, he⟩ := @ih (z.emit (s.outBuffer ++ [b])) { s with outBuffer := [] }
        (by simpa [PortableZIPWriter.emit] using hc) rfl hk
      refine ⟨s.outBuffer ++ [b] ++ w, rest, ?_, ?_⟩
      · rw [List.append_assoc, hw]
        simp
      · rw [he, emit_emit]
    · have hput : s.putByte b z = .ok { s with outBuffer := s.outBuffer ++ [b] } z := by
        rw [ExportStreamZIP.putByte, if_neg hfull]
        rfl
      rw [bind_of_ok hput]
      obtain ⟨w, rest, hw, he⟩ := @ih z { s with outBuffer := s.outBuffer ++ [b] } hc ha hk
      refine ⟨w, rest, ?_, he⟩
      rw [hw]
      simp

/-- The writer after a checksum was taken. -/
def PortableZIPWriterEntry.check (e : PortableZIPWriterEntry) (bytes : List UInt8) :
    PortableZIPWriterEntry :=
  { e with
    crc32 := NMR.crc32 e.crc32 bytes
    uncompressedSize := e.uncompressedSize + BitVec.ofNat 64 bytes.length }

theorem calculateChecksum_eq (he : z.currentEntry = some e) (bytes : List UInt8) :
    calculateChecksum z.currentEntryKey bytes z =
      .ok () { z with currentEntry := some (e.check bytes) } := by
  rw [calculateChecksum, zip_get_bind]
  simp only [he, ne_eq, not_true_eq_false, if_false]
  rfl

/-! ## The current item -/

/-- The record of an item whose local header is at `pos`, when the archive has its compressed
bytes `w`. -/
def ZIPItem.entry (x : ZIPItem) (pos : Nat) (w : List UInt8) : PortableZIPWriterEntry where
  utf8Name := x.name
  crc32 := NMR.crc32 0 x.data
  compressedSize := BitVec.ofNat 64 w.length
  uncompressedSize := BitVec.ofNat 64 x.data.length
  lastModTime := 0
  lastModDate := 0
  filePosition := pos
  extInfoPosition := pos + zipLocalFileHeaderCodec.size + x.name.length
  dataPosition :=
    pos + zipLocalFileHeaderCodec.size + x.name.length + zip64ExtraInformationFieldCodec.size

theorem grow_entry (x : ZIPItem) (pos : Nat) (w w' : List UInt8) :
    (x.entry pos w).grow w' = x.entry pos (w ++ w') := by
  simp [ZIPItem.entry, PortableZIPWriterEntry.grow, BitVec.ofNat_add]

theorem check_entry (x : ZIPItem) (pos : Nat) (w bytes : List UInt8) :
    (x.entry pos w).check bytes = ZIPItem.entry ⟨x.name, x.chunks ++ [bytes]⟩ pos w := by
  have hd : ZIPItem.data ⟨x.name, x.chunks ++ [bytes]⟩ = x.data ++ bytes := by
    simp [ZIPItem.data]
  simp only [ZIPItem.entry, PortableZIPWriterEntry.check, hd, crc32_append, List.length_append,
    BitVec.ofNat_add]

/-- Nothing but the archive and the record of the current entry differs. -/
def Within (z z' : PortableZIPWriter σ) : Prop :=
  z' = { z with exportStream := z'.exportStream, currentEntry := z'.currentEntry }

theorem Within.refl (z : PortableZIPWriter σ) : Within z z := rfl

theorem Within.trans {z₁ z₂ z₃ : PortableZIPWriter σ} (h : Within z₁ z₂) (h' : Within z₂ z₃) :
    Within z₁ z₃ := by
  unfold Within at *
  rw [h', h]

/-- After `base` the archive has compressed bytes of the item `x`, and the stream `s` the rest. -/
structure Writing (d : Deflate σ) (base : List UInt8) (pos : Nat) (x : ZIPItem)
    (s : ExportStreamZIP σ) (z : PortableZIPWriter σ) : Prop where
  initialized : s.isInitialized = true
  entryKey : s.entryKey = z.currentEntryKey
  stream : s.stream = (d.run x.chunks).1
  output : ∃ w, w ++ s.outBuffer = (d.run x.chunks).2 ∧
    z.exportStream = ⟨base ++ w, (base ++ w).length⟩ ∧ z.currentEntry = some (x.entry pos w)

theorem Writing.writeChunk (h : Writing d base pos x s z) (bytes : List UInt8) :
    ∃ s' z', s.writeChunk d bytes z = .ok s' z' ∧ Within z z' ∧
      Writing d base pos ⟨x.name, x.chunks ++ [bytes]⟩ s' z' := by
  obtain ⟨w, hw, hb, he⟩ := h.output
  have hsum : calculateChecksum s.entryKey bytes z =
      .ok () { z with currentEntry := some ((x.entry pos w).check bytes) } := by
    rw [h.entryKey]
    exact calculateChecksum_eq he bytes
  obtain ⟨w', rest, hw', hput⟩ := @foldlM_putByte σ
    { z with currentEntry := some ((x.entry pos w).check bytes) }
    { s with stream := (d.deflate s.stream bytes).1 } rfl (by rw [hb]) h.entryKey
    (d.deflate s.stream bytes).2
  refine ⟨_, _, (bind_of_ok hsum).trans hput, rfl, h.initialized, h.entryKey, ?_, w ++ w', ?_, ?_, ?_⟩
  · rw [d.run_append, ← h.stream]
  · rw [d.run_append, ← h.stream, ← hw, List.append_assoc, hw', List.append_assoc]
  · simp only [PortableZIPWriter.emit, hb, List.append_assoc]
  · simp only [PortableZIPWriter.emit, Option.map_some, check_entry, grow_entry]

theorem Writing.foldlM_writeChunk (h : Writing d base pos x s z) (chunks : List (List UInt8)) :
    ∃ s' z', chunks.foldlM (ExportStreamZIP.writeChunk d) s z = .ok s' z' ∧ Within z z' ∧
      Writing d base pos ⟨x.name, x.chunks ++ chunks⟩ s' z' := by
  induction chunks generalizing x s z with
  | nil => exact ⟨s, z, rfl, rfl, by simpa using h⟩
  | cons bytes chunks ih =>
    obtain ⟨s₁, z₁, hc, hz₁, h₁⟩ := h.writeChunk bytes
    obtain ⟨s', z', hf, hz', h'⟩ := ih h₁
    refine ⟨s', z', ?_, hz₁.trans hz', by simpa using h'⟩
    rw [List.foldlM_cons, bind_of_ok hc]
    exact hf

/-- A write to the stream of the current item. -/
theorem Writing.writeBuffer (h : Writing d base pos x s z) (bytes : List UInt8) :
    ∃ s' z', s.writeBuffer d bytes z = .ok s' z' ∧ Within z z' ∧
      Writing d base pos (x.append bytes) s' z' := by
  rw [ExportStreamZIP.writeBuffer, if_pos h.initialized]
  exact h.foldlM_writeChunk _

/-- The end of the stream of the current item. -/
theorem Writing.flushZIPStream (h : Writing d base pos x s z) :
    ∃ s' z', s.flushZIPStream d z = .ok s' z' ∧ Within z z' ∧
      z'.exportStream = ⟨base ++ x.packed d, (base ++ x.packed d).length⟩ ∧
      z'.currentEntry = some (x.entry pos (x.packed d)) := by
  obtain ⟨w, hw, hb, he⟩ := h.output
  have hc : z.currentEntry.isSome = true := by rw [he]; rfl
  have ha : z.exportStream.position = z.exportStream.buffer.length := by rw [hb]
  obtain ⟨w', rest, hw', hput⟩ := foldlM_putByte hc ha h.entryKey (d.finish s.stream)
  have hrest : ExportStreamZIP.writeRest { s with outBuffer := rest } (z.emit w') =
      .ok () (z.emit (w' ++ rest)) := by
    have hc' : (z.emit w').currentEntry.isSome = true := by
      simpa [PortableZIPWriter.emit] using hc
    unfold ExportStreamZIP.writeRest
    by_cases hr : 0 < rest.length
    · rw [if_pos hr]
      show writeDeflatedBuffer s.entryKey rest (z.emit w') = _
      rw [h.entryKey, ← emit_emit]
      exact writeDeflatedBuffer_eq hc' rfl rest
    · rw [if_neg hr, List.length_eq_zero_iff.1 (by omega : rest.length = 0), List.append_nil]
      rfl
  have hpacked : w ++ (w' ++ rest) = x.packed d := by
    rw [hw', ← List.append_assoc, hw, h.stream]
    rfl
  refine ⟨{ s with outBuffer := rest, isInitialized := false }, z.emit (w' ++ rest), ?_, rfl, ?_, ?_⟩
  · rw [ExportStreamZIP.flushZIPStream, if_pos h.initialized, bind_of_ok hput, bind_of_ok hrest]
    rfl
  · simp only [PortableZIPWriter.emit, hb, List.append_assoc, hpacked]
  · simp only [PortableZIPWriter.emit, he, Option.map_some, grow_entry, hpacked]

/-! ## Closing -/

/-- A local header with ZIP64, its name and its extra information. -/
def headBytes (name : List UInt8) (c : ZIPLocalFileDescriptor) (i : ZIP64ExtraInformationField) :
    List UInt8 :=
  zipLocalFileHeaderCodec.encode { localHeader true name with descriptor := c } ++
    (name ++ zip64ExtraInformationFieldCodec.encode i)

theorem length_headBytes (name : List UInt8) (c : ZIPLocalFileDescriptor)
    (i : ZIP64ExtraInformationField) : (headBytes name c i).length = 30 + name.length + 20 := by
  simp only [headBytes, List.length_append, Codec.length_encode, size_zipLocalFileHeaderCodec,
    size_zip64ExtraInformationFieldCodec]
  omega

/-- Bytes are written over others of the same number. -/
theorem overwrite {β : Type} {a old b bytes : List UInt8}
    (hb : z.exportStream.buffer = a ++ (old ++ b)) (hl : bytes.length = old.length)
    (hp : pos = a.length) (f : Unit → ZIPWriterM σ β) :
    (seek (·.seekPosition pos) >>= fun _ => write bytes >>= f) z =
      f () { z with exportStream := ⟨a ++ (bytes ++ b), a.length + bytes.length⟩ } := by
  have hle : pos ≤ z.exportStream.buffer.length := by
    simp only [hb, hp, List.length_append]
    omega
  rw [bind_of_ok (seek_ok (ExportStreamMemory.seekPosition_le hle))]
  have hw : write bytes { z with exportStream := { z.exportStream with position := pos } } =
      .ok () { z with exportStream := ⟨a ++ (bytes ++ b), a.length + bytes.length⟩ } := by
    rw [← ExportStreamMemory.writeBuffer_mid
      (s := { z.exportStream with position := pos }) hb hp hl]
    rfl
  rw [bind_of_ok hw]

/-- The sizes are written over the old ones. -/
theorem patchHeader_eq {name : List UInt8} {c : ZIPLocalFileDescriptor}
    {i : ZIP64ExtraInformationField} (h64 : z.writeZIP64 = true)
    (hb : z.exportStream.buffer = base ++ (headBytes name c i ++ w))
    (hf : e.filePosition = base.length)
    (hx : e.extInfoPosition = base.length + zipLocalFileHeaderCodec.size + name.length) :
    ∃ bytes, bytes = base ++ (headBytes name (descriptor true e) (extraInformation e 0) ++ w) ∧
      patchHeader e z = .ok () { z with exportStream := ⟨bytes, bytes.length⟩ } := by
  obtain ⟨before, after, hbefore, hafter, hhead⟩ := encode_zipLocalFileHeader (localHeader true name)
  -- the descriptor, in the middle of the header
  have hb₁ : z.exportStream.buffer = (base ++ before) ++ (zipLocalFileDescriptorCodec.encode c ++
      (after ++ (name ++ (zip64ExtraInformationFieldCodec.encode i ++ w)))) := by
    rw [hb, headBytes, hhead]
    simp only [List.append_assoc]
  have hstep₁ := fun f => @overwrite σ z (e.filePosition + zipFileDescriptorOffset) Unit _ _ _
    (zipLocalFileDescriptorCodec.encode (descriptor true e)) hb₁
    (by simp only [Codec.length_encode]) (by rw [List.length_append, hf, hbefore]) f
  -- the extra information, after the name
  have hstep₂ := fun t ht f => @overwrite σ t e.extInfoPosition Unit
    ((base ++ before) ++ (zipLocalFileDescriptorCodec.encode (descriptor true e) ++ (after ++ name)))
    (zip64ExtraInformationFieldCodec.encode i) w
    (zip64ExtraInformationFieldCodec.encode (extraInformation e 0)) ht
    (by simp only [Codec.length_encode])
    (by
      simp only [List.length_append, Codec.length_encode, size_zipLocalFileDescriptorCodec, hbefore,
        hafter, hx, size_zipLocalFileHeaderCodec, zipFileDescriptorOffset]
      omega) f
  refine ⟨_, rfl, ?_⟩
  rw [patchHeader, zip_get_bind]
  simp only [h64, if_true]
  rw [hstep₁, hstep₂ _ (by simp only [List.append_assoc])]
  rw [seek_ok ExportStreamMemory.seekFromEnd_zero]
  simp only [headBytes, hhead, List.append_assoc, h64]

/-- An item in the archive. -/
def ZIPItem.bytes (d : Deflate σ) (x : ZIPItem) : List UInt8 :=
  headBytes x.name (descriptor true (x.entry 0 (x.packed d)))
    (extraInformation (x.entry 0 (x.packed d)) 0) ++ x.packed d

/-- The start of an item, with no data yet. -/
def startBytes (name : List UInt8) : List UInt8 :=
  headBytes name ⟨0, 0, 0⟩ (extraInformation (ZIPItem.entry ⟨name, []⟩ 0 []) 0)

/-- Closing the entry that is written. -/
theorem finishEntry_writing {i : Nat} (h64 : z.writeZIP64 = true) (hc : z.currentStream = some i)
    (hs : z.streams[i]? = some s) (h : Writing d (base ++ startBytes x.name) base.length x s z) :
    ∃ bytes s', bytes = base ++ x.bytes d ∧
      finishEntry d z = .ok () { z with
        exportStream := ⟨bytes, bytes.length⟩
        currentEntry := some (x.entry base.length (x.packed d))
        streams := z.streams.set i s' } := by
  obtain ⟨s', z', hfl, hz', hb, he⟩ := h.flushZIPStream
  have hflush : flushCurrentStream d z = .ok () { z' with streams := z'.streams.set i s' } := by
    rw [flushCurrentStream, zip_get_bind]
    simp only [hc, hs]
    rw [bind_of_ok hfl]
    rfl
  have hz64 : z'.writeZIP64 = true := by rw [hz']; exact h64
  obtain ⟨bytes, rfl, hpatch⟩ := @patchHeader_eq σ { z' with streams := z'.streams.set i s' }
    (x.entry base.length (x.packed d)) base (x.packed d) x.name ⟨0, 0, 0⟩
    (extraInformation (ZIPItem.entry ⟨x.name, []⟩ 0 []) 0) hz64
    (by rw [hb, List.append_assoc]; rfl) rfl rfl
  refine ⟨_, s', rfl, ?_⟩
  rw [finishEntry, bind_of_ok hflush, zip_get_bind]
  simp only [he, hz64, Bool.not_true, Bool.false_and, Bool.false_eq_true, if_false] at hpatch ⊢
  refine hpatch.trans ?_
  rw [hz', h64]
  rfl

end NMR
