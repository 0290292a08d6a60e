import Lib3MF.Common.Platform.ZIPPlan
import Lib3MF.Common.Platform.Proof.ZIPEntries

/-!
# The ZIP writer follows its plan

With ZIP64, or as long as no entry is created, every call does with the archive what the plan
says (`Follows`). Otherwise the writer ends where it cannot finish the
archive: with an entry whose key is 0 (`Stuck`), or without ZIP64 and with an entry (`Lost`).
-/

namespace NMR

open Lib PortableZIPWriter

variable {σ : Type} {d : Deflate σ} {z : PortableZIPWriter σ} {p : ZIPPlan} {z64 : Bool}

/-! ## The archive of closed items -/

/-- Closed items, one after the other. -/
def itemsBytes (d : Deflate σ) (l : List ZIPItem) : List UInt8 := l.flatMap (·.bytes d)

/-- Their entries, when the first starts at `pos`. -/
def entriesFrom (d : Deflate σ) : Nat → List ZIPItem → List PortableZIPWriterEntry
  | _, [] => []
  | pos, x :: l => x.entry pos (x.packed d) :: entriesFrom d (pos + (x.bytes d).length) l

/-- The directory header of an entry, with what follows it. -/
def directoryBytes (e : PortableZIPWriterEntry) : List UInt8 :=
  zipCentralDirectoryFileHeaderCodec.encode (directoryHeader true e) ++ e.utf8Name ++
    (zip64ExtraInformationFieldCodec.encode (extraInformation e 8) ++
      zip64.encode (BitVec.ofNat 64 e.filePosition))

/-- The records at the end of an archive with a directory of `count` entries and `size` bytes from
`start` on. -/
def endBytes (z64 : Bool) (count start size : Nat) : List UInt8 :=
  (if z64 then
    zip64EndOfCentralDirHeaderCodec.encode (endHeader64 count start size) ++
      zip64EndOfCentralDirLocatorCodec.encode (endLocator64 start size)
  else []) ++ zipEndOfCentralDirHeaderCodec.encode (endHeader z64 count start size)

/-- The directory of some items. -/
def itemsDirectory (d : Deflate σ) (l : List ZIPItem) : List UInt8 :=
  (entriesFrom d 0 l).flatMap directoryBytes

/-- The archive of some items. -/
def archiveBytes (d : Deflate σ) (z64 : Bool) (l : List ZIPItem) : List UInt8 :=
  itemsBytes d l ++ (itemsDirectory d l ++
    endBytes z64 l.length (itemsBytes d l).length (itemsDirectory d l).length)

theorem itemsBytes_append (l l' : List ZIPItem) :
    itemsBytes d (l ++ l') = itemsBytes d l ++ itemsBytes d l' := List.flatMap_append

theorem entriesFrom_append (pos : Nat) (l l' : List ZIPItem) : entriesFrom d pos (l ++ l') =
    entriesFrom d pos l ++ entriesFrom d (pos + (itemsBytes d l).length) l' := by
  induction l generalizing pos with
  | nil => simp [entriesFrom, itemsBytes]
  | cons x l ih =>
    simp only [List.cons_append, entriesFrom, ih, itemsBytes, List.flatMap_cons,
      List.length_append, Nat.add_assoc]

theorem length_entriesFrom (pos : Nat) (l : List ZIPItem) :
    (entriesFrom d pos l).length = l.length := by
  induction l generalizing pos with
  | nil => rfl
  | cons x l ih => simp [entriesFrom, ih]

/-! ## Following the plan -/

/-- The writer has the archive of the closed items, and the current one. -/
def Holds (d : Deflate σ) (z : PortableZIPWriter σ) (closed : List ZIPItem) :
    Option ZIPItem → Prop
  | none => z.currentEntry = none ∧ z.currentStream = none ∧
      z.exportStream = ⟨itemsBytes d closed, (itemsBytes d closed).length⟩
  | some x => z.writeZIP64 = true ∧ z.currentStream = some closed.length ∧
      ∃ s, z.streams[closed.length]? = some s ∧
        Writing d (itemsBytes d closed ++ startBytes x.name) (itemsBytes d closed).length x s z

/-- An unfinished writer that follows its plan. -/
structure Follows (d : Deflate σ) (z64 : Bool) (z : PortableZIPWriter σ) (p : ZIPPlan) : Prop where
  writeZIP64 : z.writeZIP64 = z64
  isFinished : z.isFinished = false
  finished : p.finished = false
  stuck : p.stuck = false
  nextEntryKey : z.nextEntryKey = p.nextKey
  entries : z.entries = entriesFrom d 0 p.closed
  streams : z.streams.length = p.items.length
  mode : z64 = true ∨ p.items = []
  holds : Holds d z p.closed p.current

/-- Nothing is open. -/
theorem Follows.exportStream (h : Follows d z64 z p) (hc : p.current = none) :
    z.exportStream = ⟨itemsBytes d p.closed, (itemsBytes d p.closed).length⟩ := by
  have := h.holds
  rw [hc] at this
  exact this.2.2

theorem forgetEntry_eq (z : PortableZIPWriter σ) : forgetEntry z = .ok () { z with
    entries := z.entries ++ z.currentEntry.toList
    currentEntry := none
    currentStream := none
    currentEntryKey := 0 } := rfl

/-- Closing the entry, or no entry. -/
theorem Follows.closeEntry (h : Follows d z64 z p) :
    ∃ z', closeEntry d z = .ok () z' ∧ Follows d z64 z' p.close := by
  have hstart : PortableZIPWriter.closeEntry d z =
      (if z.currentEntry.isSome then finishEntry d >>= fun _ => forgetEntry
        else forgetEntry : ZIPWriterM σ Unit) z := by
    rw [PortableZIPWriter.closeEntry, zip_get_bind]
    simp only [h.isFinished]
    rfl
  have hholds := h.holds
  cases hc : p.current with
  | none =>
    rw [hc] at hholds
    obtain ⟨he, hs, hb⟩ := hholds
    have hclosed : p.close.closed = p.closed := by simp [ZIPPlan.close, ZIPPlan.items, hc]
    refine ⟨{ z with currentEntryKey := 0, currentEntry := none, currentStream := none }, ?_, ?_⟩
    · rw [hstart, he]
      show forgetEntry z = _
      rw [forgetEntry_eq, he]
      simp
    · refine ⟨h.writeZIP64, h.isFinished, h.finished, h.stuck, h.nextEntryKey, ?_, ?_, ?_, ?_⟩
      · rw [hclosed]
        exact h.entries
      · rw [ZIPPlan.items_close]
        exact h.streams
      · rw [ZIPPlan.items_close]
        exact h.mode
      · rw [hclosed]
        exact ⟨rfl, rfl, hb⟩
  | some x =>
    rw [hc] at hholds
    obtain ⟨h64, hs, s, hstream, hw⟩ := hholds
    obtain ⟨bytes, s', rfl, hfin⟩ := finishEntry_writing h64 hs hstream hw
    have hclosed : p.close.closed = p.closed ++ [x] := by simp [ZIPPlan.close, ZIPPlan.items, hc]
    have hsome : z.currentEntry.isSome = true := by
      obtain ⟨w, _, _, he⟩ := hw.output
      rw [he]
      rfl
    rw [hsome, if_pos rfl] at hstart
    have hforget := (bind_of_ok (f := fun _ => forgetEntry) hfin).trans (forgetEntry_eq _)
    refine ⟨_, hstart.trans hforget, h.writeZIP64, h.isFinished, h.finished, h.stuck,
      h.nextEntryKey, ?_, ?_, ?_, ?_⟩
    · rw [hclosed, entriesFrom_append, ← h.entries]
      simp [entriesFrom]
    · rw [ZIPPlan.items_close, ← h.streams]
      exact List.length_set
    · rw [ZIPPlan.items_close]
      exact h.mode
    · rw [hclosed]
      refine ⟨rfl, rfl, ?_⟩
      simp [itemsBytes]

/-- A write to the stream of the current item. -/
theorem Follows.writeStream {x : ZIPItem} (h : Follows d z64 z p) (hc : p.current = some x)
    (bytes : List UInt8) : ∃ z', writeStream d p.closed.length bytes z = .ok () z' ∧
      Follows d z64 z' { p with current := some (x.append bytes) } := by
  have hholds := h.holds
  rw [hc] at hholds
  obtain ⟨h64, hs, s, hstream, hw⟩ := hholds
  obtain ⟨s', z₁, hwrite, hz₁, hw'⟩ := hw.writeBuffer bytes
  have hput : PortableZIPWriter.writeStream d p.closed.length bytes z =
      .ok () { z₁ with streams := z₁.streams.set p.closed.length s' } := by
    rw [PortableZIPWriter.writeStream, zip_get_bind]
    simp only [hstream]
    rw [bind_of_ok hwrite]
    rfl
  have hlt : p.closed.length < z₁.streams.length := by
    rw [hz₁]
    exact (List.getElem?_eq_some_iff.1 hstream).1
  refine ⟨_, hput, ?_⟩
  rw [hz₁] at hlt ⊢
  refine ⟨h.writeZIP64, h.isFinished, h.finished, h.stuck, h.nextEntryKey, h.entries, ?_, ?_, ?_⟩
  · have hlen := h.streams
    simp only [ZIPPlan.items, hc] at hlen ⊢
    rw [List.length_set, hlen]
    simp
  · exact .inl (h.writeZIP64.symm.trans h64)
  · refine ⟨h64, hs, s', List.getElem?_set_self hlt, hw'.initialized, ?_, hw'.stream, hw'.output⟩
    rw [hw'.entryKey, hz₁]



/-! ## A new entry -/

/-- The writer with more bytes at the end of the archive. -/
def PortableZIPWriter.more (z : PortableZIPWriter σ) (bytes : List UInt8) : PortableZIPWriter σ :=
  { z with exportStream := ⟨z.exportStream.buffer ++ bytes,
    (z.exportStream.buffer ++ bytes).length⟩ }

theorem more_more (z : PortableZIPWriter σ) (a b : List UInt8) :
    (z.more a).more b = z.more (a ++ b) := by
  simp only [PortableZIPWriter.more, List.append_assoc]

theorem more_nil (ha : z.exportStream.position = z.exportStream.buffer.length) : z.more [] = z := by
  rw [PortableZIPWriter.more, List.append_nil, ← ha]

theorem write_end (ha : z.exportStream.position = z.exportStream.buffer.length)
    (bytes : List UInt8) : write bytes z = .ok () (z.more bytes) := by
  rw [PortableZIPWriter.more, ← ExportStreamMemory.writeBuffer_end ha]
  rfl

theorem modify_eq (f : PortableZIPWriter σ → PortableZIPWriter σ) (z : PortableZIPWriter σ) :
    (modify f : ZIPWriterM σ PUnit) z = .ok ⟨⟩ (f z) := rfl

theorem zip_modify_bind {α : Type} (f : PortableZIPWriter σ → PortableZIPWriter σ) (x : ZIPWriterM σ α)
    (z : PortableZIPWriter σ) : (modify f >>= fun _ => x) z = x (f z) := rfl

/-- Whatever becomes of its stream, a new entry is current. -/
theorem beginEntry_within (z : PortableZIPWriter σ) (name : List UInt8) :
    ∃ z', beginEntry d name z = newStream d z' ∧ Within z z' ∧ z'.currentEntry ≠ none := by
  have hwrite : ∀ (bytes : List UInt8) (t : PortableZIPWriter σ),
      write bytes t = .ok () { t with exportStream := t.exportStream.writeBuffer bytes } :=
    fun _ _ => rfl
  unfold beginEntry
  rw [zip_get_bind, bind_of_ok (hwrite _ z), zip_get_bind]
  by_cases h64 : z.writeZIP64 = true
  · simp only [if_pos h64]
    rw [bind_of_ok (hwrite _ _), zip_modify_bind]
    exact ⟨_, rfl, rfl, nofun⟩
  · simp only [if_neg h64]
    rw [zip_modify_bind]
    exact ⟨_, rfl, rfl, nofun⟩


/-- With ZIP64 its header comes to the end of the archive. -/
theorem beginEntry_eq (h64 : z.writeZIP64 = true)
    (ha : z.exportStream.position = z.exportStream.buffer.length) (name : List UInt8) :
    beginEntry d name z = newStream d { z.more (startBytes name) with
      currentEntry := some (ZIPItem.entry ⟨name, []⟩ z.exportStream.buffer.length []) } := by
  have hcrc : crc32 0 (ZIPItem.data ⟨name, []⟩) = 0 := crc32_nil 0
  have hdata : BitVec.ofNat 64 (ZIPItem.data ⟨name, []⟩).length = 0 := rfl
  have hnil : BitVec.ofNat 64 ([] : List UInt8).length = 0 := rfl
  have hhead : localHeader true name = { localHeader true name with descriptor := ⟨0, 0, 0⟩ } := rfl
  unfold beginEntry
  rw [zip_get_bind, bind_of_ok (write_end ha _), zip_get_bind]
  simp only [if_pos h64]
  rw [bind_of_ok (write_end rfl _), zip_modify_bind]
  congr 1
  simp only [PortableZIPWriter.more, startBytes, headBytes, ← hhead, ha, h64, ZIPItem.entry, hcrc, hdata, hnil,
    Nat.add_assoc, List.append_assoc, extraInformation, List.length_append, Codec.length_encode]

/-- A new entry, after the current one was closed. -/
theorem createEntry_eq {z₁ : PortableZIPWriter σ} (hf : z.isFinished = false)
    (hc : closeEntry d z = .ok () z₁) (name : List UInt8) : createEntry d name z =
      (if zipFileMaxEntries ≤ z₁.nextEntryKey + 1 then throwNMR .zipEntryOverflow
        else if zipFileMaxFileNameLength < (removeLeadingPathDelimiter name).length then
          throwNMR .invalidZIPName
        else beginEntry d (removeLeadingPathDelimiter name) : ZIPWriterM σ Nat)
        { z₁ with currentEntryKey := z₁.nextEntryKey, nextEntryKey := z₁.nextEntryKey + 1 } := by
  rw [createEntry, zip_get_bind]
  simp only [hf, Bool.false_eq_true, if_false]
  rw [bind_of_ok hc]
  show (if zipFileMaxEntries ≤ z₁.nextEntryKey + 1 then
    throwNMR .zipEntryOverflow >>= fun _ => _ else _ : ZIPWriterM σ Nat) _ = _
  by_cases hmax : zipFileMaxEntries ≤ z₁.nextEntryKey + 1
  · rw [if_pos hmax, if_pos hmax]
    rfl
  · rw [if_neg hmax, if_neg hmax]
    show (if zipFileMaxFileNameLength < (removeLeadingPathDelimiter name).length then
      throwNMR .invalidZIPName >>= fun _ => _ else _ : ZIPWriterM σ Nat) _ = _
    by_cases hlen : zipFileMaxFileNameLength < (removeLeadingPathDelimiter name).length
    · rw [if_pos hlen, if_pos hlen]
      rfl
    · rw [if_neg hlen, if_neg hlen]

/-- The stream of a new entry, which may not have the key 0. -/
theorem newStream_eq (z : PortableZIPWriter σ) : newStream d z =
    if z.currentEntryKey = 0 then .error (.thrown .invalidParam) z
    else .ok z.streams.length { z with
      currentStream := some z.streams.length
      streams := z.streams ++ [⟨z.currentEntryKey, true, d.init, []⟩] } := by
  rw [newStream, zip_get_bind]
  by_cases hk : z.currentEntryKey = 0
  · simp only [if_pos hk]
    rfl
  · simp only [if_neg hk]
    rfl

/-! ## The directory -/

theorem writeDirectoryEntry_eq (h64 : z.writeZIP64 = true)
    (ha : z.exportStream.position = z.exportStream.buffer.length) (e : PortableZIPWriterEntry) :
    writeDirectoryEntry e z = .ok () (z.more (directoryBytes e)) := by
  rw [writeDirectoryEntry, zip_get_bind]
  simp only [h64, Bool.not_true, Bool.false_eq_true, if_false, if_true]
  rw [bind_of_ok (write_end ha _), write_end rfl, more_more, directoryBytes]

theorem forM_writeDirectoryEntry {l : List PortableZIPWriterEntry}
    (h64 : z.writeZIP64 = true ∨ l = [])
    (ha : z.exportStream.position = z.exportStream.buffer.length) :
    l.forM writeDirectoryEntry z = .ok () (z.more (l.flatMap directoryBytes)) := by
  induction l generalizing z with
  | nil =>
    rw [List.flatMap_nil, more_nil ha]
    rfl
  | cons e l ih =>
    have h64 : z.writeZIP64 = true := h64.resolve_right (List.cons_ne_nil e l)
    show (writeDirectoryEntry e >>= fun _ => l.forM writeDirectoryEntry) z = _
    rw [bind_of_ok (writeDirectoryEntry_eq h64 ha e), List.flatMap_cons, ← more_more]
    exact @ih (z.more (directoryBytes e)) (.inl h64) rfl

theorem writeEnd_eq (ha : z.exportStream.position = z.exportStream.buffer.length) (start : Nat) :
    writeEnd start z = .ok () { z.more (endBytes z.writeZIP64 z.entries.length start
      (z.exportStream.position - start)) with isFinished := true } := by
  rw [writeEnd, zip_get_bind]
  by_cases h64 : z.writeZIP64 = true
  · simp only [if_pos h64]
    rw [bind_of_ok (write_end ha _), bind_of_ok (write_end rfl _), modify_eq, more_more, endBytes,
      if_pos h64]
  · simp only [if_neg h64]
    rw [bind_of_ok (write_end ha _), modify_eq, endBytes, if_neg h64, List.nil_append]

/-- The writer has finished the archive of its plan. -/
structure Finished (d : Deflate σ) (z64 : Bool) (z : PortableZIPWriter σ) (p : ZIPPlan) :
    Prop where
  isFinished : z.isFinished = true
  currentStream : z.currentStream = none
  finished : p.finished = true
  stuck : p.stuck = false
  current : p.current = none
  mode : z64 = true ∨ p.items = []
  buffer : z.exportStream.buffer = archiveBytes d z64 p.items

/-- The archive of the plan is finished. -/
theorem Follows.writeDirectory (h : Follows d z64 z p) : ∃ z', writeDirectory d z = .ok () z' ∧
    Finished d z64 z' { p.close with finished := true } := by
  obtain ⟨z₁, hclose, h₁⟩ := h.closeEntry
  have hb := h₁.exportStream rfl
  have hclosed : p.close.closed = p.items := rfl
  rw [hclosed] at hb
  have hentries := h₁.entries
  rw [hclosed] at hentries
  have hmode : z₁.writeZIP64 = true ∨ z₁.entries = [] := by
    rcases h.mode with h64 | hnil
    · exact .inl (h₁.writeZIP64.trans h64)
    · right
      rw [hentries, hnil]
      rfl
  have hloop := forM_writeDirectoryEntry hmode (by rw [hb])
  have hend := @writeEnd_eq σ (z₁.more (z₁.entries.flatMap directoryBytes)) rfl
    z₁.exportStream.position
  refine ⟨_, (bind_of_ok hclose).trans ((bind_of_ok hloop).trans hend), rfl,
    h₁.holds.2.1, rfl, h.stuck, rfl, h₁.mode, ?_⟩
  show ((z₁.more _).more _).exportStream.buffer = archiveBytes d z64 p.close.items
  rw [more_more, ZIPPlan.items_close]
  simp only [PortableZIPWriter.more, archiveBytes, itemsDirectory, hb, hentries, h₁.writeZIP64,
    length_entriesFrom, List.length_append, Nat.add_sub_cancel_left]

end NMR
