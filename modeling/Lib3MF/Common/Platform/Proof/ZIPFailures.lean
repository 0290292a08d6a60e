import Lib3MF.Common.Platform.Proof.ZIPSimulation

/-!
# ZIP writers that cannot finish their archive

A writer is stuck with a header whose stream could not be made (`Stuck`), and without ZIP64 it is
lost as soon as it has an entry (`Lost`), since its directory reads through a null pointer. No
call leads out of either.
-/

namespace NMR

open Lib PortableZIPWriter

variable {σ : Type} {d : Deflate σ} {z : PortableZIPWriter σ}

/-- The writer is left with a header whose entry has no stream. -/
structure Stuck (z : PortableZIPWriter σ) : Prop where
  isFinished : z.isFinished = false
  currentEntry : z.currentEntry ≠ none
  currentStream : z.currentStream = none

/-- Without ZIP64, and with an entry. -/
structure Lost (z : PortableZIPWriter σ) : Prop where
  isFinished : z.isFinished = false
  writeZIP64 : z.writeZIP64 = false
  entries : z.entries ≠ [] ∨ z.currentEntry ≠ none

theorem Stuck.closeEntry (h : Stuck z) :
    closeEntry d z = .error (.thrown .noExportStream) z := by
  have hsome : z.currentEntry.isSome = true := Option.isSome_iff_ne_none.2 h.currentEntry
  have hflush : flushCurrentStream d z = .error (.thrown .noExportStream) z := by
    rw [flushCurrentStream, zip_get_bind]
    simp only [h.currentStream]
    rfl
  rw [PortableZIPWriter.closeEntry, zip_get_bind]
  simp only [h.isFinished, Bool.false_eq_true, if_false]
  rw [zip_get_bind]
  simp only [hsome, if_true]
  exact bind_of_error (bind_of_error hflush)

theorem Stuck.createEntry (h : Stuck z) (name : List UInt8) :
    createEntry d name z = .error (.thrown .noExportStream) z := by
  rw [PortableZIPWriter.createEntry, zip_get_bind]
  simp only [h.isFinished, Bool.false_eq_true, if_false]
  exact bind_of_error h.closeEntry

theorem Stuck.writeDirectory (h : Stuck z) :
    writeDirectory d z = .error (.thrown .noExportStream) z := bind_of_error h.closeEntry

/-- What a lost writer keeps while an entry is written or closed. -/
theorem Lost.of_same {z' : PortableZIPWriter σ} (h : Lost z) (hs : SameStreams z z') : Lost z' where
  isFinished := hs.isFinished.trans h.isFinished
  writeZIP64 := hs.writeZIP64.trans h.writeZIP64
  entries := h.entries.imp (fun he => by rw [hs.entries]; exact he)
    fun hc hc' => hc (hs.currentEntry.1 hc')

theorem Lost.flushCurrentStream (h : Lost z) : Ends (flushCurrentStream d z) Lost Lost := by
  unfold PortableZIPWriter.flushCurrentStream
  rw [zip_get_bind]
  cases hc : z.currentStream with
  | none => exact h
  | some i =>
    dsimp only
    cases hs : z.streams[i]? with
    | none => exact h
    | some s =>
      refine Ends.bind (((SameStreams.flushZIPStream d s).ends z).mono
        (fun _ hf => h.of_same hf) fun _ hf => h.of_same hf) fun s' z₁ _ h₁ => ?_
      exact ⟨h₁.isFinished, h₁.writeZIP64, h₁.entries⟩

theorem Lost.finishEntry (h : Lost z) : Ends (finishEntry d z) Lost Lost := by
  refine Ends.bind h.flushCurrentStream fun _ z₁ _ h₁ => ?_
  rw [zip_get_bind]
  cases hc : z₁.currentEntry with
  | none => exact h₁
  | some e =>
    have hpatch := ((SameStreams.patchHeader e).ends z₁).mono (fun _ hs => h₁.of_same hs)
      fun _ hs => h₁.of_same hs
    by_cases hl : (!z₁.writeZIP64 && decide (TooLarge e)) = true
    · simp only [if_pos hl]
      exact h₁
    · simp only [if_neg hl]
      exact hpatch

/-- A lost writer whose entries are closed. -/
theorem Lost.closeEntry (h : Lost z) :
    Ends (closeEntry d z) (fun z' => Lost z' ∧ z'.entries ≠ [] ∧ z'.currentEntry = none) Lost := by
  have hforget : ∀ t : PortableZIPWriter σ, Lost t → Ends (forgetEntry t)
      (fun z' => Lost z' ∧ z'.entries ≠ [] ∧ z'.currentEntry = none) Lost := by
    intro t ht
    have hne : t.entries ++ t.currentEntry.toList ≠ [] := by
      rcases ht.entries with he | hc
      · simp [he]
      · obtain ⟨e, he⟩ := Option.ne_none_iff_exists'.1 hc
        simp [he]
    exact ⟨⟨ht.isFinished, ht.writeZIP64, .inl hne⟩, hne, rfl⟩
  unfold PortableZIPWriter.closeEntry
  rw [zip_get_bind]
  simp only [h.isFinished, Bool.false_eq_true, if_false]
  rw [zip_get_bind]
  by_cases hc : z.currentEntry.isSome = true
  · simp only [if_pos hc]
    exact Ends.bind h.finishEntry fun _ t _ ht => hforget t ht
  · simp only [if_neg hc]
    exact hforget z h

theorem Lost.beginEntry (h : Lost z) (name : List UInt8) :
    Lost (finalState (beginEntry d name z)) := by
  obtain ⟨z', hz', hw, hc⟩ := beginEntry_within (d := d) z name
  have hlost : Lost z' := by
    rw [hw]
    exact ⟨h.isFinished, h.writeZIP64, .inr hc⟩
  rw [hz', newStream_eq]
  by_cases hk : z'.currentEntryKey = 0
  · rw [if_pos hk]
    exact hlost
  · rw [if_neg hk]
    exact ⟨hlost.isFinished, hlost.writeZIP64, hlost.entries⟩

theorem Lost.createEntry (h : Lost z) (name : List UInt8) :
    Lost (finalState (createEntry d name z)) := by
  cases hc : PortableZIPWriter.closeEntry d z with
  | error e z₁ =>
    have h₁ := (h.closeEntry (d := d))
    rw [hc] at h₁
    rw [PortableZIPWriter.createEntry, zip_get_bind]
    simp only [h.isFinished, Bool.false_eq_true, if_false]
    rw [bind_of_error hc]
    exact h₁
  | ok u z₁ =>
    have h₁ := (h.closeEntry (d := d))
    rw [hc] at h₁
    have hkeys : Lost { z₁ with
        currentEntryKey := z₁.nextEntryKey, nextEntryKey := z₁.nextEntryKey + 1 } :=
      ⟨h₁.1.isFinished, h₁.1.writeZIP64, h₁.1.entries⟩
    rw [createEntry_eq h.isFinished hc]
    by_cases hmax : zipFileMaxEntries ≤ z₁.nextEntryKey + 1
    · rw [if_pos hmax]
      exact hkeys
    rw [if_neg hmax]
    by_cases hlen : zipFileMaxFileNameLength < (removeLeadingPathDelimiter name).length
    · rw [if_pos hlen]
      exact hkeys
    rw [if_neg hlen]
    exact hkeys.beginEntry _

/-- A lost writer reads through a null pointer at the first entry. -/
theorem Lost.writeDirectory (h : Lost z) :
    ∃ e z', writeDirectory d z = .error e z' ∧ Lost z' := by
  have hclose := h.closeEntry (d := d)
  cases hc : PortableZIPWriter.closeEntry d z with
  | error e z₁ =>
    rw [hc] at hclose
    exact ⟨e, z₁, bind_of_error hc, hclose⟩
  | ok u z₁ =>
    rw [hc] at hclose
    obtain ⟨hlost, hne, hnone⟩ := hclose
    refine ⟨.nullEntry, z₁, (bind_of_ok hc).trans ?_, hlost⟩
    rw [zip_get_bind]
    refine bind_of_error ?_
    cases hl : z₁.entries with
    | nil => exact absurd hl hne
    | cons e l =>
      have hcheck : checkCurrentEntry z₁ = .error .nullEntry z₁ := by
        rw [checkCurrentEntry, zip_get_bind]
        simp only [hnone]
        rfl
      show (writeDirectoryEntry e >>= fun _ => l.forM writeDirectoryEntry) z₁ = _
      refine bind_of_error ?_
      rw [writeDirectoryEntry, zip_get_bind]
      simp only [hlost.writeZIP64, Bool.not_false, if_true]
      exact bind_of_error hcheck

theorem Lost.writeStream (h : Lost z) (i : Nat) (bytes : List UInt8) :
    Lost (finalState (writeStream d i bytes z)) := by
  unfold PortableZIPWriter.writeStream
  rw [zip_get_bind]
  cases hs : z.streams[i]? with
  | none => exact h
  | some s =>
    refine (Ends.bind (((SameStreams.writeBuffer d s bytes).ends z).mono
      (fun _ hf => h.of_same hf) fun _ hf => h.of_same hf) fun s' z₁ _ h₁ => ?_).final
      (fun _ h => h) fun _ h => h
    exact ⟨h₁.isFinished, h₁.writeZIP64, h₁.entries⟩

end NMR
