import Lib3MF.Common.Platform.Proof.ZIPArchive

/-!
# When the ZIP writer conforms

Whatever the calls, the archive comes out well formed exactly when the plan of the calls fits
(`conforms_iff`). Without ZIP64 that is when no entry is created at all.
-/

namespace NMR

open Lib PortableZIPWriter

variable {σ : Type} {d : Deflate σ} {z64 : Bool} {p : ZIPPlan} {s : ZIPSession σ}

/-! ## The names of a plan -/

/-- Every entry of a plan has a name that is not too long. -/
def NamesFit (p : ZIPPlan) : Prop := ∀ x ∈ p.items, x.name.length ≤ zipFileMaxFileNameLength

theorem NamesFit.of_items {q : ZIPPlan} (h : NamesFit p) (hq : q.items = p.items) : NamesFit q := by
  unfold NamesFit
  rw [hq]
  exact h

theorem NamesFit.create (h : NamesFit p) (name : List UInt8) : NamesFit (p.create name) := by
  rw [ZIPPlan.create]
  by_cases hskip : zipFileMaxEntries ≤ p.nextKey + 1 ∨ zipFileMaxFileNameLength < name.length
  · rw [if_pos hskip]
    exact h.of_items (ZIPPlan.items_close p)
  rw [if_neg hskip]
  by_cases hzero : p.nextKey = 0
  · rw [if_pos hzero]
    exact h.of_items (ZIPPlan.items_close p)
  rw [if_neg hzero]
  intro x hx
  have hx' : x ∈ p.items ++ [⟨name, []⟩] := hx
  rcases List.mem_append.1 hx' with hx | hx
  · exact h x hx
  · rw [List.mem_singleton.1 hx]
    exact Nat.le_of_not_lt fun hlt => hskip (.inr hlt)

theorem NamesFit.step (h : NamesFit p) (c : ZIPCall) : NamesFit (p.step c) := by
  cases c with
  | createEntry name =>
    simp only [ZIPPlan.step]
    split
    · exact h
    · exact h.create _
  | writeBuffer i bytes =>
    simp only [ZIPPlan.step]
    split
    · intro x hx
      cases hc : p.current with
      | none =>
        rw [hc] at hx
        exact h x (by simpa [ZIPPlan.items, hc] using hx)
      | some y =>
        simp only [ZIPPlan.items, hc, Option.map_some, Option.toList, List.mem_append,
          List.mem_singleton] at hx
        rcases hx with hx | rfl
        · exact h x (by simp [ZIPPlan.items, hx])
        · exact h y (by simp [ZIPPlan.items, hc])
    · exact h
  | closeEntry =>
    simp only [ZIPPlan.step]
    split
    · exact h
    · exact h.of_items (ZIPPlan.items_close p)
  | writeDirectory =>
    simp only [ZIPPlan.step]
    split
    · exact h
    · exact h.of_items (ZIPPlan.items_close p)

theorem NamesFit.run (h : NamesFit p) (calls : List ZIPCall) : NamesFit (p.run calls) := by
  induction calls generalizing p with
  | nil => exact h
  | cons c calls ih => exact ih (h.step c)

/-! ## Finishing the archive -/

/-- An archive with no entry, in either mode. -/
theorem isArchive_nil (hd : d.Correct) (z64 : Bool) :
    IsArchive d z64 [] (archiveBytes d z64 []) := by
  cases z64 with
  | true =>
    have hzero : itemsSize d true [] + directorySize true [] = 0 := rfl
    refine (isArchive_iff hd (fun x hx => absurd hx List.not_mem_nil)).2 ⟨?_, ?_, ?_, ?_⟩
    · exact fun x hx => absurd hx List.not_mem_nil
    · rw [hzero]
      omega
    · exact .inl (Nat.two_pow_pos 16)
    · exact .inl (Nat.two_pow_pos 32)
  | false =>
    have hbytes : archiveBytes d false [] =
        zipEndOfCentralDirHeaderCodec.encode (endHeader false 0 0 0) := by
      simp [archiveBytes, itemsBytes, itemsDirectory, entriesFrom, endBytes]
    have hlen : (archiveBytes d false []).length = 22 := by
      rw [hbytes, Codec.length_encode]
      rfl
    have hend : At (archiveBytes d false [])
        ((archiveBytes d false []).length - zipEndOfCentralDirHeaderCodec.size)
        (zipEndOfCentralDirHeaderCodec.encode (endHeader false 0 0 0)) := by
      rw [hlen, hbytes]
      exact at_end [] _
    have hzero : ∀ w, Gives (BitVec.ofNat w 0) 0 (false = true) := fun w =>
      .inl (toNat_ofNat_iff.2 (Nat.two_pow_pos w))
    refine ⟨?_, ?_, fun hz => ?_, ⟨_, hend.recordAt, rfl, hzero 16, hzero 16, hzero 32, hzero 32⟩,
      hlen⟩
    · intro before x after hl
      simp at hl
    · intro before x after hl
      simp at hl
    · cases hz

/-- A finished archive is well formed when the plan fits. -/
theorem Finished.isArchive_iff (hd : d.Correct) (h : Finished d z64 s.writer p)
    (hn : NamesFit p) :
    IsArchive d z64 p.items s.writer.exportStream.buffer ↔ PlanFits d z64 p := by
  rw [h.buffer, PlanFits]
  by_cases hnil : p.items = []
  · rw [hnil]
    exact ⟨fun _ => ⟨h.stuck, .inl rfl⟩, fun _ => isArchive_nil hd z64⟩
  · obtain rfl := h.mode.resolve_right hnil
    rw [NMR.isArchive_iff hd hn]
    exact ⟨fun hr => ⟨h.stuck, .inr ⟨rfl, hr⟩⟩, fun hf => (hf.2.resolve_left hnil).2⟩

theorem destroy_finished (h : s.writer.isFinished = true) :
    ZIPSession.destroy d s.writer = .ok () s.writer := by
  rw [ZIPSession.destroy, zip_get_bind]
  simp only [h, Bool.not_true, Bool.false_eq_true, if_false]
  rfl

theorem destroy_unfinished (h : s.writer.isFinished = false) :
    ZIPSession.destroy d s.writer = writeDirectory d s.writer := by
  rw [ZIPSession.destroy, zip_get_bind]
  simp only [h, Bool.not_false, if_true]

/-- However a run goes on, its archive is well formed when its plan fits. -/
theorem Tracks.archive_iff (hd : d.Correct) (h : Tracks d z64 s p) (hn : NamesFit p) :
    (∃ z, ZIPSession.destroy d s.writer = .ok () z ∧
      IsArchive d z64 s.items z.exportStream.buffer) ↔ PlanFits d z64 p := by
  cases h with
  | follows h hi =>
    obtain ⟨z', hz', h'⟩ := h.writeDirectory
    have hfits : PlanFits d z64 { p.close with finished := true } ↔ PlanFits d z64 p := by
      have hitems : ({ p.close with finished := true } : ZIPPlan).items = p.items :=
        ZIPPlan.items_close p
      rw [PlanFits, PlanFits, hitems]
      exact Iff.rfl
    have hmain := @Finished.isArchive_iff σ d z64 _ ⟨z', s.items⟩ hd h'
      (hn.of_items (ZIPPlan.items_close p))
    rw [hfits] at hmain
    rw [destroy_unfinished h.isFinished, hz', hi, ← hmain]
    have hitems : ({ p.close with finished := true } : ZIPPlan).items = p.items :=
      ZIPPlan.items_close p
    rw [hitems]
    exact ⟨fun ⟨z, hz, ha⟩ => by cases hz; exact ha, fun ha => ⟨z', rfl, ha⟩⟩
  | finished h hi =>
    rw [destroy_finished h.isFinished, hi, ← h.isArchive_iff hd hn]
    exact ⟨fun ⟨z, hz, ha⟩ => by cases hz; exact ha, fun ha => ⟨_, rfl, ha⟩⟩
  | stuck h hp =>
    rw [destroy_unfinished h.isFinished, h.writeDirectory, PlanFits, hp]
    exact ⟨fun ⟨z, hz, _⟩ => (nomatch hz), fun hf => (nomatch hf.1)⟩
  | lost h hp h64 =>
    obtain ⟨e, z', hz', -⟩ := h.writeDirectory (d := d)
    rw [destroy_unfinished h.isFinished, hz', PlanFits, h64]
    refine ⟨fun ⟨z, hz, _⟩ => (nomatch hz), fun hf => ?_⟩
    rcases hf.2 with hnil | ⟨hfalse, -⟩
    · exact absurd hnil hp
    · cases hfalse

/-- **Every run** of the writer gives a well-formed archive exactly when its plan fits. -/
theorem conforms_iff (hd : d.Correct) (z64 : Bool) (calls : List ZIPCall) :
    Conforms d z64 calls ↔ PlanFits d z64 (ZIPPlan.new.run calls) := by
  have htracks := (tracks_new d z64).run (quiet_new z64) calls
  have hnames : NamesFit (ZIPPlan.new.run calls) :=
    NamesFit.run (fun x hx => absurd hx List.not_mem_nil) calls
  rw [← htracks.archive_iff hd hnames]
  refine ⟨fun h => h.archive, fun h => ⟨h, ?_⟩⟩
  rintro s ⟨pre, -, rfl⟩ i bytes hi
  exact writeStream_rejected ((quiet_new z64).run pre) hi bytes

/-- A deflate stream that keeps what it takes until the end, and gives for the one byte `a` what
zlib gives. -/
def keepingDeflate : Deflate (List UInt8) where
  init := []
  deflate s bytes := (s ++ bytes, [])
  finish s := if s = [97] then [0x4B, 0x04, 0x00] else 1 :: s
  inflate
    | 1 :: s => some s
    | [0x4B, 0x04, 0x00] => some [97]
    | _ => none

theorem keepingDeflate_run (inputs : List (List UInt8)) :
    keepingDeflate.run inputs = (inputs.flatten, []) := by
  induction inputs using List.reverseRecOn with
  | nil => rfl
  | append_singleton inputs input ih =>
    rw [Deflate.run_append, ih, List.flatten_concat]
    rfl

theorem keepingDeflate_correct : keepingDeflate.Correct := by
  intro inputs
  rw [Deflate.output, keepingDeflate_run]
  show keepingDeflate.inflate (if inputs.flatten = [97] then [0x4B, 0x04, 0x00]
    else 1 :: inputs.flatten) = _
  by_cases h : inputs.flatten = [97]
  · rw [if_pos h, h]
    rfl
  · rw [if_neg h]
    rfl

/-- An entry named `a` with the byte `a`, then a write too late. -/
def oneEntry : List ZIPCall :=
  [.createEntry [47, 97], .writeBuffer 0 [97], .closeEntry, .writeBuffer 0 [97], .writeDirectory]

theorem conforms_oneEntry : Conforms keepingDeflate true oneEntry := by
  refine (conforms_iff keepingDeflate_correct true oneEntry).2 ⟨by decide, .inr ⟨rfl, ?_⟩⟩
  have hitems : (ZIPPlan.new.run oneEntry).items = [⟨[97], [[97]]⟩] := by decide
  rw [hitems]
  exact ⟨by decide, by decide, .inl (by decide), .inl (by decide)⟩

/-- Without ZIP64 the first entry makes the archive unfinishable. -/
theorem oneEntry_not_conforms : ¬ Conforms keepingDeflate false oneEntry := by
  intro h
  obtain ⟨z, hz, -⟩ := h.archive
  have hfail : (match ZIPSession.destroy keepingDeflate
      (ZIPSession.after keepingDeflate false oneEntry).writer with
    | .ok _ _ => true
    | .error _ _ => false) = false := by decide +kernel
  rw [hz] at hfail
  cases hfail

end NMR
