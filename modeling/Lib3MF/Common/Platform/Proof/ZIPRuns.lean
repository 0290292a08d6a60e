import Lib3MF.Common.Platform.Proof.ZIPFailures

/-!
# Runs of the ZIP writer follow their plan

Whatever the calls, the writer follows its plan, has finished the plan's archive, or cannot finish
any (`Tracks`, kept by every call: `Tracks.step`).
-/

namespace NMR

open Lib PortableZIPWriter

variable {σ : Type} {d : Deflate σ} {z64 : Bool} {s : ZIPSession σ} {p : ZIPPlan}

/-- Where a run stands, beside its plan. -/
inductive Tracks (d : Deflate σ) (z64 : Bool) (s : ZIPSession σ) (p : ZIPPlan) : Prop where
  | follows (h : Follows d z64 s.writer p) (hi : s.items = p.items)
  | finished (h : Finished d z64 s.writer p) (hi : s.items = p.items)
  | stuck (h : Stuck s.writer) (hp : p.stuck = true)
  | lost (h : Lost s.writer) (hp : p.items ≠ []) (h64 : z64 = false)

theorem ZIPSession.step_create_ok {name : List UInt8} {i : Nat} {z : PortableZIPWriter σ}
    (h : createEntry d name s.writer = .ok i z) : s.step d (.createEntry name) =
      ⟨z, s.items ++ [⟨removeLeadingPathDelimiter name, []⟩]⟩ := by
  simp only [ZIPSession.step, h]

theorem ZIPSession.step_create_error {name : List UInt8} {e : ZIPFault} {z : PortableZIPWriter σ}
    (h : createEntry d name s.writer = .error e z) :
    s.step d (.createEntry name) = ⟨z, s.items⟩ := by
  simp only [ZIPSession.step, h]

/-- With ZIP64 a new entry is the current item. -/
theorem Follows.beginEntry {z : PortableZIPWriter σ} (h : Follows d true z p)
    (hc : p.current = none) (hk : z.currentEntryKey ≠ 0) (name : List UInt8) :
    ∃ i z', beginEntry d name z = .ok i z' ∧
      Follows d true z' { p with current := some ⟨name, []⟩ } := by
  have hb := h.exportStream hc
  have hlen : z.streams.length = p.closed.length := by
    rw [h.streams, ZIPPlan.items, hc]
    simp
  refine ⟨_, _, (beginEntry_eq h.writeZIP64 (by rw [hb]) name).trans
    ((newStream_eq _).trans (if_neg hk)), ?_⟩
  refine ⟨h.writeZIP64, h.isFinished, h.finished, h.stuck, h.nextEntryKey, h.entries, ?_, .inl rfl,
    h.writeZIP64, congrArg some hlen, ⟨z.currentEntryKey, true, d.init, []⟩, ?_, rfl, rfl, rfl, [],
    rfl, ?_, ?_⟩
  · show (z.streams ++ [_]).length = _
    rw [List.length_append, hlen]
    simp [ZIPPlan.items]
  · show (z.streams ++ [_])[p.closed.length]? = _
    rw [← hlen]
    exact List.getElem?_concat_length
  · rw [List.append_nil]
    show (z.more _).exportStream = _
    rw [PortableZIPWriter.more, hb]
  · show some _ = some _
    rw [hb]

/-- Closing the current entry first, `createEntry` does what the plan does. -/
theorem Follows.createEntry (h : Follows d z64 s.writer p) (hi : s.items = p.items)
    (name : List UInt8) :
    Tracks d z64 (s.step d (.createEntry name)) (p.step (.createEntry name)) := by
  obtain ⟨z₁, hclose, h₁⟩ := h.closeEntry
  have hplan : p.step (.createEntry name) = p.create (removeLeadingPathDelimiter name) := by
    simp only [ZIPPlan.step, h.finished, h.stuck]
    rfl
  have hnext : z₁.nextEntryKey = p.nextKey := h₁.nextEntryKey
  have hcreate := createEntry_eq h.isFinished hclose name
  rw [hnext] at hcreate
  rw [hplan, ZIPPlan.create]
  -- the writer and the plan with the next key
  have hskip : Follows d z64
      { z₁ with currentEntryKey := p.nextKey, nextEntryKey := p.nextKey + 1 }
      { p.close with nextKey := p.nextKey + 1 } :=
    ⟨h₁.writeZIP64, h₁.isFinished, h₁.finished, h₁.stuck, rfl, h₁.entries, h₁.streams, h₁.mode,
      h₁.holds⟩
  by_cases hmax : zipFileMaxEntries ≤ p.nextKey + 1
  · rw [if_pos hmax] at hcreate
    rw [if_pos (.inl hmax), ZIPSession.step_create_error hcreate]
    exact .follows hskip (hi.trans p.items_close.symm)
  by_cases hlen : zipFileMaxFileNameLength < (removeLeadingPathDelimiter name).length
  · rw [if_neg hmax, if_pos hlen] at hcreate
    rw [if_pos (.inr hlen), ZIPSession.step_create_error hcreate]
    exact .follows hskip (hi.trans p.items_close.symm)
  rw [if_neg hmax, if_neg hlen] at hcreate
  rw [if_neg (not_or.2 ⟨hmax, hlen⟩)]
  by_cases hzero : p.nextKey = 0
  · rw [if_pos hzero]
    obtain ⟨z', hz', hw, hc⟩ := beginEntry_within (d := d)
      { z₁ with currentEntryKey := p.nextKey, nextEntryKey := p.nextKey + 1 }
      (removeLeadingPathDelimiter name)
    have hkey : z'.currentEntryKey = 0 := by rw [hw]; exact hzero
    have hfail := hcreate.trans (hz'.trans ((newStream_eq z').trans (if_pos hkey)))
    rw [ZIPSession.step_create_error hfail]
    refine .stuck ⟨?_, hc, ?_⟩ rfl
    · rw [hw]
      exact h₁.isFinished
    · rw [hw]
      exact h₁.holds.2.1
  rw [if_neg hzero]
  cases z64 with
  | true =>
    obtain ⟨i, z', hbegin, h'⟩ := hskip.beginEntry rfl hzero (removeLeadingPathDelimiter name)
    rw [ZIPSession.step_create_ok (hcreate.trans hbegin)]
    refine .follows h' ?_
    simp only [hi, ZIPPlan.close, ZIPPlan.items, Option.toList, List.append_assoc]
  | false =>
    obtain ⟨z', hz', hw, hc⟩ := beginEntry_within (d := d)
      { z₁ with currentEntryKey := p.nextKey, nextEntryKey := p.nextKey + 1 }
      (removeLeadingPathDelimiter name)
    have hkey : z'.currentEntryKey ≠ 0 := by rw [hw]; exact hzero
    have hlost : Lost z' := by
      refine ⟨?_, ?_, .inr hc⟩
      · rw [hw]
        exact h₁.isFinished
      · rw [hw]
        exact h₁.writeZIP64
    rw [ZIPSession.step_create_ok (hcreate.trans (hz'.trans ((newStream_eq z').trans
      (if_neg hkey))))]
    exact .lost ⟨hlost.isFinished, hlost.writeZIP64, hlost.entries⟩ (by simp [ZIPPlan.items]) rfl

theorem ZIPPlan.items_create (p : ZIPPlan) (name : List UInt8) :
    ∃ l, (p.create name).items = p.items ++ l := by
  rw [ZIPPlan.create]
  by_cases hskip : zipFileMaxEntries ≤ p.nextKey + 1 ∨ zipFileMaxFileNameLength < name.length
  · rw [if_pos hskip]
    exact ⟨[], by simp [ZIPPlan.items, ZIPPlan.close]⟩
  · rw [if_neg hskip]
    by_cases hzero : p.nextKey = 0
    · rw [if_pos hzero]
      exact ⟨[], by simp [ZIPPlan.items, ZIPPlan.close]⟩
    · rw [if_neg hzero]
      exact ⟨[⟨name, []⟩], by simp [ZIPPlan.items, ZIPPlan.close]⟩

/-- No entry of a plan is lost. -/
theorem ZIPPlan.items_step (hp : p.items ≠ []) (c : ZIPCall) : (p.step c).items ≠ [] := by
  cases c with
  | createEntry name =>
    simp only [ZIPPlan.step]
    split
    · exact hp
    · obtain ⟨l, hl⟩ := p.items_create (removeLeadingPathDelimiter name)
      rw [hl]
      simp [hp]
  | writeBuffer i bytes =>
    simp only [ZIPPlan.step]
    split
    · cases hc : p.current with
      | none => simpa [ZIPPlan.items, hc] using hp
      | some x => simp [ZIPPlan.items]
    · exact hp
  | closeEntry =>
    simp only [ZIPPlan.step]
    split
    · exact hp
    · rwa [ZIPPlan.items_close]
  | writeDirectory =>
    simp only [ZIPPlan.step]
    split
    · exact hp
    · exact (ZIPPlan.items_close p).symm ▸ hp

theorem Lost.step (h : Lost s.writer) (c : ZIPCall) : Lost (s.step d c).writer := by
  rw [finalState_writer]
  cases c with
  | createEntry name => exact h.createEntry name
  | writeBuffer i bytes => exact h.writeStream i bytes
  | closeEntry => exact (h.closeEntry).final (fun _ h => h.1) fun _ h => h
  | writeDirectory =>
    obtain ⟨e, z', hz', h'⟩ := h.writeDirectory (d := d)
    show Lost (finalState (PortableZIPWriter.writeDirectory d s.writer))
    rw [hz']
    exact h'

theorem Stuck.step (h : Stuck s.writer) (hq : Quiet s.writer) (c : ZIPCall) :
    Stuck (s.step d c).writer := by
  rw [finalState_writer]
  cases c with
  | createEntry name =>
    show Stuck (finalState (PortableZIPWriter.createEntry d name s.writer))
    rw [h.createEntry]
    exact h
  | writeBuffer i bytes =>
    have hi : s.writer.currentStream ≠ some i := by rw [h.currentStream]; nofun
    obtain ⟨e, he⟩ := writeStream_rejected (d := d) hq hi bytes
    show Stuck (finalState (PortableZIPWriter.writeStream d i bytes s.writer))
    rw [he]
    exact h
  | closeEntry =>
    show Stuck (finalState (PortableZIPWriter.closeEntry d s.writer))
    rw [h.closeEntry]
    exact h
  | writeDirectory =>
    show Stuck (finalState (PortableZIPWriter.writeDirectory d s.writer))
    rw [h.writeDirectory]
    exact h

theorem ZIPPlan.stuck_step (hp : p.stuck = true) (c : ZIPCall) : (p.step c).stuck = true := by
  cases c with
  | createEntry name => simp [ZIPPlan.step, hp]
  | writeBuffer i bytes =>
    simp only [ZIPPlan.step]
    split
    · exact hp
    · exact hp
  | closeEntry => simp [ZIPPlan.step, hp]
  | writeDirectory => simp [ZIPPlan.step, hp]

theorem ZIPPlan.write_none (hc : p.current = none) (i : Nat) (bytes : List UInt8) :
    p.step (.writeBuffer i bytes) = p := by
  cases p
  cases hc
  simp [ZIPPlan.step]

/-- A finished writer takes no call. -/
theorem Finished.step (h : Finished d z64 s.writer p) (hi : s.items = p.items)
    (hq : Quiet s.writer) (c : ZIPCall) : Tracks d z64 (s.step d c) (p.step c) := by
  have hclose : PortableZIPWriter.closeEntry d s.writer =
      .error (.thrown .zipAlreadyFinished) s.writer := by
    rw [PortableZIPWriter.closeEntry, zip_get_bind]
    simp only [h.isFinished, if_true]
    rfl
  have hsame : Tracks d z64 s p := .finished h hi
  cases c with
  | createEntry name =>
    have hcreate : PortableZIPWriter.createEntry d name s.writer =
        .error (.thrown .zipAlreadyFinished) s.writer := by
      rw [PortableZIPWriter.createEntry, zip_get_bind]
      simp only [h.isFinished, if_true]
      rfl
    have hplan : p.step (.createEntry name) = p := by simp [ZIPPlan.step, h.finished]
    rwa [ZIPSession.step_create_error hcreate, hplan]
  | writeBuffer i bytes =>
    have hne : s.writer.currentStream ≠ some i := by
      rw [h.currentStream]
      exact (Option.some_ne_none i).symm
    obtain ⟨e, he⟩ := writeStream_rejected (d := d) hq hne bytes
    have hstep : s.step d (.writeBuffer i bytes) = s := by simp only [ZIPSession.step, he]
    rwa [hstep, ZIPPlan.write_none h.current]
  | closeEntry =>
    have hstep : s.step d .closeEntry = s := by
      simp only [ZIPSession.step, hclose, finalState]
    have hplan : p.step .closeEntry = p := by simp [ZIPPlan.step, h.finished]
    rwa [hstep, hplan]
  | writeDirectory =>
    have hdir : PortableZIPWriter.writeDirectory d s.writer =
        .error (.thrown .zipAlreadyFinished) s.writer := bind_of_error hclose
    have hstep : s.step d .writeDirectory = s := by
      simp only [ZIPSession.step, hdir, finalState]
    have hplan : p.step .writeDirectory = p := by simp [ZIPPlan.step, h.finished]
    rwa [hstep, hplan]

theorem modify_concat {α : Type} (l : List α) (a : α) (f : α → α) :
    (l ++ [a]).modify l.length f = l ++ [f a] := by
  induction l with
  | nil => rfl
  | cons b l ih => exact congrArg (b :: ·) ih

/-- One call, while the plan is followed. -/
theorem Follows.step (h : Follows d z64 s.writer p) (hi : s.items = p.items)
    (hq : Quiet s.writer) (c : ZIPCall) : Tracks d z64 (s.step d c) (p.step c) := by
  cases c with
  | createEntry name => exact h.createEntry hi name
  | writeBuffer i bytes =>
    by_cases hcur : s.writer.currentStream = some i
    · -- the stream of the current item
      have hholds := h.holds
      cases hc : p.current with
      | none =>
        rw [hc] at hholds
        rw [hholds.2.1] at hcur
        cases hcur
      | some x =>
        rw [hc] at hholds
        have hlen : i = p.closed.length := Option.some.inj (hcur.symm.trans hholds.2.1)
        subst hlen
        obtain ⟨z', hz', h'⟩ := h.writeStream hc bytes
        have hstep : s.step d (.writeBuffer p.closed.length bytes) =
            ⟨z', s.items.modify p.closed.length (·.append bytes)⟩ := by
          simp only [ZIPSession.step, hz']
        have hplan : p.step (.writeBuffer p.closed.length bytes) =
            { p with current := some (x.append bytes) } := by
          simp [ZIPPlan.step, hc]
        rw [hstep, hplan]
        refine .follows h' ?_
        simp only [hi, ZIPPlan.items, hc, Option.toList, modify_concat]
    · obtain ⟨e, he⟩ := writeStream_rejected (d := d) hq hcur bytes
      have hstep : s.step d (.writeBuffer i bytes) = s := by simp only [ZIPSession.step, he]
      have hplan : p.step (.writeBuffer i bytes) = p := by
        have hholds := h.holds
        cases hc : p.current with
        | none => exact ZIPPlan.write_none hc i bytes
        | some x =>
          rw [hc] at hholds
          have hne : i ≠ p.closed.length := by
            rintro rfl
            exact hcur hholds.2.1
          simp [ZIPPlan.step, hne]
      rw [hstep, hplan]
      exact .follows h hi
  | closeEntry =>
    obtain ⟨z', hz', h'⟩ := h.closeEntry
    have hplan : p.step .closeEntry = p.close := by
      simp [ZIPPlan.step, h.finished, h.stuck]
    rw [hplan]
    show Tracks d z64 ⟨finalState (PortableZIPWriter.closeEntry d s.writer), s.items⟩ _
    rw [hz']
    exact .follows h' (hi.trans p.items_close.symm)
  | writeDirectory =>
    obtain ⟨z', hz', h'⟩ := h.writeDirectory
    have hplan : p.step .writeDirectory = { p.close with finished := true } := by
      simp [ZIPPlan.step, h.finished, h.stuck]
    rw [hplan]
    show Tracks d z64 ⟨finalState (PortableZIPWriter.writeDirectory d s.writer), s.items⟩ _
    rw [hz']
    exact .finished h' (hi.trans p.items_close.symm)

/-- **One call** leads from where the run stands to where the plan says. -/
theorem Tracks.step (h : Tracks d z64 s p) (hq : Quiet s.writer) (c : ZIPCall) :
    Tracks d z64 (s.step d c) (p.step c) := by
  cases h with
  | follows h hi => exact h.step hi hq c
  | finished h hi => exact h.step hi hq c
  | stuck h hp => exact .stuck (h.step hq c) (ZIPPlan.stuck_step hp c)
  | lost h hp h64 => exact .lost (h.step c) (ZIPPlan.items_step hp c) h64

theorem Tracks.run (h : Tracks d z64 s p) (hq : Quiet s.writer) (calls : List ZIPCall) :
    Tracks d z64 (Lib.run (ZIPSession.step d) s calls) (p.run calls) := by
  induction calls generalizing s p with
  | nil => exact h
  | cons c calls ih => exact ih (h.step hq c) (hq.step c)

theorem tracks_new (d : Deflate σ) (z64 : Bool) : Tracks d z64 (.new z64) .new :=
  .follows ⟨rfl, rfl, rfl, rfl, rfl, rfl, rfl, .inr rfl, rfl, rfl, rfl⟩ rfl

end NMR
