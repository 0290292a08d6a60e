import Lib3MF.Lib.Run
import Lib3MF.Common.Platform.MemoryStreams

/-!
# Memory streams are seekable files

A stream stands for the file of its bytes and its position (`Stands`). A call follows the file when
it replies, throws and moves as the file does (`Follows`). An import stream does, unless the sum of
`seekForward` wraps; an export stream, unless a seek that need not succeed leaves the file, or the
sum of a call wraps (`ExportGuard`). A run is that of a seekable file exactly when all its calls meet
these conditions (`memoryStreams_iff`).
-/

namespace NMR

open Lib

/-- Two results agree: the same reply or fault, with states that correspond. -/
def Agrees {σ τ α : Type} (R : σ → τ → Prop) :
    EStateM.Result StreamFault σ α → EStateM.Result StreamFault τ α → Prop
  | .ok a s, .ok b t => a = b ∧ R s t
  | .error e s, .error e' t => e = e' ∧ R s t
  | _, _ => False

section

variable {σ τ α β : Type} {R : σ → τ → Prop}

theorem Agrees.bind_pure {x : EStateM StreamFault σ α} {y : EStateM StreamFault τ α} {s : σ} {t : τ}
    {f : α → β} (hf : ∀ a b, f a = f b → a = b) :
    Agrees R ((do return f (← x)) s) ((do return f (← y)) t) ↔ Agrees R (x s) (y t) := by
  show Agrees R (EStateM.bind x _ s) (EStateM.bind y _ t) ↔ _
  unfold EStateM.bind
  cases x s <;> cases y t <;> simp only [Agrees]
  · exact ⟨fun h => ⟨hf _ _ h.1, h.2⟩, fun h => ⟨congrArg f h.1, h.2⟩⟩
  all_goals exact Iff.rfl

theorem Agrees.finalState {x : EStateM.Result StreamFault σ α} {y : EStateM.Result StreamFault τ α}
    (h : Agrees R x y) : R (finalState x) (Lib.finalState y) := by
  cases x <;> cases y
  · exact h.2
  · exact h.elim
  · exact h.elim
  · exact h.2

theorem agrees_refuse {must : Bool} {s : σ} {t : τ} (h : R s t) :
    Agrees R (refuse must s) (refuse must t) := by
  cases must <;> exact ⟨rfl, h⟩

theorem not_agrees_refuse {must : Bool} {s : σ} {t : τ} :
    ¬ Agrees R (.ok true s) (refuse must t) := by
  cases must
  · intro h
    cases h.1
  · exact id

end

/-! ## Import streams -/

namespace ImportStreamMemory

variable {s : ImportStreamMemory} {c : ImportCall}

/-- The position does not exceed the size. -/
def Sane (s : ImportStreamMemory) : Prop := s.position ≤ s.buffer.length

/-- The file the stream is. -/
def file (s : ImportStreamMemory) (h : s.Sane) : SeekableFile UInt8 := ⟨s.buffer, s.position, h⟩

/-- The stream stands for the file. -/
def Stands (s : ImportStreamMemory) (f : SeekableFile UInt8) : Prop :=
  f.data = s.buffer ∧ f.position = s.position

/-- The call replies, throws and moves as it does on the file. -/
def Follows (s : ImportStreamMemory) (c : ImportCall) : Prop :=
  ∃ h : s.Sane, Agrees Stands (perform c s) (FileCalls.performImport c (s.file h))

/-- In every state of the run the position is in the file, and every call is one of the file. -/
def RefinesFile (s : ImportStreamMemory) (calls : List ImportCall) : Prop :=
  (∀ t, Reaches next s calls t → t.Sane) ∧ Guarded next Follows s calls

/-- The calls whose sum does not wrap. -/
def ImportGuard (s : ImportStreamMemory) : ImportCall → Prop
  | .seek .current cbBytes _ => s.position + cbBytes.toNat < 2 ^ 64
  | _ => True

instance (s : ImportStreamMemory) (c : ImportCall) : Decidable (s.ImportGuard c) := by
  unfold ImportGuard
  split <;> infer_instance

theorem agrees_seek (h : s.Sane) {o : Origin} {n : BitVec 64} {must : Bool}
    {x : EStateM.Result StreamFault ImportStreamMemory Bool}
    (hin : (s.file h).Within ((s.file h).target o n.toNat) →
      x = .ok true { s with position := ((s.file h).target o n.toNat).toNat })
    (hout : ¬ (s.file h).Within ((s.file h).target o n.toNat) → x = refuse must s) :
    Agrees Stands x (FileCalls.seek o n must (s.file h)) := by
  unfold FileCalls.seek
  by_cases hw : (s.file h).Within ((s.file h).target o n.toNat)
  · rw [hin hw, SeekableFile.seek_of_within hw]
    exact ⟨rfl, rfl, rfl⟩
  · rw [hout hw, SeekableFile.seek_of_not_within hw]
    exact agrees_refuse ⟨rfl, rfl⟩

theorem follows_seek_iff (h : s.Sane) {o : Origin} {n : BitVec 64} {must : Bool} :
    Follows s (.seek o n must) ↔
      Agrees Stands (seek o n must s) (FileCalls.seek o n must (s.file h)) := by
  unfold Follows
  rw [exists_prop_of_true h]
  exact Agrees.bind_pure fun a b hab => StreamReply.sought.inj hab

/-- The position a wrapped sum is at is in front of the one it started from. -/
theorem seekForward_wraps (h : s.Sane) {n : BitVec 64} (must : Bool)
    (hwrap : 2 ^ 64 ≤ s.position + n.toNat) :
    seekForward n must s = .ok true { s with position := s.position + n.toNat - 2 ^ 64 } := by
  have hs : s.position ≤ s.buffer.length := h
  have hsmall := s.small
  have hn := n.isLt
  have hmax : importStreamMaxMemStreamSize < 2 ^ 64 := by decide
  have hsum : (s.position + n.toNat) % 2 ^ 64 = s.position + n.toNat - 2 ^ 64 := by
    rw [Nat.mod_eq_sub_mod hwrap, Nat.mod_eq_of_lt (by omega)]
  simp only [seekForward, hsum]
  rw [if_neg (by omega)]

theorem follows_read (h : s.Sane) (n : BitVec 64) (all : Bool) : Follows s (.readBuffer n all) := by
  have hs : s.position ≤ s.buffer.length := h
  refine ⟨h, (Agrees.bind_pure fun a b hab => StreamReply.read.inj hab).2 ?_⟩
  have hlen : ((s.file h).read n.toNat).length = min n.toNat (s.buffer.length - s.position) :=
    SeekableFile.length_read
  have hread : (s.file h).read n.toNat =
      (s.buffer.drop s.position).take (min n.toNat (s.buffer.length - s.position)) := by
    rw [← List.length_drop, ← List.take_take, List.take_length]
    rfl
  unfold readBuffer FileCalls.read
  rw [if_neg (by omega)]
  dsimp only
  by_cases hshort : min n.toNat (s.buffer.length - s.position) ≠ n.toNat ∧ all
  · rw [if_pos hshort, if_pos ⟨by omega, hshort.2⟩]
    exact ⟨rfl, rfl, congrArg _ hlen⟩
  · rw [if_neg hshort, if_neg fun hlt => hshort ⟨by omega, hlt.2⟩]
    exact ⟨hread.symm, rfl, congrArg _ hlen⟩

/-- A call follows the file exactly when its sum does not wrap. -/
theorem follows_iff (h : s.Sane) (c : ImportCall) : Follows s c ↔ s.ImportGuard c := by
  have hs : s.position ≤ s.buffer.length := h
  cases c with
  | readBuffer n all => exact iff_of_true (follows_read h n all) trivial
  | seek o n must =>
    rw [follows_seek_iff h]
    cases o with
    | start =>
      refine iff_of_true (agrees_seek h (fun hw => ?_) fun hw => ?_) trivial
      · have hle : n.toNat ≤ s.buffer.length := SeekableFile.within_start.1 hw
        exact if_neg (by omega)
      · have hle : ¬ n.toNat ≤ s.buffer.length := fun hle => hw (SeekableFile.within_start.2 hle)
        exact if_pos (by omega)
    | current =>
      by_cases hwrap : s.position + n.toNat < 2 ^ 64
      · refine iff_of_true (agrees_seek h (fun hw => ?_) fun hw => ?_) hwrap
        · have hle : s.position + n.toNat ≤ s.buffer.length := SeekableFile.within_current.1 hw
          show seekForward n must s = _
          simp only [seekForward, Nat.mod_eq_of_lt hwrap]
          rw [if_neg (by omega)]
          rfl
        · have hle : ¬ s.position + n.toNat ≤ s.buffer.length :=
            fun hle => hw (SeekableFile.within_current.2 hle)
          show seekForward n must s = _
          simp only [seekForward, Nat.mod_eq_of_lt hwrap]
          rw [if_pos (by omega)]
      · refine iff_of_false (fun ha => ?_) hwrap
        -- the exact target is behind the end, but the call reports success
        have hw : ¬ (s.file h).Within ((s.file h).target .current n.toNat) := fun hw => by
          have hle : s.position + n.toNat ≤ s.buffer.length := SeekableFile.within_current.1 hw
          have hsmall := s.small
          have hmax : importStreamMaxMemStreamSize < 2 ^ 64 := by decide
          omega
        have ha' : Agrees Stands (seekForward n must s) (FileCalls.seek .current n must (s.file h)) :=
          ha
        rw [seekForward_wraps h must (by omega), FileCalls.seek,
          SeekableFile.seek_of_not_within hw] at ha'
        exact not_agrees_refuse ha'
    | finish =>
      refine iff_of_true (agrees_seek h (fun hw => ?_) fun hw => ?_) trivial
      · have hle : n.toNat ≤ s.buffer.length := SeekableFile.within_finish.1 hw
        show seekFromEnd n must s = _
        rw [seekFromEnd, if_neg (by omega)]
        congr 2
        show _ = ((s.buffer.length : ℤ) - n.toNat).toNat
        omega
      · have hle : ¬ n.toNat ≤ s.buffer.length := fun hle => hw (SeekableFile.within_finish.2 hle)
        exact if_pos (by omega)

theorem sane_of_follows (h : Follows s c) : (next s c).Sane := by
  obtain ⟨hs, hf⟩ := h
  obtain ⟨hd, hp⟩ := hf.finalState
  have hle := (finalState (FileCalls.performImport c (s.file hs))).position_le
  rw [hd, hp] at hle
  exact hle

/-- Where the sum does not wrap the call is one of the file, and the position stays in it. -/
theorem step_iff (h : s.Sane) (c : ImportCall) :
    (next s c).Sane ∧ Follows s c ↔ s.ImportGuard c := by
  rw [← follows_iff h c]
  exact ⟨fun hf => hf.2, fun hf => ⟨sane_of_follows hf, hf⟩⟩

end ImportStreamMemory

/-! ## Export streams -/

namespace MemoryExport

variable {s : ExportStreamMemory} {c : ExportCall}

/-- The position does not exceed the size, the size of a vector. -/
structure Sane (s : ExportStreamMemory) : Prop where
  position_le : s.position ≤ s.buffer.length
  size_le : s.buffer.length ≤ vectorMaxSize

/-- The file the stream is. -/
def file (s : ExportStreamMemory) (h : Sane s) : SeekableFile UInt8 :=
  ⟨s.buffer, s.position, h.position_le⟩

/-- The stream stands for the file. -/
def Stands (s : ExportStreamMemory) (f : SeekableFile UInt8) : Prop :=
  f.data = s.buffer ∧ f.position = s.position

/-- The call replies, throws and moves as it does on the file. -/
def Follows (s : ExportStreamMemory) (c : ExportCall) : Prop :=
  ∃ h : Sane s, Agrees Stands (perform c s) (FileCalls.performExport c (file s h))

/-- In every state of the run the position is in the file, and every call is one of the file. -/
def RefinesFile (s : ExportStreamMemory) (calls : List ExportCall) : Prop :=
  (∀ t, Reaches next s calls t → Sane t) ∧ Guarded next Follows s calls

/-- A seek whose exact target lies in the file, or which has to succeed and whose sum does not wrap;
a write whose end does not wrap. -/
def ExportGuard (s : ExportStreamMemory) : ExportCall → Prop
  | .seek .start cbBytes must => cbBytes.toNat ≤ s.buffer.length ∨ must
  | .seek .current cbBytes must => s.position + cbBytes.toNat ≤ s.buffer.length ∨
      must ∧ s.position + cbBytes.toNat < 2 ^ 64
  | .seek .finish cbBytes must => cbBytes.toNat ≤ s.buffer.length ∨ must
  | .writeBuffer b => s.position + b.bytes.length < 2 ^ 64

theorem follows_seek_iff (h : Sane s) {o : Origin} {n : BitVec 64} {must : Bool} :
    Follows s (.seek o n must) ↔
      Agrees Stands (seek o n must s) (FileCalls.seek o n must (file s h)) := by
  unfold Follows
  rw [exists_prop_of_true h]
  exact Agrees.bind_pure fun a b hab => StreamReply.sought.inj hab

/-- A seek in the file, and one that throws. -/
theorem agrees_seek (h : Sane s) {o : Origin} {n : BitVec 64} {must : Bool}
    (hin : (file s h).Within ((file s h).target o n.toNat) →
      seek o n must s = .ok true { s with position := ((file s h).target o n.toNat).toNat })
    (hout : ¬ (file s h).Within ((file s h).target o n.toNat) →
      must ∧ seek o n must s = .error (.throws .couldNotSeekStream) s) :
    Agrees Stands (seek o n must s) (FileCalls.seek o n must (file s h)) := by
  unfold FileCalls.seek
  by_cases hw : (file s h).Within ((file s h).target o n.toNat)
  · rw [hin hw, SeekableFile.seek_of_within hw]
    exact ⟨rfl, rfl, rfl⟩
  · obtain ⟨rfl, hx⟩ := hout hw
    rw [hx, SeekableFile.seek_of_not_within hw]
    exact ⟨rfl, rfl, rfl⟩

/-- A seek that leaves the file and reports success. -/
theorem not_agrees_seek (h : Sane s) {o : Origin} {n : BitVec 64} {must : Bool}
    {t : ExportStreamMemory} (hw : ¬ (file s h).Within ((file s h).target o n.toNat))
    (hx : seek o n must s = .ok true t) :
    ¬ Agrees Stands (seek o n must s) (FileCalls.seek o n must (file s h)) := by
  rw [hx, FileCalls.seek, SeekableFile.seek_of_not_within hw]
  exact not_agrees_refuse

theorem agrees_write (h : Sane s) {b : CallerBytes} (hfit : s.position + b.bytes.length < 2 ^ 64) :
    Agrees Stands (writeBuffer b s) (FileCalls.write b (file s h)) := by
  have hp := h.position_le
  have hsize := h.size_le
  have hwrite {t : ExportStreamMemory} {x : Unit} (hr : resize (s.position + b.bytes.length) s =
      .ok x t) : writeBuffer b s = store b.bytes t := by
    unfold writeBuffer
    rw [get_bind, Nat.mod_eq_of_lt hfit, bind_of_ok hr]
  by_cases hle : s.position + b.bytes.length ≤ s.buffer.length
  · have hfile : FileCalls.write b (file s h) = .ok b.bytes.length ((file s h).write b.bytes) :=
      if_neg (show ¬ vectorMaxSize < s.position + b.bytes.length by omega)
    rw [hwrite (if_pos hle), hfile, store, if_neg (by omega)]
    exact ⟨rfl, rfl, rfl⟩
  · by_cases hmax : vectorMaxSize < s.position + b.bytes.length
    · have hr : resize (s.position + b.bytes.length) s = .error (.throws .lengthError) s := by
        rw [resize, if_neg hle, if_pos hmax]
      have hfile : FileCalls.write b (file s h) = .error (.throws .lengthError) (file s h) :=
        if_pos hmax
      unfold writeBuffer
      rw [get_bind, Nat.mod_eq_of_lt hfit, bind_of_error hr, hfile]
      exact ⟨rfl, rfl, rfl⟩
    · let zeros : List UInt8 := .replicate (s.position + b.bytes.length - s.buffer.length) 0
      have hr : resize (s.position + b.bytes.length) s = .ok () ⟨s.buffer ++ zeros, s.position⟩ := by
        rw [resize, if_neg hle, if_neg hmax]
      have hlen : (s.buffer ++ zeros).length = s.position + b.bytes.length := by
        rw [List.length_append, List.length_replicate]
        omega
      have hfile : FileCalls.write b (file s h) = .ok b.bytes.length ((file s h).write b.bytes) :=
        if_neg hmax
      rw [hwrite hr, hfile, store, if_neg (by rw [hlen]; exact Nat.lt_irrefl _)]
      refine ⟨rfl, ?_, rfl⟩
      show s.buffer.take s.position ++ b.bytes ++ s.buffer.drop (s.position + b.bytes.length) =
        (s.buffer ++ zeros).take s.position ++ b.bytes ++
          (s.buffer ++ zeros).drop (s.position + b.bytes.length)
      rw [List.take_append_of_le_length hp, List.drop_of_length_le hlen.le,
        List.drop_of_length_le (by omega)]

/-- Where the end of what is written wraps, there is no room for it. -/
theorem not_agrees_write (h : Sane s) {b : CallerBytes}
    (hwrap : 2 ^ 64 ≤ s.position + b.bytes.length) :
    ¬ Agrees Stands (writeBuffer b s) (FileCalls.write b (file s h)) := by
  have hp := h.position_le
  have hsize := h.size_le
  have hb := b.small
  have hmax : vectorMaxSize < 2 ^ 63 := by decide
  have hend : (s.position + b.bytes.length) % 2 ^ 64 ≤ s.buffer.length := by
    rw [Nat.mod_eq_sub_mod hwrap, Nat.mod_eq_of_lt (by omega)]
    omega
  have hr : resize ((s.position + b.bytes.length) % 2 ^ 64) s = .ok () s := if_pos hend
  have hw : writeBuffer b s = .error .undefined s := by
    unfold writeBuffer
    rw [get_bind, bind_of_ok hr, store, if_pos (by omega)]
  have hfile : FileCalls.write b (file s h) = .error (.throws .lengthError) (file s h) :=
    if_pos (show vectorMaxSize < s.position + b.bytes.length by omega)
  rw [hw, hfile]
  exact fun ha => StreamFault.noConfusion ha.1

/-- A call follows the file exactly when it meets the guard. -/
theorem follows_iff (h : Sane s) (c : ExportCall) : Follows s c ↔ ExportGuard s c := by
  have hp := h.position_le
  have hsize := h.size_le
  have hmax : vectorMaxSize < 2 ^ 63 := by decide
  cases c with
  | writeBuffer b =>
    have hfollows : Follows s (.writeBuffer b) ↔
        Agrees Stands (writeBuffer b s) (FileCalls.write b (file s h)) := by
      unfold Follows
      rw [exists_prop_of_true h]
      exact Agrees.bind_pure fun a b hab => StreamReply.written.inj hab
    rw [hfollows]
    refine ⟨fun ha => ?_, agrees_write h⟩
    by_contra hwrap
    exact not_agrees_write h (Nat.not_lt.1 hwrap) ha
  | seek o n must =>
    rw [follows_seek_iff h]
    cases o with
    | start =>
      by_cases hle : n.toNat ≤ s.buffer.length
      · refine iff_of_true (agrees_seek h (fun _ => ?_) fun hw => ?_) (.inl hle)
        · exact if_neg fun hlt => by omega
        · exact absurd (SeekableFile.within_start.2 hle) hw
      · have hw : ¬ (file s h).Within ((file s h).target .start n.toNat) :=
          fun hw => hle (SeekableFile.within_start.1 hw)
        cases must with
        | true =>
          refine iff_of_true (agrees_seek h (fun hin => absurd hin hw) fun _ => ⟨rfl, ?_⟩) (.inr rfl)
          exact if_pos ⟨by omega, rfl⟩
        | false =>
          refine iff_of_false (not_agrees_seek h hw (if_neg fun hm => ?_)) ?_
          · exact absurd hm.2 (by decide)
          · exact fun hg => hg.elim hle (by decide)
    | current =>
      by_cases hle : s.position + n.toNat ≤ s.buffer.length
      · refine iff_of_true (agrees_seek h (fun _ => ?_) fun hw => ?_) (.inl hle)
        · show seekForward n must s = _
          rw [seekForward, Nat.mod_eq_of_lt (by omega), if_neg fun hlt => by omega, Nat.add_comm]
          rfl
        · exact absurd (SeekableFile.within_current.2 hle) hw
      · have hw : ¬ (file s h).Within ((file s h).target .current n.toNat) :=
          fun hw => hle (SeekableFile.within_current.1 hw)
        by_cases hthrows : must ∧ s.position + n.toNat < 2 ^ 64
        · obtain ⟨rfl, hlt⟩ := hthrows
          refine iff_of_true (agrees_seek h (fun hin => absurd hin hw) fun _ => ⟨rfl, ?_⟩)
            (.inr ⟨rfl, hlt⟩)
          refine if_pos ⟨?_, rfl⟩
          rw [Nat.add_comm, Nat.mod_eq_of_lt hlt]
          omega
        · -- the call succeeds: nobody asks it to throw, or it has wrapped into the file
          refine iff_of_false (not_agrees_seek h hw (if_neg fun hm => hthrows ⟨hm.2, ?_⟩))
            fun hg => hg.elim hle hthrows
          by_contra hwrap
          have hn := n.isLt
          have hlt := hm.1
          rw [Nat.mod_eq_sub_mod (by omega), Nat.mod_eq_of_lt (by omega)] at hlt
          omega
    | finish =>
      by_cases hle : n.toNat ≤ s.buffer.length
      · refine iff_of_true (agrees_seek h (fun _ => ?_) fun hw => ?_) (.inl hle)
        · show seekFromEnd n must s = _
          rw [seekFromEnd, if_neg fun hlt => by omega]
          congr 2
          show _ = ((s.buffer.length : ℤ) - n.toNat).toNat
          omega
        · exact absurd (SeekableFile.within_finish.2 hle) hw
      · have hw : ¬ (file s h).Within ((file s h).target .finish n.toNat) :=
          fun hw => hle (SeekableFile.within_finish.1 hw)
        cases must with
        | true =>
          refine iff_of_true (agrees_seek h (fun hin => absurd hin hw) fun _ => ⟨rfl, ?_⟩) (.inr rfl)
          exact if_pos ⟨by omega, rfl⟩
        | false =>
          refine iff_of_false (not_agrees_seek h hw (if_neg fun hm => ?_)) ?_
          · exact absurd hm.2 (by decide)
          · exact fun hg => hg.elim hle (by decide)

/-- The buffer of a stream stays the size of a vector. -/
def SizeLe (s : ExportStreamMemory) : Prop := s.buffer.length ≤ vectorMaxSize

/-- Stated for any position, so that no wrapped one is computed. -/
theorem buffer_ok {ε α : Type} (a : α) (buffer : List UInt8) (position : Nat) :
    (finalState (EStateM.Result.ok a ⟨buffer, position⟩ :
      EStateM.Result ε ExportStreamMemory α)).buffer = buffer := rfl

theorem buffer_seek (o : Origin) (n : BitVec 64) (must : Bool) :
    (finalState (seek o n must s)).buffer = s.buffer := by
  cases o
  · show (finalState (seekPosition n must s)).buffer = _
    unfold seekPosition
    split_ifs
    · rfl
    · exact buffer_ok _ _ _
  · show (finalState (seekForward n must s)).buffer = _
    unfold seekForward
    split_ifs
    · rfl
    · exact buffer_ok _ _ _
  · show (finalState (seekFromEnd n must s)).buffer = _
    unfold seekFromEnd
    split_ifs
    · rfl
    · exact buffer_ok _ _ _

theorem sizeLe_resize (hs : SizeLe s) (size : Nat) : SizeLe (finalState (resize size s)) := by
  unfold resize
  split_ifs with hle hmax
  · exact hs
  · exact hs
  · show (s.buffer ++ List.replicate (size - s.buffer.length) 0).length ≤ vectorMaxSize
    rw [List.length_append, List.length_replicate]
    omega

theorem sizeLe_store (hs : SizeLe s) (bytes : List UInt8) :
    SizeLe (finalState (store bytes s)) := by
  have hsize : s.buffer.length ≤ vectorMaxSize := hs
  unfold store
  split_ifs with hlt
  · exact hs
  · show (s.buffer.take s.position ++ bytes ++ s.buffer.drop (s.position + bytes.length)).length ≤
      vectorMaxSize
    simp only [List.length_append, List.length_take, List.length_drop]
    omega

theorem sizeLe_next (hs : SizeLe s) (c : ExportCall) : SizeLe (next s c) := by
  cases c with
  | seek o n must =>
    have hseek : SizeLe (finalState (seek o n must s)) := by
      unfold SizeLe
      rw [buffer_seek]
      exact hs
    show SizeLe (finalState (EStateM.bind (seek o n must) _ s))
    unfold EStateM.bind
    cases hx : seek o n must s <;> rw [hx] at hseek <;> exact hseek
  | writeBuffer b =>
    have hwrite : SizeLe (finalState (writeBuffer b s)) := by
      unfold writeBuffer
      rw [get_bind]
      have hresize := sizeLe_resize hs ((s.position + b.bytes.length) % 2 ^ 64)
      cases hx : resize ((s.position + b.bytes.length) % 2 ^ 64) s with
      | ok u t =>
        rw [hx] at hresize
        rw [bind_of_ok hx]
        exact sizeLe_store hresize b.bytes
      | error e t =>
        rw [hx] at hresize
        rw [bind_of_error hx]
        exact hresize
    show SizeLe (finalState (EStateM.bind (writeBuffer b) _ s))
    unfold EStateM.bind
    cases hx : writeBuffer b s <;> rw [hx] at hwrite <;> exact hwrite

/-- A call meets the guard exactly when it is one of the file and leaves the position in it. -/
theorem step_iff (h : Sane s) (c : ExportCall) :
    Sane (next s c) ∧ Follows s c ↔ ExportGuard s c := by
  rw [← follows_iff h c]
  refine ⟨fun hf => hf.2, fun hf => ⟨⟨?_, sizeLe_next h.size_le c⟩, hf⟩⟩
  obtain ⟨hs, hf⟩ := hf
  obtain ⟨hd, hp⟩ := hf.finalState
  have hle := (finalState (FileCalls.performExport c (file s hs))).position_le
  rw [hd, hp] at hle
  exact hle

theorem sane_new : Sane .new := ⟨Nat.zero_le _, Nat.zero_le _⟩

end MemoryExport

/-- A buffer the import streams take. -/
structure MemoryBuffer where
  bytes : List UInt8
  small : bytes.length ≤ importStreamMaxMemStreamSize

/-- The stream over it. -/
def MemoryBuffer.stream (b : MemoryBuffer) : ImportStreamMemory := ⟨b.bytes, 0, b.small⟩

theorem MemoryBuffer.new_bytes (b : MemoryBuffer) : ImportStreamMemory.new b.bytes = .ok b.stream :=
  dif_pos b.small

/-- **The memory streams refine a seekable file** in exactly the runs whose calls meet the guards. -/
theorem memoryStreams_iff (b : MemoryBuffer) (imports : List ImportCall)
    (exports : List ExportCall) :
    (b.stream.RefinesFile imports ↔
      Guarded ImportStreamMemory.next ImportStreamMemory.ImportGuard b.stream imports) ∧
    (MemoryExport.RefinesFile .new exports ↔
      Guarded MemoryExport.next MemoryExport.ExportGuard .new exports) :=
  ⟨guarded_and_iff ImportStreamMemory.Sane (Nat.zero_le _) fun _ c h =>
      ImportStreamMemory.step_iff h c,
    guarded_and_iff MemoryExport.Sane MemoryExport.sane_new fun _ c h =>
      MemoryExport.step_iff h c⟩

/-- **Seeks that report success outside of the file**: behind the end of an empty export stream,
and at a sum that wraps in an import stream of one byte. -/
theorem seeks_leave_file :
    ¬ MemoryExport.RefinesFile .new [.seek .start 1 false] ∧
    ¬ (MemoryBuffer.stream ⟨[0], by decide⟩).RefinesFile
      [.seek .start 1 true, .seek .current (BitVec.ofNat 64 (2 ^ 64 - 1)) true] := by
  refine ⟨fun h => ?_, fun h => ?_⟩
  · have hp := (h.1 _ (reaches_run _ _)).position_le
    exact absurd hp (by decide)
  · obtain ⟨-, -, ⟨hs, hf⟩, -⟩ := h
    exact absurd ((ImportStreamMemory.follows_iff hs _).1 ⟨hs, hf⟩) (by decide)

end NMR
