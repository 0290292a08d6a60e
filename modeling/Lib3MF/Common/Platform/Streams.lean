import Mathlib.Data.List.Basic
import Lib3MF.Common.Exception

/-!
# Streams in memory

`CExportStreamMemory`, a buffer that grows as it is written, and reading from
`CImportStream_Shared_Memory`, whose users always seek before they read.
-/

namespace NMR

/-- `CExportStreamMemory`. -/
structure ExportStreamMemory where
  buffer : List UInt8
  position : Nat
  deriving DecidableEq

namespace ExportStreamMemory

/-- A new stream. -/
def new : ExportStreamMemory := ⟨[], 0⟩

/-- `seekPosition` that has to succeed. -/
def seekPosition (s : ExportStreamMemory) (position : Nat) : Except Error ExportStreamMemory :=
  if s.buffer.length < position then .error .couldNotSeekStream
  else .ok { s with position := position }

/-- `seekFromEnd` that has to succeed. -/
def seekFromEnd (s : ExportStreamMemory) (bytes : Nat) : Except Error ExportStreamMemory :=
  if s.buffer.length < bytes then .error .couldNotSeekStream
  else .ok { s with position := s.buffer.length - bytes }

/-- `writeBuffer`: the buffer grows as far as needed. -/
def writeBuffer (s : ExportStreamMemory) (bytes : List UInt8) : ExportStreamMemory where
  buffer :=
    (s.buffer ++ List.replicate (s.position - s.buffer.length) 0).take s.position ++ bytes ++
      s.buffer.drop (s.position + bytes.length)
  position := s.position + bytes.length

variable {s : ExportStreamMemory} {bytes : List UInt8}

/-- Writing at the end appends. -/
theorem writeBuffer_end (h : s.position = s.buffer.length) :
    s.writeBuffer bytes = ⟨s.buffer ++ bytes, (s.buffer ++ bytes).length⟩ := by
  simp [writeBuffer, h]

/-- Writing in the middle overwrites. -/
theorem writeBuffer_mid {a old b : List UInt8} (h : s.buffer = a ++ (old ++ b))
    (hp : s.position = a.length) (hl : bytes.length = old.length) :
    s.writeBuffer bytes = ⟨a ++ (bytes ++ b), a.length + bytes.length⟩ := by
  have hle : a.length ≤ s.buffer.length := by simp [h]
  have htake : (s.buffer ++ List.replicate (s.position - s.buffer.length) 0).take s.position = a := by
    rw [hp, Nat.sub_eq_zero_of_le hle, h]
    simp
  have hdrop : s.buffer.drop (s.position + bytes.length) = b := by
    rw [hp, hl, h, ← List.append_assoc, ← List.length_append, List.drop_left' rfl]
  rw [writeBuffer, htake, hdrop, hp, List.append_assoc]

theorem seekPosition_le {position : Nat} (h : position ≤ s.buffer.length) :
    s.seekPosition position = .ok { s with position := position } := by
  rw [seekPosition, if_neg (by omega)]

theorem seekPosition_zero : s.seekPosition 0 = .ok { s with position := 0 } := rfl

theorem seekFromEnd_zero : s.seekFromEnd 0 = .ok { s with position := s.buffer.length } := rfl

/-- Writing at the start overwrites. -/
theorem buffer_writeBuffer_zero (h : s.position = 0) :
    (s.writeBuffer bytes).buffer = bytes ++ s.buffer.drop bytes.length := by
  simp [writeBuffer, h]

end ExportStreamMemory

/-- `NMR_IMPORTSTREAM_MAXMEMSTREAMSIZE`. -/
def importStreamMaxMemStreamSize : Nat := 1024 * 1024 * 1024 * 1024

/-- The constructor `CImportStream_Shared_Memory`. -/
def importStreamSharedMemory (bytes : List UInt8) : Except Error (List UInt8) :=
  if importStreamMaxMemStreamSize < bytes.length then .error .invalidBufferSize else .ok bytes

/-- `seekPosition`, then `readBuffer`, both having to succeed. -/
def readAt (stream : List UInt8) (position size : Nat) : Except Error (List UInt8) :=
  if stream.length < position then .error .couldNotSeekStream
  else if stream.length < position + size then .error .couldNotReadFullData
  else .ok ((stream.drop position).take size)

theorem readAt_eq_ok {stream bytes : List UInt8} {position size : Nat} :
    readAt stream position size = .ok bytes ↔
      position + size ≤ stream.length ∧ bytes = (stream.drop position).take size := by
  unfold readAt
  split_ifs with h₁ h₂
  · simp only [false_iff, not_and]
    omega
  · simp only [false_iff, not_and]
    omega
  · rw [Except.ok.injEq, eq_comm]
    exact ⟨fun he => ⟨by omega, he⟩, fun he => he.2⟩

end NMR
