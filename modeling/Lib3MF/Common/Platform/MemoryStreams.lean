import Lib3MF.Common.Platform.Streams
import Lib3MF.Lib.SeekableFile
import Lib3MF.Lib.State

/-!
# Calls on streams in memory

`CImportStream_Memory` and `CExportStreamMemory` with both values of `bHasToSucceed`. Positions
and sizes are unsigned 64-bit numbers, and so are the distances of the seeks; sums and differences
wrap. An index outside of the buffer is undefined.
-/

namespace NMR

open Lib

/-- How a call on a stream fails. -/
inductive StreamFault where
  | throws (e : Error)
  | undefined
  deriving DecidableEq

/-- What a call on a stream returns. -/
inductive StreamReply where
  | sought (succeeded : Bool)
  | read (bytes : List UInt8)
  | written (cbBytes : Nat)
  deriving DecidableEq

/-- A seek that is refused: it throws where it has to succeed. -/
def refuse {σ : Type} (bHasToSucceed : Bool) : EStateM StreamFault σ Bool :=
  if bHasToSucceed then throw (.throws .couldNotSeekStream) else pure false

/-- `CImportStream_Memory`: the `m_cbSize` bytes, and the position in them. -/
structure ImportStreamMemory where
  buffer : List UInt8
  position : Nat
  /-- The constructors refuse longer buffers. -/
  small : buffer.length ≤ importStreamMaxMemStreamSize

/-- The calls on an import stream. -/
inductive ImportCall where
  | seek (o : Origin) (cbBytes : BitVec 64) (bHasToSucceed : Bool)
  | readBuffer (cbTotalBytesToRead : BitVec 64) (bNeedsToReadAll : Bool)
  deriving DecidableEq

namespace ImportStreamMemory

/-- The constructors. -/
def new (bytes : List UInt8) : Except Error ImportStreamMemory :=
  if h : bytes.length ≤ importStreamMaxMemStreamSize then .ok ⟨bytes, 0, h⟩
  else .error .invalidBufferSize

abbrev M := EStateM StreamFault ImportStreamMemory

/-- `seekPosition`. -/
def seekPosition (nPosition : BitVec 64) (bHasToSucceed : Bool) : M Bool := fun s =>
  if s.buffer.length < nPosition.toNat then refuse bHasToSucceed s
  else .ok true { s with position := nPosition.toNat }

/-- `seekForward`. -/
def seekForward (cbBytes : BitVec 64) (bHasToSucceed : Bool) : M Bool := fun s =>
  let nPosition := (s.position + cbBytes.toNat) % 2 ^ 64
  if s.buffer.length < nPosition then refuse bHasToSucceed s
  else .ok true { s with position := nPosition }

/-- `seekFromEnd`. -/
def seekFromEnd (cbBytes : BitVec 64) (bHasToSucceed : Bool) : M Bool := fun s =>
  if s.buffer.length < cbBytes.toNat then refuse bHasToSucceed s
  else .ok true { s with position := s.buffer.length - cbBytes.toNat }

/-- `readBuffer`: what there is is read, also where that is not enough and the call throws. -/
def readBuffer (cbTotalBytesToRead : BitVec 64) (bNeedsToReadAll : Bool) : M (List UInt8) := fun s =>
  if s.buffer.length < s.position then .error .undefined s
  else
    let cbBytesLeft := s.buffer.length - s.position
    let cbBytesToRead := min cbTotalBytesToRead.toNat cbBytesLeft
    let s' := { s with position := s.position + cbBytesToRead }
    if cbBytesToRead ≠ cbTotalBytesToRead.toNat ∧ bNeedsToReadAll then
      .error (.throws .couldNotReadFullData) s'
    else .ok ((s.buffer.drop s.position).take cbBytesToRead) s'

/-- A seek of the stream. -/
def seek : Origin → BitVec 64 → Bool → M Bool
  | .start => seekPosition
  | .current => seekForward
  | .finish => seekFromEnd

/-- One call. -/
def perform : ImportCall → M StreamReply
  | .seek o cbBytes must => do return .sought (← seek o cbBytes must)
  | .readBuffer cb all => do return .read (← readBuffer cb all)

/-- The stream after a call. -/
def next (s : ImportStreamMemory) (c : ImportCall) : ImportStreamMemory := finalState (perform c s)

end ImportStreamMemory

/-- The bytes a caller hands over, their number an `nfUint64`. -/
structure CallerBytes where
  bytes : List UInt8
  small : bytes.length < 2 ^ 64

/-- The calls on an export stream. -/
inductive ExportCall where
  | seek (o : Origin) (cbBytes : BitVec 64) (bHasToSucceed : Bool)
  | writeBuffer (b : CallerBytes)

/-- The `max_size` of a vector of bytes. -/
def vectorMaxSize : Nat := 2 ^ 63 - 1

namespace MemoryExport

abbrev M := EStateM StreamFault ExportStreamMemory

/-- `seekPosition`. -/
def seekPosition (position : BitVec 64) (bHasToSucceed : Bool) : M Bool := fun s =>
  if s.buffer.length < position.toNat ∧ bHasToSucceed then
    .error (.throws .couldNotSeekStream) s
  else .ok true { s with position := position.toNat }

/-- `seekForward`. -/
def seekForward (bytes : BitVec 64) (bHasToSucceed : Bool) : M Bool := fun s =>
  if s.buffer.length < (bytes.toNat + s.position) % 2 ^ 64 ∧ bHasToSucceed then
    .error (.throws .couldNotSeekStream) s
  else .ok true { s with position := (bytes.toNat + s.position) % 2 ^ 64 }

/-- `seekFromEnd`. -/
def seekFromEnd (bytes : BitVec 64) (bHasToSucceed : Bool) : M Bool := fun s =>
  if s.buffer.length < bytes.toNat ∧ bHasToSucceed then .error (.throws .couldNotSeekStream) s
  else .ok true { s with position := (s.buffer.length + 2 ^ 64 - bytes.toNat) % 2 ^ 64 }

/-- The resizing of `writeBuffer`: `std::length_error` beyond the largest vector. -/
def resize (size : Nat) : M Unit := fun s =>
  if size ≤ s.buffer.length then .ok () s
  else if vectorMaxSize < size then .error (.throws .lengthError) s
  else .ok () { s with buffer := s.buffer ++ List.replicate (size - s.buffer.length) 0 }

/-- The loop of `writeBuffer`, which writes at `m_Position + i`. -/
def store (bytes : List UInt8) : M Nat := fun s =>
  if s.buffer.length < s.position + bytes.length then .error .undefined s
  else .ok bytes.length
    { buffer := s.buffer.take s.position ++ bytes ++ s.buffer.drop (s.position + bytes.length)
      position := s.position + bytes.length }

/-- `writeBuffer`. -/
def writeBuffer (b : CallerBytes) : M Nat := do
  let s ← get
  resize ((s.position + b.bytes.length) % 2 ^ 64)
  store b.bytes

/-- A seek of the stream. -/
def seek : Origin → BitVec 64 → Bool → M Bool
  | .start => seekPosition
  | .current => seekForward
  | .finish => seekFromEnd

/-- One call. -/
def perform : ExportCall → M StreamReply
  | .seek o cbBytes must => do return .sought (← seek o cbBytes must)
  | .writeBuffer b => do return .written (← writeBuffer b)

/-- The stream after a call. -/
def next (s : ExportStreamMemory) (c : ExportCall) : ExportStreamMemory := finalState (perform c s)

end MemoryExport

/-! ## What the calls do to a seekable file -/

namespace FileCalls

abbrev M := EStateM StreamFault (SeekableFile UInt8)

/-- The file is moved exactly when the exact target lies in it. -/
def seek (o : Origin) (cbBytes : BitVec 64) (bHasToSucceed : Bool) : M Bool := fun f =>
  match f.seek (f.target o cbBytes.toNat) with
  | some f' => .ok true f'
  | none => refuse bHasToSucceed f

def read (cbTotalBytesToRead : BitVec 64) (bNeedsToReadAll : Bool) : M (List UInt8) := fun f =>
  let n := cbTotalBytesToRead.toNat
  if (f.read n).length < n ∧ bNeedsToReadAll then .error (.throws .couldNotReadFullData) (f.skip n)
  else .ok (f.read n) (f.skip n)

/-- A file of more than `vectorMaxSize` bytes is refused. -/
def write (b : CallerBytes) : M Nat := fun f =>
  if vectorMaxSize < f.position + b.bytes.length then .error (.throws .lengthError) f
  else .ok b.bytes.length (f.write b.bytes)

def performImport : ImportCall → M StreamReply
  | .seek o cbBytes must => do return .sought (← seek o cbBytes must)
  | .readBuffer cb all => do return .read (← read cb all)

def performExport : ExportCall → M StreamReply
  | .seek o cbBytes must => do return .sought (← seek o cbBytes must)
  | .writeBuffer b => do return .written (← write b)

end FileCalls

end NMR
