import Lib3MF.Lib.State
import Lib3MF.Common.ChunkedBinaryStream.Reader

/-!
# Reads that throw

`readIntArray` and `readFloatArray` of `CChunkedBinaryStreamReader` with the state they leave when
they throw: a chunk that was loaded stays so. `scale` is the product of an integer and the bits of
the units, as bits, which may be of any float here.
-/

namespace NMR

open Lib

namespace ChunkedBinaryStreamReader

/-- Functions that keep what they have loaded when they throw. -/
abbrev ReaderM := EStateM Error ChunkedBinaryStreamReader

/-- A function of the chunk `i`, which is as before when it throws. -/
def onChunk {α : Type} (i : Nat) (f : ChunkedBinaryStreamReaderChunk →
    Except Error (α × ChunkedBinaryStreamReaderChunk)) : ReaderM α := fun r =>
  match r.chunks[i]? with
  | none => .error .binaryChunkEntryNotFound r
  | some c =>
    match f c with
    | .ok (a, c) => .ok a (r.setChunk i c)
    | .error e => .error e r

/-- What both functions start with: `findChunkByEntry`, `loadData` and `seekToEntry`. -/
def seekToEntryM (lzma : Lzma) (entryID : BitVec 32) : ReaderM (Nat × BitVec 32 × Nat) := do
  let r ← get
  match r.findChunkByEntry entryID with
  | .error e => throw e
  | .ok (i, _, entryIndex) => do
    onChunk i fun c => do
      let c ← c.loadData lzma r.importStream
      return ((), c)
    let (entryType, entrySize) ← onChunk i fun c => do
      let (c, entryType, entrySize) ← c.seekToEntry entryIndex
      return ((entryType, entrySize), c)
    return (i, entryType, entrySize)

/-- The loop of an array without prediction. -/
def readNoPredictionM (i : Nat) : Nat → ReaderM (List (BitVec 32))
  | 0 => return []
  | n + 1 => do
    let value ← onChunk i (·.readInt32)
    let values ← readNoPredictionM i n
    return value :: values

/-- The loop of an array with delta prediction, from the last value on. -/
def readDeltaPredictionM (i : Nat) : Nat → BitVec 32 → ReaderM (List (BitVec 32))
  | 0, _ => return []
  | n + 1, lastValue => do
    let x ← onChunk i (·.readInt32)
    let values ← readDeltaPredictionM i n (x + lastValue)
    return (x + lastValue) :: values

/-- The values of the entry at which chunk `i` is, by its type. -/
def readValuesM (noPrediction deltaPrediction entryType : BitVec 32) (i count : Nat) :
    ReaderM (List (BitVec 32)) :=
  if count = 0 then return []
  else if entryType = noPrediction then readNoPredictionM i count
  else if entryType = deltaPrediction then readDeltaPredictionM i count 0
  else throw .invalidChunkEntryType

/-- `readIntArray`. -/
def readIntArrayM (lzma : Lzma) (entryID : BitVec 32) (dataCount : Nat) :
    ReaderM (List (BitVec 32)) := do
  let (i, entryType, entrySize) ← seekToEntryM lzma entryID
  require (entrySize % 4 = 0) .invalidChunkData
  require (dataCount = entrySize / 4) .invalidBufferSize
  readValuesM entryTypeInt32ArrayNoPrediction entryTypeInt32ArrayDeltaPrediction entryType i
    dataCount

/-- `readFloatArray`. -/
def readFloatArrayM (scale : BitVec 32 → BitVec 32 → BitVec 32) (lzma : Lzma)
    (entryID : BitVec 32) (dataCount : Nat) : ReaderM (List (BitVec 32)) := do
  let (i, entryType, entrySize) ← seekToEntryM lzma entryID
  require (entrySize % 4 = 0) .invalidChunkData
  require (4 ≤ entrySize) .invalidChunkData
  require (dataCount = (entrySize - 4) / 4) .invalidBufferSize
  let units ← onChunk i (·.readFloat)
  let values ← readValuesM entryTypeFloat32ArrayNoPrediction
    entryTypeFloat32ArrayDeltaPrediction entryType i dataCount
  return values.map fun value => scale value units

end ChunkedBinaryStreamReader

/-- The calls that read. -/
inductive ReadCall where
  | readIntArray (entryID : BitVec 32) (dataCount : Nat)
  | readFloatArray (entryID : BitVec 32) (dataCount : Nat)
  | clearCache
  deriving DecidableEq

namespace ChunkedBinaryStreamReader

/-- One call, with the values that fill the buffer. -/
def read (scale : BitVec 32 → BitVec 32 → BitVec 32) (lzma : Lzma) :
    ReadCall → ReaderM (List (BitVec 32))
  | .readIntArray entryID dataCount => readIntArrayM lzma entryID dataCount
  | .readFloatArray entryID dataCount => readFloatArrayM scale lzma entryID dataCount
  | .clearCache => do
    modify clearCache
    return []

/-- The state a call leaves, whether it throws or not. -/
def afterRead (scale : BitVec 32 → BitVec 32 → BitVec 32) (lzma : Lzma)
    (r : ChunkedBinaryStreamReader) (call : ReadCall) : ChunkedBinaryStreamReader :=
  finalState (read scale lzma call r)

end ChunkedBinaryStreamReader

end NMR
