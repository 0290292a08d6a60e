import Lib3MF.Lib.State
import Lib3MF.Common.ChunkedBinaryStream.Writer

/-!
# Calls of the writer that throw

`CChunkedBinaryStreamWriter` with the state a call leaves when it throws. `addFloatArray` checks
each float after it has pushed those before it; both `add…Array` functions take an ID and open a
chunk before they look at the prediction type, where `none` stands for a value that is not in the
enumeration. A null pointer is `none` as well.
-/

namespace NMR

open Lib

namespace ChunkedBinaryStreamWriter

/-- Functions that keep what they have written when they throw. -/
abbrev WriterM := EStateM Error ChunkedBinaryStreamWriter

/-- A function that throws before it changes anything. -/
def ofExcept (f : ChunkedBinaryStreamWriter → Except Error ChunkedBinaryStreamWriter) :
    WriterM Unit := fun w =>
  match f w with
  | .ok w' => .ok () w'
  | .error e => .error e w

/-- `finishChunk`. The entry table is in the stream when the compression fails. -/
def finishChunkM (lzma : Lzma) : WriterM Unit := fun w =>
  match w.currentChunk with
  | none => .error .noStreamChunkOpen w
  | some c =>
    let (c, s) := writeEntryTable c w.currentChunkEntries w.exportStream
    match writeData lzma c w.currentChunkData s with
    | .error e => .error e { w with exportStream := s, currentChunk := some c }
    | .ok (c, s) =>
      .ok () { w with exportStream := s, chunks := w.chunks ++ [c], currentChunk := none }

/-- `beginChunk`. -/
def beginChunkM (lzma : Lzma) (uninit : Nat → BitVec 32) : WriterM Unit := do
  let w ← get
  require (w.isFinished = false) .streamWriterAlreadyFinished
  doIf (w.currentChunk.isSome) (finishChunkM lzma)
  modify fun w => { w with
    currentChunk := some ⟨0, 0, 0, 0, uninit w.chunks.length, 0⟩
    currentChunkEntries := []
    currentChunkData := [] }

/-- `finishWriting`. -/
def finishWritingM (lzma : Lzma) : WriterM Unit := do
  let w ← get
  doIf (w.isFinished = false) do
    doIf (w.currentChunk.isSome) (finishChunkM lzma)
    ofExcept writeChunkTable
    ofExcept writeHeader
    modify fun w => { w with isFinished := true }

/-- `m_CurrentChunkData.push_back`. -/
def pushWord (word : BitVec 32) : WriterM Unit :=
  modify fun w => { w with currentChunkData := w.currentChunkData ++ [word] }

/-- The checks that both `add…Array` functions make first. -/
def checkArray {α : Type} (data : Option (List α)) : WriterM (List α) := do
  let w ← get
  require (w.isFinished = false) .streamWriterAlreadyFinished
  match data with
  | none => throw .invalidParam
  | some data => do
    require (data.length ≠ 0) .invalidParam
    return data

/-- What they do then: open a chunk, and take an ID. -/
def beginArray (lzma : Lzma) (uninit : Nat → BitVec 32) : WriterM (BitVec 32) := do
  let w ← get
  doIf (w.currentChunk.isNone) (beginChunkM lzma uninit)
  modify fun w => { w with elementIDCounter := w.elementIDCounter + 1, isEmpty := false }
  return w.elementIDCounter

/-- What they end with: the entry of `size` bytes. -/
def endArray (elementID entryType : BitVec 32) (size : Nat) : WriterM (BitVec 32) := do
  modify fun w =>
    let position := (w.currentChunk.map (·.uncompressedDataSize)).getD 0
    let entry : BinaryChunkFileEntry := ⟨elementID, entryType, position, BitVec.ofNat 32 size⟩
    { w with
      currentChunk := w.currentChunk.map fun c => { c with
        entryCount := c.entryCount + 1
        uncompressedDataSize := c.uncompressedDataSize + entry.sizeInBytes }
      currentChunkEntries := w.currentChunkEntries ++ [entry] }
  return elementID

/-- `addIntArray`. -/
def addIntArrayM (lzma : Lzma) (uninit : Nat → BitVec 32) (data : Option (List (BitVec 32)))
    (predictionType : Option ChunkedBinaryPredictionType) : WriterM (BitVec 32) := do
  let data ← checkArray data
  let elementID ← beginArray lzma uninit
  match predictionType with
  | none => throw .invalidParam
  | some predictionType => do
    (intWords predictionType data).forM pushWord
    endArray elementID (intEntryType predictionType) (data.length * 4)

/-- A float in units, or an error. -/
def discretizeM (platform : IntPlatform) (x : ℚ) : WriterM Int := fun w =>
  match discretize platform x with
  | .ok value => .ok value w
  | .error e => .error e w

/-- The loop of delta prediction, from the old value on. -/
def pushDelta (platform : IntPlatform) (units : ℚ) : Int → List NfFloat → WriterM Unit
  | _, [] => pure ()
  | oldValue, x :: xs => do
    let value ← discretizeM platform (x.value / units)
    pushWord (BitVec.ofInt 32 value - BitVec.ofInt 32 oldValue)
    pushDelta platform units value xs

/-- The words of an array of floats, each checked before it is pushed. -/
def pushFloats (platform : IntPlatform) (units : ℚ) :
    ChunkedBinaryPredictionType → List NfFloat → WriterM Unit
  | .noPrediction, data => data.forM fun x => do
    let _ ← discretizeM platform (x.value / units)
    pushWord (BitVec.ofInt 32 (platform.toInt 32 x.value))
  | .deltaPrediction, [] => pure ()
  | .deltaPrediction, x :: xs => do
    let value ← discretizeM platform x.value
    pushWord (BitVec.ofInt 32 value)
    pushDelta platform units value xs

/-- `addFloatArray`. -/
def addFloatArrayM (lzma : Lzma) (uninit : Nat → BitVec 32) (platform : IntPlatform)
    (data : Option (List NfFloat)) (predictionType : Option ChunkedBinaryPredictionType)
    (units : NfFloat) : WriterM (BitVec 32) := do
  require (¬ units.value ≤ 0) .invalidParam
  let data ← checkArray data
  let elementID ← beginArray lzma uninit
  pushWord units.bits
  match predictionType with
  | none => throw .invalidParam
  | some predictionType => do
    pushFloats platform units.value predictionType data
    endArray elementID (floatEntryType predictionType) (data.length * 4 + 4)

end ChunkedBinaryStreamWriter

/-- The calls of the writer. -/
inductive SessionCall where
  | beginChunk
  | finishChunk
  | addIntArray (data : Option (List (BitVec 32)))
      (predictionType : Option ChunkedBinaryPredictionType)
  | addFloatArray (data : Option (List NfFloat))
      (predictionType : Option ChunkedBinaryPredictionType) (units : NfFloat)
  | finishWriting

namespace ChunkedBinaryStreamWriter

/-- One call, with the ID that it returns. -/
def call (lzma : Lzma) (uninit : Nat → BitVec 32) (platform : IntPlatform) :
    SessionCall → WriterM (Option (BitVec 32))
  | .beginChunk => do
    beginChunkM lzma uninit
    return none
  | .finishChunk => do
    finishChunkM lzma
    return none
  | .addIntArray data predictionType => do
    let entryID ← addIntArrayM lzma uninit data predictionType
    return some entryID
  | .addFloatArray data predictionType units => do
    let entryID ← addFloatArrayM lzma uninit platform data predictionType units
    return some entryID
  | .finishWriting => do
    finishWritingM lzma
    return none

/-- The state a call leaves, whether it throws or not. -/
def next (lzma : Lzma) (uninit : Nat → BitVec 32) (platform : IntPlatform)
    (w : ChunkedBinaryStreamWriter) (c : SessionCall) : ChunkedBinaryStreamWriter :=
  finalState (call lzma uninit platform c w)

end ChunkedBinaryStreamWriter

end NMR
