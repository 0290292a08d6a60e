import Lib3MF.Common.ChunkedBinaryStream.Types
import Lib3MF.Common.Platform.Streams
import Mathlib.Data.Rat.Floor

/-!
# The writer of chunked binary streams

`CChunkedBinaryStreamWriter`. The chunk that is open is the last of `m_Chunks`; here it stands
apart in `currentChunk`. A chunk is allocated without initialising `m_CompressedPropsSize`, whose
value for the `i`-th chunk is the parameter `uninit i`; the compression library is the parameter
`lzma`.
-/

namespace NMR

open Lib

/-- `LzmaCompress`, with the settings of the writer and the capacities of the two buffers, and
`LzmaUncompress`, for a result of a given size. `none` is an error code. -/
structure Lzma where
  compress : (outSize outPropsSize : Nat) → List UInt8 → Option (List UInt8 × List UInt8)
  uncompress : (destLen : Nat) → (src props : List UInt8) → Option (List UInt8)

/-- What the stream relies on: results fit their buffers and are not empty, and uncompressing
inverts compressing. -/
structure Lzma.Lossless (lzma : Lzma) : Prop where
  fits : ∀ n k data out props, lzma.compress n k data = some (out, props) →
    out.length ≤ n ∧ props.length ≤ k
  ne_nil : ∀ n k data out props, lzma.compress n k data = some (out, props) →
    out ≠ [] ∧ props ≠ []
  inverse : ∀ n k data out props, lzma.compress n k data = some (out, props) →
    lzma.uncompress data.length out props = some data

/-- The value of the bits of a finite `nfFloat`. -/
def floatValue (bits : BitVec 32) : ℚ :=
  let exponent := (bits.extractLsb' 23 8).toNat
  let fraction := (bits.extractLsb' 0 23).toNat
  let magnitude : ℚ :=
    if exponent = 0 then fraction * 2 ^ (-149 : Int)
    else (2 ^ 23 + fraction) * 2 ^ ((exponent : Int) - 150)
  if bits.msb then -magnitude else magnitude

/-- A finite `nfFloat`. -/
structure NfFloat where
  bits : BitVec 32
  finite : bits.extractLsb' 23 8 ≠ 255
  deriving DecidableEq

/-- The value of a float. -/
def NfFloat.value (x : NfFloat) : ℚ := floatValue x.bits

/-- Round towards zero. -/
def truncate (x : ℚ) : Int := if 0 ≤ x then ⌊x⌋ else ⌈x⌉

/-- What the build decides where the language leaves it open: what a float out of the range of `w` bits
is converted to, and which `abs` an unqualified call takes for an `nfInt64`: the one of 64 bits or the
one of `int`, to which the number is converted first. All of them are right for an `int`. -/
structure IntPlatform where
  undef : Nat → ℚ → Int
  abs : Int → Int
  abs_int : ∀ v, -2 ^ 31 < v → v < 2 ^ 31 → abs v = |v|

/-- The conversion of a float to an integer of `w` bits. -/
def IntPlatform.toInt (platform : IntPlatform) (w : Nat) (x : ℚ) : Int :=
  if -2 ^ (w - 1) ≤ truncate x ∧ truncate x < 2 ^ (w - 1) then truncate x else platform.undef w x

/-- The `abs` of integers of `w` bits; the smallest one stays negative. -/
def absBits (w : Nat) (v : Int) : Int := (BitVec.ofInt w |(BitVec.ofInt w v).toInt|).toInt

theorem absBits_eq {w : Nat} {v : Int} (hw : 0 < w) (hlo : -2 ^ (w - 1) < v) (hhi : v < 2 ^ (w - 1)) :
    absBits w v = |v| := by
  have habs : |v| < 2 ^ (w - 1) := abs_lt.2 ⟨hlo, hhi⟩
  have hpow : (2 : Int) ^ w = 2 * 2 ^ (w - 1) := by
    rw [← Int.pow_succ']
    congr 1
    omega
  have htoInt : ∀ u : Int, -2 ^ (w - 1) < u → u < 2 ^ (w - 1) → (BitVec.ofInt w u).toInt = u := by
    intro u hlo hhi
    rw [BitVec.toInt_ofInt]
    exact Int.bmod_eq_of_le (by push_cast; omega) (by push_cast; omega)
  rw [absBits, htoInt v hlo hhi, htoInt |v| (by have := abs_nonneg v; omega) habs]

/-- A build whose unqualified `abs` takes `w` bits, on a processor that gives the smallest integer for
a float out of range. -/
def absPlatform (w : Nat) (hw : 32 ≤ w) : IntPlatform where
  undef n _ := -2 ^ (n - 1)
  abs := absBits w
  abs_int v hlo hhi := by
    have hle : (2 : Int) ^ 31 ≤ 2 ^ (w - 1) := pow_le_pow_right₀ (by decide) (by omega)
    exact absBits_eq (by omega) (by omega) (by omega)

/-- `CChunkedBinaryStreamWriter`. -/
structure ChunkedBinaryStreamWriter where
  exportStream : ExportStreamMemory
  elementIDCounter : BitVec 32
  isFinished : Bool
  chunkTableStart : BitVec 64
  isEmpty : Bool
  chunks : List BinaryChunkFileChunk
  currentChunk : Option BinaryChunkFileChunk
  currentChunkEntries : List BinaryChunkFileEntry
  currentChunkData : List (BitVec 32)

namespace ChunkedBinaryStreamWriter

/-- `getChunkCount`. -/
def getChunkCount (w : ChunkedBinaryStreamWriter) : BitVec 32 :=
  BitVec.ofNat 32 (w.chunks.length + w.currentChunk.toList.length)

/-- `writeHeader`. -/
def writeHeader (w : ChunkedBinaryStreamWriter) : Except Error ChunkedBinaryStreamWriter := do
  if w.isFinished then throw .streamWriterAlreadyFinished
  if w.currentChunk.isSome then throw .streamChunkAlreadyOpen
  let header : BinaryChunkFileHeader := ⟨binaryChunkFileHeaderSign, binaryChunkFileHeaderVersion,
    w.getChunkCount, w.chunkTableStart⟩
  let s ← w.exportStream.seekPosition 0
  let s ← (s.writeBuffer (headerCodec.encode header)).seekFromEnd 0
  return { w with exportStream := s }

/-- The constructor. -/
def new : Except Error ChunkedBinaryStreamWriter :=
  writeHeader ⟨.new, 1, false, 0, true, [], none, [], []⟩

/-- The entry table of a chunk that is finished. -/
def writeEntryTable (c : BinaryChunkFileChunk) (entries : List BinaryChunkFileEntry)
    (s : ExportStreamMemory) : BinaryChunkFileChunk × ExportStreamMemory :=
  if entries.length = 0 then (c, s)
  else ({ c with
      entryCount := BitVec.ofNat 32 entries.length
      entryTableStart := BitVec.ofNat 64 s.position },
    s.writeBuffer (entryCodec.encodeAll entries))

/-- The data of a chunk that is finished, compressed. -/
def writeData (lzma : Lzma) (c : BinaryChunkFileChunk) (data : List (BitVec 32))
    (s : ExportStreamMemory) : Except Error (BinaryChunkFileChunk × ExportStreamMemory) :=
  if data.length = 0 then .ok (c, s)
  else
    let size := (c.uncompressedDataSize * 2).toNat
    match lzma.compress size size (codec32.encodeAll data) with
    | none => .error .couldNotCompressData
    | some (out, props) =>
      .ok ({ c with
          compressedDataSize := BitVec.ofNat 32 out.length
          compressedPropsSize := BitVec.ofNat 32 props.length
          compressedDataStart := BitVec.ofNat 64 s.position },
        (s.writeBuffer out).writeBuffer props)

/-- `finishChunk`. -/
def finishChunk (lzma : Lzma) (w : ChunkedBinaryStreamWriter) :
    Except Error ChunkedBinaryStreamWriter :=
  match w.currentChunk with
  | none => .error .noStreamChunkOpen
  | some c => do
    let (c, s) := writeEntryTable c w.currentChunkEntries w.exportStream
    let (c, s) ← writeData lzma c w.currentChunkData s
    return { w with exportStream := s, chunks := w.chunks ++ [c], currentChunk := none }

/-- `finishChunk`, if a chunk is open. -/
def finishOpenChunk (lzma : Lzma) (w : ChunkedBinaryStreamWriter) :
    Except Error ChunkedBinaryStreamWriter :=
  if w.currentChunk.isSome then w.finishChunk lzma else .ok w

/-- `beginChunk`. -/
def beginChunk (lzma : Lzma) (uninit : Nat → BitVec 32) (w : ChunkedBinaryStreamWriter) :
    Except Error ChunkedBinaryStreamWriter := do
  if w.isFinished then throw .streamWriterAlreadyFinished
  let w ← w.finishOpenChunk lzma
  return { w with
    currentChunk := some ⟨0, 0, 0, 0, uninit w.chunks.length, 0⟩
    currentChunkEntries := []
    currentChunkData := [] }

/-- `beginChunk`, if no chunk is open. -/
def beginFirstChunk (lzma : Lzma) (uninit : Nat → BitVec 32) (w : ChunkedBinaryStreamWriter) :
    Except Error ChunkedBinaryStreamWriter :=
  if w.currentChunk.isNone then w.beginChunk lzma uninit else .ok w

/-- The words of an array of integers. -/
def intWords : ChunkedBinaryPredictionType → List (BitVec 32) → List (BitVec 32)
  | .noPrediction, data => data
  | .deltaPrediction, data => data.take 1 ++ List.zipWith (fun y x => y - x) data.tail data

/-- The type of an array of integers. -/
def intEntryType : ChunkedBinaryPredictionType → BitVec 32
  | .noPrediction => entryTypeInt32ArrayNoPrediction
  | .deltaPrediction => entryTypeInt32ArrayDeltaPrediction

/-- The type of an array of floats. -/
def floatEntryType : ChunkedBinaryPredictionType → BitVec 32
  | .noPrediction => entryTypeFloat32ArrayNoPrediction
  | .deltaPrediction => entryTypeFloat32ArrayDeltaPrediction

/-- The end of an `add…Array`: a new entry of `size` bytes at the end of the open chunk `c`. -/
def pushEntry (w : ChunkedBinaryStreamWriter) (c : BinaryChunkFileChunk) (entryType : BitVec 32)
    (size : Nat) (words : List (BitVec 32)) : ChunkedBinaryStreamWriter × BitVec 32 :=
  let entry : BinaryChunkFileEntry :=
    ⟨w.elementIDCounter, entryType, c.uncompressedDataSize, BitVec.ofNat 32 size⟩
  ({ w with
    elementIDCounter := w.elementIDCounter + 1
    isEmpty := false
    currentChunk := some { c with
      entryCount := c.entryCount + 1
      uncompressedDataSize := c.uncompressedDataSize + entry.sizeInBytes }
    currentChunkEntries := w.currentChunkEntries ++ [entry]
    currentChunkData := w.currentChunkData ++ words }, w.elementIDCounter)

/-- `addIntArray`. -/
def addIntArray (lzma : Lzma) (uninit : Nat → BitVec 32) (w : ChunkedBinaryStreamWriter)
    (data : List (BitVec 32)) (predictionType : ChunkedBinaryPredictionType) :
    Except Error (ChunkedBinaryStreamWriter × BitVec 32) := do
  if w.isFinished then throw .streamWriterAlreadyFinished
  if data.length = 0 then throw .invalidParam
  let w ← w.beginFirstChunk lzma uninit
  match w.currentChunk with
  | none => throw .noStreamChunkOpen
  | some c =>
    return w.pushEntry c (intEntryType predictionType) (data.length * 4)
      (intWords predictionType data)

/-- A float in units, with the check of its range. -/
def discretize (platform : IntPlatform) (x : ℚ) : Except Error Int :=
  let value := platform.toInt 64 x
  if binaryChunkFileMaxFloatUnits < platform.abs value then
    .error .binaryChunkDiscretizationValueOutOfRange
  else .ok value

/-- The loop of delta prediction, from the old value on. -/
def deltaWords (platform : IntPlatform) (units : ℚ) :
    Int → List NfFloat → Except Error (List (BitVec 32))
  | _, [] => .ok []
  | oldValue, x :: xs => do
    let value ← discretize platform (x.value / units)
    let words ← deltaWords platform units value xs
    return (BitVec.ofInt 32 value - BitVec.ofInt 32 oldValue) :: words

/-- The words of an array of floats, without the units. Where there is no prediction the value
pushed is the float itself, not the one in units, and so is the first value of delta prediction. -/
def floatWords (platform : IntPlatform) (units : ℚ) :
    ChunkedBinaryPredictionType → List NfFloat → Except Error (List (BitVec 32))
  | .noPrediction, data => data.mapM fun x => do
    let _ ← discretize platform (x.value / units)
    return BitVec.ofInt 32 (platform.toInt 32 x.value)
  | .deltaPrediction, [] => .ok []
  | .deltaPrediction, x :: xs => do
    let value ← discretize platform x.value
    let words ← deltaWords platform units value xs
    return BitVec.ofInt 32 value :: words

/-- `addFloatArray`, for what it returns. The writer that it leaves when it throws inside the array is
the one of `addFloatArrayM`. -/
def addFloatArray (lzma : Lzma) (uninit : Nat → BitVec 32) (platform : IntPlatform)
    (w : ChunkedBinaryStreamWriter) (data : List NfFloat)
    (predictionType : ChunkedBinaryPredictionType) (units : NfFloat) :
    Except Error (ChunkedBinaryStreamWriter × BitVec 32) := do
  if units.value ≤ 0 then throw .invalidParam
  if w.isFinished then throw .streamWriterAlreadyFinished
  if data.length = 0 then throw .invalidParam
  let w ← w.beginFirstChunk lzma uninit
  match w.currentChunk with
  | none => throw .noStreamChunkOpen
  | some c => do
    let words ← floatWords platform units.value predictionType data
    return w.pushEntry c (floatEntryType predictionType) (data.length * 4 + 4)
      (units.bits :: words)

/-- `writeChunkTable`. -/
def writeChunkTable (w : ChunkedBinaryStreamWriter) : Except Error ChunkedBinaryStreamWriter := do
  if w.isFinished then throw .streamWriterAlreadyFinished
  if w.currentChunk.isSome then throw .streamChunkAlreadyOpen
  return { w with
    chunkTableStart := BitVec.ofNat 64 w.exportStream.position
    exportStream :=
      if 0 < w.chunks.length then w.exportStream.writeBuffer (chunkCodec.encodeAll w.chunks)
      else w.exportStream }

/-- `finishWriting`. -/
def finishWriting (lzma : Lzma) (w : ChunkedBinaryStreamWriter) :
    Except Error ChunkedBinaryStreamWriter :=
  if w.isFinished then .ok w
  else do
    let w ← w.finishOpenChunk lzma
    let w ← w.writeChunkTable
    let w ← w.writeHeader
    return { w with isFinished := true }

end ChunkedBinaryStreamWriter

end NMR
