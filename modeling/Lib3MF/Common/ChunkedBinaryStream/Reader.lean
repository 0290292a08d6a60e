import Lib3MF.Lib.SortedMap
import Lib3MF.Lib.Except
import Lib3MF.Common.ChunkedBinaryStream.Writer

/-!
# The reader of chunked binary streams

`CChunkedBinaryStreamReader` and its chunks. Opening a stream reads the header, the chunk table
and the entry tables; the data of a chunk are uncompressed when one of its entries is read, and
kept. A read that throws leaves the reader of no further use to its callers.
-/

namespace NMR

open Lib

/-- `CChunkedBinaryStreamReaderChunk`, `none` standing for data that are not cached. -/
structure ChunkedBinaryStreamReaderChunk where
  chunk : BinaryChunkFileChunk
  chunkEntries : List BinaryChunkFileEntry
  data : Option (List UInt8)
  currentReadPosition : Nat
  currentEndPosition : Nat
  deriving DecidableEq

/-- `CChunkedBinaryStreamReader`: `chunkMap` leads from an entry ID to the indices of the chunk
and of the entry in it. -/
structure ChunkedBinaryStreamReader where
  importStream : List UInt8
  chunks : List ChunkedBinaryStreamReaderChunk
  chunkMap : SortedMap Nat (Nat × Nat)
  deriving DecidableEq

namespace ChunkedBinaryStreamReaderChunk

/-- One entry of the constructor. -/
def registerEntry (chunkIndex : Nat) (chunkMap : SortedMap Nat (Nat × Nat))
    (e : BinaryChunkFileEntry × Nat) : Except Error (SortedMap Nat (Nat × Nat)) :=
  if (chunkMap.find? e.1.entryID.toNat).isSome then .error .duplicateChunkEntry
  else .ok (chunkMap.insert e.1.entryID.toNat (chunkIndex, e.2))

/-- The constructor, which registers the entries in the map of the reader. -/
def new (stream : List UInt8) (chunkMap : SortedMap Nat (Nat × Nat)) (c : BinaryChunkFileChunk)
    (chunkIndex : Nat) :
    Except Error (ChunkedBinaryStreamReaderChunk × SortedMap Nat (Nat × Nat)) := do
  if binaryChunkFileMaxChunkDataSize < c.uncompressedDataSize.toNat then
    throw .invalidFileChunkDataSize
  if binaryChunkFileMaxChunkDataSize < c.compressedDataSize.toNat then
    throw .invalidFileChunkDataSize
  if binaryChunkFileMaxChunkDataSize < c.compressedPropsSize.toNat then
    throw .invalidFileChunkDataSize
  if binaryChunkFileMaxEntryCount < c.entryCount.toNat then throw .tooManyBinaryChunkEntries
  let bytes ← readAt stream c.entryTableStart.toNat (entryCodec.size * c.entryCount.toNat)
  let entries := entryCodec.decodeAll c.entryCount.toNat bytes
  let chunkMap ← entries.zipIdx.foldlM (registerEntry chunkIndex) chunkMap
  return (⟨c, entries, none, 0, 0⟩, chunkMap)

/-- What `LzmaUncompress` leaves in a buffer of `size` bytes. -/
def fill (size : Nat) (bytes : List UInt8) : List UInt8 :=
  (bytes ++ List.replicate size 0).take size

/-- The data of a chunk, uncompressed from the stream. -/
def loadedData (lzma : Lzma) (stream : List UInt8) (c : BinaryChunkFileChunk) :
    Except Error (List UInt8) := do
  let size := c.uncompressedDataSize.toNat
  if 0 < size then
    if c.compressedPropsSize = 0 then throw .invalidChunkCompressedData
    if c.compressedDataSize = 0 then throw .invalidChunkCompressedData
    let start := c.compressedDataStart.toNat
    let compressed ← readAt stream start c.compressedDataSize.toNat
    let props ← readAt stream (start + c.compressedDataSize.toNat) c.compressedPropsSize.toNat
    match lzma.uncompress size compressed props with
    | none => throw .couldNotUncompressData
    | some bytes => return fill size bytes
  else return []

/-- `loadData`. -/
def loadData (lzma : Lzma) (stream : List UInt8) (c : ChunkedBinaryStreamReaderChunk) :
    Except Error ChunkedBinaryStreamReaderChunk :=
  if c.data.isSome then .ok c
  else do
    let data ← loadedData lzma stream c.chunk
    return { c with data := some data, currentReadPosition := 0, currentEndPosition := 0 }

/-- `unloadData`. -/
def unloadData (c : ChunkedBinaryStreamReaderChunk) : ChunkedBinaryStreamReaderChunk :=
  if c.data.isNone then c
  else { c with data := none, currentReadPosition := 0, currentEndPosition := 0 }

/-- `m_Data`. -/
def bytes (c : ChunkedBinaryStreamReaderChunk) : List UInt8 := c.data.getD []

/-- `getInformation`. -/
def getInformation (c : ChunkedBinaryStreamReaderChunk) (entryIndex : Nat) :
    Except Error (ChunkedBinaryDataType × Nat) :=
  match c.chunkEntries[entryIndex]? with
  | none => .error .invalidEntryIndex
  | some e =>
    if e.entryType = entryTypeInt32ArrayNoPrediction ∨
        e.entryType = entryTypeInt32ArrayDeltaPrediction then
      if e.sizeInBytes.toNat % 4 ≠ 0 then .error .invalidChunkData
      else .ok (.int32Array, e.sizeInBytes.toNat / 4)
    else if e.entryType = entryTypeFloat32ArrayNoPrediction ∨
        e.entryType = entryTypeFloat32ArrayDeltaPrediction then
      if e.sizeInBytes.toNat < 4 then .error .invalidChunkData
      else if e.sizeInBytes.toNat % 4 ≠ 0 then .error .invalidChunkData
      else .ok (.floatArray, (e.sizeInBytes.toNat - 4) / 4)
    else .ok (.unknown, 0)

/-- `seekToEntry`, with the type and the size of the entry. -/
def seekToEntry (c : ChunkedBinaryStreamReaderChunk) (entryIndex : Nat) :
    Except Error (ChunkedBinaryStreamReaderChunk × BitVec 32 × Nat) :=
  match c.chunkEntries[entryIndex]? with
  | none => .error .invalidEntryIndex
  | some e =>
    if c.bytes.length < e.positionInChunk.toNat then .error .invalidChunkEntryPosition
    else
      let start := e.positionInChunk.toNat
      let stop := match c.chunkEntries[entryIndex + 1]? with
        | some next => next.positionInChunk.toNat
        | none => c.bytes.length
      if stop < start then .error .invalidChunkEntryEndPosition
      else if stop - start ≠ e.sizeInBytes.toNat then .error .invalidChunkEntrySize
      else .ok ({ c with currentReadPosition := start, currentEndPosition := stop },
        e.entryType, stop - start)

/-- `readInt32`. -/
def readInt32 (c : ChunkedBinaryStreamReaderChunk) :
    Except Error (BitVec 32 × ChunkedBinaryStreamReaderChunk) :=
  if c.bytes.length < c.currentReadPosition then .error .invalidChunkEntryPosition
  else if c.bytes.length < c.currentEndPosition then .error .invalidChunkEntryEndPosition
  else if c.currentEndPosition < c.currentReadPosition + 4 then
    .error .notEnoughDataToReadFromChunk
  else .ok (codec32.decode ((c.bytes.drop c.currentReadPosition).take 4),
    { c with currentReadPosition := c.currentReadPosition + 4 })

/-- `readFloat`, with the bits of the float. -/
def readFloat (c : ChunkedBinaryStreamReaderChunk) :
    Except Error (BitVec 32 × ChunkedBinaryStreamReaderChunk) := c.readInt32

/-- The loop of an array without prediction. -/
def readNoPrediction : Nat → ChunkedBinaryStreamReaderChunk →
    Except Error (List (BitVec 32) × ChunkedBinaryStreamReaderChunk)
  | 0, c => .ok ([], c)
  | n + 1, c => do
    let (value, c) ← c.readInt32
    let (values, c) ← readNoPrediction n c
    return (value :: values, c)

/-- The loop of an array with delta prediction, from the last value on. -/
def readDeltaPrediction : Nat → BitVec 32 → ChunkedBinaryStreamReaderChunk →
    Except Error (List (BitVec 32) × ChunkedBinaryStreamReaderChunk)
  | 0, _, c => .ok ([], c)
  | n + 1, lastValue, c => do
    let (x, c) ← c.readInt32
    let (values, c) ← readDeltaPrediction n (x + lastValue) c
    return ((x + lastValue) :: values, c)

end ChunkedBinaryStreamReaderChunk

namespace ChunkedBinaryStreamReader

/-- One chunk of `readHeader`. -/
def addChunk (r : ChunkedBinaryStreamReader) (c : BinaryChunkFileChunk × Nat) :
    Except Error ChunkedBinaryStreamReader := do
  let (chunk, chunkMap) ← ChunkedBinaryStreamReaderChunk.new r.importStream r.chunkMap c.1 c.2
  return { r with chunks := r.chunks ++ [chunk], chunkMap := chunkMap }

/-- `readHeader`. -/
def readHeader (stream : List UInt8) : Except Error ChunkedBinaryStreamReader := do
  if stream.length < headerCodec.size then throw .invalidChunkStream
  let bytes ← readAt stream 0 headerCodec.size
  let header := headerCodec.decode bytes
  if header.sign ≠ binaryChunkFileHeaderSign then throw .invalidChunkStreamSign
  if header.version ≠ binaryChunkFileHeaderVersion then throw .invalidChunkStreamVersion
  if binaryChunkFileMaxChunkCount < header.chunkCount.toNat then throw .tooManyBinaryChunks
  let r : ChunkedBinaryStreamReader := ⟨stream, [], .empty⟩
  if header.chunkCount.toNat = 0 then return r
  let table ← readAt stream header.chunkTableStart.toNat
    (chunkCodec.size * header.chunkCount.toNat)
  (chunkCodec.decodeAll header.chunkCount.toNat table).zipIdx.foldlM addChunk r

/-- The constructor, on an import stream of the written bytes. -/
def new (bytes : List UInt8) : Except Error ChunkedBinaryStreamReader := do
  readHeader (← importStreamSharedMemory bytes)

/-- `findChunkByEntry`: the indices of the chunk and the entry. -/
def findChunkByEntry (r : ChunkedBinaryStreamReader) (entryID : BitVec 32) :
    Except Error (Nat × ChunkedBinaryStreamReaderChunk × Nat) :=
  match r.chunkMap.find? entryID.toNat with
  | none => .error .binaryChunkEntryNotFound
  | some (chunkIndex, entryIndex) =>
    match r.chunks[chunkIndex]? with
    | none => .error .binaryChunkEntryNotFound
    | some c => .ok (chunkIndex, c, entryIndex)

/-- `getTypedChunkEntryCount`. -/
def getTypedChunkEntryCount (r : ChunkedBinaryStreamReader) (entryID : BitVec 32)
    (dataType : ChunkedBinaryDataType) : Except Error Nat := do
  let (_, c, entryIndex) ← r.findChunkByEntry entryID
  let (existingDataType, count) ← c.getInformation entryIndex
  if existingDataType ≠ dataType then throw .unexpectedChunkDataType
  return count

/-- What `readIntArray` and `readFloatArray` start with: the chunk with its data, at the entry. -/
def seekToEntry (lzma : Lzma) (r : ChunkedBinaryStreamReader) (entryID : BitVec 32) :
    Except Error (Nat × ChunkedBinaryStreamReaderChunk × BitVec 32 × Nat) := do
  let (chunkIndex, c, entryIndex) ← r.findChunkByEntry entryID
  let c ← c.loadData lzma r.importStream
  let (c, entryType, entrySize) ← c.seekToEntry entryIndex
  return (chunkIndex, c, entryType, entrySize)

/-- The values of the entry at which a chunk is, by its type. -/
def readValues (noPrediction deltaPrediction entryType : BitVec 32) (count : Nat)
    (c : ChunkedBinaryStreamReaderChunk) :
    Except Error (List (BitVec 32) × ChunkedBinaryStreamReaderChunk) :=
  if count = 0 then .ok ([], c)
  else if entryType = noPrediction then c.readNoPrediction count
  else if entryType = deltaPrediction then c.readDeltaPrediction count 0
  else .error .invalidChunkEntryType

/-- The reader with a chunk that was read. -/
def setChunk (r : ChunkedBinaryStreamReader) (i : Nat) (c : ChunkedBinaryStreamReaderChunk) :
    ChunkedBinaryStreamReader := { r with chunks := r.chunks.set i c }

/-- `readIntArray`, into an array of `dataCount` values. -/
def readIntArray (lzma : Lzma) (r : ChunkedBinaryStreamReader) (entryID : BitVec 32)
    (dataCount : Nat) : Except Error (List (BitVec 32) × ChunkedBinaryStreamReader) := do
  let (i, c, entryType, entrySize) ← r.seekToEntry lzma entryID
  if entrySize % 4 ≠ 0 then throw .invalidChunkData
  if dataCount ≠ entrySize / 4 then throw .invalidBufferSize
  let (values, c) ← readValues entryTypeInt32ArrayNoPrediction
    entryTypeInt32ArrayDeltaPrediction entryType dataCount c
  return (values, r.setChunk i c)

/-- `readFloatArray`, into an array of `dataCount` values, the products being exact. -/
def readFloatArray (lzma : Lzma) (r : ChunkedBinaryStreamReader) (entryID : BitVec 32)
    (dataCount : Nat) : Except Error (List ℚ × ChunkedBinaryStreamReader) := do
  let (i, c, entryType, entrySize) ← r.seekToEntry lzma entryID
  if entrySize % 4 ≠ 0 then throw .invalidChunkData
  if entrySize < 4 then throw .invalidChunkData
  if dataCount ≠ (entrySize - 4) / 4 then throw .invalidBufferSize
  let (units, c) ← c.readFloat
  let (values, c) ← readValues entryTypeFloat32ArrayNoPrediction
    entryTypeFloat32ArrayDeltaPrediction entryType dataCount c
  return (values.map fun v => v.toInt * floatValue units, r.setChunk i c)

/-- `clearCache`. -/
def clearCache (r : ChunkedBinaryStreamReader) : ChunkedBinaryStreamReader :=
  { r with chunks := r.chunks.map (·.unloadData) }

end ChunkedBinaryStreamReader

end NMR
