import Lib3MF.Lib.Chunks
import Lib3MF.Common.Exception
import Lib3MF.Common.Platform.Streams
import Lib3MF.Common.Platform.Zlib
import Lib3MF.Common.Platform.PortableZIPWriterTypes

/-!
# The ZIP writer

`CPortableZIPWriter`, its entries and the streams it hands out (`CExportStream_ZIP`), which write
through the writer that made them. `m_pCurrentEntry` is the last of `m_Entries` when it is not
null; here it stands apart in `currentEntry`. A stream is known to its users by its index in
`streams`. A function that throws leaves the writer as it is at that point. The code runs on a
little-endian machine; a time stamp is never used.
-/

namespace NMR

open Lib

/-- How a function of the ZIP writer may fail: it throws, or it reads through the null pointer
`m_pCurrentEntry`, which the language leaves undefined. -/
inductive ZIPFault where
  | thrown (e : Error)
  | nullEntry
  deriving DecidableEq

/-- `CPortableZIPWriterEntry`. -/
structure PortableZIPWriterEntry where
  utf8Name : List UInt8
  crc32 : BitVec 32
  compressedSize : BitVec 64
  uncompressedSize : BitVec 64
  lastModTime : BitVec 16
  lastModDate : BitVec 16
  filePosition : Nat
  extInfoPosition : Nat
  dataPosition : Nat
  deriving DecidableEq

/-- `CExportStream_ZIP`, with the bytes that are in its buffer. -/
structure ExportStreamZIP (σ : Type) where
  entryKey : BitVec 32
  isInitialized : Bool
  stream : σ
  outBuffer : List UInt8
  deriving DecidableEq

/-- `CPortableZIPWriter`. -/
structure PortableZIPWriter (σ : Type) where
  exportStream : ExportStreamMemory
  writeZIP64 : Bool
  currentEntryKey : BitVec 32
  nextEntryKey : BitVec 32
  isFinished : Bool
  entries : List PortableZIPWriterEntry
  currentEntry : Option PortableZIPWriterEntry
  currentStream : Option Nat
  streams : List (ExportStreamZIP σ)
  deriving DecidableEq

/-- `ZIPEXPORTBUFFERSIZE` and `ZIPEXPORTWRITECHUNKSIZE`. -/
def zipExportBufferSize : Nat := 65536
def zipExportWriteChunkSize : Nat := 1048576

/-- A path delimiter. -/
def isPathDelimiter (c : UInt8) : Bool := c == 47 || c == 92

/-- `fnRemoveLeadingPathDelimiter`, which ends with the C string. -/
def removeLeadingPathDelimiter (path : List UInt8) : List UInt8 :=
  (path.dropWhile isPathDelimiter).takeWhile (· ≠ 0)

variable {σ : Type}

/-- A function of the writer. -/
abbrev ZIPWriterM (σ : Type) := EStateM ZIPFault (PortableZIPWriter σ)

/-- Throw an `NMR_ERROR_*`. -/
def throwNMR {α : Type} (e : Error) : ZIPWriterM σ α := throw (.thrown e)

namespace PortableZIPWriter

/-- The constructor, on an empty stream. -/
def new (writeZIP64 : Bool) : PortableZIPWriter σ :=
  ⟨.new, writeZIP64, 0, 1, false, [], none, none, []⟩

/-- `m_nVersionMade`, `m_nVersionNeeded`, which depend on `m_bWriteZIP64` alone. -/
def version (writeZIP64 : Bool) : BitVec 16 :=
  if writeZIP64 then zipFileVersionNeededZIP64 else zipFileVersionNeeded

/-- Write to the export stream. -/
def write (bytes : List UInt8) : ZIPWriterM σ Unit :=
  modify fun z => { z with exportStream := z.exportStream.writeBuffer bytes }

/-- Seek in the export stream, which has to succeed. -/
def seek (seeked : ExportStreamMemory → Except Error ExportStreamMemory) : ZIPWriterM σ Unit := do
  let z ← get
  match seeked z.exportStream with
  | .error e => throwNMR e
  | .ok s => set { z with exportStream := s }

/-- `calculateChecksum`. -/
def calculateChecksum (entryKey : BitVec 32) (bytes : List UInt8) : ZIPWriterM σ Unit := do
  let z ← get
  match z.currentEntry with
  | none => throwNMR .invalidZIPEntry
  | some e =>
    if entryKey ≠ z.currentEntryKey then throwNMR .invalidZIPEntryKey
    else set { z with currentEntry := some { e with
      crc32 := NMR.crc32 e.crc32 bytes
      uncompressedSize := e.uncompressedSize + BitVec.ofNat 64 bytes.length } }

/-- `writeDeflatedBuffer`. -/
def writeDeflatedBuffer (entryKey : BitVec 32) (bytes : List UInt8) : ZIPWriterM σ Unit := do
  let z ← get
  match z.currentEntry with
  | none => throwNMR .invalidZIPEntry
  | some e =>
    if entryKey ≠ z.currentEntryKey then throwNMR .invalidZIPEntryKey
    else set { z with
      exportStream := z.exportStream.writeBuffer bytes
      currentEntry := some { e with
        compressedSize := e.compressedSize + BitVec.ofNat 64 bytes.length } }

end PortableZIPWriter

namespace ExportStreamZIP

/-- One byte of output: the buffer is written when it is full. -/
def putByte (s : ExportStreamZIP σ) (b : UInt8) : ZIPWriterM σ (ExportStreamZIP σ) :=
  if (s.outBuffer ++ [b]).length = zipExportBufferSize then do
    PortableZIPWriter.writeDeflatedBuffer s.entryKey (s.outBuffer ++ [b])
    return { s with outBuffer := [] }
  else return { s with outBuffer := s.outBuffer ++ [b] }

/-- `writeChunk`. -/
def writeChunk (d : Deflate σ) (s : ExportStreamZIP σ) (bytes : List UInt8) :
    ZIPWriterM σ (ExportStreamZIP σ) := do
  PortableZIPWriter.calculateChecksum s.entryKey bytes
  let (state, output) := d.deflate s.stream bytes
  output.foldlM putByte { s with stream := state }

/-- `writeBuffer`. -/
def writeBuffer (d : Deflate σ) (s : ExportStreamZIP σ) (bytes : List UInt8) :
    ZIPWriterM σ (ExportStreamZIP σ) :=
  if s.isInitialized then
    (chunksOf zipExportWriteChunkSize bytes).foldlM (writeChunk d) s
  else throwNMR .zipAlreadyFinished

/-- What is left in the buffer at the end. -/
def writeRest (s : ExportStreamZIP σ) : ZIPWriterM σ Unit :=
  if 0 < s.outBuffer.length then PortableZIPWriter.writeDeflatedBuffer s.entryKey s.outBuffer
  else return ()

/-- `flushZIPStream`, that is `finishDeflate`. -/
def flushZIPStream (d : Deflate σ) (s : ExportStreamZIP σ) :
    ZIPWriterM σ (ExportStreamZIP σ) :=
  if s.isInitialized then do
    let s ← (d.finish s.stream).foldlM putByte s
    writeRest s
    return { s with isInitialized := false }
  else throwNMR .zipAlreadyFinished

end ExportStreamZIP

namespace PortableZIPWriter

/-- Put a stream back. -/
def setStream (i : Nat) (s : ExportStreamZIP σ) : ZIPWriterM σ Unit :=
  modify fun z => { z with streams := z.streams.set i s }

/-- `writeBuffer` of the stream with an index. -/
def writeStream (d : Deflate σ) (i : Nat) (bytes : List UInt8) : ZIPWriterM σ Unit := do
  let z ← get
  match z.streams[i]? with
  | none => throwNMR .noExportStream
  | some s => setStream i (← s.writeBuffer d bytes)

/-- The extra information of an entry, with the size of the field beyond the sizes. -/
def extraInformation (e : PortableZIPWriterEntry) (more : Nat) : ZIP64ExtraInformationField :=
  ⟨zipFileDataZIP64ExtendedInformationExtraField,
    BitVec.ofNat 16 (zip64ExtraInformationFieldCodec.size - 4 + more), e.uncompressedSize,
    e.compressedSize⟩

/-- The sizes of an entry in its headers. -/
def descriptor (writeZIP64 : Bool) (e : PortableZIPWriterEntry) : ZIPLocalFileDescriptor :=
  if writeZIP64 then ⟨e.crc32, 0xFFFFFFFF, 0xFFFFFFFF⟩
  else ⟨e.crc32, e.compressedSize.setWidth 32, e.uncompressedSize.setWidth 32⟩

/-- An entry whose sizes need ZIP64. -/
def TooLarge (e : PortableZIPWriterEntry) : Prop :=
  zipFileMaximumSizeNon64 < e.compressedSize.toNat ∨
    zipFileMaximumSizeNon64 < e.uncompressedSize.toNat

instance (e : PortableZIPWriterEntry) : Decidable (TooLarge e) := by
  unfold TooLarge
  infer_instance

/-- The sizes of an entry that is closed, written into its local header. -/
def patchHeader (e : PortableZIPWriterEntry) : ZIPWriterM σ Unit := do
  let z ← get
  seek (·.seekPosition (e.filePosition + zipFileDescriptorOffset))
  write (zipLocalFileDescriptorCodec.encode (descriptor z.writeZIP64 e))
  if z.writeZIP64 then
    seek (·.seekPosition e.extInfoPosition)
    write (zip64ExtraInformationFieldCodec.encode (extraInformation e 0))
  seek (·.seekFromEnd 0)

/-- Flush the current stream. -/
def flushCurrentStream (d : Deflate σ) : ZIPWriterM σ Unit := do
  let z ← get
  match z.currentStream with
  | none => throwNMR .noExportStream
  | some i =>
    match z.streams[i]? with
    | none => throwNMR .noExportStream
    | some s => setStream i (← s.flushZIPStream d)

/-- The current entry is closed: flush its stream and write its sizes. -/
def finishEntry (d : Deflate σ) : ZIPWriterM σ Unit := do
  flushCurrentStream d
  let z ← get
  match z.currentEntry with
  | none => throw .nullEntry
  | some e =>
    if !z.writeZIP64 && decide (TooLarge e) then throwNMR .zipEntryNon64TooLarge
    patchHeader e

/-- The end of `closeEntry`. -/
def forgetEntry : ZIPWriterM σ Unit :=
  modify fun z => { z with
    entries := z.entries ++ z.currentEntry.toList
    currentEntry := none
    currentStream := none
    currentEntryKey := 0 }

/-- `closeEntry`. -/
def closeEntry (d : Deflate σ) : ZIPWriterM σ Unit := do
  if (← get).isFinished then throwNMR .zipAlreadyFinished
  if (← get).currentEntry.isSome then finishEntry d
  forgetEntry

/-- The local header of a new entry. -/
def localHeader (writeZIP64 : Bool) (name : List UInt8) : ZIPLocalFileHeader :=
  ⟨zipFileHeaderSignature, version writeZIP64, 0, zipFileCompressionDeflated, 0, 0, ⟨0, 0, 0⟩,
    BitVec.ofNat 16 name.length,
    if writeZIP64 then BitVec.ofNat 16 zip64ExtraInformationFieldCodec.size else 0⟩

/-- The constructor of `CExportStream_ZIP` for the current entry. -/
def newStream (d : Deflate σ) : ZIPWriterM σ Nat := do
  let z ← get
  if z.currentEntryKey = 0 then throwNMR .invalidParam
  modify fun z => { z with
    currentStream := some z.streams.length
    streams := z.streams ++ [⟨z.currentEntryKey, true, d.init, []⟩] }
  return z.streams.length

/-- The start of a new entry: its header in the stream, the entry and its stream. -/
def beginEntry (d : Deflate σ) (name : List UInt8) : ZIPWriterM σ Nat := do
  let z ← get
  let filePosition := z.exportStream.position
  write (zipLocalFileHeaderCodec.encode (localHeader z.writeZIP64 name) ++ name)
  let extInfoPosition := (← get).exportStream.position
  let e : PortableZIPWriterEntry := ⟨name, 0, 0, 0, 0, 0, filePosition, extInfoPosition, 0⟩
  if z.writeZIP64 then write (zip64ExtraInformationFieldCodec.encode (extraInformation e 0))
  modify fun z => { z with
    currentEntry := some { e with dataPosition := z.exportStream.position } }
  newStream d

/-- `createEntry`, with the index of the new stream. -/
def createEntry (d : Deflate σ) (name : List UInt8) : ZIPWriterM σ Nat := do
  if (← get).isFinished then throwNMR .zipAlreadyFinished
  closeEntry d
  modify fun z => { z with
    currentEntryKey := z.nextEntryKey
    nextEntryKey := z.nextEntryKey + 1 }
  if zipFileMaxEntries ≤ (← get).nextEntryKey then throwNMR .zipEntryOverflow
  let filteredName := removeLeadingPathDelimiter name
  if zipFileMaxFileNameLength < filteredName.length then throwNMR .invalidZIPName
  beginEntry d filteredName

/-- The directory header of an entry. -/
def directoryHeader (writeZIP64 : Bool) (e : PortableZIPWriterEntry) :
    ZIPCentralDirectoryFileHeader :=
  ⟨zipFileCentralHeaderSignature, version writeZIP64, version writeZIP64, 0,
    zipFileCompressionDeflated, e.lastModTime, e.lastModDate, descriptor writeZIP64 e,
    BitVec.ofNat 16 e.utf8Name.length,
    if writeZIP64 then BitVec.ofNat 16 (zip64ExtraInformationFieldCodec.size + 8) else 0,
    0, 0, 0, zipFileExternalFileAttributes,
    if writeZIP64 then 0xFFFFFFFF else BitVec.ofNat 32 e.filePosition⟩

/-- The check of `m_pCurrentEntry` in `writeDirectory`. -/
def checkCurrentEntry : ZIPWriterM σ Unit := do
  match (← get).currentEntry with
  | none => throw .nullEntry
  | some e => if TooLarge e then throwNMR .zipEntryNon64TooLarge

/-- One entry of `writeDirectory`. Without ZIP64 it is not the entry whose sizes are checked. -/
def writeDirectoryEntry (e : PortableZIPWriterEntry) : ZIPWriterM σ Unit := do
  let z ← get
  if !z.writeZIP64 then checkCurrentEntry
  write (zipCentralDirectoryFileHeaderCodec.encode (directoryHeader z.writeZIP64 e) ++ e.utf8Name)
  if z.writeZIP64 then
    write (zip64ExtraInformationFieldCodec.encode (extraInformation e 8) ++
      zip64.encode (BitVec.ofNat 64 e.filePosition))

/-- The ends of a directory of `count` entries and `size` bytes from `start` on. -/
def endHeader64 (count start size : Nat) : ZIP64EndOfCentralDirHeader :=
  ⟨zip64FileEndOfCentralDirRecordSignature,
    BitVec.ofNat 64 (zip64EndOfCentralDirHeaderCodec.size - 12), version true, version true, 0, 0,
    BitVec.ofNat 64 count, BitVec.ofNat 64 count, BitVec.ofNat 64 size, BitVec.ofNat 64 start⟩

def endLocator64 (start size : Nat) : ZIP64EndOfCentralDirLocator :=
  ⟨zip64FileEndOfCentralDirLocatorSignature, 0, BitVec.ofNat 64 (start + size), 1⟩

def endHeader (writeZIP64 : Bool) (count start size : Nat) : ZIPEndOfCentralDirHeader :=
  ⟨zipFileEndOfCentralDirSignature, 0, 0, BitVec.ofNat 16 count, BitVec.ofNat 16 count,
    BitVec.ofNat 32 size, if writeZIP64 then 0xFFFFFFFF else BitVec.ofNat 32 start, 0⟩

/-- The end of `writeDirectory`. -/
def writeEnd (start : Nat) : ZIPWriterM σ Unit := do
  let z ← get
  let size := z.exportStream.position - start
  if z.writeZIP64 then
    write (zip64EndOfCentralDirHeaderCodec.encode (endHeader64 z.entries.length start size) ++
      zip64EndOfCentralDirLocatorCodec.encode (endLocator64 start size))
  write (zipEndOfCentralDirHeaderCodec.encode (endHeader z.writeZIP64 z.entries.length start size))
  modify fun z => { z with isFinished := true }

/-- `writeDirectory`. -/
def writeDirectory (d : Deflate σ) : ZIPWriterM σ Unit := do
  closeEntry d
  let z ← get
  z.entries.forM writeDirectoryEntry
  writeEnd z.exportStream.position

end PortableZIPWriter

end NMR
