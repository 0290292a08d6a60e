import Lib3MF.Lib.Bytes

/-!
# The records of a ZIP archive

The records are packed and little endian. A local header holds the checksum and the sizes of its
entry as a descriptor of its own, 14 bytes after its start, which is written again when the entry
is closed.
-/

namespace NMR

open Lib

/-- `ZIPFILEHEADERSIGNATURE` and the other signatures. -/
def zipFileHeaderSignature : BitVec 32 := 0x04034b50
def zipFileCentralHeaderSignature : BitVec 32 := 0x02014b50
def zipFileEndOfCentralDirSignature : BitVec 32 := 0x06054b50
def zip64FileEndOfCentralDirRecordSignature : BitVec 32 := 0x06064b50
def zip64FileEndOfCentralDirLocatorSignature : BitVec 32 := 0x07064b50

/-- `ZIPFILEDESCRIPTOROFFSET`. -/
def zipFileDescriptorOffset : Nat := 14

/-- `ZIPFILEVERSIONNEEDED` and `ZIPFILEVERSIONNEEDEDZIP64`. -/
def zipFileVersionNeeded : BitVec 16 := 0x0A
def zipFileVersionNeededZIP64 : BitVec 16 := 0x2D

/-- `ZIPFILEEXTERNALFILEATTRIBUTES`. -/
def zipFileExternalFileAttributes : BitVec 32 := 0x80

/-- `ZIPFILEMAXENTRIES`. -/
def zipFileMaxEntries : BitVec 32 := 2147483647

/-- `ZIPFILEDATAZIP64EXTENDEDINFORMATIONEXTRAFIELD`. -/
def zipFileDataZIP64ExtendedInformationExtraField : BitVec 16 := 0x0001

/-- `ZIPFILECOMPRESSION_DEFLATED`. -/
def zipFileCompressionDeflated : BitVec 16 := 8

/-- `ZIPFILEMAXFILENAMELENGTH`. -/
def zipFileMaxFileNameLength : Nat := 32000

/-- `ZIPFILEMAXIMUMSIZENON64`. -/
def zipFileMaximumSizeNon64 : Nat := 0xFFFFFFFF

/-- `ZIPLOCALFILEDESCRIPTOR`. -/
structure ZIPLocalFileDescriptor where
  crc32 : BitVec 32
  compressedSize : BitVec 32
  uncompressedSize : BitVec 32
  deriving DecidableEq

/-- `ZIPLOCALFILEHEADER`. -/
structure ZIPLocalFileHeader where
  signature : BitVec 32
  version : BitVec 16
  generalPurposeFlags : BitVec 16
  compressionMethod : BitVec 16
  lastModTime : BitVec 16
  lastModDate : BitVec 16
  descriptor : ZIPLocalFileDescriptor
  fileNameLength : BitVec 16
  extraFieldLength : BitVec 16
  deriving DecidableEq

/-- `ZIP64EXTRAINFORMATIONFIELD`. -/
structure ZIP64ExtraInformationField where
  tag : BitVec 16
  fieldSize : BitVec 16
  uncompressedSize : BitVec 64
  compressedSize : BitVec 64
  deriving DecidableEq

/-- `ZIPCENTRALDIRECTORYFILEHEADER`. -/
structure ZIPCentralDirectoryFileHeader where
  signature : BitVec 32
  versionMade : BitVec 16
  versionNeeded : BitVec 16
  generalPurposeFlags : BitVec 16
  compressionMethod : BitVec 16
  lastModTime : BitVec 16
  lastModDate : BitVec 16
  descriptor : ZIPLocalFileDescriptor
  fileNameLength : BitVec 16
  extraFieldLength : BitVec 16
  fileCommentLength : BitVec 16
  diskNumberStart : BitVec 16
  internalFileAttributes : BitVec 16
  externalFileAttributes : BitVec 32
  relativeOffsetOfLocalHeader : BitVec 32
  deriving DecidableEq

/-- `ZIPENDOFCENTRALDIRHEADER`. -/
structure ZIPEndOfCentralDirHeader where
  signature : BitVec 32
  numberOfDisk : BitVec 16
  relativeNumberOfDisk : BitVec 16
  numberOfEntriesOfDisk : BitVec 16
  numberOfEntriesOfDirectory : BitVec 16
  sizeOfCentralDirectory : BitVec 32
  offsetOfCentralDirectory : BitVec 32
  commentLength : BitVec 16
  deriving DecidableEq

/-- `ZIP64ENDOFCENTRALDIRHEADER`. -/
structure ZIP64EndOfCentralDirHeader where
  signature : BitVec 32
  endOfCentralDirHeaderRecord : BitVec 64
  versionMade : BitVec 16
  versionNeeded : BitVec 16
  numberOfDisk : BitVec 32
  numberOfDiskOfCentralDirectory : BitVec 32
  totalNumberOfEntriesOnThisDisk : BitVec 64
  totalNumberOfEntriesInCentralDirectory : BitVec 64
  sizeOfCentralDirectory : BitVec 64
  offsetOfCentralDirectoryWithRespectToDisk : BitVec 64
  deriving DecidableEq

/-- `ZIP64ENDOFCENTRALDIRLOCATOR`. -/
structure ZIP64EndOfCentralDirLocator where
  signature : BitVec 32
  numberOfDiskWithStartOfZIP64EOCentralDir : BitVec 32
  relativeOffset : BitVec 64
  totalNumberOfDisk : BitVec 32
  deriving DecidableEq

/-- `nfUint16`, `nfUint32`, `nfUint64`. -/
def zip16 : Codec (BitVec 16) := Codec.word 2
def zip32 : Codec (BitVec 32) := Codec.word 4
def zip64 : Codec (BitVec 64) := Codec.word 8

def zipLocalFileDescriptorCodec : Codec ZIPLocalFileDescriptor :=
  (zip32.pair (zip32.pair zip32)).rename
    (fun d => (d.crc32, d.compressedSize, d.uncompressedSize))
    (fun x => ⟨x.1, x.2.1, x.2.2⟩) fun _ => rfl

/-- The 14 bytes of a local header before its descriptor, and the four after it. -/
def zipLocalFileHeaderCodec : Codec ZIPLocalFileHeader :=
  ((zip32.pair (zip16.pair (zip16.pair (zip16.pair (zip16.pair zip16))))).pair
    (zipLocalFileDescriptorCodec.pair (zip16.pair zip16))).rename
    (fun h => ((h.signature, h.version, h.generalPurposeFlags, h.compressionMethod,
      h.lastModTime, h.lastModDate), h.descriptor, h.fileNameLength, h.extraFieldLength))
    (fun x => ⟨x.1.1, x.1.2.1, x.1.2.2.1, x.1.2.2.2.1, x.1.2.2.2.2.1, x.1.2.2.2.2.2, x.2.1,
      x.2.2.1, x.2.2.2⟩) fun _ => rfl

def zip64ExtraInformationFieldCodec : Codec ZIP64ExtraInformationField :=
  (zip16.pair (zip16.pair (zip64.pair zip64))).rename
    (fun x => (x.tag, x.fieldSize, x.uncompressedSize, x.compressedSize))
    (fun x => ⟨x.1, x.2.1, x.2.2.1, x.2.2.2⟩) fun _ => rfl

def zipCentralDirectoryFileHeaderCodec : Codec ZIPCentralDirectoryFileHeader :=
  (zip32.pair (zip16.pair (zip16.pair (zip16.pair (zip16.pair (zip16.pair (zip16.pair
    (zipLocalFileDescriptorCodec.pair (zip16.pair (zip16.pair (zip16.pair (zip16.pair (zip16.pair
      (zip32.pair zip32)))))))))))))).rename
    (fun h => (h.signature, h.versionMade, h.versionNeeded, h.generalPurposeFlags,
      h.compressionMethod, h.lastModTime, h.lastModDate, h.descriptor, h.fileNameLength,
      h.extraFieldLength, h.fileCommentLength, h.diskNumberStart, h.internalFileAttributes,
      h.externalFileAttributes, h.relativeOffsetOfLocalHeader))
    (fun ⟨a, b, c, d, e, f, g, h, i, j, k, l, m, n, o⟩ =>
      ⟨a, b, c, d, e, f, g, h, i, j, k, l, m, n, o⟩) fun _ => rfl

def zipEndOfCentralDirHeaderCodec : Codec ZIPEndOfCentralDirHeader :=
  (zip32.pair (zip16.pair (zip16.pair (zip16.pair (zip16.pair (zip32.pair (zip32.pair
    zip16))))))).rename
    (fun h => (h.signature, h.numberOfDisk, h.relativeNumberOfDisk, h.numberOfEntriesOfDisk,
      h.numberOfEntriesOfDirectory, h.sizeOfCentralDirectory, h.offsetOfCentralDirectory,
      h.commentLength))
    (fun ⟨a, b, c, d, e, f, g, h⟩ => ⟨a, b, c, d, e, f, g, h⟩) fun _ => rfl

def zip64EndOfCentralDirHeaderCodec : Codec ZIP64EndOfCentralDirHeader :=
  (zip32.pair (zip64.pair (zip16.pair (zip16.pair (zip32.pair (zip32.pair (zip64.pair (zip64.pair
    (zip64.pair zip64))))))))).rename
    (fun h => (h.signature, h.endOfCentralDirHeaderRecord, h.versionMade, h.versionNeeded,
      h.numberOfDisk, h.numberOfDiskOfCentralDirectory, h.totalNumberOfEntriesOnThisDisk,
      h.totalNumberOfEntriesInCentralDirectory, h.sizeOfCentralDirectory,
      h.offsetOfCentralDirectoryWithRespectToDisk))
    (fun ⟨a, b, c, d, e, f, g, h, i, j⟩ => ⟨a, b, c, d, e, f, g, h, i, j⟩) fun _ => rfl

def zip64EndOfCentralDirLocatorCodec : Codec ZIP64EndOfCentralDirLocator :=
  (zip32.pair (zip32.pair (zip64.pair zip32))).rename
    (fun l => (l.signature, l.numberOfDiskWithStartOfZIP64EOCentralDir, l.relativeOffset,
      l.totalNumberOfDisk))
    (fun ⟨a, b, c, d⟩ => ⟨a, b, c, d⟩) fun _ => rfl

@[simp] theorem size_zipLocalFileDescriptorCodec : zipLocalFileDescriptorCodec.size = 12 := rfl
@[simp] theorem size_zipLocalFileHeaderCodec : zipLocalFileHeaderCodec.size = 30 := rfl
@[simp] theorem size_zip64ExtraInformationFieldCodec :
    zip64ExtraInformationFieldCodec.size = 20 := rfl
@[simp] theorem size_zipCentralDirectoryFileHeaderCodec :
    zipCentralDirectoryFileHeaderCodec.size = 46 := rfl
@[simp] theorem size_zipEndOfCentralDirHeaderCodec : zipEndOfCentralDirHeaderCodec.size = 22 := rfl
@[simp] theorem size_zip64EndOfCentralDirHeaderCodec :
    zip64EndOfCentralDirHeaderCodec.size = 56 := rfl
@[simp] theorem size_zip64EndOfCentralDirLocatorCodec :
    zip64EndOfCentralDirLocatorCodec.size = 20 := rfl

/-- Where the descriptor of a local header is. -/
theorem encode_zipLocalFileHeader (h : ZIPLocalFileHeader) : ∃ before after : List UInt8,
    before.length = zipFileDescriptorOffset ∧ after.length = 4 ∧
    ∀ d, zipLocalFileHeaderCodec.encode { h with descriptor := d } =
      before ++ (zipLocalFileDescriptorCodec.encode d ++ after) :=
  ⟨(zip32.pair (zip16.pair (zip16.pair (zip16.pair (zip16.pair zip16))))).encode
      (h.signature, h.version, h.generalPurposeFlags, h.compressionMethod, h.lastModTime,
        h.lastModDate),
    (zip16.pair zip16).encode (h.fileNameLength, h.extraFieldLength),
    Codec.length_encode _ _, Codec.length_encode _ _, fun _ => rfl⟩

end NMR
