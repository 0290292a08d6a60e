import Lib3MF.Common.Platform.ZIPPlan

/-!
# Well-formed ZIP archives

What a reader finds in an archive of some items: at each place the record it decodes there, and in
it the true values. A size, an offset or a count may be all ones instead where the archive is a
ZIP64 one, whose own records give it then.
-/

namespace NMR

open Lib

variable {σ : Type}

/-- The bytes at a position. -/
def bytesAt (file : List UInt8) (pos size : Nat) : List UInt8 := (file.drop pos).take size

/-- `v` is the number `n`, or all ones where `n` stands elsewhere. -/
def Gives {w : Nat} (v : BitVec w) (n : Nat) (elsewhere : Prop) : Prop :=
  v.toNat = n ∨ v = BitVec.allOnes w ∧ elsewhere

/-! ## Where the records stand -/

/-- The bytes between the name of an item and its data. -/
def extraSize (z64 : Bool) : Nat := if z64 then zip64ExtraInformationFieldCodec.size else 0

/-- The bytes of an item: local header, name, extra information, data. -/
def ZIPItem.size (d : Deflate σ) (z64 : Bool) (x : ZIPItem) : Nat :=
  zipLocalFileHeaderCodec.size + x.name.length + extraSize z64 + (x.packed d).length

/-- The bytes of its directory entry: header, name, and with ZIP64 the extra information with the
offset of the item. -/
def ZIPItem.directorySize (z64 : Bool) (x : ZIPItem) : Nat :=
  zipCentralDirectoryFileHeaderCodec.size + x.name.length +
    if z64 then zip64ExtraInformationFieldCodec.size + zip64.size else 0

/-- The bytes of some items, which is where their directory starts. -/
def itemsSize (d : Deflate σ) (z64 : Bool) (l : List ZIPItem) : Nat := (l.map (·.size d z64)).sum

/-- The bytes of their directory. -/
def directorySize (z64 : Bool) (l : List ZIPItem) : Nat := (l.map (·.directorySize z64)).sum

/-! ## The records -/

/-- A descriptor gives the checksum and the sizes of an item, perhaps by its extra information. -/
structure Describes (d : Deflate σ) (z64 : Bool) (x : ZIPItem) (c : ZIPLocalFileDescriptor)
    (i : ZIP64ExtraInformationField) : Prop where
  crc32 : c.crc32 = NMR.crc32 0 x.data
  tag : z64 = true → i.tag = zipFileDataZIP64ExtendedInformationExtraField
  compressedSize : Gives c.compressedSize (x.packed d).length
    (z64 = true ∧ i.compressedSize.toNat = (x.packed d).length)
  uncompressedSize : Gives c.uncompressedSize x.data.length
    (z64 = true ∧ i.uncompressedSize.toNat = x.data.length)

/-- At `pos` stands an item. -/
structure HasItem (d : Deflate σ) (z64 : Bool) (file : List UInt8) (pos : Nat) (x : ZIPItem)
    (h : ZIPLocalFileHeader) : Prop where
  header : zipLocalFileHeaderCodec.recordAt file pos = h
  signature : h.signature = zipFileHeaderSignature
  method : h.compressionMethod = zipFileCompressionDeflated
  nameLength : h.fileNameLength.toNat = x.name.length
  extraLength : h.extraFieldLength.toNat = extraSize z64
  name : bytesAt file (pos + zipLocalFileHeaderCodec.size) x.name.length = x.name
  describes : Describes d z64 x h.descriptor (zip64ExtraInformationFieldCodec.recordAt file
    (pos + zipLocalFileHeaderCodec.size + x.name.length))
  data : d.inflate (bytesAt file
    (pos + zipLocalFileHeaderCodec.size + x.name.length + extraSize z64) (x.packed d).length) =
      some x.data

/-- At `pos` stands the directory entry of the item at `offset`. -/
structure HasDirectoryEntry (d : Deflate σ) (z64 : Bool) (file : List UInt8) (pos offset : Nat)
    (x : ZIPItem) (h : ZIPCentralDirectoryFileHeader) : Prop where
  header : zipCentralDirectoryFileHeaderCodec.recordAt file pos = h
  signature : h.signature = zipFileCentralHeaderSignature
  method : h.compressionMethod = zipFileCompressionDeflated
  nameLength : h.fileNameLength.toNat = x.name.length
  extraLength : h.extraFieldLength.toNat + zipCentralDirectoryFileHeaderCodec.size +
    x.name.length = x.directorySize z64
  name : bytesAt file (pos + zipCentralDirectoryFileHeaderCodec.size) x.name.length = x.name
  describes : Describes d z64 x h.descriptor (zip64ExtraInformationFieldCodec.recordAt file
    (pos + zipCentralDirectoryFileHeaderCodec.size + x.name.length))
  relativeOffset : Gives h.relativeOffsetOfLocalHeader offset (z64 = true ∧ (zip64.recordAt file
    (pos + zipCentralDirectoryFileHeaderCodec.size + x.name.length +
      zip64ExtraInformationFieldCodec.size)).toNat = offset)

/-- The ZIP64 records after a directory of `count` entries and `size` bytes from `start` on. -/
structure HasEnd64 (file : List UInt8) (count start size : Nat) (r : ZIP64EndOfCentralDirHeader)
    (l : ZIP64EndOfCentralDirLocator) : Prop where
  record : zip64EndOfCentralDirHeaderCodec.recordAt file (start + size) = r
  recordSignature : r.signature = zip64FileEndOfCentralDirRecordSignature
  entriesOnThisDisk : r.totalNumberOfEntriesOnThisDisk.toNat = count
  entries : r.totalNumberOfEntriesInCentralDirectory.toNat = count
  sizeOfDirectory : r.sizeOfCentralDirectory.toNat = size
  offsetOfDirectory : r.offsetOfCentralDirectoryWithRespectToDisk.toNat = start
  locator : zip64EndOfCentralDirLocatorCodec.recordAt file
    (start + size + zip64EndOfCentralDirHeaderCodec.size) = l
  locatorSignature : l.signature = zip64FileEndOfCentralDirLocatorSignature
  position : l.relativeOffset.toNat = start + size

/-- The record at the end of the file. -/
structure HasEnd (z64 : Bool) (file : List UInt8) (count start size : Nat)
    (e : ZIPEndOfCentralDirHeader) : Prop where
  record : zipEndOfCentralDirHeaderCodec.recordAt file
    (file.length - zipEndOfCentralDirHeaderCodec.size) = e
  signature : e.signature = zipFileEndOfCentralDirSignature
  entriesOfDisk : Gives e.numberOfEntriesOfDisk count (z64 = true)
  entries : Gives e.numberOfEntriesOfDirectory count (z64 = true)
  sizeOfDirectory : Gives e.sizeOfCentralDirectory size (z64 = true)
  offsetOfDirectory : Gives e.offsetOfCentralDirectory start (z64 = true)

/-- A well-formed archive of some items: the items, the directory with an entry for each in their
order, and the records at the end, with nothing else between. -/
structure IsArchive (d : Deflate σ) (z64 : Bool) (l : List ZIPItem) (file : List UInt8) : Prop where
  items : ∀ before x after, l = before ++ x :: after →
    ∃ h, HasItem d z64 file (itemsSize d z64 before) x h
  directory : ∀ before x after, l = before ++ x :: after →
    ∃ h, HasDirectoryEntry d z64 file (itemsSize d z64 l + directorySize z64 before)
      (itemsSize d z64 before) x h
  end64 : z64 = true → ∃ r i, HasEnd64 file l.length (itemsSize d z64 l) (directorySize z64 l) r i
  endRecord : ∃ e, HasEnd z64 file l.length (itemsSize d z64 l) (directorySize z64 l) e
  length : file.length = itemsSize d z64 l + directorySize z64 l +
    (if z64 then zip64EndOfCentralDirHeaderCodec.size + zip64EndOfCentralDirLocatorCodec.size
      else 0) + zipEndOfCentralDirHeaderCodec.size

/-- The entries and their directory are small enough for the fields of a ZIP64 archive, the number
of the entries and the size of the directory also for those at the end: the writer puts all ones
there only by accident. -/
structure Representable (d : Deflate σ) (l : List ZIPItem) : Prop where
  data : ∀ x ∈ l, x.data.length < 2 ^ 64
  size : itemsSize d true l + directorySize true l < 2 ^ 64
  count : l.length < 2 ^ 16 ∨ l.length % 2 ^ 16 = 2 ^ 16 - 1
  directory : directorySize true l < 2 ^ 32 ∨ directorySize true l % 2 ^ 32 = 2 ^ 32 - 1

/-! ## Runs -/

/-- The session after some calls. -/
def ZIPSession.after (d : Deflate σ) (z64 : Bool) (calls : List ZIPCall) : ZIPSession σ :=
  run (ZIPSession.step d) (.new z64) calls

/-- After the calls the archive is finished, by `writeDirectory` or the destructor, and is a
well-formed one of the entries created; and in every state on the way a write to a stream other
than the current one is rejected and changes nothing. -/
structure Conforms (d : Deflate σ) (z64 : Bool) (calls : List ZIPCall) : Prop where
  archive : ∃ z, ZIPSession.destroy d (ZIPSession.after d z64 calls).writer = .ok () z ∧
    IsArchive d z64 (ZIPSession.after d z64 calls).items z.exportStream.buffer
  rejected : ∀ s, Reaches (ZIPSession.step d) (.new z64) calls s → ∀ i bytes,
    s.writer.currentStream ≠ some i →
      ∃ e, PortableZIPWriter.writeStream d i bytes s.writer = .error e s.writer

/-- No entry is created; or the archive is a ZIP64 one whose entries are representable. And no
entry came to the key 0. -/
def PlanFits (d : Deflate σ) (z64 : Bool) (p : ZIPPlan) : Prop :=
  p.stuck = false ∧ (p.items = [] ∨ z64 = true ∧ Representable d p.items)

end NMR
