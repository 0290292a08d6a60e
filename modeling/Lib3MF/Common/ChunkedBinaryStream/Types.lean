import Lib3MF.Lib.Bytes

/-!
# The records of a chunked binary stream

A stream starts with a header, which says where the chunk table is; a chunk says where its entry
table and its compressed data are. The records are packed. The reserved words and the checksum,
which nobody reads, are zero.
-/

namespace NMR

open Lib

/-- `BINARYCHUNKFILEHEADERSIGN`. -/
def binaryChunkFileHeaderSign : BitVec 32 := 0x5A464D33

/-- `BINARYCHUNKFILEHEADERVERSION`. -/
def binaryChunkFileHeaderVersion : BitVec 32 := 1

/-- `BINARYCHUNKFILEMAXCHUNKCOUNT`. -/
def binaryChunkFileMaxChunkCount : Nat := 1024 * 1024 * 1024

/-- `BINARYCHUNKFILEMAXENTRYCOUNT`. -/
def binaryChunkFileMaxEntryCount : Nat := 1024 * 1024 * 1024

/-- `BINARYCHUNKFILEMAXCHUNKDATASIZE`. -/
def binaryChunkFileMaxChunkDataSize : Nat := 1024 * 1024 * 1024

/-- `BINARYCHUNKFILE_MAXFLOATUNITS`. -/
def binaryChunkFileMaxFloatUnits : Int := 1024 * 1024 * 1024

/-- `BINARYCHUNKFILEENTRYTYPE_INT32ARRAY_NOPREDICTION` and the other three. -/
def entryTypeInt32ArrayNoPrediction : BitVec 32 := 1
def entryTypeInt32ArrayDeltaPrediction : BitVec 32 := 2
def entryTypeFloat32ArrayNoPrediction : BitVec 32 := 3
def entryTypeFloat32ArrayDeltaPrediction : BitVec 32 := 4

/-- `eChunkedBinaryPredictionType`. -/
inductive ChunkedBinaryPredictionType where
  | noPrediction | deltaPrediction
  deriving DecidableEq

/-- `eChunkedBinaryDataType`. -/
inductive ChunkedBinaryDataType where
  | unknown | int32Array | floatArray
  deriving DecidableEq

/-- `BINARYCHUNKFILEHEADER`. -/
structure BinaryChunkFileHeader where
  sign : BitVec 32
  version : BitVec 32
  chunkCount : BitVec 32
  chunkTableStart : BitVec 64
  deriving DecidableEq

/-- `BINARYCHUNKFILECHUNK`. -/
structure BinaryChunkFileChunk where
  entryCount : BitVec 32
  entryTableStart : BitVec 64
  compressedDataStart : BitVec 64
  compressedDataSize : BitVec 32
  compressedPropsSize : BitVec 32
  uncompressedDataSize : BitVec 32
  deriving DecidableEq

/-- `BINARYCHUNKFILEENTRY`. -/
structure BinaryChunkFileEntry where
  entryID : BitVec 32
  entryType : BitVec 32
  positionInChunk : BitVec 32
  sizeInBytes : BitVec 32
  deriving DecidableEq

/-- `nfUint32`, `nfInt32`. -/
def codec32 : Codec (BitVec 32) := Codec.word 4

/-- `nfUint64`. -/
def codec64 : Codec (BitVec 64) := Codec.word 8

def headerCodec : Codec BinaryChunkFileHeader :=
  (codec32.pair (codec32.pair (codec32.pair (codec64.pair (Codec.zeros 32))))).rename
    (fun h => (h.sign, h.version, h.chunkCount, h.chunkTableStart, ()))
    (fun x => ⟨x.1, x.2.1, x.2.2.1, x.2.2.2.1⟩) fun _ => rfl

def chunkCodec : Codec BinaryChunkFileChunk :=
  (codec32.pair (codec64.pair (codec64.pair (codec32.pair (codec32.pair
    (codec32.pair (Codec.zeros 24))))))).rename
    (fun c => (c.entryCount, c.entryTableStart, c.compressedDataStart, c.compressedDataSize,
      c.compressedPropsSize, c.uncompressedDataSize, ()))
    (fun x => ⟨x.1, x.2.1, x.2.2.1, x.2.2.2.1, x.2.2.2.2.1, x.2.2.2.2.2.1⟩) fun _ => rfl

def entryCodec : Codec BinaryChunkFileEntry :=
  (codec32.pair (codec32.pair (codec32.pair codec32))).rename
    (fun e => (e.entryID, e.entryType, e.positionInChunk, e.sizeInBytes))
    (fun x => ⟨x.1, x.2.1, x.2.2.1, x.2.2.2⟩) fun _ => rfl

@[simp] theorem size_codec32 : codec32.size = 4 := rfl
@[simp] theorem size_headerCodec : headerCodec.size = 52 := rfl
@[simp] theorem size_chunkCodec : chunkCodec.size = 56 := rfl
@[simp] theorem size_entryCodec : entryCodec.size = 16 := rfl

end NMR
