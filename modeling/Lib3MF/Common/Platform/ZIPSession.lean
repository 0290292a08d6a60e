import Lib3MF.Lib.State
import Lib3MF.Common.Platform.PortableZIPWriter

/-!
# Runs of the ZIP writer

The calls its users make, in any order and each perhaps failing, together with what they see of
it: the entries they got a stream for, with the bytes their writes to it have taken.
-/

namespace NMR

open Lib

/-- An entry as its users see it: its name, and its data in the pieces it was written in. -/
structure ZIPItem where
  name : List UInt8
  chunks : List (List UInt8)
  deriving DecidableEq

namespace ZIPItem

/-- The data of an entry. -/
def data (x : ZIPItem) : List UInt8 := x.chunks.flatten

/-- The data as they are compressed. -/
def packed {σ : Type} (d : Deflate σ) (x : ZIPItem) : List UInt8 := d.output x.chunks

/-- More bytes are written. -/
def append (x : ZIPItem) (bytes : List UInt8) : ZIPItem :=
  { x with chunks := x.chunks ++ chunksOf zipExportWriteChunkSize bytes }

end ZIPItem

/-- A call: the streams that `createEntry` returned are numbered. -/
inductive ZIPCall where
  | createEntry (name : List UInt8)
  | writeBuffer (stream : Nat) (bytes : List UInt8)
  | closeEntry
  | writeDirectory
  deriving DecidableEq

/-- The writer and the entries created so far. -/
structure ZIPSession (σ : Type) where
  writer : PortableZIPWriter σ
  items : List ZIPItem

namespace ZIPSession

open PortableZIPWriter

variable {σ : Type}

/-- A new writer. -/
def new (writeZIP64 : Bool) : ZIPSession σ := ⟨.new writeZIP64, []⟩

/-- One call, which may fail. -/
def step (d : Deflate σ) (s : ZIPSession σ) : ZIPCall → ZIPSession σ
  | .createEntry name =>
    match createEntry d name s.writer with
    | .ok _ z => ⟨z, s.items ++ [⟨removeLeadingPathDelimiter name, []⟩]⟩
    | .error _ z => ⟨z, s.items⟩
  | .writeBuffer i bytes =>
    match writeStream d i bytes s.writer with
    | .ok _ z => ⟨z, s.items.modify i (·.append bytes)⟩
    | .error _ z => ⟨z, s.items⟩
  | .closeEntry => ⟨finalState (PortableZIPWriter.closeEntry d s.writer), s.items⟩
  | .writeDirectory => ⟨finalState (PortableZIPWriter.writeDirectory d s.writer), s.items⟩

/-- The destructor, which finishes the archive where that is not done yet. -/
def destroy (d : Deflate σ) : ZIPWriterM σ Unit := do
  if !(← get).isFinished then writeDirectory d

end ZIPSession

end NMR
