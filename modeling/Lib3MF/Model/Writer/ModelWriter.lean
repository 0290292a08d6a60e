import Mathlib.Data.String.Basic
import Lib3MF.Lib.SortedMap
import Lib3MF.Common.Exception

/-!
# Binary streams of a model writer

`CModelWriter` keeps the binary streams that are registered for an export under their UUIDs, the
UUID of the stream of each path, and the UUID of the stream that is assigned to an instance (an
object or a toolpath layer, by its own UUID).
-/

namespace NMR

open Lib

/-- The binary streams of a `CModelWriter`; a stream stands with its path. -/
structure ModelWriter (Stream : Type) where
  allowBinaryStreams : Bool
  binaryWriterUUIDMap : SortedMap String (String × Stream)
  binaryWriterPathMap : SortedMap String String
  binaryWriterAssignmentMap : SortedMap String String

namespace ModelWriter

variable {Stream : Type}

/-- The constructor. -/
def create (allowBinaryStreams : Bool) : ModelWriter Stream :=
  ⟨allowBinaryStreams, .empty, .empty, .empty⟩

/-- `registerBinaryStream`. -/
def registerBinaryStream (w : ModelWriter Stream) (path uuid : String) (stream : Stream) :
    Except Error (ModelWriter Stream) :=
  if !w.allowBinaryStreams then .error .binaryStreamsNotAllowed
  else if (w.binaryWriterPathMap.find? path).isSome then .error .duplicateBinaryStreamPath
  else if (w.binaryWriterUUIDMap.find? uuid).isSome then .error .duplicateBinaryStreamUUID
  else .ok
    { w with
      binaryWriterUUIDMap := w.binaryWriterUUIDMap.insert uuid (path, stream)
      binaryWriterPathMap := w.binaryWriterPathMap.insert path uuid }

/-- `unregisterBinaryStreams`. -/
def unregisterBinaryStreams (w : ModelWriter Stream) : ModelWriter Stream :=
  { w with
    binaryWriterUUIDMap := .empty
    binaryWriterPathMap := .empty
    binaryWriterAssignmentMap := .empty }

/-- `assignBinaryStream`: an assignment that is there already stays, as `insert` leaves it. -/
def assignBinaryStream (w : ModelWriter Stream) (instanceUUID binaryStreamUUID : String) :
    Except Error (ModelWriter Stream) :=
  if (w.binaryWriterUUIDMap.find? binaryStreamUUID).isNone then .error .binaryStreamNotFound
  else if 0 < binaryStreamUUID.length then
    .ok { w with
      binaryWriterAssignmentMap := w.binaryWriterAssignmentMap.insert instanceUUID binaryStreamUUID }
  else
    .ok { w with binaryWriterAssignmentMap := w.binaryWriterAssignmentMap.erase instanceUUID }

/-- `findBinaryStream`: the path and the stream. -/
def findBinaryStream (w : ModelWriter Stream) (instanceUUID : String) : Option (String × Stream) :=
  (w.binaryWriterAssignmentMap.find? instanceUUID).bind w.binaryWriterUUIDMap.find?

end ModelWriter

end NMR
