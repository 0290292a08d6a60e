import Mathlib.Data.List.OfFn
import Lib3MF.Lib.SortedMap
import Lib3MF.Common.ChunkedBinaryStream.Writer
import Lib3MF.Common.Platform.XmlWriter
import Lib3MF.Model.Classes.ModelConstants
import Lib3MF.Model.Classes.UUIDs

/-!
# Writing the layers of a toolpath

`CModelToolpathLayerWriteData`: profiles and parts are registered first, the first segment written
ends the header, and `finishWriting`, which the destructor calls too, hands the document to the
model writer. Of the latter there is the binary stream that `findBinaryStream` finds for the layer
and the calls of `addAdditionalAttachment`; others may assign, fill and finish binary streams, and
change the UUIDs of objects, between the calls (`LayerDataCall.others`).
-/

namespace NMR

open Lib

/-- What `toString` gives for a `CUUID`. -/
structure UUIDText where
  text : UUID
  normal : ∃ digits, UUID.set digits = .ok text

/-- `std::to_string` of an `unsigned int`. -/
def unsignedText (n : Nat) : List UInt8 := xmlText n.repr

/-- `std::to_string` of a `nfInt32`. -/
def signedText (n : BitVec 32) : List UInt8 := xmlText (toString n.toInt)

/-- `PACKAGE_TOOLPATH_RELATIONSHIP_TYPE`. -/
def packageToolpathRelationshipType : String :=
  "http://schemas.microsoft.com/3dmanufacturing/2019/05/toolpath"

/-- `CModelToolpathLayerWriteData`. A part is the object with that number, of a profile only the
UUID is used. -/
structure ToolpathLayerWriteData where
  packagePath : List UInt8
  binaryStream : Option (List UInt8 × ChunkedBinaryStreamWriter)
  objectUUIDs : Nat → UUIDText
  additionalAttachments : List (List UInt8 × List UInt8 × String)
  xmlWriter : XmlWriter
  profiles : SortedMap (Fin UInt32.size) UUIDText
  parts : SortedMap (Fin UInt32.size) Nat
  writingHeader : Bool
  writingData : Bool
  writingFinished : Bool
  idCounter : UInt32

/-- Functions that keep what they have done when they throw. -/
abbrev ToolpathLayerM := EStateM Error ToolpathLayerWriteData

namespace ToolpathLayerWriteData

open XmlWriter

/-- The start of the document. -/
def startLayer : XmlWriterM Unit := do
  writeStartDocument
  writeStartElement [] (xmlText "layer") (xmlText toolpathSpec)
  writeAttributeString (xmlText "xmlns") (xmlText "z") (xmlText zCompression)

/-- The constructor. No binary stream is assigned to the UUID it draws. -/
def create (lineEnding packagePath : List UInt8) (objectUUIDs : Nat → UUIDText) :
    ToolpathLayerWriteData where
  packagePath := packagePath
  binaryStream := none
  objectUUIDs := objectUUIDs
  additionalAttachments := []
  xmlWriter := finalState (startLayer (XmlWriter.create lineEnding))
  profiles := .empty
  parts := .empty
  writingHeader := true
  writingData := false
  writingFinished := false
  idCounter := 1

/-- A call of the XML writer. -/
def xml (x : XmlWriterM Unit) : ToolpathLayerM Unit := fun s =>
  match x s.xmlWriter with
  | .ok _ w => .ok () { s with xmlWriter := w }
  | .error e w => .error e { s with xmlWriter := w }

/-- An element that has only attributes, with one prefix for all names. -/
def writeElement (nsPrefix name : List UInt8) (attributes : List (List UInt8 × List UInt8)) :
    XmlWriterM Unit := do
  writeStartElement nsPrefix name []
  attributes.forM fun a => writeAttributeString nsPrefix a.1 a.2
  writeEndElement

/-- `RegisterProfile`. -/
def registerProfile (profile : UUIDText) : ToolpathLayerM UInt32 := fun s =>
  if s.writingHeader then
    .ok s.idCounter { s with
      idCounter := s.idCounter + 1, profiles := s.profiles.insert s.idCounter.toFin profile }
  else .error .toolpathNotWritingHeader s

/-- `RegisterPart`. -/
def registerPart (object : Nat) : ToolpathLayerM UInt32 := fun s =>
  if s.writingHeader then
    .ok s.idCounter { s with
      idCounter := s.idCounter + 1, parts := s.parts.insert s.idCounter.toFin object }
  else .error .toolpathNotWritingHeader s

/-- The list of the parts or of the profiles, in `finishHeader`. -/
def writeRegistered (list item : List UInt8) (entries : List (Fin UInt32.size × UUIDText)) :
    XmlWriterM Unit := do
  writeStartElement [] list []
  entries.forM fun e => writeElement [] item
    [(xmlText "id", unsignedText e.1.val), (xmlText "uuid", xmlText e.2.text)]
  writeFullEndElement

/-- The parts with the UUIDs their objects have. -/
def partEntries (s : ToolpathLayerWriteData) : List (Fin UInt32.size × UUIDText) :=
  s.parts.entries.map fun p => (p.1, s.objectUUIDs p.2)

/-- The path of the binary stream, as a string of the XML writer. -/
def binaryPath (s : ToolpathLayerWriteData) : List UInt8 :=
  cString ((s.binaryStream.map Prod.fst).getD []) 0

/-- `finishHeader`. -/
def finishHeader : ToolpathLayerM Unit := do
  let s ← get
  require s.writingHeader .toolpathNotWritingHeader
  modify fun s => { s with writingHeader := false }
  xml (writeRegistered (xmlText "parts") (xmlText "part") s.partEntries)
  xml (writeRegistered (xmlText "profiles") (xmlText "profile") s.profiles.entries)
  xml (writeStartElement [] (xmlText "segments") [])
  doIf s.binaryStream.isSome
    (xml (writeAttributeString (xmlText "z") (xmlText "binary") s.binaryPath))
  modify fun s => { s with writingData := true }

/-- The header is finished, and the data is not. -/
def beginData : ToolpathLayerM Unit := do
  let s ← get
  doIf s.writingHeader finishHeader
  let s ← get
  require s.writingData .toolpathNotWritingData

/-- The start tag of a segment. -/
def startSegment (type : List UInt8) (profileID partID : UInt32) : XmlWriterM Unit := do
  writeStartElement [] (xmlText "segment") []
  writeAttributeString [] (xmlText "type") type
  writeAttributeString [] (xmlText "profileid") (unsignedText profileID.toNat)
  writeAttributeString [] (xmlText "partid") (unsignedText partID.toNat)

section

variable (lzma : Lzma) (uninit : Nat → BitVec 32)

/-- `addIntArray` of the binary stream. -/
def addIntArray (data : List (BitVec 32)) : ToolpathLayerM (BitVec 32) := fun s =>
  match s.binaryStream with
  -- not called without a stream
  | none => .ok 0 s
  | some (path, stream) =>
    match stream.addIntArray lzma uninit data .deltaPrediction with
    | .error e => .error e s
    | .ok (stream, key) => .ok key { s with binaryStream := some (path, stream) }

/-- The arrays of a segment, one after the other, with their keys. -/
def addIntArrays : List (List (BitVec 32)) → ToolpathLayerM (List (BitVec 32))
  | [] => pure []
  | data :: arrays => do
    let key ← addIntArray lzma uninit data
    let keys ← addIntArrays arrays
    return key :: keys

/-- The points of a segment: an element `name` with the keys of the arrays in the binary stream
under the names `keys`, or one for each index with the values under the names `names`. -/
def writePoints (name : List UInt8) (names keys : List (List UInt8)) {count : Nat}
    (arrays : List (Fin count → BitVec 32)) : ToolpathLayerM Unit := do
  let s ← get
  if s.binaryStream.isSome then do
    let ids ← addIntArrays lzma uninit (arrays.map List.ofFn)
    xml (writeElement (xmlText "z") name (keys.zip (ids.map fun id => unsignedText id.toNat)))
  else
    (List.finRange count).forM fun i =>
      xml (writeElement [] name (names.zip (arrays.map fun a => signedText (a i))))

/-- A segment, behind the checks of its arguments. -/
def writeSegment (type : List UInt8) (profileID partID : UInt32) (name : List UInt8)
    (names keys : List (List UInt8)) {count : Nat} (arrays : List (Fin count → BitVec 32)) :
    ToolpathLayerM Unit := do
  beginData
  xml (startSegment type profileID partID)
  writePoints lzma uninit name names keys arrays
  xml writeFullEndElement

/-- `WriteHatchData`; `none` is a null pointer. -/
def writeHatchData (profileID partID hatchCount : UInt32)
    (x1 y1 x2 y2 : Option (Fin hatchCount.toNat → BitVec 32)) : ToolpathLayerM Unit :=
  match x1, y1, x2, y2 with
  | some x1, some y1, some x2, some y2 =>
    writeSegment lzma uninit (xmlText "hatch") profileID partID (xmlText "hatch")
      [xmlText "x1", xmlText "y1", xmlText "x2", xmlText "y2"]
      [xmlText "x1", xmlText "y1", xmlText "x2", xmlText "y2"] [x1, y1, x2, y2]
  | _, _, _, _ => throw .invalidParam

/-- `WriteLoop` and `WritePolyline`, which differ in the type. The keys have the names of the
first points of hatches. -/
def writePointData (type : List UInt8) (profileID partID pointCount : UInt32)
    (x y : Option (Fin pointCount.toNat → BitVec 32)) : ToolpathLayerM Unit :=
  match x, y with
  | some x, some y =>
    writeSegment lzma uninit type profileID partID (xmlText "point") [xmlText "x", xmlText "y"]
      [xmlText "x1", xmlText "y1"] [x, y]
  | _, _ => throw .invalidParam

/-- `WriteLoop`. -/
def writeLoop (profileID partID pointCount : UInt32)
    (x y : Option (Fin pointCount.toNat → BitVec 32)) : ToolpathLayerM Unit :=
  writePointData lzma uninit (xmlText "loop") profileID partID pointCount x y

/-- `WritePolyline`. -/
def writePolyline (profileID partID pointCount : UInt32)
    (x y : Option (Fin pointCount.toNat → BitVec 32)) : ToolpathLayerM Unit :=
  writePointData lzma uninit (xmlText "polyline") profileID partID pointCount x y

/-- `createStream`, with `copyToMemory`, which makes the check of the size once more. -/
def createStream : ToolpathLayerM (List UInt8) := do
  beginData
  let s ← get
  set { s with writingData := false }
  require (s.writingFinished = false) .toolpathDataHasBeenWritten
  modify fun s => { s with writingFinished := true }
  xml writeFullEndElement
  xml writeFullEndElement
  let s ← get
  match importStreamSharedMemory s.xmlWriter.output with
  | .error e => throw e
  | .ok stream => return stream

/-- `finishWriting`. -/
def finishWriting : ToolpathLayerM Unit := do
  let s ← get
  doIf (s.writingFinished = false) do
    let stream ← createStream
    modify fun s => { s with
      additionalAttachments := s.additionalAttachments ++
        [(s.packagePath, stream, packageToolpathRelationshipType)] }

end

end ToolpathLayerWriteData

/-- The calls. -/
inductive LayerDataCall where
  | registerProfile (profile : UUIDText)
  | registerPart (object : Nat)
  | writeHatchData (profileID partID hatchCount : UInt32)
      (x1 y1 x2 y2 : Option (Fin hatchCount.toNat → BitVec 32))
  | writeLoop (profileID partID pointCount : UInt32)
      (x y : Option (Fin pointCount.toNat → BitVec 32))
  | writePolyline (profileID partID pointCount : UInt32)
      (x y : Option (Fin pointCount.toNat → BitVec 32))
  | finishWriting
  /-- What others do: the binary stream of the layer and the UUIDs of the objects. -/
  | others (binaryStream : Option (List UInt8 × ChunkedBinaryStreamWriter))
      (objectUUIDs : Nat → UUIDText)

namespace ToolpathLayerWriteData

variable (lzma : Lzma) (uninit : Nat → BitVec 32)

/-- One call. -/
def call : LayerDataCall → ToolpathLayerM Unit
  | .registerProfile profile => do let _ ← registerProfile profile
  | .registerPart object => do let _ ← registerPart object
  | .writeHatchData profileID partID hatchCount x1 y1 x2 y2 =>
    writeHatchData lzma uninit profileID partID hatchCount x1 y1 x2 y2
  | .writeLoop profileID partID pointCount x y =>
    writeLoop lzma uninit profileID partID pointCount x y
  | .writePolyline profileID partID pointCount x y =>
    writePolyline lzma uninit profileID partID pointCount x y
  | .finishWriting => finishWriting
  | .others binaryStream objectUUIDs => modify fun s => { s with
      binaryStream := binaryStream, objectUUIDs := objectUUIDs }

/-- The state a call leaves, whether it throws or not. -/
def next (s : ToolpathLayerWriteData) (c : LayerDataCall) : ToolpathLayerWriteData :=
  finalState (call lzma uninit c s)

end ToolpathLayerWriteData

end NMR
