import Lib3MF.Common.Platform.XmlWriter
import Lib3MF.Lib.Checked
import Lib3MF.Model.Classes.Attachments
import Lib3MF.Model.Classes.Merge
import Lib3MF.Model.Writer.MeshLines
import Lib3MF.Model.Writer.MeshWriter
import Lib3MF.Model.Writer.MetaDataWriter

/-!
# Writing objects

`writeObjects` with the writers of metadata, meshes and components, as calls of the XML writer.
The progress monitor and the binary streams are what `world` stands for; the text of a float and
the difference of two are parameters. No function reads `dropped`, the attributes for which
`WriteAttributeString` was called while no start tag was open.
-/

namespace NMR

open Lib

/-! ## What is written -/

/-- `CModelComponent`. -/
structure WrittenComponent where
  objectID : Nat
  transform : Option String
  uuid : Option String

/-- `BEAMSET`. -/
structure WrittenBeamSet where
  name : String
  identifier : String
  refs : List Nat

/-- The beam lattice of a mesh object apart from its beams; a mode stands beside the mesh that
clips. -/
structure WrittenBeamLattice where
  minLength : ℚ
  clippingMesh : Option (Int × Nat)
  representationMesh : Option Nat
  beamSets : List WrittenBeamSet

/-- What `CModelMeshObject` and `CModelComponentsObject` add to an object. -/
inductive WrittenContent where
  | mesh (mesh : Mesh) (beamLattice : WrittenBeamLattice)
  | components (components : List WrittenComponent)

/-- `CModelObject`. -/
structure WrittenObject where
  uniqueID : Nat
  name : String
  partNumber : String
  objectTypeString : String
  thumbnail : Option String
  uuid : Option String
  sliceStack : Option Nat
  isLowResolution : Bool
  metaDataGroup : ModelMetaDataGroup
  content : WrittenContent

/-- The fields of `CModelWriterNode100_Model` and `CModelWriterNode100_Mesh` that are used;
`binaryStream` gives the path of a mesh's stream and the stream. -/
structure ObjectWriter (σ : Type) where
  writeProductionExtension : Bool
  writeSliceExtension : Bool
  writeBeamLatticeExtension : Bool
  nameSpaces : XmlNameSpaces
  propertyIndexMapping : PropertyIndexMapping
  relationShipType : String → Option String
  binaryStream : String → Option (String × Nat)
  posAfterDecPoint : Nat
  putDoubleFactor : Int
  floatText : ℚ → String
  floatSub : ℚ → ℚ → ℚ
  reportProgress : EStateM Error σ Unit
  addFloatArray : Nat → List ℚ → EStateM Error σ Nat
  addIntArray : Nat → List Int → EStateM Error σ Nat

/-- The XML writer, the world, and the attributes that were dropped. -/
structure ObjectWriterState (σ : Type) where
  xml : XmlWriter
  world : σ
  dropped : List (List UInt8 × List UInt8)

/-- Functions that keep what they have written when they throw. -/
abbrev ObjectWriterM (σ : Type) := EStateM (Fault Error) (ObjectWriterState σ)

namespace ObjectWriter

variable {σ α : Type}

/-! ## The writer node -/

/-- A call of the XML writer. -/
def onXml (x : XmlWriterM Unit) : ObjectWriterM σ Unit := fun s =>
  match x s.xml with
  | .ok _ xml => .ok () { s with xml }
  | .error e xml => .error (.throws e) { s with xml }

/-- A call that leaves the XML writer alone. -/
def onWorld (x : EStateM Error σ α) : ObjectWriterM σ α := fun s =>
  match x s.world with
  | .ok a world => .ok a { s with world }
  | .error e world => .error (.throws e) { s with world }

/-- A call that changes nothing. -/
def ofChecked (x : Checked Error α) : ObjectWriterM σ α := fun s =>
  match x with
  | .ok a => .ok a s
  | .error e => .error e s

/-- `writeStartElement`. -/
def writeStartElement (name : String) : ObjectWriterM σ Unit :=
  onXml (XmlWriter.writeStartElement [] (xmlText name) [])

/-- `writeStartElementWithPrefix`. -/
def writeStartElementWithPrefix (name nsPrefix : String) : ObjectWriterM σ Unit :=
  onXml (XmlWriter.writeStartElement (xmlText nsPrefix) (xmlText name) [])

/-- `writePrefixedStringAttribute`. -/
def writePrefixedStringAttribute (nsPrefix name value : String) : ObjectWriterM σ Unit := fun s =>
  onXml (XmlWriter.writeAttributeString (xmlText nsPrefix) (xmlText name) (xmlText value))
    { s with dropped := s.dropped ++ if s.xml.elementIsOpen then []
      else [(XmlWriter.nodeName (xmlText nsPrefix) (xmlText name), xmlText value)] }

/-- `writeStringAttribute` and `writeConstStringAttribute`. -/
def writeStringAttribute (name value : String) : ObjectWriterM σ Unit :=
  writePrefixedStringAttribute "" name value

/-- `writeIntAttribute`. -/
def writeIntAttribute (name : String) (value : Nat) : ObjectWriterM σ Unit :=
  writeStringAttribute name (toString (NMR.writeIntAttribute value))

/-- `writeEndElement`. -/
def writeEndElement : ObjectWriterM σ Unit := onXml XmlWriter.writeEndElement

/-- `writeFullEndElement`. -/
def writeFullEndElement : ObjectWriterM σ Unit := onXml XmlWriter.writeFullEndElement

/-- `WriteRawLine` of a line buffer. -/
def writeRawLine (line : Option (List Char)) : ObjectWriterM σ Unit :=
  match line with
  | none => throw .outOfRange
  | some line => onXml (XmlWriter.writeRawLine (xmlBytes line))

variable (w : ObjectWriter σ)

/-- `writeFloatAttribute`. -/
def writeFloatAttribute (name : String) (value : ℚ) : ObjectWriterM σ Unit :=
  writeStringAttribute name (w.floatText value)

/-! ## Metadata -/

/-- The name in `writeMetaData`. -/
def writeMetaDataName (md : ModelMetaData) : ObjectWriterM σ Unit :=
  if md.nameSpace = "" then writeStringAttribute "name" md.name
  else match w.nameSpaces.find? md.nameSpace with
    | none => throw (.throws .invalidBufferSize)
    | some nsPrefix => writeStringAttribute "name" (calculateKey nsPrefix md.name)

/-- `writeMetaData`. -/
def writeMetaData (md : ModelMetaData) : ObjectWriterM σ Unit := do
  writeStartElement "metadata"
  w.writeMetaDataName md
  doIf (md.type ≠ "xs:string") (writeStringAttribute "type" md.type)
  doIf md.preserve (writeStringAttribute "preserve" "1")
  onXml (XmlWriter.writeText (xmlText md.value))
  writeEndElement

/-- `writeMetaDataGroup`. -/
def writeMetaDataGroup (group : ModelMetaDataGroup) : ObjectWriterM σ Unit :=
  doIf (group.metaData ≠ []) do
    writeStartElement "metadatagroup"
    group.metaData.forM w.writeMetaData
    writeFullEndElement

/-! ## Meshes -/

/-- `PROGRESS_NODEUPDATE` and `PROGRESS_TRIANGLEUPDATE`. -/
def progressUpdate : Nat := 100000

/-- The binary stream of the vertices. -/
def writeVertexArrays (stream : Nat) (origin : Vec3) (nodes : List Vec3) :
    ObjectWriterM σ Unit := do
  let keyX ← onWorld (w.addFloatArray stream (nodes.map fun n => w.floatSub n.x origin.x))
  let keyY ← onWorld (w.addFloatArray stream (nodes.map fun n => w.floatSub n.y origin.y))
  let keyZ ← onWorld (w.addFloatArray stream (nodes.map fun n => w.floatSub n.z origin.z))
  writeStartElementWithPrefix "vertex" "z"
  writeIntAttribute "x" keyX
  writeIntAttribute "y" keyY
  writeIntAttribute "z" keyZ
  w.writeFloatAttribute "originx" origin.x
  w.writeFloatAttribute "originy" origin.y
  w.writeFloatAttribute "originz" origin.z
  writeEndElement

/-- A vertex of the index `n.2`. -/
def writeVertex (n : Vec3 × Nat) : ObjectWriterM σ Unit := do
  writeRawLine (Writer.Lines.writeVertexData w.putDoubleFactor w.posAfterDecPoint n.1)
  doIf (n.2 % progressUpdate = progressUpdate - 1) (onWorld w.reportProgress)

/-- The vertices, to a binary stream where there is one. -/
def writeNodes (stream : Option (String × Nat)) (mesh : Mesh) : ObjectWriterM σ Unit :=
  match stream with
  | none => mesh.nodes.zipIdx.forM w.writeVertex
  | some (_, stream) => mesh.nodes.head?.forM fun n => w.writeVertexArrays stream n mesh.nodes

/-- The `vertices` of a mesh. -/
def writeVertices (stream : Option (String × Nat)) (mesh : Mesh) : ObjectWriterM σ Unit := do
  writeStartElement "vertices"
  w.writeNodes stream mesh
  writeFullEndElement

/-- The name of an attribute of a triangle. -/
def triangleAttributeName : TriangleAttribute → String
  | .v1 => "v1"
  | .v2 => "v2"
  | .v3 => "v3"
  | .pid => "pid"
  | .p1 => "p1"
  | .p2 => "p2"
  | .p3 => "p3"

/-- The line of a triangle. -/
def triangleLine (e : TriangleElement) : Option (List Char) := do
  let line ← Writer.Lines.putString [] "<triangle"
  let line ← e.foldlM (fun line a => do
    let line ← Writer.Lines.putString line (" " ++ triangleAttributeName a.1 ++ "=\"")
    let line ← Writer.Lines.putUInt32 line a.2
    Writer.Lines.putString line "\"") line
  Writer.Lines.putString line " />"

/-- A triangle of the index `f.2`, and whether it has a property. -/
def writeTriangle (mesh : Mesh) (objectLevel : Nat × Nat) (hasProperty : Bool)
    (f : MeshFace × Nat) : ObjectWriterM σ Bool := do
  doIf (f.2 % progressUpdate = progressUpdate - 1) (onWorld w.reportProgress)
  let property ← ofChecked (.lift (Writer.faceProperty w.propertyIndexMapping mesh f.2))
  writeRawLine (triangleLine (Writer.writeFaceData objectLevel f.1 property))
  return hasProperty || decide (property.1 ≠ 0)

/-- The binary stream of the triangles. -/
def writeTriangleArrays (stream : Nat) (faces : List MeshFace) : ObjectWriterM σ Unit := do
  let key1 ← onWorld (w.addIntArray stream (faces.map fun f => f.nodeIndices 0))
  let key2 ← onWorld (w.addIntArray stream (faces.map fun f => f.nodeIndices 1))
  let key3 ← onWorld (w.addIntArray stream (faces.map fun f => f.nodeIndices 2))
  writeStartElementWithPrefix "triangle" "z"
  writeIntAttribute "v1" key1
  writeIntAttribute "v2" key2
  writeIntAttribute "v3" key3
  writeEndElement

/-- The triangles, to a binary stream where there is one, and whether one has a property. -/
def writeFaces (stream : Option (String × Nat)) (mesh : Mesh) (objectLevel : Nat × Nat) :
    ObjectWriterM σ Bool :=
  match stream with
  | none => mesh.faces.zipIdx.foldlM (w.writeTriangle mesh objectLevel) false
  | some (_, stream) => do
    w.writeTriangleArrays stream mesh.faces
    return false

/-- The `triangles` of a mesh. -/
def writeTriangles (stream : Option (String × Nat)) (mesh : Mesh) : ObjectWriterM σ Unit := do
  let objectLevel ← ofChecked (.lift (Writer.objectLevelProperty w.propertyIndexMapping mesh))
  writeStartElement "triangles"
  let hasProperty ← w.writeFaces stream mesh objectLevel
  writeFullEndElement
  -- `bMeshHasAProperty`
  require (¬ (hasProperty = true ∧ objectLevel.1 = 0)) (.throws .missingObjectLevelPID)

/-- `clipModeToString`. -/
def clipModeToString (clipMode : Int) : String :=
  if clipMode = 1 then "inside" else if clipMode = 2 then "outside" else "none"

/-- `writeRefData`. -/
def refLine (ref : Nat) : Option (List Char) := do
  let line ← Writer.Lines.putString [] "<b:ref index=\""
  let line ← Writer.Lines.putUInt32 line ref
  Writer.Lines.putString line "\"/>"

/-- A beam set. -/
def writeBeamSet (set : WrittenBeamSet) : ObjectWriterM σ Unit := do
  writeStartElementWithPrefix "beamset" "b"
  doIf (set.name ≠ "") (writeStringAttribute "name" set.name)
  doIf (set.identifier ≠ "") (writeStringAttribute "identifier" set.identifier)
  set.refs.forM fun ref => writeRawLine (refLine ref)
  writeFullEndElement

/-- `getDefaultBeamRadius`. -/
def defaultBeamRadius : ℚ := 1

/-- `getBeamLatticeCapMode`. -/
def beamLatticeCapMode : Int := 0

/-- The attributes of a beam lattice. -/
def writeBeamLatticeAttributes (lattice : WrittenBeamLattice) : ObjectWriterM σ Unit := do
  w.writeFloatAttribute "radius" defaultBeamRadius
  w.writeFloatAttribute "minlength" lattice.minLength
  lattice.clippingMesh.forM fun (mode, id) => do
    writeStringAttribute "clippingmode" (clipModeToString mode)
    writeIntAttribute "clippingmesh" id
  lattice.representationMesh.forM fun id => writeIntAttribute "representationmesh" id
  writeStringAttribute "cap" (Writer.Lines.capModeToString beamLatticeCapMode)

/-- The beam lattice of a mesh. -/
def writeBeamLattice (mesh : Mesh) (lattice : WrittenBeamLattice) : ObjectWriterM σ Unit := do
  writeStartElementWithPrefix "beamlattice" "b"
  w.writeBeamLatticeAttributes lattice
  writeStartElementWithPrefix "beams" "b"
  mesh.beams.forM fun b => writeRawLine (Writer.Lines.writeBeamData w.putDoubleFactor
    w.posAfterDecPoint b defaultBeamRadius beamLatticeCapMode)
  writeFullEndElement
  doIf (lattice.beamSets ≠ []) do
    writeStartElementWithPrefix "beamsets" "b"
    lattice.beamSets.forM writeBeamSet
    writeFullEndElement
  writeFullEndElement

/-- `CModelWriterNode100_Mesh::writeToXML`. -/
def writeMesh (stream : Option (String × Nat)) (mesh : Mesh) (lattice : WrittenBeamLattice) :
    ObjectWriterM σ Unit := do
  writeStartElement "mesh"
  stream.forM fun (path, _) => writePrefixedStringAttribute "z" "binary" path
  w.writeVertices stream mesh
  w.writeTriangles stream mesh
  doIf (w.writeBeamLatticeExtension = true ∧ mesh.beams ≠ []) (w.writeBeamLattice mesh lattice)
  writeFullEndElement

/-! ## Objects -/

/-- The thumbnail of an object. -/
def writeThumbnail (path : String) : ObjectWriterM σ Unit := do
  require (w.relationShipType path = some packageTextureRelationshipType ∨
    w.relationShipType path = some packageThumbnailRelationshipType) (.throws .noTextureStream)
  writeStringAttribute "thumbnail" path

/-- The UUID of an object or a component. -/
def writeUUID (uuid : Option String) : ObjectWriterM σ Unit :=
  match uuid with
  | none => throw (.throws .missingUUID)
  | some uuid => writePrefixedStringAttribute "p" "UUID" uuid

/-- The slice stack of an object. -/
def writeSliceAttributes (o : WrittenObject) : ObjectWriterM σ Unit := do
  o.sliceStack.forM fun id => writePrefixedStringAttribute "s" "slicestackid" (toString id)
  doIf o.isLowResolution (writePrefixedStringAttribute "s" "meshresolution" "lowres")

/-- The attributes of an object, up to its metadata. -/
def writeObjectAttributes (o : WrittenObject) : ObjectWriterM σ Unit := do
  writeIntAttribute "id" o.uniqueID
  doIf (o.name ≠ "") (writeStringAttribute "name" o.name)
  doIf (o.partNumber ≠ "") (writeStringAttribute "partnumber" o.partNumber)
  writeStringAttribute "type" o.objectTypeString
  o.thumbnail.forM w.writeThumbnail
  doIf w.writeProductionExtension (writeUUID o.uuid)
  doIf w.writeSliceExtension (writeSliceAttributes o)

/-- The object-level property. -/
def writeObjectLevelProperty (mesh : Mesh) : ObjectWriterM σ Unit := do
  let objectLevel ← ofChecked (.lift (Writer.objectLevelProperty w.propertyIndexMapping mesh))
  doIf (objectLevel.1 ≠ 0) do
    writeIntAttribute "pid" objectLevel.1
    writeIntAttribute "pindex" objectLevel.2

/-- A component. -/
def writeComponent (c : WrittenComponent) : ObjectWriterM σ Unit := do
  writeStartElement "component"
  writeIntAttribute "objectid" c.objectID
  c.transform.forM fun transform => writeStringAttribute "transform" transform
  doIf w.writeProductionExtension (writeUUID c.uuid)
  writeEndElement

/-- `writeComponentsObject`. -/
def writeComponentsObject (components : List WrittenComponent) : ObjectWriterM σ Unit := do
  writeStartElement "components"
  components.forM w.writeComponent
  writeFullEndElement

/-- What an object has after its metadata. A mesh has a UUID. -/
def writeContent (o : WrittenObject) : ObjectWriterM σ Unit :=
  match o.content with
  | .mesh mesh lattice => do
    w.writeObjectLevelProperty mesh
    let uuid ← ofChecked (o.uuid.elim (throw .outOfRange) pure)
    w.writeMesh (w.binaryStream uuid) mesh lattice
  | .components components => w.writeComponentsObject components

/-- An object up to its metadata. -/
def writeObjectStart (o : WrittenObject) : ObjectWriterM σ Unit := do
  onWorld w.reportProgress
  writeStartElement "object"
  w.writeObjectAttributes o
  w.writeMetaDataGroup o.metaDataGroup

/-- An object in `writeObjects`. -/
def writeObject (o : WrittenObject) : ObjectWriterM σ Unit := do
  w.writeObjectStart o
  w.writeContent o
  writeFullEndElement

/-- `writeObjects`, for the objects in their order. -/
def writeObjects (objects : List WrittenObject) : ObjectWriterM σ Unit :=
  objects.forM w.writeObject

end ObjectWriter

end NMR
