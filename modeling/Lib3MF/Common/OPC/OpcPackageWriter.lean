import Lib3MF.Common.OPC.OpcPackageReaders

/-!
# Writing relationships and content types

The documents that `COpcPackageWriter` and `COpcPackagePart` write beside the parts of a package.
-/

namespace NMR.Opc

open Lib XmlWriter

/-! ## Relationships -/

/-- `COpcPackagePart::writeRelationships`, and `COpcPackageWriter::writeRootRelationships` where there
are any. -/
def writeRelationships (rels : List Relationship) : XmlWriterM Unit := do
  writeStartDocument
  writeStartElement [] relationshipContainer []
  writeAttributeString [] (xmlText "xmlns") schemaRelationships
  rels.forM Relationship.writeToXML
  writeFullEndElement

/-! ## Content types -/

/-- `m_ContentTypes` of the writer. -/
abbrev ContentTypeMap := SortedMap (List UInt8) (List UInt8)

/-- `addContentType`: `std::map::insert`, which leaves an extension that is there. -/
def addContentType (m : ContentTypeMap) (e : List UInt8 × List UInt8) : ContentTypeMap :=
  m.insert e.1 e.2

/-- The content types after some calls. -/
def contentTypesOf (added : List (List UInt8 × List UInt8)) : ContentTypeMap :=
  added.foldl addContentType .empty

/-- One element of `writeContentTypes`. -/
def writeContentType (extension contentType : List UInt8) : XmlWriterM Unit := do
  writeStartElement [] contentTypesNode []
  writeAttributeString [] attribExtension extension
  writeAttributeString [] attribContentType contentType
  writeEndElement

/-- `COpcPackageWriter::writeContentTypes`. -/
def writeContentTypes (m : ContentTypeMap) : XmlWriterM Unit := do
  writeStartDocument
  writeStartElement [] contentTypesContainer []
  writeAttributeString [] (xmlText "xmlns") schemaContentTypes
  m.entries.forM fun e => writeContentType e.1 e.2
  writeFullEndElement

end NMR.Opc
