import Lib3MF.Lib.SortedMap
import Lib3MF.Common.Platform.PortableZIPWriter
import Lib3MF.Common.Platform.XmlScopedReader

/-!
# Relationships of a package

A relationship leads from a package, or from a part of it, to another part. Its target is a path
with a file name; strings are C strings, so they hold no zero.
-/

namespace NMR.Opc

/-- Characters as `std::string` compares them. -/
instance byteLinearOrder : LinearOrder UInt8 where
  le_refl := UInt8.le_refl
  le_trans _ _ _ := UInt8.le_trans
  lt_iff_le_not_ge a b := by rw [UInt8.not_le]; exact ⟨fun h => ⟨UInt8.le_of_lt h, h⟩, fun h => h.2⟩
  le_antisymm _ _ := UInt8.le_antisymm
  le_total := UInt8.le_total
  toDecidableLE := inferInstance

/-! ## Failing -/

/-- How a function of the package fails: as the XML reader does or with one of the codes of
`Error`, or with a code of the package. -/
inductive OpcFault where
  | shared (f : XmlFault)
  | duplicateRelationshipID
  | duplicatePrintTicket
  | contentTypeEmptyContentType
  | contentTypeEmptyPartName
  | contentTypeEmptyExtension
  | duplicateContentType
  | missingExtensionForRelationship
  | missingExtensionForModel
  deriving DecidableEq

/-- A throw of one of the codes of `Error`. -/
def OpcFault.throws (e : Error) : OpcFault := .shared (.throws e)

/-- A loop that reads to the end of a document: `none` when its fuel was exhausted. -/
abbrev Reading (α : Type) := ExceptT OpcFault Option α

namespace Reading

variable {α : Type}

/-- The fuel is exhausted. -/
def exhausted : Reading α := ExceptT.mk none

/-- The function returns or throws. -/
def lift (x : Except OpcFault α) : Reading α := ExceptT.mk (some x)

/-- A call of the XML reader. -/
def call (x : Except XmlFault α) : Reading α := lift (x.mapError .shared)

/-- A function that throws. -/
def throwing (x : Except Error α) : Reading α := lift (x.mapError .throws)

end Reading

/-! ## Paths -/

/-- `/` or `\`. -/
def isPathDelimiter (c : UInt8) : Bool := c = '/'.toUInt8 ∨ c = '\\'.toUInt8

/-- `fnIncludeLeadingPathDelimiter`. -/
def fnIncludeLeadingPathDelimiter (path : List UInt8) : List UInt8 :=
  match path with
  | [] => xmlText "/"
  | c :: _ => if isPathDelimiter c then path else xmlText "/" ++ path

/-- `fnExtractFileName`: what follows the last delimiter. -/
def fnExtractFileName (path : List UInt8) : List UInt8 :=
  (path.reverse.takeWhile fun c => !isPathDelimiter c).reverse

/-- What the constructor of a relationship requires of its target. -/
def IsPartURI (uri : List UInt8) : Prop :=
  uri ≠ [] ∧ fnExtractFileName uri ≠ [] ∧ (fnExtractFileName uri).head? ≠ some '.'.toUInt8

instance : DecidablePred IsPartURI := fun uri => inferInstanceAs (Decidable
  (uri ≠ [] ∧ fnExtractFileName uri ≠ [] ∧ (fnExtractFileName uri).head? ≠ some '.'.toUInt8))

/-! ## Relationships -/

/-- `OPCPACKAGE_SCHEMA_RELATIONSHIPS`. -/
def schemaRelationships : List UInt8 :=
  xmlText "http://schemas.openxmlformats.org/package/2006/relationships"

/-- `OPC_RELS_RELATIONSHIP_CONTAINER` and `OPC_RELS_RELATIONSHIP_NODE`. -/
def relationshipContainer : List UInt8 := xmlText "Relationships"

def relationshipNode : List UInt8 := xmlText "Relationship"

/-- `OPC_RELS_ATTRIB_TYPE`, `OPC_RELS_ATTRIB_TARGET` and `OPC_RELS_ATTRIB_ID`. -/
def attribType : List UInt8 := xmlText "Type"

def attribTarget : List UInt8 := xmlText "Target"

def attribID : List UInt8 := xmlText "Id"

/-- `PACKAGE_PRINT_TICKET_RELATIONSHIP_TYPE`. -/
def printTicketRelationshipType : List UInt8 :=
  xmlText "http://schemas.microsoft.com/3dmanufacturing/2013/01/printticket"

/-- `COpcPackageRelationship`. -/
structure Relationship where
  id : List UInt8
  type : List UInt8
  targetPartURI : List UInt8
  isPartURI : IsPartURI targetPartURI
  deriving DecidableEq

namespace Relationship

/-- The constructor. -/
def make (id type targetPartURI : List UInt8) : Except OpcFault Relationship :=
  if h : IsPartURI targetPartURI then .ok ⟨id, type, targetPartURI, h⟩
  else .error (.throws .invalidOPCPartURI)

/-- `writeToXML`. -/
def writeToXML (r : Relationship) : XmlWriterM Unit := do
  XmlWriter.writeStartElement [] relationshipNode []
  XmlWriter.writeAttributeString [] attribType r.type
  XmlWriter.writeAttributeString [] attribTarget (fnIncludeLeadingPathDelimiter r.targetPartURI)
  XmlWriter.writeAttributeString [] attribID r.id
  XmlWriter.writeEndElement

end Relationship

end NMR.Opc
