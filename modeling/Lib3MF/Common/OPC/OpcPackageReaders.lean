import Mathlib.Data.List.Lex
import Lib3MF.Common.OPC.OpcPackageTypes

/-!
# Reading relationships and content types

Both are documents whose root lists elements without content; `COpcPackageRelationshipReader` and
`COpcPackageContentTypesReader` differ in the names they look for and in what they do with the
attributes of an element (`ListReader`). Other elements with the name space of the document are
rejected, and those of other name spaces are passed over, with their attributes and content.
-/

namespace NMR.Opc

open Lib

/-! ## Documents that list elements -/

/-- A reader of such documents: `β` are the strings that the attributes of an element fill in, and
`α` what is read so far. `child` is, for the name of an element, what is done with its strings. -/
structure ListReader (β α : Type) where
  container : List UInt8
  schema : List UInt8
  init : β
  assign : List UInt8 → List UInt8 → β → β
  child : List UInt8 → Option (β → α → Except OpcFault α)

namespace ListReader

variable {β α : Type} (R : ListReader β α)

/-- The loop over the attributes of an element, from one of them on. -/
def foldAttributes (assign : List UInt8 → List UInt8 → β → β) :
    Nat → ScopedReader → β → Reading (ScopedReader × β)
  | 0, _, _ => .exhausted
  | fuel + 1, r, b =>
    match r.getNamespaceURI with
    | none => .throwing (.error .couldNotGetNamespace)
    | some uri => do
      let _ ← .throwing (NativeReader.nfStrLen r.native.currentName)
      let _ ← .throwing (NativeReader.nfStrLen r.native.currentValue)
      let b := if uri = [] then assign r.native.currentName r.native.currentValue b else b
      let (r, found) ← .call r.moveToNextAttribute
      if found then foldAttributes assign fuel r b else return (r, b)

/-- `parseAttributes`. -/
def parseAttributes (fuel : Nat) (r : ScopedReader) : Reading ScopedReader := do
  let (r, found) ← .call r.moveToNextAttribute
  if found then
    let (r, _) ← foldAttributes (fun _ _ b => b) fuel r ()
    return r
  else return r

/-- `parseChildNode`. -/
def parseChildNode (fuel : Nat) (r : ScopedReader) (add : β → α → Except OpcFault α) (a : α) :
    Reading (ScopedReader × α) := do
  let (r, found) ← .call r.moveToNextAttribute
  if found then
    let (r, b) ← foldAttributes R.assign fuel r R.init
    let a ← .lift (add b a)
    return (r, a)
  else return (r, a)

/-- A start tag in `parseRootNode`. -/
def parseStartElement (fuel : Nat) (r : ScopedReader) (a : α) : Reading (ScopedReader × α) := do
  let count ← .throwing (NativeReader.nfStrLen r.native.currentName)
  match r.getNamespaceURI with
  | none => .throwing (.error .couldNotGetNamespace)
  | some uri =>
    if count > 0 ∧ uri = R.schema then
      match R.child r.native.currentName with
      | none => .throwing (.error .namespaceInvalidElement)
      | some add => R.parseChildNode fuel r add a
    else return (r, a)

/-- The loop of `parseRootNode`. -/
def parseContent : Nat → ScopedReader → α → Reading (ScopedReader × α)
  | 0, _, _ => .exhausted
  | fuel + 1, r, a =>
    if r.native.isEOF then return (r, a)
    else do
      let (r, type) ← .call r.read
      match type with
      | some .startElement =>
        let (r, a) ← R.parseStartElement fuel r a
        parseContent fuel r a
      | some .endElement =>
        let _ ← .throwing (NativeReader.nfStrLen r.native.currentName)
        if r.native.currentName = R.container then return (r, a) else parseContent fuel r a
      | _ => parseContent fuel r a

/-- `parseRootNode`. -/
def parseRootNode (fuel : Nat) (r : ScopedReader) (a : α) : Reading (ScopedReader × α) := do
  let r ← parseAttributes fuel r
  R.parseContent fuel r a

/-- The loop of the constructor. -/
def parseDocument : Nat → ScopedReader → α → Reading α
  | 0, _, _ => .exhausted
  | fuel + 1, r, a =>
    if r.native.isEOF then return a
    else do
      let (r, type) ← .call r.read
      match type with
      | none => return a
      | some _ =>
        if r.native.currentName = R.container then
          let (r, a) ← R.parseRootNode fuel r a
          parseDocument fuel r a
        else parseDocument fuel r a

/-- The constructor, on the document `data`. -/
def readDocument (fuel : Nat) (data : List UInt8) (a : α) : Reading α := do
  let r ← .call (ScopedReader.create ⟨data, []⟩ xmlReaderBufferSize)
  R.parseDocument fuel r a

end ListReader

/-! ## Relationships -/

/-- `m_IDToRelationShips`. -/
abbrev RelationshipMap := SortedMap (List UInt8) Relationship

/-- The strings of a `Relationship` element. -/
structure RelationshipStrings where
  target : List UInt8
  id : List UInt8
  type : List UInt8

/-- The attributes of `COpcPackageRelationshipReader::parseChildNode`. -/
def RelationshipStrings.assign (name value : List UInt8) (s : RelationshipStrings) :
    RelationshipStrings :=
  let s := if name = attribTarget then { s with target := value } else s
  let s := if name = attribType then { s with type := value } else s
  if name = attribID then { s with id := value } else s

/-- The end of `COpcPackageRelationshipReader::parseChildNode`. -/
def addReadRelationship (s : RelationshipStrings) (m : RelationshipMap) :
    Except OpcFault RelationshipMap :=
  if s.target = [] then .error (.throws .invalidOPCPartURI)
  else if s.type = printTicketRelationshipType ∧ m.entries.any (fun e => e.2.type = s.type) then
    .error .duplicatePrintTicket
  else if (m.find? s.id).isSome then .error .duplicateRelationshipID
  else do
    let r ← Relationship.make s.id s.type s.target
    return m.insert s.id r

/-- `COpcPackageRelationshipReader`. -/
def relationshipReader : ListReader RelationshipStrings RelationshipMap where
  container := relationshipContainer
  schema := schemaRelationships
  init := ⟨[], [], []⟩
  assign := RelationshipStrings.assign
  child name := if name = relationshipNode then some addReadRelationship else none

/-- The relationships of a document, in the order of `getRelationShip`. -/
def readRelationships (fuel : Nat) (data : List UInt8) : Reading (List Relationship) := do
  let m ← relationshipReader.readDocument fuel data .empty
  return m.entries.map (·.2)

/-! ## Content types -/

/-- `OPCPACKAGE_SCHEMA_CONTENTTYPES`. -/
def schemaContentTypes : List UInt8 :=
  xmlText "http://schemas.openxmlformats.org/package/2006/content-types"

/-- `OPC_CONTENTTYPES_CONTAINER`, `OPC_CONTENTTYPES_NODE` and `OPC_CONTENTTYPES_NODE_OVERRIDE`. -/
def contentTypesContainer : List UInt8 := xmlText "Types"

def contentTypesNode : List UInt8 := xmlText "Default"

def contentTypesNodeOverride : List UInt8 := xmlText "Override"

/-- `OPC_CONTENTTYPES_ATTRIB_EXTENSION`, `OPC_CONTENTTYPES_ATTRIB_CONTENTTYPE` and
`OPC_CONTENTTYPES_ATTRIB_PARTNAME`. -/
def attribExtension : List UInt8 := xmlText "Extension"

def attribContentType : List UInt8 := xmlText "ContentType"

def attribPartName : List UInt8 := xmlText "PartName"

/-- `m_ContentTypes` and `m_Overrides`: content types by extension and by part. -/
structure ContentTypes where
  contentTypes : List (List UInt8 × List UInt8)
  overrides : List (List UInt8 × List UInt8)
  deriving DecidableEq

/-- The strings of a `Default` or `Override` element. -/
structure ContentTypeStrings where
  extension : List UInt8
  partName : List UInt8
  contentType : List UInt8

/-- The attributes of `COpcPackageContentTypesReader::parseChildNode`. -/
def ContentTypeStrings.assign (name value : List UInt8) (s : ContentTypeStrings) :
    ContentTypeStrings :=
  let s := if name = attribExtension then { s with extension := value } else s
  let s := if name = attribContentType then { s with contentType := value } else s
  if name = attribPartName then { s with partName := value } else s

/-- The end of `COpcPackageContentTypesReader::parseChildNode`. -/
def addReadContentType (override : Bool) (s : ContentTypeStrings) (t : ContentTypes) :
    Except OpcFault ContentTypes :=
  if s.contentType = [] then .error .contentTypeEmptyContentType
  else if override then
    if s.partName = [] then .error .contentTypeEmptyPartName
    else if t.overrides.any (fun e => e.1 = s.partName) then .error .duplicateContentType
    else .ok { t with overrides := t.overrides ++ [(s.partName, s.contentType)] }
  else if s.extension = [] then .error .contentTypeEmptyExtension
  else if t.contentTypes.any (fun e => e.1 = s.extension) then .error .duplicateContentType
  else .ok { t with contentTypes := t.contentTypes ++ [(s.extension, s.contentType)] }

/-- `COpcPackageContentTypesReader`. -/
def contentTypesReader : ListReader ContentTypeStrings ContentTypes where
  container := contentTypesContainer
  schema := schemaContentTypes
  init := ⟨[], [], []⟩
  assign := ContentTypeStrings.assign
  child name :=
    if name = contentTypesNode then some (addReadContentType false)
    else if name = contentTypesNodeOverride then some (addReadContentType true)
    else none

/-- The content types of a document. -/
def readContentTypes (fuel : Nat) (data : List UInt8) : Reading ContentTypes :=
  contentTypesReader.readDocument fuel data ⟨[], []⟩

end NMR.Opc
