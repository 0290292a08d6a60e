import Lib3MF.Common.Platform.XmlDocuments
import Lib3MF.Common.Platform.XmlScopedReader
import Lib3MF.Model.Reader.ModelReaderNode
import Lib3MF.Model.Classes.MetaData
import Lib3MF.Model.Reader.ModelReaderWarnings

/-!
# Reading metadata

`CModelReaderNode100_MetaData` collects the attributes and the text of a `metadata` element. The
metadata of the model and of a group are added by the same steps: the prefix of the key is
resolved by the name spaces the XML reader has registered.

The elements are read as they stand in the document. The XML reader shows them so where its buffer
takes the whole document (`MetaDataDocument.FitsBuffer`). A longer document is read in several
fillings, and a text in front of a tag that a filling ends in is shown with the bytes of that tag
behind it, so that the value of an entry may come back with a part of `</metadata>`.
-/

namespace NMR

/-- `CModelReaderNode100_MetaData`. -/
structure MetaDataNode where
  key : String
  value : String
  preserve : Bool
  type : String
  deriving DecidableEq

namespace MetaDataNode

/-- The constructor. -/
def create : MetaDataNode where
  key := ""
  value := ""
  preserve := true
  type := "xs:string"

/-- `OnAttribute`. -/
def onAttribute (n : MetaDataNode) (name value : String) : MetaDataNode :=
  if name = "name" then { n with key := value }
  else if name = "preserve" then { n with preserve := decide (value ≠ "0") }
  else if name = "type" then { n with type := value }
  else n

/-- `OnText`. -/
def onText (n : MetaDataNode) (text : String) : MetaDataNode := { n with value := n.value ++ text }

/-- What a group does with an entry once it is read, in
`CModelReaderNode100_MetaDataGroup::OnNSChildElement` and in
`CModelReaderNode_Model::ReadMetaDataNode`, which has the group of the model. -/
def addTo (criticalWarningLevel : ModelReaderWarningLevel) (reader : XmlReader)
    (group : ModelMetaDataGroup) (n : MetaDataNode) : Except Error ModelMetaDataGroup :=
  if n.key ≠ "" then do
    if group.hasMetaData n.key then
      addWarning criticalWarningLevel .duplicateMetaData .invalidOptionalValue
    let (nameSpace, name) := decomposeKeyIntoNamespaceAndName n.key
    if nameSpace ≠ "" then
      match reader.namespaceURI nameSpace with
      | some nameSpaceURI => group.addMetaData nameSpaceURI name n.value n.type n.preserve
      | none =>
        addWarning criticalWarningLevel .metaDataCouldNotGetNamespace .invalidOptionalValue
        group.addMetaData nameSpace name n.value n.type n.preserve
    else if isValidNamespaceAndName "" name then
      group.addMetaData "" name n.value n.type n.preserve
    else do
      addWarning criticalWarningLevel .unknownMetaData .invalidOptionalValue
      .ok group
  else do
    addWarning criticalWarningLevel .invalidMetaData .invalidOptionalValue
    .ok group

end MetaDataNode

/-! ## The metadata of a document -/

/-- A `metadata` element: its attributes, which have no prefix, and its text. -/
structure MetaDataElement where
  attributes : List (String × String)
  text : String
  deriving DecidableEq

/-- The element in a document. -/
def MetaDataElement.content (e : MetaDataElement) : XmlContent :=
  .element "" "metadata" (e.attributes.map fun a => ⟨"", a.1, a.2⟩) (.text e.text .nil) .nil

/-- What a model document says of metadata: the name space declarations of the `model` element,
its `metadata` elements, and the `metadatagroup` elements of the objects and of the build items,
where they have one. -/
structure MetaDataDocument where
  attributes : List XmlAttribute
  metaData : List MetaDataElement
  objects : List (Option (List MetaDataElement))
  buildItems : List (Option (List MetaDataElement))
  deriving DecidableEq

/-- All `metadata` elements. -/
def MetaDataDocument.elements (doc : MetaDataDocument) : List MetaDataElement :=
  doc.metaData ++ (doc.objects ++ doc.buildItems).flatMap fun es => es.getD []

/-- The buffer of the XML reader takes the document, with `others` bytes besides the declarations
and the `metadata` elements. -/
def MetaDataDocument.FitsBuffer (doc : MetaDataDocument) (others : Nat) : Prop :=
  (doc.attributes.flatMap fun a => a.chunk.render).length +
    (doc.elements.flatMap fun e => e.content.render).length + others + bufferMargin ≤
      xmlReaderBufferSize

/-- One turn of `parseAttributes` of the model node, for the name spaces. -/
def readNameSpace (reader : XmlReader) (a : XmlAttribute) : Except Error XmlReader :=
  let reader := reader.takeAttribute ⟨.attribName, a.nsPrefix, a.name⟩ ⟨.attribValue, "", a.value⟩
  match reader.getNamespaceURI with
  | none => .error .couldNotGetNamespace
  | some _ => do
    let _ ← nfStrLen reader.currentName
    let _ ← nfStrLen reader.currentValue
    .ok reader

/-- `parseAttributes` of the model node, for the name spaces. -/
def readNameSpaces (attributes : List XmlAttribute) : Except Error XmlReader :=
  attributes.foldlM readNameSpace .create

/-- One turn of `parseAttributes` of a metadata node. -/
def MetaDataNode.readAttribute (node : MetaDataNode) (a : String × String) :
    Except Error MetaDataNode := do
  let _ ← nfStrLen a.1
  let _ ← nfStrLen a.2
  .ok (node.onAttribute a.1 a.2)

/-- `CModelReaderNode100_MetaData::parseXML`. -/
def MetaDataElement.parseXML (e : MetaDataElement) : Except Error MetaDataNode := do
  let node ← e.attributes.foldlM MetaDataNode.readAttribute .create
  if e.text = "" then .ok node
  else do
    let _ ← nfStrLen e.text
    .ok (node.onText e.text)

/-- A `metadata` element is read into a group. -/
def readMetaDataElement (criticalWarningLevel : ModelReaderWarningLevel) (reader : XmlReader)
    (group : ModelMetaDataGroup) (e : MetaDataElement) : Except Error ModelMetaDataGroup := do
  let node ← e.parseXML
  node.addTo criticalWarningLevel reader group

/-- The `metadata` elements of the model, or of a group. -/
def readMetaData (criticalWarningLevel : ModelReaderWarningLevel) (reader : XmlReader)
    (elements : List MetaDataElement) : Except Error ModelMetaDataGroup :=
  elements.foldlM (readMetaDataElement criticalWarningLevel reader) .empty

/-- A `metadatagroup`, and the new object or build item it is merged into. -/
def readMetaDataGroup (criticalWarningLevel : ModelReaderWarningLevel) (reader : XmlReader)
    (elements : Option (List MetaDataElement)) : Except Error ModelMetaDataGroup :=
  match elements with
  | none => .ok .empty
  | some elements => do
    let group ← readMetaData criticalWarningLevel reader elements
    ModelMetaDataGroup.empty.mergeMetaData group

/-- The metadata a model has after reading. -/
structure ReadMetaData where
  model : ModelMetaDataGroup
  objects : List ModelMetaDataGroup
  buildItems : List ModelMetaDataGroup

/-- The metadata a document is read with. -/
def MetaDataDocument.read (criticalWarningLevel : ModelReaderWarningLevel)
    (doc : MetaDataDocument) : Except Error ReadMetaData := do
  let reader ← readNameSpaces doc.attributes
  let model ← readMetaData criticalWarningLevel reader doc.metaData
  let objects ← doc.objects.mapM (readMetaDataGroup criticalWarningLevel reader)
  let buildItems ← doc.buildItems.mapM (readMetaDataGroup criticalWarningLevel reader)
  .ok ⟨model, objects, buildItems⟩

end NMR
