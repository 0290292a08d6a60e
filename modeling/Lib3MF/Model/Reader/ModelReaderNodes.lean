import Lib3MF.Model.Classes.ModelConstants
import Lib3MF.Model.Reader.MetaDataReader
import Lib3MF.Model.Reader.ModelReaderNode

/-!
# The node readers of a model document

`CModelReaderNode_Model`, `CModelReaderNode100_Object` and the two node readers of metadata, with
the elements each of them reads. The other node readers, and what the model does with what is
read, are a parameter (`ModelDocumentParts`): an element is read or left by `OnNSChildElement` of
its parent, and the loop of `parseContent` is the same for all.
-/

namespace NMR

/-- `CModelReaderNode_Model`. `m_bHaveWarnedAboutV093` is left out: it keeps the second of two
equal warnings out of the list of warnings. -/
structure ModelNode where
  requiredExtensions : String
  listedExtensions : List (String × String)
  hasResources : Bool
  hasBuild : Bool
  ignoreBuild : Bool
  ignoreMetaData : Bool
  withinIgnoredElement : Bool
  deriving DecidableEq

/-- `CModelReaderNode100_Object`. -/
structure ObjectNode where
  id : Nat
  type : Option String
  thumbnailPath : Option String
  name : String
  partNumber : String
  objectLevelPropertyID : Option Nat
  objectLevelPropertyIndex : Option Nat
  sliceStackId : Nat
  hasMeshResolution : Bool
  lowMeshResolution : Bool
  uuid : Option String
  hasObject : Bool
  metaDataGroup : Option ModelMetaDataGroup
  deriving DecidableEq

/-- A node reader of a model document; `κ` are the other classes. -/
inductive ReaderNode (κ : Type) where
  | instruction
  | model (n : ModelNode)
  | object (n : ObjectNode)
  | metaData (n : MetaDataNode)
  | metaDataGroup (g : ModelMetaDataGroup)
  | mesh (k : κ)
  | components (k : κ)
  | other (k : κ)

/-- The model that is read: its metadata, the rest of it, and `bHasModel` of the loop over the
root nodes. -/
structure ReadModel (μ : Type) where
  metaDataGroup : ModelMetaDataGroup
  rest : μ
  hasModel : Bool

/-- The reader's options, what `CModel` does, and the other node readers. -/
structure ModelDocumentParts (μ κ : Type) where
  criticalWarningLevel : ModelReaderWarningLevel
  /-- `setIgnoreBuild` and `setIgnoreMetaData`, which a part that is not the root part gets. -/
  ignoreBuild : Bool
  ignoreMetaData : Bool
  supportsBinaryStreams : Bool
  stringToUint32 : String → Except Error Nat
  uuid : String → Except Error String
  setUnitString : μ → String → Except Error μ
  setLanguage : μ → String → μ
  /-- `setCurPath`, and the constructor of `CModelReaderNode_Model`. -/
  beginModel : μ → μ
  /-- The node readers a model node makes. -/
  resources : κ
  resources093 : κ
  build : κ
  build093 : κ
  /-- What an object node makes and does. -/
  mesh : Nat → Nat → κ
  components : κ
  createMeshObject : μ → ObjectNode → Except Error μ
  addMeshObject : μ → ObjectNode → κ → Except Error μ
  createComponentsObject : μ → ObjectNode → Except Error μ
  addComponentsObject : μ → ObjectNode → κ → Except Error μ
  assignSliceStack : μ → ObjectNode → Except Error μ
  setObjectParameters : XmlReader → μ → ObjectNode → Except Error μ
  /-- The other node readers. -/
  onAttribute : κ → μ → String → String → Except Error (κ × μ)
  onNSAttribute : κ → μ → String → String → String → Except Error (κ × μ)
  afterAttributes : XmlReader → κ → μ → Except Error (κ × μ)
  onNSChildElement : κ → μ → String → String → Except Error (κ × μ × Option (ReaderNode κ))
  afterChild : XmlReader → κ → μ → ReaderNode κ → Except Error (κ × μ)
  afterContent : XmlReader → κ → μ → Except Error (κ × μ)

namespace ModelDocumentParts

variable {μ κ : Type} (D : ModelDocumentParts μ κ)

/-- `addWarning`. -/
def warn (error : Error) (level : ModelReaderWarningLevel) : Except Error Unit :=
  addWarning D.criticalWarningLevel error level

/-! ## The model node -/

/-- The constructor of `CModelReaderNode_Model`. -/
def modelNode : ModelNode where
  requiredExtensions := ""
  listedExtensions := []
  hasResources := false
  hasBuild := false
  ignoreBuild := D.ignoreBuild
  ignoreMetaData := D.ignoreMetaData
  withinIgnoredElement := false

/-- The extensions the reader supports. -/
def supported (uri : String) : Bool :=
  uri = xmlns100 || uri = materialSpec || uri = productionSpec || uri = sliceSpec ||
    uri = beamLatticeSpec || (uri = zCompression && D.supportsBinaryStreams)

/-- The words of a text. -/
def tokens (s : String) : List String :=
  ((s.toList.splitOnP Char.isWhitespace).filter (· ≠ [])).map String.ofList

/-- `CheckRequiredExtensions`. -/
def checkRequiredExtensions (n : ModelNode) : Except Error Unit :=
  (tokens n.requiredExtensions).forM fun token =>
    match n.listedExtensions.lookup token with
    | none => .error .invalidRequiredExtensionPrefix
    | some uri =>
      if D.supported uri then .ok ()
      else D.warn .requiredExtensionNotSupported .invalidMandatoryValue

/-- `CModelReaderNode_Model::OnAttribute`. -/
def modelOnAttribute (n : ModelNode) (m : μ) (name value : String) : Except Error (ModelNode × μ) :=
  if name = "unit" then
    match D.setUnitString m value with
    | .ok m => .ok (n, m)
    | .error e => do
      D.warn e .invalidMandatoryValue
      .ok (n, m)
  else if name = "requiredextensions" then .ok ({ n with requiredExtensions := value }, m)
  else .ok (n, m)

/-- `CModelReaderNode_Model::OnNSAttribute`. -/
def modelOnNSAttribute (n : ModelNode) (m : μ) (name value nameSpace : String) :
    Except Error (ModelNode × μ) :=
  if nameSpace = xmlSpec then
    if name = "lang" then .ok (n, D.setLanguage m value)
    else if name = "space" then .error .forbiddenXMLAttribute
    else .ok (n, m)
  else if nameSpace = xmlnsSpec then
    if (n.listedExtensions.lookup name).isSome then .ok (n, m)
    else .ok ({ n with listedExtensions := n.listedExtensions ++ [(name, value)] }, m)
  else .ok (n, m)

/-- `CModelReaderNode_Model::OnNSChildElement`, up to the node reader it makes. -/
def modelOnNSChildElement (n : ModelNode) (childName nameSpace : String) :
    Except Error (ModelNode × Option (ReaderNode κ)) :=
  if nameSpace = xmlns100 then
    if childName = "resources" then
      if n.hasResources then .error .duplicateResources
      else .ok ({ n with withinIgnoredElement := false }, some (.other D.resources))
    else if childName = "build" then
      if n.hasBuild then .error .duplicateBuildSection
      else if n.ignoreBuild then
        .ok ({ n with withinIgnoredElement := true, hasBuild := true }, none)
      else .ok ({ n with withinIgnoredElement := false }, some (.other D.build))
    else if childName = "metadata" then
      if n.ignoreMetaData then .ok ({ n with withinIgnoredElement := true }, none)
      else .ok ({ n with withinIgnoredElement := false }, some (.metaData .create))
    else do
      if ¬ n.withinIgnoredElement then D.warn .namespaceInvalidElement .invalidOptionalValue
      .ok (n, none)
  else if nameSpace = xmlns093 ∨ nameSpace = "" then do
    D.warn .version093NotSupported .invalidOptionalValue
    if childName = "resources" then
      if n.hasResources then .error .duplicateResources
      else .ok (n, some (.other D.resources093))
    else if childName = "build" then
      if n.hasBuild then .error .duplicateBuildSection
      else .ok (n, some (.other D.build093))
    else if childName = "metadata" ∨ childName = "entry" then
      .ok (n, some (.metaData .create))
    else do
      D.warn .namespaceInvalidElement .invalidOptionalValue
      .ok (n, none)
  else .ok (n, none)

/-- The rest of it: a metadata entry goes to the model, and the sections are noted. -/
def modelAfterChild (reader : XmlReader) (n : ModelNode) (w : ReadModel μ) (childName : String)
    (child : ReaderNode κ) : Except Error (ModelNode × ReadModel μ) :=
  match child with
  | .metaData md => do
    let group ← md.addTo D.criticalWarningLevel reader w.metaDataGroup
    .ok (n, { w with metaDataGroup := group })
  | _ =>
    if childName = "resources" then .ok ({ n with hasResources := true }, w)
    else .ok ({ n with hasBuild := true }, w)

/-! ## The object node -/

/-- `CModelReaderNode100_Object::OnAttribute`. -/
def objectOnAttribute (n : ObjectNode) (name value : String) : Except Error ObjectNode :=
  if name = "id" then
    if n.id ≠ 0 then .error .duplicateObjectID
    else do
      let id ← D.stringToUint32 value
      .ok { n with id := id }
  else if name = "type" then
    if n.type.isSome then .error .duplicateObjectType else .ok { n with type := some value }
  else if name = "thumbnail" then
    if n.thumbnailPath.isSome then .error .duplicateObjectThumbnail
    else .ok { n with thumbnailPath := some value }
  else if name = "name" then .ok { n with name := value }
  else if name = "partnumber" then .ok { n with partNumber := value }
  else if name = "pid" then
    if n.objectLevelPropertyID.isSome then .error .duplicatePID
    else do
      let pid ← D.stringToUint32 value
      .ok { n with objectLevelPropertyID := some pid }
  else if name = "pindex" then
    if n.objectLevelPropertyIndex.isSome then .error .duplicatePIndex
    else do
      let pindex ← D.stringToUint32 value
      .ok { n with objectLevelPropertyIndex := some pindex }
  else .ok n

/-- `CModelReaderNode100_Object::OnNSAttribute`. -/
def objectOnNSAttribute (n : ObjectNode) (name value nameSpace : String) :
    Except Error ObjectNode :=
  if nameSpace = sliceSpec then
    if name = "slicestackid" then do
      if n.sliceStackId ≠ 0 then D.warn .duplicateSliceStackID .invalidOptionalValue
      let id ← D.stringToUint32 value
      .ok { n with sliceStackId := id }
    else if name = "meshresolution" then do
      if n.hasMeshResolution then D.warn .duplicateMeshResolution .invalidOptionalValue
      if value = "fullres" then .ok { n with hasMeshResolution := true, lowMeshResolution := false }
      else if value = "lowres" then
        .ok { n with hasMeshResolution := true, lowMeshResolution := true }
      else do
        D.warn .invalidMeshResolution .invalidOptionalValue
        .ok { n with hasMeshResolution := true }
    else do
      D.warn .namespaceInvalidAttribute .invalidOptionalValue
      .ok n
  else if nameSpace = productionSpec then
    if name = "UUID" then do
      if n.uuid.isSome then D.warn .duplicateUUID .invalidMandatoryValue
      let uuid ← D.uuid value
      .ok { n with uuid := some uuid }
    else do
      D.warn .namespaceInvalidAttribute .invalidOptionalValue
      .ok n
  else .ok n

/-- The end of `CModelReaderNode100_Object::OnNSChildElement`, for every element of the core name
space. -/
def objectAssignSliceStack (n : ObjectNode) (m : μ) : Except Error μ :=
  if n.hasObject ∧ n.sliceStackId > 0 then D.assignSliceStack m n else .ok m

/-- `CModelReaderNode100_Object::OnNSChildElement`, up to the node reader it makes. -/
def objectOnNSChildElement (n : ObjectNode) (m : μ) (childName nameSpace : String) :
    Except Error (ObjectNode × μ × Option (ReaderNode κ)) :=
  if nameSpace = xmlns100 then
    if childName = "mesh" then
      if n.hasObject then .error .ambiguousObjectDefinition
      else do
        let m ← D.createMeshObject m n
        .ok ({ n with hasObject := true }, m, some (.mesh (D.mesh
          (n.objectLevelPropertyID.getD 0) (n.objectLevelPropertyIndex.getD 0))))
    else if childName = "components" then
      if n.hasObject then .error .ambiguousObjectDefinition
      else do
        let m ← D.createComponentsObject m n
        .ok ({ n with hasObject := true }, m, some (.components D.components))
    else if childName = "metadatagroup" then .ok (n, m, some (.metaDataGroup .empty))
    else do
      D.warn .namespaceInvalidElement .invalidOptionalValue
      let m ← D.objectAssignSliceStack n m
      .ok (n, m, none)
  else .ok (n, m, none)

/-- The rest of it. -/
def objectAfterChild (n : ObjectNode) (m : μ) (child : ReaderNode κ) :
    Except Error (ObjectNode × μ) := do
  let (n, m) ← match child with
    | .mesh k => do
      let m ← D.addMeshObject m n k
      pure (n, m)
    | .components k => do
      let m ← D.addComponentsObject m n k
      if n.objectLevelPropertyID.getD 0 ≠ 0 then
        D.warn .objectLevelPIDOnComponentsObject .invalidOptionalValue
      pure (n, m)
    | .metaDataGroup g => do
      if n.metaDataGroup.isSome then D.warn .duplicateMetaDataGroup .invalidOptionalValue
      pure ({ n with metaDataGroup := some g }, m)
    | _ => pure (n, m)
  let m ← D.objectAssignSliceStack n m
  .ok (n, m)

/-! ## All node readers -/

/-- Keep the rest of the model in step. -/
def lift {α : Type} (w : ReadModel μ) (f : α → ReaderNode κ) (r : Except Error (α × μ)) :
    Except Error (ReaderNode κ × ReadModel μ) := do
  let (a, m) ← r
  .ok (f a, { w with rest := m })

/-- `OnAttribute`. -/
def nodeOnAttribute (node : ReaderNode κ) (w : ReadModel μ) (name value : String) :
    Except Error (ReaderNode κ × ReadModel μ) :=
  match node with
  | .instruction =>
    if name = "encoding" ∧ ¬ (value.toLower = "utf-8" ∨ value.toLower = "utf8") then
      .error .invalidXMLEncoding
    else .ok (.instruction, w)
  | .model n => lift w .model (D.modelOnAttribute n w.rest name value)
  | .object n => do
    let n ← D.objectOnAttribute n name value
    .ok (.object n, w)
  | .metaData n => .ok (.metaData (n.onAttribute name value), w)
  | .metaDataGroup g => .ok (.metaDataGroup g, w)
  | .mesh k => lift w .mesh (D.onAttribute k w.rest name value)
  | .components k => lift w .components (D.onAttribute k w.rest name value)
  | .other k => lift w .other (D.onAttribute k w.rest name value)

/-- `OnNSAttribute`. -/
def nodeOnNSAttribute (node : ReaderNode κ) (w : ReadModel μ) (name value nameSpace : String) :
    Except Error (ReaderNode κ × ReadModel μ) :=
  match node with
  | .model n => lift w .model (D.modelOnNSAttribute n w.rest name value nameSpace)
  | .object n => do
    let n ← D.objectOnNSAttribute n name value nameSpace
    .ok (.object n, w)
  | .mesh k => lift w .mesh (D.onNSAttribute k w.rest name value nameSpace)
  | .components k => lift w .components (D.onNSAttribute k w.rest name value nameSpace)
  | .other k => lift w .other (D.onNSAttribute k w.rest name value nameSpace)
  | node => .ok (node, w)

/-- `parseXML` between attributes and content. -/
def nodeAfterAttributes (reader : XmlReader) (node : ReaderNode κ) (w : ReadModel μ) :
    Except Error (ReaderNode κ × ReadModel μ) :=
  match node with
  | .model n => do
    D.checkRequiredExtensions n
    .ok (.model n, w)
  | .object n => if n.id = 0 then .error .missingModelObjectID else .ok (.object n, w)
  | .mesh k => lift w .mesh (D.afterAttributes reader k w.rest)
  | .components k => lift w .components (D.afterAttributes reader k w.rest)
  | .other k => lift w .other (D.afterAttributes reader k w.rest)
  | node => .ok (node, w)

/-- `OnNSChildElement` of the other classes. -/
def otherOnNSChildElement (k : κ) (f : κ → ReaderNode κ) (w : ReadModel μ)
    (childName nameSpace : String) :
    Except Error (ReaderNode κ × ReadModel μ × Option (ReaderNode κ)) := do
  let (k, m, child) ← D.onNSChildElement k w.rest childName nameSpace
  .ok (f k, { w with rest := m }, child)

/-- `OnNSChildElement`. -/
def nodeOnNSChildElement (node : ReaderNode κ) (w : ReadModel μ) (childName nameSpace : String) :
    Except Error (ReaderNode κ × ReadModel μ × Option (ReaderNode κ)) :=
  match node with
  | .model n => do
    let (n, child) ← D.modelOnNSChildElement n childName nameSpace
    .ok (.model n, w, child)
  | .object n => do
    let (n, m, child) ← D.objectOnNSChildElement n w.rest childName nameSpace
    .ok (.object n, { w with rest := m }, child)
  | .metaDataGroup g =>
    if nameSpace = xmlns100 ∧ childName = "metadata" then
      .ok (.metaDataGroup g, w, some (.metaData .create))
    else .ok (.metaDataGroup g, w, none)
  | .mesh k => D.otherOnNSChildElement k .mesh w childName nameSpace
  | .components k => D.otherOnNSChildElement k .components w childName nameSpace
  | .other k => D.otherOnNSChildElement k .other w childName nameSpace
  | node => .ok (node, w, none)

/-- `OnNSChildElement`, once the child is read. -/
def nodeAfterChild (reader : XmlReader) (node : ReaderNode κ) (w : ReadModel μ)
    (childName : String) (child : ReaderNode κ) : Except Error (ReaderNode κ × ReadModel μ) :=
  match node with
  | .model n => do
    let (n, w) ← D.modelAfterChild reader n w childName child
    .ok (.model n, w)
  | .object n => lift w .object (D.objectAfterChild n w.rest child)
  | .metaDataGroup g =>
    match child with
    | .metaData md => do
      let g ← md.addTo D.criticalWarningLevel reader g
      .ok (.metaDataGroup g, w)
    | _ => .ok (.metaDataGroup g, w)
  | .mesh k => lift w .mesh (D.afterChild reader k w.rest child)
  | .components k => lift w .components (D.afterChild reader k w.rest child)
  | .other k => lift w .other (D.afterChild reader k w.rest child)
  | node => .ok (node, w)

/-- `OnText`: the metadata entry alone has one that does something. -/
def nodeOnText (node : ReaderNode κ) (w : ReadModel μ) (text : String) :
    Except Error (ReaderNode κ × ReadModel μ) :=
  match node with
  | .metaData n => .ok (.metaData (n.onText text), w)
  | node => .ok (node, w)

/-- `parseXML` after the content. -/
def nodeAfterContent (reader : XmlReader) (node : ReaderNode κ) (w : ReadModel μ) :
    Except Error (ReaderNode κ × ReadModel μ) :=
  match node with
  | .object n =>
    if n.hasObject = false then .error .missingObjectContent
    else do
      let m ← D.setObjectParameters reader w.rest n
      .ok (.object n, { w with rest := m })
  | .mesh k => lift w .mesh (D.afterContent reader k w.rest)
  | .components k => lift w .components (D.afterContent reader k w.rest)
  | .other k => lift w .other (D.afterContent reader k w.rest)
  | node => .ok (node, w)

/-- The loop over the root nodes. -/
def onRootNode (w : ReadModel μ) (name : String) :
    Except Error (ReadModel μ × Option (ReaderNode κ)) :=
  if name = "xml" then .ok (w, some .instruction)
  else if name = "model" then
    if w.hasModel then .error .duplicateModelNode
    else .ok (⟨w.metaDataGroup, D.beginModel w.rest, true⟩, some (.model D.modelNode))
  else .ok (w, none)

/-- The same loop, once the root node is read. -/
def afterRootNode (w : ReadModel μ) (node : ReaderNode κ) : Except Error (ReadModel μ) :=
  match node with
  | .model n =>
    if n.hasResources = false then .error .noResources
    else if n.hasBuild = false then
      .error (if n.ignoreBuild then .buildItemNotFound else .noBuild)
    else .ok w
  | _ => .ok w

/-- The node readers of a model document. -/
def nodeReaders : NodeReaders (ReaderNode κ) (ReadModel μ) where
  onAttribute := D.nodeOnAttribute
  onNSAttribute := D.nodeOnNSAttribute
  afterAttributes := D.nodeAfterAttributes
  hasContent node := match node with
    | .instruction => false
    | _ => true
  onNSChildElement := D.nodeOnNSChildElement
  afterChild := D.nodeAfterChild
  onText := nodeOnText
  afterContent := D.nodeAfterContent
  onRootNode := D.onRootNode
  afterRootNode := afterRootNode
  afterDocument w := if w.hasModel ∨ D.ignoreBuild then .ok w else .error .noModelNode

end ModelDocumentParts

end NMR
