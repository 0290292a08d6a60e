import Lib3MF.Model.Classes.ModelTypes

/-!
# The model

`CModel`. Resources live in `store` from their construction on; `addResource` puts a constructed
resource into the resource map, the resource list and the lookup table of its class. A resource
whose construction was followed by an error keeps its ID without being in the map.
-/

namespace NMR

open Lib

/-- `CModel`. -/
structure Model where
  curPath : String
  rootPath : String
  resourceHandler : ResourceHandler
  store : List Resource
  resourceMap : SortedMap Nat ResourceRef
  resources : List ResourceRef
  objectLookup : List ResourceRef
  baseMaterialLookup : List ResourceRef
  colorGroupLookup : List ResourceRef
  textureLookup : List ResourceRef
  texture2DGroupLookup : List ResourceRef
  compositeMaterialsLookup : List ResourceRef
  multiPropertyGroupLookup : List ResourceRef
  sliceStackLookup : List ResourceRef
  buildItems : List BuildItem
  attachments : List Attachment
  attachmentURIMap : SortedMap String Attachment
  handleCounter : Nat

/-- `NMR_MAXHANDLE`. -/
def maxHandle : Nat := 0xfffffffe

/-- `XML_3MF_MAXBUILDITEMCOUNT`. -/
def maxBuildItemCount : Nat := 2147483647

/-- `fnRemoveLeadingPathDelimiter`. -/
def fnRemoveLeadingPathDelimiter (path : String) : String :=
  String.ofList (path.toList.dropWhile fun c => c = '/' ∨ c = '\\')

namespace Model

/-- A new model. -/
def new : Model where
  curPath := ""
  rootPath := ""
  resourceHandler := .empty
  store := []
  resourceMap := .empty
  resources := []
  objectLookup := []
  baseMaterialLookup := []
  colorGroupLookup := []
  textureLookup := []
  texture2DGroupLookup := []
  compositeMaterialsLookup := []
  multiPropertyGroupLookup := []
  sliceStackLookup := []
  buildItems := []
  attachments := []
  attachmentURIMap := .empty
  handleCounter := 1

/-- `setCurPath`. -/
def setCurPath (m : Model) (path : String) : Model := { m with curPath := path }

/-- `setRootPath`. -/
def setRootPath (m : Model) (path : String) : Model := { m with rootPath := path }

/-- `generateResourceID`. -/
def generateResourceID (m : Model) : Nat :=
  match m.resourceMap.lastKey? with
  | some k => (k + 1) % 2 ^ 32
  | none => 1

/-- The constructor `CModelResource`, with the data of the class. -/
def construct (m : Model) (id : Nat) (data : ResourceData) :
    Except Error (Model × ResourceRef) := do
  let (h, p) ← m.resourceHandler.getNewResourceID m.curPath id
  return ({ m with resourceHandler := h, store := m.store ++ [⟨p, data⟩] }, m.store.length)

/-- `findResource(id)`: through the handler, then the resource map. -/
def findResource (m : Model) (uniqueID : Nat) : Option ResourceRef :=
  match m.resourceHandler.findResourceID uniqueID with
  | some p => m.resourceMap.find? p.uniqueID
  | none => none

/-- The data of a resource. -/
def data? (m : Model) (r : ResourceRef) : Option ResourceData := (m.store[r]?).map (·.data)

/-- `getResourceID()->getUniqueID()` of a resource. -/
def uniqueID? (m : Model) (r : ResourceRef) : Option Nat :=
  (m.store[r]?).map (·.resourceID.uniqueID)

/-- Change the data of a resource. -/
def setData (m : Model) (r : ResourceRef) (data : ResourceData) : Model :=
  { m with store := m.store.modify r fun res => { res with data := data } }

/-- `addResourceToLookupTable`. -/
def addResourceToLookupTable (m : Model) (r : ResourceRef) : ResourceData → Model
  | .meshObject .. | .componentsObject .. => { m with objectLookup := m.objectLookup ++ [r] }
  | .baseMaterials _ => { m with baseMaterialLookup := m.baseMaterialLookup ++ [r] }
  | .colorGroup _ => { m with colorGroupLookup := m.colorGroupLookup ++ [r] }
  | .texture2D _ => { m with textureLookup := m.textureLookup ++ [r] }
  | .texture2DGroup .. => { m with texture2DGroupLookup := m.texture2DGroupLookup ++ [r] }
  | .compositeMaterials .. =>
    { m with compositeMaterialsLookup := m.compositeMaterialsLookup ++ [r] }
  | .multiPropertyGroup .. =>
    { m with multiPropertyGroupLookup := m.multiPropertyGroupLookup ++ [r] }
  | .sliceStack _ => { m with sliceStackLookup := m.sliceStackLookup ++ [r] }
  | .toolpath _ => m

/-- `addResource`. The quota it checks is one on metadata entries, which the model leaves out. -/
def addResource (m : Model) (r : ResourceRef) : Except Error Model :=
  match m.store[r]? with
  | none => .error .invalidParam
  | some res =>
    let id := res.resourceID.uniqueID
    if (m.resourceMap.find? id).isSome then .error .duplicateModelResource
    else
      .ok (addResourceToLookupTable
        { m with resourceMap := m.resourceMap.insert id r, resources := m.resources ++ [r] }
        r res.data)

/-- `findObject`: `none` for no such resource, an error for one that is no object. -/
def findObject (m : Model) (uniqueID : Nat) : Except Error (Option ResourceRef) :=
  match m.findResource uniqueID with
  | none => .ok none
  | some r =>
    match m.data? r with
    | some d => if d.isObject then .ok (some r) else .error .resourceTypeMismatch
    | none => .error .resourceTypeMismatch

/-- `clearAll`: the handler keeps its IDs and the texture group lookup its entries. -/
def clearAll (m : Model) : Model :=
  { m with
    objectLookup := []
    baseMaterialLookup := []
    colorGroupLookup := []
    buildItems := []
    resourceMap := .empty
    resources := []
    textureLookup := []
    sliceStackLookup := []
    compositeMaterialsLookup := []
    multiPropertyGroupLookup := [] }

/-- `addBuildItem`. -/
def addBuildItem (m : Model) (b : BuildItem) : Except Error Model :=
  if maxBuildItemCount ≤ m.buildItems.length then .error .invalidBuildItemCount
  else .ok { m with buildItems := m.buildItems ++ [b] }

/-- `removeBuildItem`, which throws where there is no such item: the first item with the handle
goes. -/
def removeBuildItem (m : Model) (handle : Nat) : Except Error Model :=
  if m.buildItems.any (fun b => b.handle = handle) then
    .ok { m with buildItems := m.buildItems.eraseP fun b => b.handle = handle }
  else .error .buildItemNotFound

/-- `createHandle`. -/
def createHandle (m : Model) : Except Error (Model × Nat) :=
  if maxHandle ≤ m.handleCounter then .error .handleOverflow
  else .ok ({ m with handleCounter := m.handleCounter + 1 }, m.handleCounter)

/-- `addAttachment`. -/
def addAttachment (m : Model) (path relationShipType : String) (stream : List UInt8) :
    Except Error Model :=
  let lowerPath := fnRemoveLeadingPathDelimiter path
  if (m.attachmentURIMap.find? lowerPath).isSome then .error .duplicateAttachmentPath
  else
    let a : Attachment := ⟨lowerPath, relationShipType, stream⟩
    .ok { m with
      attachments := m.attachments ++ [a]
      attachmentURIMap := m.attachmentURIMap.insert lowerPath a }

/-- `findModelAttachment`. -/
def findModelAttachment (m : Model) (path : String) : Option Attachment :=
  m.attachmentURIMap.find? (fnRemoveLeadingPathDelimiter path)

end Model

end NMR
