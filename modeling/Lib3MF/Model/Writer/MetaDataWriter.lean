import Lib3MF.Lib.SortedMap
import Lib3MF.Model.Classes.ModelConstants
import Lib3MF.Model.Reader.MetaDataReader
import Lib3MF.Model.Writer.ModelWriterNode
import Mathlib.Data.String.Basic

/-!
# Writing metadata

`RegisterMetaDataNameSpaces` gives every custom name space of the metadata a prefix before
anything is written; `writeToXML` declares them on the `model` element, and `writeMetaData` writes
a name with the prefix of its name space.
-/

namespace NMR

open Lib

/-- `CXmlWriter_Native::m_sNameSpaces`, from a name space to its prefix. -/
abbrev XmlNameSpaces := SortedMap String String

/-- `RegisterCustomNameSpace`. -/
def XmlNameSpaces.registerCustomNameSpace (nameSpaces : XmlNameSpaces)
    (nameSpace nsPrefix : String) : Except Error XmlNameSpaces :=
  if (nameSpaces.find? nameSpace).isSome then .error .xmlNamespaceAlreadyRegistered
  else if nameSpaces.entries.any fun e => decide (e.2 = nsPrefix) then
    .error .xmlPrefixAlreadyRegistered
  else .ok (nameSpaces.insert nameSpace nsPrefix)

/-- The metadata of a model: its own, that of the objects, in the order they are looked up and in
the order of `getSortedObjectList`, and that of the build items. -/
structure MetaDataOwners where
  model : ModelMetaDataGroup
  objects : List ModelMetaDataGroup
  sortedObjects : List ModelMetaDataGroup
  sorted : sortedObjects.Perm objects
  buildItems : List ModelMetaDataGroup

/-- The flags of `CModelWriterNode100_Model` that declare an extension. -/
structure ModelWriterFlags where
  writeMaterialExtension : Bool
  writeProductionExtension : Bool
  writeBeamLatticeExtension : Bool
  writeSliceExtension : Bool
  writeToolpaths : Bool
  writeLZMAExtension : Bool
  deriving DecidableEq

/-- The declarations of the extensions. -/
def ModelWriterFlags.attributes (flags : ModelWriterFlags) : List XmlAttribute :=
  (extensionPrefixes.zip [flags.writeMaterialExtension, flags.writeProductionExtension,
    flags.writeBeamLatticeExtension, flags.writeSliceExtension, flags.writeToolpaths,
    flags.writeLZMAExtension]).filterMap fun e =>
      if e.2 then some ⟨"xmlns", e.1.1, e.1.2⟩ else none

/-- The prefix for the next name space; `GetNamespaceCount` has 32 bits. -/
def nextPrefix (nameSpaces : XmlNameSpaces) : String :=
  "customXMLNS" ++ toString (nameSpaces.size % 2 ^ 32)

/-- `RegisterMetaDataGroupNameSpaces`. -/
def registerMetaDataGroupNameSpaces (nameSpaces : XmlNameSpaces) (group : ModelMetaDataGroup) :
    Except Error XmlNameSpaces :=
  group.metaData.foldlM (fun nameSpaces md =>
    if md.nameSpace = "" then .ok nameSpaces
    else match nameSpaces.find? md.nameSpace with
      | some _ => .ok nameSpaces
      | none => XmlNameSpaces.registerCustomNameSpace nameSpaces md.nameSpace
          (nextPrefix nameSpaces)) nameSpaces

/-- `RegisterMetaDataNameSpaces`. -/
def MetaDataOwners.registerMetaDataNameSpaces (m : MetaDataOwners) : Except Error XmlNameSpaces :=
  (m.model :: m.objects ++ m.buildItems).foldlM registerMetaDataGroupNameSpaces SortedMap.empty

/-- The name of an entry, in `writeMetaData`. -/
def writeMetaDataName (nameSpaces : XmlNameSpaces) (md : ModelMetaData) : Except Error String :=
  if md.nameSpace = "" then writeEscaped md.name
  else match nameSpaces.find? md.nameSpace with
    | none => .error .invalidBufferSize
    | some nsPrefix => writeEscaped (calculateKey nsPrefix md.name)

/-- The type of an entry, in `writeMetaData`. -/
def writeMetaDataType (md : ModelMetaData) : Except Error (List (String × String)) :=
  if md.type ≠ "xs:string" then do
    let type ← writeEscaped md.type
    .ok [("type", type)]
  else .ok []

/-- `writeMetaData`. -/
def writeMetaData (nameSpaces : XmlNameSpaces) (md : ModelMetaData) :
    Except Error MetaDataElement := do
  let name ← writeMetaDataName nameSpaces md
  let type ← writeMetaDataType md
  let preserve := if md.preserve then [("preserve", "1")] else []
  let text ← writeEscaped md.value
  .ok ⟨("name", name) :: type ++ preserve, text⟩

/-- `writeMetaDataGroup`: a group without entries is not written. -/
def writeMetaDataGroup (nameSpaces : XmlNameSpaces) (group : ModelMetaDataGroup) :
    Except Error (Option (List MetaDataElement)) :=
  if group.metaData = [] then .ok none
  else do
    let elements ← group.metaData.mapM (writeMetaData nameSpaces)
    .ok (some elements)

/-- The name space declarations of the `model` element, in `writeToXML`. -/
def writeNameSpaces (flags : ModelWriterFlags) (nameSpaces : XmlNameSpaces) :
    Except Error (List XmlAttribute) := do
  let custom ← nameSpaces.entries.mapM fun e => do
    let uri ← writeEscaped e.1
    .ok (⟨"xmlns", e.2, uri⟩ : XmlAttribute)
  .ok (⟨"", "xmlns", xmlns100⟩ :: flags.attributes ++ custom)

/-- `writeToXML`, with the prefixes that are registered. -/
def MetaDataOwners.write (m : MetaDataOwners) (flags : ModelWriterFlags)
    (nameSpaces : XmlNameSpaces) : Except Error MetaDataDocument := do
  let attributes ← writeNameSpaces flags nameSpaces
  let metaData ← m.model.metaData.mapM (writeMetaData nameSpaces)
  let objects ← m.sortedObjects.mapM (writeMetaDataGroup nameSpaces)
  let buildItems ← m.buildItems.mapM (writeMetaDataGroup nameSpaces)
  .ok ⟨attributes, metaData, objects, buildItems⟩

end NMR
