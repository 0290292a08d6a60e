import Lib3MF.Lib.Acyclic
import Lib3MF.Common.ChunkedBinaryStream.Reader
import Lib3MF.Model.Classes.Attachments
import Lib3MF.Model.Reader.ModelReaderWarnings

/-!
# The parts of a package

`CModelReader_3MF_Native::extract3MFOPCPackage` copies the parts that relationships lead to into a
new model: textures, custom data and binary streams, and the parts that start part relationships
lead to as production attachments, whose list `readProductionAttachmentModels` reads from its end;
the root part is read last. A URI is resolved against the directory of the root part, whatever part
it stands in; a part is found under its URI without leading delimiters.

`createPart` opens a part once, and the stream of an entry of the archive cannot seek: what copies
it leaves nothing for the next, so a second copy is empty. Of the model parts it is followed which
of them the XML reader gets the bytes of, and in what order; the copies fit the memory, and neither
a progress callback nor the content of a part ends the reading.
-/

namespace NMR

open Lib

/-- `COpcPackageRelationship`. -/
structure OpcPackageRelationship where
  type : String
  targetPartURI : String
  deriving DecidableEq

/-- `COpcPackagePart`, as it is opened: the relationships in the order of `m_Relationships`, and the
bytes of its stream. -/
structure OpcPackagePart where
  relationships : List OpcPackageRelationship
  content : List UInt8
  deriving DecidableEq

/-- What `COpcPackageReader` finds in an archive. -/
structure OpcPackage where
  rootRelationships : List OpcPackageRelationship
  parts : SortedMap String OpcPackagePart

/-- `CModelReader_3MF_Native`: the relationships whose targets are custom data, whether there is a
collection of binary streams, and the warnings. -/
structure ModelReader3MF where
  relationsToRead : List String
  allowBinaryStreams : Bool
  criticalWarningLevel : ModelReaderWarningLevel

/-- `PACKAGE_START_PART_RELATIONSHIP_TYPE`. -/
def packageStartPartRelationshipType : String :=
  "http://schemas.microsoft.com/3dmanufacturing/2013/01/3dmodel"

/-- `PACKAGE_ZCOMPRESSION_RELATIONSHIP_TYPE`. -/
def packageZCompressionRelationshipType : String :=
  "http://schemas.microsoft.com/3dmanufacturing/2019/05/zcompression"

/-- `fnStartsWithPathDelimiter`. -/
def fnStartsWithPathDelimiter (path : String) : Bool :=
  match path.toList.head? with
  | some c => c = '/' ∨ c = '\\'
  | none => false

/-- `fnExtractFileDir`: up to the last delimiter. -/
def fnExtractFileDir (path : String) : String :=
  String.ofList (path.toList.reverse.dropWhile fun c => ¬ (c = '/' ∨ c = '\\')).reverse

/-- `moveItemToBack`. -/
def moveItemToBack {α : Type} (v : List α) (itemIndex : Nat) : List α :=
  v.take itemIndex ++ v.drop (itemIndex + 1) ++ (v[itemIndex]?).toList

/-- What the extraction changes: the parts whose stream was copied, the attachments of the model
and its production attachments, which are in `m_ProductionAttachments` under their paths and in
`m_ProductionAttachmentURIMap` with their streams. -/
structure PackageExtraction where
  copied : List String
  attachments : List String
  productionAttachments : List String
  productionAttachmentURIMap : SortedMap String (List UInt8)

namespace PackageExtraction

/-- Before the extraction, into a new model. -/
def new : PackageExtraction := ⟨[], [], [], .empty⟩

/-- `findModelAttachment`. -/
def findModelAttachment (s : PackageExtraction) (path : String) : Bool :=
  decide (fnRemoveLeadingPathDelimiter path ∈ s.attachments)

/-- `addAttachment`. -/
def addAttachment (s : PackageExtraction) (path : String) : Except Error PackageExtraction :=
  if fnRemoveLeadingPathDelimiter path ∈ s.attachments then .error .duplicateAttachmentPath
  else .ok { s with attachments := s.attachments ++ [fnRemoveLeadingPathDelimiter path] }

/-- `findProductionModelAttachment`: the stream of the attachment. -/
def findProductionModelAttachment (s : PackageExtraction) (path : String) : Option (List UInt8) :=
  s.productionAttachmentURIMap.find? path

/-- `addProductionAttachment`. -/
def addProductionAttachment (s : PackageExtraction) (path : String) (stream : List UInt8)
    (forceUnique : Bool) : Except Error PackageExtraction :=
  if (s.productionAttachmentURIMap.find? path).isSome then
    if forceUnique then .error .duplicateAttachmentPath
    else .ok { s with
      productionAttachments :=
        moveItemToBack s.productionAttachments (s.productionAttachments.idxOf path) }
  else .ok { s with
    productionAttachments := s.productionAttachments ++ [path]
    productionAttachmentURIMap := s.productionAttachmentURIMap.insert path stream }

/-- What the stream of a part still has. -/
def remaining (s : PackageExtraction) (name : String) (part : OpcPackagePart) : List UInt8 :=
  if name ∈ s.copied then [] else part.content

/-- `copyToMemory` of the stream of the part. The size it compares is that of the entry. -/
def copyToMemory (s : PackageExtraction) (name : String) (part : OpcPackagePart) :
    Except Error (List UInt8 × PackageExtraction) :=
  if importStreamMaxMemStreamSize < part.content.length then .error .invalidBufferSize
  else .ok (s.remaining name part, { s with copied := s.copied ++ [name] })

end PackageExtraction

namespace OpcPackage

/-- `findRootRelation`, of a relationship that has to be unique. -/
def findRootRelation (p : OpcPackage) (reader : ModelReader3MF) (type : String) :
    Except Error (Option OpcPackageRelationship) :=
  match p.rootRelationships.filter fun r => r.type = type with
  | [] => .ok none
  | [r] => .ok (some r)
  | r :: _ :: _ => do
    addWarning reader.criticalWarningLevel .opcRelationshipNotUnique .invalidOptionalValue
    return some r

/-- `createPart`. -/
def createPart (p : OpcPackage) (path : String) : Except Error OpcPackagePart :=
  match p.parts.find? (fnRemoveLeadingPathDelimiter path) with
  | none => .error .couldNotCreateOPCPart
  | some part =>
    if fnRemoveLeadingPathDelimiter path = "" then .error .invalidOPCPartURI else .ok part

/-- `sTargetPartURI` of the root part. -/
def startPart (p : OpcPackage) : String :=
  match p.rootRelationships.find? fun r => r.type = packageStartPartRelationshipType with
  | some r => r.targetPartURI
  | none => ""

/-- The root model part. -/
def rootPart (p : OpcPackage) : String := fnRemoveLeadingPathDelimiter p.startPart

/-- The URI a relationship of a part leads to. -/
def targetURI (p : OpcPackage) (r : OpcPackageRelationship) : String :=
  if fnStartsWithPathDelimiter r.targetPartURI then r.targetPartURI
  else fnExtractFileDir p.startPart ++ r.targetPartURI

variable (p : OpcPackage) (reader : ModelReader3MF)

/-- The warning about an empty stream. -/
def checkStream (stream : List UInt8) : Except Error Unit :=
  if stream = [] then
    addWarning reader.criticalWarningLevel .importStreamIsEmpty .missingMandatoryValue
  else .ok ()

/-! ## What is done with the target of a relationship -/

/-- A texture, or a thumbnail of an object. -/
def extractTexture (s : PackageExtraction) (uri : String) : Except Error PackageExtraction :=
  if s.findModelAttachment uri then .ok s
  else do
    let part ← p.createPart uri
    let (stream, s) ← s.copyToMemory (fnRemoveLeadingPathDelimiter uri) part
    checkStream reader stream
    s.addAttachment uri

/-- Custom data. That the stream is too large is caught. -/
def extractCustomData (s : PackageExtraction) (uri : String) : Except Error PackageExtraction := do
  let part ← p.createPart uri
  match s.copyToMemory (fnRemoveLeadingPathDelimiter uri) part with
  | .error e =>
    if e = .invalidBufferSize then
      addWarning reader.criticalWarningLevel .attachmentTooLarge .missingMandatoryValue
      return s
    else throw e
  | .ok (stream, s) =>
    checkStream reader stream
    s.addAttachment uri

/-- A model part. -/
def extractModelData (s : PackageExtraction) (uri : String) : Except Error PackageExtraction := do
  let part ← p.createPart uri
  match s.findProductionModelAttachment uri with
  | some stream => s.addProductionAttachment uri stream false
  | none =>
    let (stream, s) ← s.copyToMemory (fnRemoveLeadingPathDelimiter uri) part
    checkStream reader stream
    s.addProductionAttachment uri stream true

/-- A binary stream. What is registered is left out: no model part depends on it. -/
def extractBinaryStream (s : PackageExtraction) (uri : String) : Except Error PackageExtraction := do
  let part ← p.createPart uri
  let (stream, s) ← s.copyToMemory (fnRemoveLeadingPathDelimiter uri) part
  let _ ← ChunkedBinaryStreamReader.readHeader stream
  return s

/-- The thumbnail of the package. -/
def extractThumbnail (s : PackageExtraction) (uri : String) : Except Error PackageExtraction := do
  let part ← p.createPart uri
  let (_, s) ← s.copyToMemory (fnRemoveLeadingPathDelimiter uri) part
  return s

/-! ## The relationships of a part -/

/-- `extractTexturesFromRelationships`. -/
def extractTexturesFromRelationships (part : OpcPackagePart) (s : PackageExtraction) :
    Except Error PackageExtraction :=
  part.relationships.foldlM (fun s r =>
    if r.type = packageTextureRelationshipType ∨ r.type = packageThumbnailRelationshipType then
      p.extractTexture reader s (p.targetURI r)
    else .ok s) s

/-- `extractCustomDataFromRelationships`. -/
def extractCustomDataFromRelationships (part : OpcPackagePart) (s : PackageExtraction) :
    Except Error PackageExtraction :=
  part.relationships.foldlM (fun s r =>
    if r.type ∈ reader.relationsToRead then p.extractCustomData reader s (p.targetURI r)
    else .ok s) s

/-- `extractModelDataFromRelationships`. -/
def extractModelDataFromRelationships (part : OpcPackagePart) (s : PackageExtraction) :
    Except Error PackageExtraction :=
  part.relationships.foldlM (fun s r =>
    if r.type = packageStartPartRelationshipType then p.extractModelData reader s (p.targetURI r)
    else .ok s) s

/-- `extractBinaryStreamsFromRelationships`. -/
def extractBinaryStreamsFromRelationships (part : OpcPackagePart) (s : PackageExtraction) :
    Except Error PackageExtraction :=
  part.relationships.foldlM (fun s r =>
    if reader.allowBinaryStreams = true ∧ r.type = packageZCompressionRelationshipType then
      p.extractBinaryStream s (p.targetURI r)
    else .ok s) s

/-! ## The package -/

/-- One pass of the loop of `extract3MFOPCPackage`. -/
def extractProductionAttachment (s : PackageExtraction) (i : Nat) :
    Except Error PackageExtraction :=
  match s.productionAttachments[i]? with
  | none => .error .invalidIndex
  | some pathURI => do
    let part ← p.createPart pathURI
    let s ← p.extractModelDataFromRelationships reader part s
    p.extractTexturesFromRelationships reader part s

/-- What `extract3MFOPCPackage` extracts at the root part. -/
def extractRootPart (part : OpcPackagePart) : Except Error PackageExtraction := do
  let s ← p.extractTexturesFromRelationships reader part .new
  let s ← p.extractCustomDataFromRelationships reader part s
  let s ← p.extractModelDataFromRelationships reader part s
  p.extractBinaryStreamsFromRelationships reader part s

/-- What it extracts at the root part and the production attachments. -/
def extractParts (part : OpcPackagePart) : Except Error PackageExtraction := do
  let s ← p.extractRootPart reader part
  (List.range (s.productionAttachments.length % 2 ^ 32)).foldlM
    (p.extractProductionAttachment reader) s

/-- The thumbnail of the package, where it has one. -/
def extractPackageThumbnail (s : PackageExtraction) : Except Error PackageExtraction := do
  match ← p.findRootRelation reader packageThumbnailRelationshipType with
  | none => return s
  | some r => p.extractThumbnail s r.targetPartURI

/-- `extract3MFOPCPackage`, with the part whose stream it returns. -/
def extract3MFOPCPackage : Except Error (OpcPackagePart × PackageExtraction) := do
  match ← p.findRootRelation reader packageStartPartRelationshipType with
  | none => throw .opcRelationshipSetReadFailed
  | some r =>
    let part ← p.createPart r.targetPartURI
    let s ← p.extractParts reader part
    let s ← p.extractPackageThumbnail reader s
    return (part, s)

end OpcPackage

/-- The passes of the loop of `readProductionAttachmentModels`: its index is a 32-bit one with a
sign, and starts at the count less one. -/
def readCount (attachments : List String) : Nat :=
  (Int.bmod ((attachments.length : Int) - 1) (2 ^ 32) + 1).toNat

/-- `readProductionAttachmentModels`: the attachments whose bytes the XML reader gets, in their
order. The stream of the others is empty. -/
def PackageExtraction.readProductionAttachmentModels (s : PackageExtraction) : List String :=
  (s.productionAttachments.take (readCount s.productionAttachments)).reverse.filter fun path =>
    (s.findProductionModelAttachment path).getD [] ≠ []

/-- `readStream`: the URIs of the parts whose bytes the XML reader gets, in their order. -/
def OpcPackage.readStream (p : OpcPackage) (reader : ModelReader3MF) : Except Error (List String) := do
  let (part, s) ← p.extract3MFOPCPackage reader
  if s.remaining p.rootPart part = [] then throw .noModelNode
  return s.readProductionAttachmentModels ++ [p.startPart]

namespace OpcPackage

/-- The URIs that the start part relationships of a part lead to. -/
def targets (p : OpcPackage) (name : String) : List String :=
  match p.parts.find? name with
  | none => []
  | some part =>
    (part.relationships.filter fun r => r.type = packageStartPartRelationshipType).map p.targetURI

/-- A part has a start part relationship to another. -/
def Refers (p : OpcPackage) (a b : String) : Prop :=
  ∃ uri ∈ p.targets a, fnRemoveLeadingPathDelimiter uri = b

end OpcPackage

/-- A package without a cycle of start part relationships. -/
structure AcyclicPackage extends OpcPackage where
  acyclic : Acyclic toOpcPackage.Refers

end NMR
