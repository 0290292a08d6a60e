import Lib3MF.Lib.Except
import Lib3MF.Lib.Run
import Lib3MF.Model.Classes.Merge

/-!
# Attachments and the resources that refer to them

The attachments of a model are shared: the list and the map of the model, the texture resources
and the objects with a thumbnail hold pointers to them, as do the handles of the API. A pointer is
the position of the attachment among all that were constructed. `SetPath` replaces an attachment
by a new one under the new path.

The streams are left out, and so are the resources but for the pointers they hold.
-/

namespace NMR

open Lib

/-- `PACKAGE_THUMBNAIL_RELATIONSHIP_TYPE`. -/
def packageThumbnailRelationshipType : String :=
  "http://schemas.openxmlformats.org/package/2006/relationships/metadata/thumbnail"

/-- A pointer to a `CModelAttachment`. -/
abbrev AttachmentRef := Nat

/-- `CModelAttachment`. -/
structure AttachmentInfo where
  pathURI : String
  relationShipType : String
  deriving DecidableEq

/-- The attachments of a `CModel`; `textures` and `thumbnails` are the pointers of the texture
resources and of the objects. -/
structure Attachments where
  store : List AttachmentInfo
  attachments : List AttachmentRef
  attachmentURIMap : SortedMap String AttachmentRef
  packageThumbnail : Option AttachmentRef
  textures : List AttachmentRef
  thumbnails : List (Option AttachmentRef)
  deriving DecidableEq

/-- The calls. A handle of the API is the pointer it holds. -/
inductive AttachmentCall where
  | addAttachment (uri relationShipType : String)
  | removeAttachment (a : AttachmentRef)
  | setPath (a : AttachmentRef) (path : String)
  | createPackageThumbnail
  | removePackageThumbnail
  | addTexture2DFromAttachment (a : AttachmentRef)
  /-- `SetAttachment` of texture `i`. -/
  | setAttachment (i : Nat) (a : AttachmentRef)
  | addObject
  /-- `SetAttachmentAsThumbnail` of object `i`. -/
  | setAttachmentAsThumbnail (i : Nat) (a : AttachmentRef)
  | clearThumbnailAttachment (i : Nat)
  deriving DecidableEq

namespace Attachments

/-- A new model. -/
def new : Attachments := ⟨[], [], .empty, none, [], []⟩

/-- `getPathURI`. -/
def path? (s : Attachments) (a : AttachmentRef) : Option String :=
  (s.store[a]?).map (·.pathURI)

/-- `findModelAttachment`. -/
def findModelAttachment (s : Attachments) (path : String) : Option AttachmentRef :=
  s.attachmentURIMap.find? (fnRemoveLeadingPathDelimiter path)

/-- `findModelAttachment`, at the path of a handle. -/
def findByHandle (s : Attachments) (a : AttachmentRef) : Option AttachmentRef :=
  (s.path? a).bind s.findModelAttachment

/-- `addAttachment`. -/
def addAttachment (s : Attachments) (path relationShipType : String) : Except Error Attachments :=
  let lowerPath := fnRemoveLeadingPathDelimiter path
  if (s.attachmentURIMap.find? lowerPath).isSome then .error .duplicateAttachmentPath
  else .ok { s with
    store := s.store ++ [⟨lowerPath, relationShipType⟩]
    attachments := s.attachments ++ [s.store.length]
    attachmentURIMap := s.attachmentURIMap.insert lowerPath s.store.length }

/-- `CModel::removeAttachment`: nothing, when there is none. -/
def removeByPath (s : Attachments) (path : String) : Attachments :=
  match s.findModelAttachment path with
  | none => s
  | some a => { s with
      attachments := s.attachments.erase a
      attachmentURIMap := s.attachmentURIMap.erase (fnRemoveLeadingPathDelimiter path) }

/-- `addPackageThumbnail`, with a path: only if there is none. -/
def addPackageThumbnail (s : Attachments) (path : String) : Attachments :=
  if s.packageThumbnail.isSome then s
  else { s with
    store := s.store ++ [⟨path, packageThumbnailRelationshipType⟩]
    packageThumbnail := some s.store.length }

/-- `SetPath`. When `addAttachment` throws, the attachment is removed already. -/
def setPath (s : Attachments) (a : AttachmentRef) (path : String) : Attachments × Option Error :=
  match s.store[a]? with
  | none => (s, some .invalidParam)
  | some info =>
    if s.packageThumbnail = some a then
      (addPackageThumbnail { s with packageThumbnail := none } path, none)
    else
      let s := s.removeByPath info.pathURI
      match s.addAttachment path info.relationShipType with
      | .error e => (s, some e)
      | .ok s => (s, none)

/-- `CModelTexture2DResource::make` and `setAttachment`: what they require of the attachment. -/
def checkTexture (s : Attachments) (a : AttachmentRef) : Except Error Unit :=
  match s.store[a]? with
  | none => .error .invalidTexture
  | some info =>
    if info.relationShipType ≠ packageTextureRelationshipType then
      .error .invalidRelationshipTypeForTexture
    else .ok ()

/-- `AddTexture2DFromAttachment`. -/
def addTexture2DFromAttachment (s : Attachments) (a : AttachmentRef) :
    Except Error Attachments :=
  match s.findByHandle a with
  | none => .error .invalidTexture
  | some b => do
    s.checkTexture b
    return { s with textures := s.textures ++ [b] }

/-- `SetAttachment` of a texture. A null pointer is dereferenced, which the model has as an
error. -/
def setAttachment (s : Attachments) (i : Nat) (a : AttachmentRef) : Except Error Attachments :=
  match s.findByHandle a with
  | none => .error .invalidPointer
  | some b => do
    s.checkTexture b
    return { s with textures := s.textures.set i b }

/-- `SetAttachmentAsThumbnail`, with `setThumbnailAttachment`. -/
def setAttachmentAsThumbnail (s : Attachments) (i : Nat) (a : AttachmentRef) :
    Except Error Attachments :=
  match s.findByHandle a with
  | none => .error .apiAttachmentNotFound
  | some b =>
    match s.store[b]? with
    | none => .error .invalidParam
    | some info =>
      if info.relationShipType ≠ packageThumbnailRelationshipType then .error .noTextureStream
      else .ok { s with thumbnails := s.thumbnails.set i (some b) }

/-- One call, with the error it throws. -/
def step (s : Attachments) : AttachmentCall → Attachments × Option Error
  | .addAttachment uri type => orThrow s (s.addAttachment uri type)
  | .removeAttachment a =>
    match s.path? a with
    | none => (s, some .invalidParam)
    | some path => (s.removeByPath path, none)
  | .setPath a path => s.setPath a path
  | .createPackageThumbnail => (s.addPackageThumbnail "/Metadata/thumbnail.png", none)
  | .removePackageThumbnail => ({ s with packageThumbnail := none }, none)
  | .addTexture2DFromAttachment a => orThrow s (s.addTexture2DFromAttachment a)
  | .setAttachment i a => orThrow s (s.setAttachment i a)
  | .addObject => ({ s with thumbnails := s.thumbnails ++ [none] }, none)
  | .setAttachmentAsThumbnail i a => orThrow s (s.setAttachmentAsThumbnail i a)
  | .clearThumbnailAttachment i => ({ s with thumbnails := s.thumbnails.set i none }, none)

/-- The state a call leaves. -/
def next (s : Attachments) (c : AttachmentCall) : Attachments := (s.step c).1

end Attachments

end NMR
