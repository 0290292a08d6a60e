import Mathlib.Logic.Function.Basic
import Lib3MF.API.MeshObject
import Lib3MF.Lib.Arrays
import Lib3MF.Lib.Checked

/-!
# Meshes with several informations

`CMeshInformationContainer` with the memory of its data blocks, which hold records where the source
has their bytes, `CMeshInformation_Properties`, `CMeshInformationHandler` and the functions of
`CMesh` that use it. A pointer to an information is its place among those made for the handler. The
default data of an information is left out. A function that throws leaves what it has done.
-/

namespace NMR

open Lib

/-- `MESHINFORMATIONCOUNTER_BUFFERSIZE`. -/
def meshInformationCounterBufferSize : BitVec 32 := 256

/-- `MESHINFORMATION_MAXINTERNALID`. -/
def meshInformationMaxInternalID : BitVec 64 := 9223372036854775808

/-- `sizeof(MESHINFORMATION_PROPERTIES)`. -/
def sizeOfMeshInformationProperties : BitVec 32 := 16

/-- `eMeshInformationType`. -/
inductive MeshInformationType where
  | emiAbstract
  | emiProperties
  deriving DecidableEq

/-! ## Containers -/

/-- `CMeshInformationContainer`. -/
structure CMeshInformationContainer where
  faceCount : BitVec 32
  recordSize : BitVec 32
  currentDataBlock : Option Nat
  dataBlocks : List Nat
  memory : Arrays FaceProperties

namespace CMeshInformationContainer

/-- A new data block, filled with zeros. -/
def newBlock (c : CMeshInformationContainer) : CMeshInformationContainer :=
  let r := c.memory.new
    ((List.range meshInformationCounterBufferSize.toNat).map fun _ => FaceProperties.invalid)
  { c with currentDataBlock := some r.2, dataBlocks := c.dataBlocks ++ [r.2], memory := r.1 }

/-- `addFaceData`. -/
def addFaceData (newFaceCount : BitVec 32) :
    EStateM (Fault Error) CMeshInformationContainer Pointer := fun c =>
  if c.recordSize = 0 then .error (.throws .invalidRecordSize) c
  else
    let idx := c.faceCount % meshInformationCounterBufferSize
    let d := if idx = 0 then c.newBlock else c
    match d.currentDataBlock with
    | none => .error (.throws .invalidMeshInformationData) d
    | some block =>
      let d : CMeshInformationContainer := { d with faceCount := d.faceCount + 1 }
      if d.faceCount = newFaceCount then .ok ⟨block, idx.toNat⟩ d
      else .error (.throws .meshInformationCountMismatch) d

/-- `getFaceData`. -/
def getFaceData (c : CMeshInformationContainer) (idx : BitVec 32) : Checked Error Pointer :=
  if c.faceCount ≤ idx then .error (.throws .invalidMeshInformationIndex)
  else do
    let block ← elementAt c.dataBlocks (idx / meshInformationCounterBufferSize).toNat
    .ok ⟨block, (idx % meshInformationCounterBufferSize).toNat⟩

/-- The constructor with a record size. -/
def create (currentFaceCount : Nat) (recordSize : BitVec 32) :
    Checked Error CMeshInformationContainer :=
  (List.range currentFaceCount).foldlM (fun c i =>
    match addFaceData (BitVec.ofNat 32 (i + 1)) c with
    | .ok _ c => .ok c
    | .error e _ => .error e) ⟨0, recordSize, none, [], .empty⟩

end CMeshInformationContainer

/-! ## Informations -/

/-- `CMeshInformation`: its type, its container and what `CMeshInformation_Properties` does with
them. No function reads `written`, what was last written for a face. -/
structure CMeshInformation where
  type : MeshInformationType
  container : CMeshInformationContainer
  internalID : BitVec 64
  written : Nat → Option FaceProperties

namespace CMeshInformation

/-- `getFaceData`. -/
def getFaceData (o : CMeshInformation) (faceIndex : BitVec 32) : Checked Error Pointer :=
  o.container.getFaceData faceIndex

/-- The record a pointer points to. -/
def deref (o : CMeshInformation) (p : Pointer) : Checked Error FaceProperties :=
  match o.container.memory.read p with
  | some r => .ok r
  | none => .error .outOfRange

/-- A record is written through the pointer to that of a face. -/
def writeFace (o : CMeshInformation) (face : Nat) (p : Pointer) (r : FaceProperties) :
    CMeshInformation :=
  { o with
    container := { o.container with memory := o.container.memory.write p r }
    written := Function.update o.written face (some r) }

/-- The record of a face is written. -/
def setFaceData (faceIndex : BitVec 32) (r : FaceProperties) :
    EStateM (Fault Error) CMeshInformation Unit := fun o =>
  match o.getFaceData faceIndex with
  | .error e => .error e o
  | .ok p => .ok () (o.writeFace faceIndex.toNat p r)

/-- `addFaceData`, and `invalidateFace` of the new record. -/
def addFace (newFaceCount : BitVec 32) : EStateM (Fault Error) CMeshInformation Unit := fun o =>
  match CMeshInformationContainer.addFaceData newFaceCount o.container with
  | .error e c => .error e { o with container := c }
  | .ok p c =>
    .ok () (writeFace { o with container := c } o.container.faceCount.toNat p .invalid)

/-- The constructor with a face count. -/
def create (type : MeshInformationType) (currentFaceCount : Nat) :
    Checked Error CMeshInformation := do
  let container ←
    CMeshInformationContainer.create currentFaceCount sizeOfMeshInformationProperties
  (List.range currentFaceCount).foldlM (fun o i =>
    match setFaceData (BitVec.ofNat 32 i) .invalid o with
    | .ok _ o => .ok o
    | .error e _ => .error e) ⟨type, container, 0, fun _ => none⟩

/-- `cloneInstance`. -/
def cloneInstance (o : CMeshInformation) (currentFaceCount : Nat) :
    Checked Error CMeshInformation := create o.type currentFaceCount

/-- `cloneFaceInfosFrom`. -/
def cloneFaceInfosFrom (faceIndex : BitVec 32) (other : CMeshInformation)
    (otherFaceIndex : BitVec 32) : EStateM (Fault Error) CMeshInformation Unit := fun o =>
  match o.getFaceData faceIndex with
  | .error e => .error e o
  | .ok p =>
    match other.getFaceData otherFaceIndex >>= other.deref with
    | .error e => .error e o
    | .ok r => .ok () (o.writeFace faceIndex.toNat p r)

end CMeshInformation

/-! ## The handler -/

/-- `CMeshInformationHandler`, with the informations made for it. -/
structure CMeshInformationHandler where
  objects : List CMeshInformation
  informations : List Nat
  lookup : MeshInformationType → Option Nat
  internalIDCounter : BitVec 64

namespace CMeshInformationHandler

/-- The constructor. -/
def new : CMeshInformationHandler := ⟨[], [], fun _ => none, 1⟩

/-- The type of an information. -/
def typeOf (h : CMeshInformationHandler) (a : Nat) : Option MeshInformationType :=
  (h.objects[a]?).map (·.type)

/-- A function of an information. -/
def onInformation (a : Nat) (x : EStateM (Fault Error) CMeshInformation Unit) :
    EStateM (Fault Error) CMeshInformationHandler Unit := fun h =>
  match h.objects[a]? with
  | none => .error .outOfRange h
  | some o =>
    match x o with
    | .ok _ o => .ok () { h with objects := h.objects.set a o }
    | .error e o => .error e { h with objects := h.objects.set a o }

/-- `addInformation` of a new information. -/
def addInformation (o : CMeshInformation) :
    EStateM (Fault Error) CMeshInformationHandler Unit := fun h =>
  let h : CMeshInformationHandler :=
    { objects := h.objects ++ [{ o with internalID := h.internalIDCounter }]
      informations := h.informations ++ [h.objects.length]
      lookup := Function.update h.lookup o.type (some h.objects.length)
      internalIDCounter := h.internalIDCounter + 1 }
  if meshInformationMaxInternalID < h.internalIDCounter then .error (.throws .handleOverflow) h
  else .ok () h

/-- `addFace`. -/
def addFace (newFaceCount : BitVec 32) : EStateM (Fault Error) CMeshInformationHandler Unit :=
  fun h => h.informations.forM (fun a => onInformation a (CMeshInformation.addFace newFaceCount)) h

/-- `getInformationByType`. -/
def getInformationByType (h : CMeshInformationHandler) (type : MeshInformationType) : Option Nat :=
  h.lookup type

/-- One type in `addInfoTableFrom`; `mergeInformationFrom` does nothing. -/
def addInfoOfType (other : CMeshInformationHandler) (currentFaceCount : Nat)
    (type : MeshInformationType) : EStateM (Fault Error) CMeshInformationHandler Unit := fun h =>
  match other.lookup type, h.lookup type with
  | some a, none =>
    match elementAt other.objects a >>= fun o => o.cloneInstance currentFaceCount with
    | .ok o => addInformation o h
    | .error e => .error e h
  | _, _ => .ok () h

/-- `addInfoTableFrom`. -/
def addInfoTableFrom (other : CMeshInformationHandler) (currentFaceCount : Nat) :
    EStateM (Fault Error) CMeshInformationHandler Unit :=
  [.emiAbstract, .emiProperties].forM (addInfoOfType other currentFaceCount)

/-- One type in `cloneFaceInfosFrom`. -/
def cloneFaceInfosOfType (faceIndex : BitVec 32) (other : CMeshInformationHandler)
    (otherFaceIndex : BitVec 32) (type : MeshInformationType) :
    EStateM (Fault Error) CMeshInformationHandler Unit := fun h =>
  match other.lookup type, h.lookup type with
  | some b, some a =>
    match elementAt other.objects b with
    | .ok o => onInformation a (CMeshInformation.cloneFaceInfosFrom faceIndex o otherFaceIndex) h
    | .error e => .error e h
  | _, _ => .ok () h

/-- `cloneFaceInfosFrom`. -/
def cloneFaceInfosFrom (faceIndex : BitVec 32) (other : CMeshInformationHandler)
    (otherFaceIndex : BitVec 32) : EStateM (Fault Error) CMeshInformationHandler Unit :=
  [.emiAbstract, .emiProperties].forM (cloneFaceInfosOfType faceIndex other otherFaceIndex)

/-- `getInformationIndexed`, and the record of a face written. -/
def setFaceData (index : Nat) (faceIndex : BitVec 32) (r : FaceProperties) :
    EStateM (Fault Error) CMeshInformationHandler Unit := fun h =>
  match h.informations[index]? with
  | none => .error (.throws .invalidMeshInformationIndex) h
  | some a => onInformation a (CMeshInformation.setFaceData faceIndex r) h

/-- `removeInformation`. -/
def removeInformation (type : MeshInformationType) :
    EStateM (Fault Error) CMeshInformationHandler Unit := fun h =>
  .ok () { h with
    informations := h.informations.filter fun a => h.typeOf a ≠ some type
    lookup := Function.update h.lookup type none }

/-- `removeInformationIndexed`. -/
def removeInformationIndexed (index : Nat) :
    EStateM (Fault Error) CMeshInformationHandler Unit := fun h =>
  match h.informations[index]? with
  | none => .error (.throws .invalidIndex) h
  | some a =>
    match h.typeOf a with
    | none => .error .outOfRange h
    | some type => .ok () { h with
        informations := h.informations.eraseIdx index
        lookup := if h.lookup type = some a then Function.update h.lookup type none
          else h.lookup }

end CMeshInformationHandler

end NMR
