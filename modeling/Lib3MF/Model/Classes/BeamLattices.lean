import Lib3MF.API.Session
import Lib3MF.Lib.LastIndex
import Lib3MF.Model.Classes.ModelObject

/-!
# Clipping and representation meshes

A beam lattice refers to other mesh objects by their package resource IDs. The writer emits the
objects deepest first (`getSortedObjectList`), the setters of the API compare the positions of the
objects in the model, and the reader takes any object it finds under the ID.
`LatticeModel.step` is one call of a session that also sets these references.
-/

namespace NMR

open Lib

/-- `eModelBeamLatticeClipMode`. -/
inductive ClipMode where
  | none | inside | outside
  deriving DecidableEq

/-- The references of `CModelMeshBeamLatticeAttributes`: unique IDs, where there is one. -/
structure BeamLatticeAttributes where
  clipMode : ClipMode
  clippingMesh : Option Nat
  representationMesh : Option Nat
  deriving DecidableEq

/-- The attributes of a new mesh object. -/
def BeamLatticeAttributes.new : BeamLatticeAttributes := ⟨.none, none, none⟩

/-- `clearComponentDepthLevel`. -/
def ResourceData.clearComponentDepthLevel : ResourceData → ResourceData
  | .meshObject info mesh => .meshObject { info with componentDepthLevel := 0 } mesh
  | .componentsObject info cs => .componentsObject { info with componentDepthLevel := 0 } cs
  | d => d

/-- `getComponentDepthLevel`. -/
def ResourceData.componentDepthLevel : ResourceData → Nat
  | .meshObject info _ | .componentsObject info _ => info.componentDepthLevel
  | _ => 0

/-- `dynamic_cast<CModelMeshObject *>` succeeds. -/
def ResourceData.isMeshObject : ResourceData → Bool
  | .meshObject .. => true
  | _ => false

namespace Model

/-- `compareObjectsByResourceID`: 1 where the first object stands before the second. -/
def compareObjectsByResourceID (m : Model) (a b : ResourceRef) : Except Error Int :=
  match lastIndex (fun r => r = a) m.objectLookup, lastIndex (fun r => r = b) m.objectLookup with
  | some indexA, some indexB =>
    -- the indices are 32-bit ones with a sign, and -1 stands for none
    let indexA := Int.bmod indexA (2 ^ 32)
    let indexB := Int.bmod indexB (2 ^ 32)
    if indexA = -1 ∨ indexB = -1 then .error .invalidParam
    else if indexA < indexB then .ok 1
    else if indexB < indexA then .ok (-1)
    else .ok 0
  | _, _ => .error .invalidParam

/-- `clearComponentDepthLevel`. -/
def clearComponentDepthLevel (m : Model) (r : ResourceRef) : Model :=
  match m.data? r with
  | some d => m.setData r d.clearComponentDepthLevel
  | none => m

/-- `getComponentDepthLevel`. -/
def componentDepthLevel (m : Model) (r : ResourceRef) : Nat :=
  ((m.data? r).map (·.componentDepthLevel)).getD 0

/-- The objects of the model. -/
def objects (m : Model) : List ResourceRef :=
  m.objectLookup.filter fun r => (m.data? r).any (·.isObject)

/-- A mesh object. -/
def isMeshObject (m : Model) (r : ResourceRef) : Bool := (m.data? r).any (·.isMeshObject)

/-- The order of `getSortedObjectList`: by level, descending, then by unique ID. -/
def sortsBefore (m : Model) (a b : ResourceRef) : Bool :=
  if m.componentDepthLevel a = m.componentDepthLevel b then
    (m.uniqueID? a).getD 0 < (m.uniqueID? b).getD 0
  else m.componentDepthLevel b < m.componentDepthLevel a

/-- The levels `getSortedObjectList` sorts by. -/
def calculateComponentDepthLevels (fuel : Nat) (m : Model) : Option Model :=
  m.objects.foldlM (fun m r => calculateComponentDepthLevel fuel 1 r m)
    (m.objects.foldl clearComponentDepthLevel m)

/-- `getSortedObjectList`: the objects in the order they are written in. -/
def getSortedObjectList (fuel : Nat) (m : Model) : Option (List ResourceRef) := do
  let m' ← m.calculateComponentDepthLevels fuel
  return m.objects.mergeSort fun a b => ¬ m'.sortsBefore b a

end Model

/-- A model with the attributes of its beam lattices. -/
structure LatticeModel where
  model : Model
  attributes : SortedMap ResourceRef BeamLatticeAttributes

/-- The calls of a session with beam lattices. -/
inductive LatticeCall where
  | model (c : Call)
  /-- `SetClipping`. -/
  | setClipping (r : ResourceRef) (clipMode : ClipMode) (resourceID : Nat)
  /-- `SetRepresentation`. -/
  | setRepresentation (r : ResourceRef) (resourceID : Nat)
  /-- `handleBeamLatticeExtension`, with the IDs a file gives. -/
  | readBeamLattice (r : ResourceRef) (clipMode : ClipMode) (clippingMesh : Option Nat)
      (representationMesh : Option Nat)
  deriving DecidableEq

namespace LatticeModel

/-- `getBeamLatticeAttributes`. -/
def getBeamLatticeAttributes (s : LatticeModel) (r : ResourceRef) : BeamLatticeAttributes :=
  (s.attributes.find? r).getD .new

/-- Change the attributes of a mesh object. -/
def setAttributes (s : LatticeModel) (r : ResourceRef) (a : BeamLatticeAttributes) :
    LatticeModel :=
  { s with attributes := s.attributes.set r a }

/-- The mesh object a setter of the API accepts: one that stands before `r`, or `r`. -/
def findReference (s : LatticeModel) (r : ResourceRef) (resourceID : Nat) :
    Except Error ResourceRef := do
  match ← s.model.findObject resourceID with
  | none => throw .apiInvalidParam
  | some o =>
    if ¬ s.model.isMeshObject o then throw .apiInvalidParam
    if (← s.model.compareObjectsByResourceID o r) < 0 then throw .apiInvalidParam
    return o

/-- `CBeamLattice::SetClipping`. -/
def setClipping (s : LatticeModel) (r : ResourceRef) (clipMode : ClipMode) (resourceID : Nat) :
    Except Error LatticeModel :=
  if ¬ s.model.isMeshObject r then .error .apiInvalidParam
  else
    let a := s.getBeamLatticeAttributes r
    if clipMode = .none ∨ resourceID = 0 then
      .ok (s.setAttributes r { a with clipMode := clipMode, clippingMesh := none })
    else do
      let o ← s.findReference r resourceID
      return s.setAttributes r
        { a with clipMode := clipMode, clippingMesh := s.model.uniqueID? o }

/-- `CBeamLattice::SetRepresentation`. -/
def setRepresentation (s : LatticeModel) (r : ResourceRef) (resourceID : Nat) :
    Except Error LatticeModel :=
  if ¬ s.model.isMeshObject r then .error .apiInvalidParam
  else
    let a := s.getBeamLatticeAttributes r
    if resourceID = 0 then .ok (s.setAttributes r { a with representationMesh := none })
    else do
      let o ← s.findReference r resourceID
      return s.setAttributes r { a with representationMesh := s.model.uniqueID? o }

/-- The object a file refers to by an ID: `none` where the ID is not registered, `some none` where
it is that of no resource. -/
def readReference (s : LatticeModel) (id : Nat) : Except Error (Option (Option Nat)) :=
  match s.model.resourceHandler.findResourceIDByPath s.model.curPath id with
  | none => .ok none
  | some p => do
    match ← s.model.findObject p.uniqueID with
    | none => return some none
    | some _ => return some (some p.uniqueID)

/-- The clipping mesh of `handleBeamLatticeExtension`. -/
def readClippingMesh (s : LatticeModel) (a : BeamLatticeAttributes) (clipMode : ClipMode)
    (clippingMesh : Option Nat) : Except Error BeamLatticeAttributes :=
  match clippingMesh with
  | none => .ok a
  | some id => do
    match ← s.readReference id with
    | none => return a
    | some none => return { a with clippingMesh := none }
    | some (some uniqueID) => return { a with clippingMesh := some uniqueID, clipMode := clipMode }

/-- The representation mesh of `handleBeamLatticeExtension`. -/
def readRepresentationMesh (s : LatticeModel) (a : BeamLatticeAttributes)
    (representationMesh : Option Nat) : Except Error BeamLatticeAttributes :=
  match representationMesh with
  | none | some 0 => .ok a
  | some id => do
    match ← s.readReference id with
    | none => return a
    | some uniqueID => return { a with representationMesh := uniqueID }

/-- `handleBeamLatticeExtension`: an error in the second reference leaves the first one set. -/
def readBeamLattice (s : LatticeModel) (r : ResourceRef) (clipMode : ClipMode)
    (clippingMesh representationMesh : Option Nat) : LatticeModel × Option Error :=
  if ¬ s.model.isMeshObject r then (s, none)
  else
    match s.readClippingMesh (s.getBeamLatticeAttributes r) clipMode clippingMesh with
    | .error e => (s, some e)
    | .ok a =>
      match s.readRepresentationMesh a representationMesh with
      | .error e => (s.setAttributes r a, some e)
      | .ok a => (s.setAttributes r a, none)

/-- One call, with the error it throws. -/
def step (s : LatticeModel) : LatticeCall → LatticeModel × Option Error
  | .model c => let (m, e) := s.model.step c; ({ s with model := m }, e)
  | .setClipping r clipMode id => orThrow s (s.setClipping r clipMode id)
  | .setRepresentation r id => orThrow s (s.setRepresentation r id)
  | .readBeamLattice r clipMode c o => s.readBeamLattice r clipMode c o

/-- The state a call leaves. -/
def next (s : LatticeModel) (c : LatticeCall) : LatticeModel := (s.step c).1

end LatticeModel

end NMR
