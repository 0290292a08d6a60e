import Lib3MF.Common.CPagedVector

/-!
# Toolpath layers that are read

`CModelToolpathLayerReadData`: the points of all segments of a layer lie in one paged vector, and a
segment has the index of its first point and the number of its points. The number is set when the
segment is ended. The methods return the layer they leave, also where they throw.
-/

namespace NMR

open Lib

/-- `eModelToolpathSegmentType`. -/
inductive ModelToolpathSegmentType where
  | hatchSegment
  | loopSegment
  | polylineSegment
  deriving DecidableEq

/-- `TOOLPATHREADSEGMENT`. -/
structure ToolpathReadSegment where
  type : ModelToolpathSegmentType
  profileID : BitVec 32
  partID : BitVec 32
  startPoint : BitVec 32
  pointCount : BitVec 32
  deriving DecidableEq

/-- `CModelToolpathLayerReadData`, over the coordinates of the points; the UUID, the units and the
map of the UUIDs are not used by the methods here. -/
structure ToolpathLayerReadData (F : Type) where
  segments : CPagedVector ToolpathReadSegment
  points : CPagedVector (F × F)
  currentSegment : Option Pointer

namespace ToolpathLayerReadData

variable {F : Type}

/-- The constructor. -/
def new : ToolpathLayerReadData F := ⟨.new, .new, none⟩

/-- `beginSegment`; `fresh` is what is in the memory of a new block. -/
def beginSegment (fresh : Nat → ToolpathReadSegment) (type : ModelToolpathSegmentType)
    (profileID partID : BitVec 32) : EStateM (Fault Error) (ToolpathLayerReadData F) Unit := fun d =>
  if d.currentSegment.isSome then .error (.throws .layerSegmentAlreadyOpen) d
  else match d.segments.allocData fresh with
    | .error e => .error e d
    | .ok (segments, _, p) =>
      .ok () { d with
        segments := segments.write p ⟨type, profileID, partID, d.points.getCount, 0⟩
        currentSegment := some p }

/-- `endSegment`. -/
def endSegment : EStateM (Fault Error) (ToolpathLayerReadData F) Unit := fun d =>
  match d.currentSegment with
  | none => .error (.throws .layerSegmentNotOpen) d
  | some p =>
    match d.segments.deref p with
    | .error e => .error e d
    | .ok segment =>
      .ok () { d with
        segments := d.segments.write p
          { segment with pointCount := d.points.getCount - segment.startPoint }
        currentSegment := none }

/-- `addPoint`; `fresh` is what is in the memory of a new block. -/
def addPoint (fresh : Nat → F × F) (x y : F) :
    EStateM (Fault Error) (ToolpathLayerReadData F) Unit := fun d =>
  match d.currentSegment with
  | none => .error (.throws .layerSegmentNotOpen) d
  | some _ =>
    match d.points.allocData fresh with
    | .error e => .error e d
    | .ok (points, _, p) => .ok () { d with points := points.write p (x, y) }

/-- `getSegmentCount`. -/
def getSegmentCount (d : ToolpathLayerReadData F) : BitVec 32 := d.segments.getCount

/-- What is recorded of a segment. -/
def getSegment (d : ToolpathLayerReadData F) (segmentIndex : BitVec 32) :
    Checked Error ToolpathReadSegment := do
  let p ← d.segments.getData segmentIndex
  d.segments.deref p

/-- `getSegmentInfo`: the type, the profile, the part and the number of points. -/
def getSegmentInfo (d : ToolpathLayerReadData F) (segmentIndex : BitVec 32) :
    Checked Error (ModelToolpathSegmentType × BitVec 32 × BitVec 32 × BitVec 32) := do
  let segment ← d.getSegment segmentIndex
  .ok (segment.type, segment.profileID, segment.partID, segment.pointCount)

/-- `getSegmentPoint`. -/
def getSegmentPoint (d : ToolpathLayerReadData F) (segmentIndex pointIndex : BitVec 32) :
    Checked Error (F × F) := do
  let segment ← d.getSegment segmentIndex
  if segment.pointCount ≤ pointIndex then .error (.throws .invalidIndex)
  else do
    let p ← d.points.getData (segment.startPoint + pointIndex)
    d.points.deref p

end ToolpathLayerReadData

end NMR
