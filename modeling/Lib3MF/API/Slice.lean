import Lib3MF.Lib.State
import Lib3MF.Common.Exception
import Lib3MF.Model.Classes.ModelTypes

/-!
# The polygons of a slice

`AddPolygon` and `SetPolygonIndices` over `CSlice` of the model, which names a polygon by 32 bits
and checks each index as it is added. A call that throws keeps what it has written.
-/

namespace NMR.Slice

open Lib

/-- Functions that keep what they have written when they throw. -/
abbrev SliceM := EStateM Error Slice

/-- `beginPolygon`: the index of a new polygon, in 32 bits. -/
def beginPolygon : SliceM Nat := fun s =>
  .ok (s.polygons.length % 2 ^ 32) { s with polygons := s.polygons ++ [[]] }

/-- `clearPolygon`. -/
def clearPolygon (polygonIndex : Nat) : SliceM Unit := fun s =>
  if s.polygons.length ≤ polygonIndex then .error .invalidIndex s
  else .ok () { s with polygons := s.polygons.set polygonIndex [] }

/-- `addPolygonIndex`. -/
def addPolygonIndex (polygonIndex index : Nat) : SliceM Unit := fun s =>
  match s.polygons[polygonIndex]? with
  | none => .error .invalidIndex s
  | some polygon =>
    if s.vertices.length ≤ index then .error .invalidSliceSegmentVertexIndex s
    else if polygon.getLast? = some index then .error .invalidSliceSegmentVertexIndex s
    else .ok () { s with polygons := s.polygons.set polygonIndex (polygon ++ [index]) }

/-- `SetPolygonIndices`. -/
def setPolygonIndices (polygonIndex : Nat) (indices : List Nat) : SliceM Unit := do
  clearPolygon (polygonIndex % 2 ^ 32)
  indices.forM (addPolygonIndex (polygonIndex % 2 ^ 32))

/-- `AddPolygon`. -/
def addPolygon (indices : List Nat) : SliceM Nat := do
  let index ← beginPolygon
  setPolygonIndices index indices
  return index

end NMR.Slice
