import Lib3MF.Common.Math.Outbox
import Lib3MF.Model.Classes.Merge

/-!
# Boxes and slices of objects

More functions that recurse over the components of an object: the box around its geometry, and what
is known of the slice stacks in it. The recursions are those of `mergeToMesh`, with the matrix that
the transforms of the components accumulate to. `GetOutbox` of the API starts from an empty box.
-/

namespace NMR

/-- `CMesh::extendOutbox`. -/
def Mesh.extendOutbox (mesh : Mesh) (box : Outbox) (matrix : Matrix3) : Outbox :=
  if matrix.isIdentity then mesh.nodes.foldl fnOutboxMergeVector box
  else mesh.nodes.foldl (fun box v => fnOutboxMergeVector box (matrix.apply v)) box

namespace Model

/-- `extendOutbox`. -/
def extendOutbox (m : Model) : Nat → ResourceRef → Outbox → Matrix3 → Visit Outbox
  | 0, _, _, _ => .exhausted
  | fuel + 1, r, box, matrix =>
    match m.data? r with
    | some (.meshObject _ mesh) => pure (mesh.extendOutbox box matrix)
    | some (.componentsObject _ cs) =>
      cs.foldlM (fun box c =>
        m.extendOutbox fuel c.object box (matrix.multiply c.transform)) box
    | _ => .lift (.error .resourceTypeMismatch)

/-- `hasSlices`. -/
def hasSlices (m : Model) : Nat → Bool → ResourceRef → Visit Bool
  | 0, _, _ => .exhausted
  | fuel + 1, recursive, r =>
    match m.data? r with
    | some (.meshObject info _) => pure info.sliceStack.isSome
    | some (.componentsObject info cs) =>
      if recursive then
        if info.sliceStack.isSome then pure true
        else cs.foldlM
          (fun found c => if found then pure true else m.hasSlices fuel recursive c.object) false
      else pure info.sliceStack.isSome
    | _ => .lift (.error .resourceTypeMismatch)

/-- `isValidForSlices`. -/
def isValidForSlices (m : Model) : Nat → Matrix3 → ResourceRef → Visit Bool
  | 0, _, _ => .exhausted
  | fuel + 1, matrix, r =>
    match m.data? r with
    | some (.meshObject info _) =>
      if info.sliceStack.isNone then pure true else pure matrix.isplanar
    | some (.componentsObject info cs) =>
      if info.sliceStack.isSome ∧ ¬ matrix.isplanar then pure false
      else cs.foldlM (fun valid c =>
        if valid then m.isValidForSlices fuel (matrix.multiply c.transform) c.object
        else pure false) true
    | _ => .lift (.error .resourceTypeMismatch)

/-! ## The API -/

/-- `GetOutbox` of the model. -/
def getOutbox (m : Model) (fuel : Nat) : Visit Outbox :=
  m.buildItems.foldlM (fun box b => m.extendOutbox fuel b.object box b.transform)
    fnOutboxInitialize

end Model

end NMR
