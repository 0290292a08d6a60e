import Lib3MF.Model.Classes.Model

/-!
# Objects

The functions of `CModelMeshObject` and `CModelComponentsObject` that recurse over components.
They keep no visited set; `fuel` bounds the depth of the recursion, and a result `none` means that
it was exhausted. The source's calls return when some fuel is enough.
-/

namespace NMR

namespace Mesh

/-- `checkSanity`, for nodes and faces that carry their own positions as indices. -/
def checkSanity (m : Mesh) : Bool :=
  m.nodes.length ≤ meshMaxCount ∧ m.faces.length ≤ meshMaxCount ∧ m.beams.length ≤ meshMaxCount ∧
  (∀ v ∈ m.nodes, |v.x| ≤ meshMaxCoordinate ∧ |v.y| ≤ meshMaxCoordinate ∧
    |v.z| ≤ meshMaxCoordinate) ∧
  (∀ f ∈ m.faces, (∀ j, 0 ≤ f.nodeIndices j ∧ f.nodeIndices j < m.nodes.length) ∧
    f.nodeIndices 0 ≠ f.nodeIndices 1 ∧ f.nodeIndices 0 ≠ f.nodeIndices 2 ∧
    f.nodeIndices 1 ≠ f.nodeIndices 2) ∧
  (∀ b ∈ m.beams, (∀ j, 0 ≤ b.nodeIndices j ∧ b.nodeIndices j < m.nodes.length) ∧
    b.nodeIndices 0 ≠ b.nodeIndices 1)

/-- The sides of a face, in its orientation. -/
def faceSides (f : MeshFace) : List (Int × Int) :=
  [(f.nodeIndices 0, f.nodeIndices 1), (f.nodeIndices 1, f.nodeIndices 2),
    (f.nodeIndices 2, f.nodeIndices 0)]

/-- The entry of `CPairMatchingTree` for a pair. -/
def pairEntry (p : Int × Int) : Int × Int := if p.1 < p.2 then p else (p.2, p.1)

/-- The matches `isManifoldAndOriented` adds, by their edge index. -/
def edgeEntries (sides : List (Int × Int)) : List (Int × Int) :=
  sides.foldl (fun es p => if pairEntry p ∈ es then es else es ++ [pairEntry p]) []

/-- `isManifoldAndOriented`. -/
def isManifoldAndOriented (m : Mesh) : Except Error Bool :=
  if ¬ m.checkSanity then .ok false
  else if m.nodes.length < 3 ∨ m.faces.length < 3 then .ok false
  else
    let sides := m.faces.flatMap faceSides
    let edges := edgeEntries sides
    if meshMaxCount < edges.length then .error .invalidEdgeIndex
    else .ok (edges.all fun e =>
      (sides.filter fun p => pairEntry p = e ∧ p.1 ≤ p.2).length = 1 ∧
      (sides.filter fun p => pairEntry p = e ∧ ¬ p.1 ≤ p.2).length = 1)

end Mesh

/-- A recursion over components: `none` when the fuel was exhausted. -/
abbrev Visit (α : Type) := ExceptT Error Option α

namespace Visit

/-- The recursion ends, with a result or an error. -/
def Returns {α : Type} (x : Visit α) : Prop := x.run.isSome

/-- The fuel is exhausted. -/
def exhausted {α : Type} : Visit α := ExceptT.mk none

/-- A function that does not recurse. -/
def lift {α : Type} (x : Except Error α) : Visit α := ExceptT.mk (some x)

end Visit

/-- `CModelMeshObject::isValid`. -/
def meshObjectIsValid (type : ObjectType) (mesh : Mesh) : Except Error Bool :=
  match type with
  | .model => mesh.isManifoldAndOriented
  | .support => .ok true
  | .solidSupport => mesh.isManifoldAndOriented
  | .surface => .ok true
  | .other => .ok false

/-- `CModelObject::calculateComponentDepthLevel`. -/
def ObjectInfo.calculateComponentDepthLevel (i : ObjectInfo) (level : Nat) : ObjectInfo :=
  if i.componentDepthLevel ≤ level then { i with componentDepthLevel := level } else i

namespace Model

/-- `isValid`. -/
def isValid (m : Model) : Nat → ResourceRef → Visit Bool
  | 0, _ => .exhausted
  | fuel + 1, r =>
    match m.data? r with
    | some (.meshObject info mesh) => .lift (meshObjectIsValid info.objectType mesh)
    | some (.componentsObject _ cs) =>
      if cs.isEmpty then pure false
      else
        -- the loop leaves at the first invalid object
        cs.foldlM (fun valid c => if valid then m.isValid fuel c.object else pure false) true
    | _ => .lift (.error .resourceTypeMismatch)

/-- `mergeToMesh`. -/
def mergeToMesh (uninit : FaceProperties) (m : Model) :
    Nat → ResourceRef → Mesh → Matrix3 → Visit Mesh
  | 0, _, _, _ => .exhausted
  | fuel + 1, r, mesh, matrix =>
    match m.data? r with
    | some (.meshObject _ src) => .lift (mesh.mergeMesh uninit src matrix)
    | some (.componentsObject _ cs) =>
      cs.foldlM (fun mesh c =>
        m.mergeToMesh uninit fuel c.object mesh (matrix.multiply c.transform)) mesh
    | _ => .lift (.error .resourceTypeMismatch)

/-- `calculateComponentDepthLevel`, which writes to the objects it visits. -/
def calculateComponentDepthLevel : Nat → Nat → ResourceRef → Model → Option Model
  | 0, _, _, _ => none
  | fuel + 1, level, r, m =>
    match m.data? r with
    | some (.componentsObject info cs) =>
      cs.foldlM
        (fun m c => calculateComponentDepthLevel fuel ((level + 1) % 2 ^ 32) c.object m)
        (m.setData r (.componentsObject (info.calculateComponentDepthLevel level) cs))
    | some (.meshObject info mesh) =>
      some (m.setData r (.meshObject (info.calculateComponentDepthLevel level) mesh))
    | _ => some m

end Model

end NMR
