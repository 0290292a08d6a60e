import Mathlib.Data.Fin.VecNotation
import Mathlib.Data.Prod.Lex
import Lib3MF.Common.StringUtils
import Lib3MF.Model.Classes.MeshModel

/-!
# Writing property resources and mesh objects

`CModelWriterNode100_Model` writes the resources with properties and then the objects, the mesh of
an object through `CModelWriterNode100_Mesh`. Every property written is registered in
`CMeshInformation_PropertyIndexMapping` with its position in its resource; the triangles name
properties by these positions.

An element is a record of its attributes and children. What stands in the element of a resource
beside its ID is a parameter, `write`; the parameter `printed` takes a coordinate to the number that
its text stands for.
-/

namespace NMR

open Lib

/-- The attributes of a `triangle` element. -/
inductive TriangleAttribute where
  | v1 | v2 | v3 | pid | p1 | p2 | p3
  deriving DecidableEq

/-- A `triangle` element. -/
abbrev TriangleElement := List (TriangleAttribute × Int)

/-- A `basematerials`, `colorgroup`, `texture2dgroup`, `compositematerials` or `multiproperties`
element. -/
structure PropertyResourceElement (E : Type) where
  id : Int
  content : E
  deriving DecidableEq

/-- An `object` element with a `mesh`. -/
structure ObjectElement where
  id : Int
  pid : Option Int
  pindex : Option Int
  vertices : List Vec3
  triangles : List TriangleElement
  deriving DecidableEq

/-- The `resources` of a `model` element. -/
structure ResourcesElement (E : Type) where
  propertyResources : List (PropertyResourceElement E)
  objects : List ObjectElement
  deriving DecidableEq

/-- `CMeshInformation_PropertyIndexMapping`. -/
structure PropertyIndexMapping where
  idMap : SortedMap (Nat ×ₗ Nat) Nat

namespace PropertyIndexMapping

/-- A new mapping. -/
def empty : PropertyIndexMapping := ⟨.empty⟩

/-- `registerPropertyID`. -/
def registerPropertyID (mapping : PropertyIndexMapping) (resourceID propertyID index : Nat) :
    Except Error PropertyIndexMapping :=
  if resourceID = 0 then .error .invalidPropertyResourceID
  else .ok ⟨mapping.idMap.insert (toLex (resourceID, propertyID)) index⟩

/-- `mapPropertyIDToIndex`. -/
def mapPropertyIDToIndex (mapping : PropertyIndexMapping) (resourceID propertyID : Nat) :
    Except Error Nat :=
  if resourceID = 0 then .error .invalidPropertyResourceID
  else match mapping.idMap.find? (toLex (resourceID, propertyID)) with
    | none => .error .propertyIDNotFound
    | some index => .ok index

end PropertyIndexMapping

namespace Writer

variable {V E : Type} (write : PropertyIndexMapping → PropertyResource V → Except Error E)

/-! ## Property resources -/

/-- `registerPropertyID` in the loops of `writeBaseMaterials`, `writeColors`, `writeTex2Coords`,
`writeCompositeMaterials` and `writeMultiPropertyMultiElements`, at property `x.1`, the one of index
`x.2`. -/
def registerProperty (r : PropertyResource V) (mapping : PropertyIndexMapping) (x : Nat × Nat) :
    Except Error PropertyIndexMapping :=
  mapping.registerPropertyID r.uniqueID x.1 x.2

/-- A resource with its properties. -/
def writePropertyResource (written : PropertyIndexMapping × List (PropertyResourceElement E))
    (r : PropertyResource V) :
    Except Error (PropertyIndexMapping × List (PropertyResourceElement E)) := do
  let mapping ← r.group.buildResourceIndexMap.zipIdx.foldlM (registerProperty r) written.1
  let content ← write mapping r
  return (mapping, written.2 ++ [⟨writeIntAttribute r.uniqueID, content⟩])

/-! ## Meshes -/

/-- `writeFaceData_Plain`. -/
def writeFaceDataPlain (f : MeshFace) : TriangleElement :=
  [(.v1, f.nodeIndices 0), (.v2, f.nodeIndices 1), (.v3, f.nodeIndices 2)]

/-- `writeFaceData_OneProperty`. -/
def writeFaceDataOneProperty (f : MeshFace) (propertyID propertyIndex : Nat) : TriangleElement :=
  writeFaceDataPlain f ++
    [(.pid, writeIntAttribute propertyID), (.p1, writeIntAttribute propertyIndex)]

/-- `writeFaceData_ThreeProperties`. -/
def writeFaceDataThreeProperties (f : MeshFace) (propertyID : Nat) (propertyIndex : Fin 3 → Nat) :
    TriangleElement :=
  writeFaceDataPlain f ++
    [(.pid, writeIntAttribute propertyID), (.p1, writeIntAttribute (propertyIndex 0)),
      (.p2, writeIntAttribute (propertyIndex 1)), (.p3, writeIntAttribute (propertyIndex 2))]

/-- `nObjectLevelPropertyID` and `nObjectLevelPropertyIndex`: the default at its first corner. -/
def objectLevelProperty (mapping : PropertyIndexMapping) (mesh : Mesh) :
    Except Error (Nat × Nat) :=
  match mesh.properties.bind (·.defaultData) with
  | none => .ok (0, 0)
  | some d =>
    if d.resourceID = 0 then .ok (0, 0)
    else do
      let index ← mapping.mapPropertyIDToIndex d.resourceID (d.propertyIDs 0)
      return (d.resourceID, index)

/-- `nPropertyID` and `nPropertyIndex1` to `nPropertyIndex3` of face `i`. -/
def faceProperty (mapping : PropertyIndexMapping) (mesh : Mesh) (i : Nat) :
    Except Error (Nat × (Fin 3 → Nat)) :=
  match mesh.properties with
  | none => .ok (0, fun _ => 0)
  | some p =>
    match p.faceData[i]? with
    | none => .error .invalidMeshInformationIndex
    | some r =>
      if r.resourceID = 0 then .ok (0, fun _ => 0)
      else do
        let index1 ← mapping.mapPropertyIDToIndex r.resourceID (r.propertyIDs 0)
        let index2 ← mapping.mapPropertyIDToIndex r.resourceID (r.propertyIDs 1)
        let index3 ← mapping.mapPropertyIDToIndex r.resourceID (r.propertyIDs 2)
        return (r.resourceID, ![index1, index2, index3])

/-- The element of a face, by its property and the object-level one. -/
def writeFaceData (objectLevel : Nat × Nat) (f : MeshFace) (property : Nat × (Fin 3 → Nat)) :
    TriangleElement :=
  if property.1 = 0 then writeFaceDataPlain f
  else if property.2 0 ≠ property.2 1 ∨ property.2 0 ≠ property.2 2 then
    writeFaceDataThreeProperties f property.1 property.2
  else if property.1 = objectLevel.1 ∧ property.2 0 = objectLevel.2 then writeFaceDataPlain f
  else writeFaceDataOneProperty f property.1 (property.2 0)

/-- The `triangles`, without a binary stream. -/
def writeTriangles (mapping : PropertyIndexMapping) (mesh : Mesh) :
    Except Error (List TriangleElement) := do
  let objectLevel ← objectLevelProperty mapping mesh
  let properties ← (List.range mesh.faces.length).mapM (faceProperty mapping mesh)
  -- `bMeshHasAProperty`
  if properties.any (fun p => p.1 ≠ 0) ∧ objectLevel.1 = 0 then throw .missingObjectLevelPID
  return List.zipWith (writeFaceData objectLevel) mesh.faces properties

/-- `writeVertexData`. -/
def writeVertexData (printed : ℚ → ℚ) (v : Vec3) : Vec3 :=
  ⟨printed v.x, printed v.y, printed v.z⟩

/-- `writeObjects`, at a mesh object without a binary stream. -/
def writeObject (printed : ℚ → ℚ) (mapping : PropertyIndexMapping) (o : MeshObject) :
    Except Error ObjectElement := do
  let objectLevel ← objectLevelProperty mapping o.mesh
  let triangles ← writeTriangles mapping o.mesh
  let pid := if objectLevel.1 = 0 then none else some (writeIntAttribute objectLevel.1)
  let pindex := if objectLevel.1 = 0 then none else some (writeIntAttribute objectLevel.2)
  return ⟨writeIntAttribute o.uniqueID, pid, pindex, o.mesh.nodes.map (writeVertexData printed),
    triangles⟩

/-- `writeResources`. -/
def writeResources (printed : ℚ → ℚ) (m : MeshModel V) : Except Error (ResourcesElement E) := do
  let (mapping, propertyResources) ←
    m.propertyResources.foldlM (writePropertyResource write) (.empty, [])
  let objects ← m.objects.mapM (writeObject printed mapping)
  return ⟨propertyResources, objects⟩

end Writer

end NMR
