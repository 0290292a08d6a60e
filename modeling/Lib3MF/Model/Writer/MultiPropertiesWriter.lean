import Lib3MF.Common.ColorStrings
import Lib3MF.Common.SpaceDelimited
import Lib3MF.Model.Classes.MultiPropertyGroup
import Lib3MF.Model.Writer.MeshWriter
import Lib3MF.Model.Writer.ModelWriterNode

/-!
# Writing materials

Base materials, colours, texture coordinates and composites are written as texts. A composite names
the base materials that the composites of its resource use, in the order of their first use, and
has a ratio for each of them, in the order of their property IDs. What the texts of ratios and
coordinates stand for is a parameter (`PrintedNumbers`).

The multi-property groups are written after the resources their layers refer to. The layers are
attributes of the group, two lists with spaces between the entries, the second without one for the
first layer; a multi-property is the list of the indices its properties have in their resources.
-/

namespace NMR

open Lib

/-- A `multiproperties` element: its attributes, and those of its `multi` elements. -/
structure MultiPropertiesElement where
  attributes : List (String × String)
  multis : List (List (String × String))
  deriving DecidableEq

/-- What the texts of numbers stand for: `std::to_string` has six decimals, and a stream six digits
of the `float`. -/
structure PrintedNumbers where
  ratio : Double → Double
  coordinate : Double → Double

/-- What a property resource has beside its ID: the names and display colours of base materials,
colours, texture coordinates, or `matid`, `matindices` and the `values` of composites. -/
inductive PropertiesElement where
  | baseMaterials (bases : List (String × String))
  | colorGroup (colors : List String)
  | texture2DGroup (coordinates : List UVCoordinate)
  | compositeMaterials (matID : Int) (matIndices : String) (composites : List (List Double))
  deriving DecidableEq

/-- The property resources and multi-property groups among the `resources` of a `model` element. -/
structure MaterialsElement where
  propertyResources : List (PropertyResourceElement PropertiesElement)
  multiProperties : List MultiPropertiesElement
  deriving DecidableEq

/-- `blendMethodToString`. -/
def blendMethodToString : BlendMethod → String
  | .mix => "mix"
  | .multiply => "multiply"
  | .none => "mix"

namespace Writer

/-! ## Properties -/

/-- `writeBaseMaterials`, at a material. -/
def writeBaseMaterial : ModelProperty → Except Error (String × String)
  | .baseMaterial v => do
    let name ← writeEscaped v.name
    let displayColor ←
      writeEscaped (String.ofList (fnColorToString (BitVec.ofNat 32 v.displayColor)))
    .ok (name, displayColor)
  | _ => .error .resourceTypeMismatch

/-- `writeColors`, at a colour. -/
def writeColor : ModelProperty → Except Error String
  | .color c => writeEscaped (String.ofList (fnColorToString (BitVec.ofNat 32 c)))
  | _ => .error .resourceTypeMismatch

/-- `writeTex2Coords`, at a texture coordinate. -/
def writeTex2Coord (printed : PrintedNumbers) : ModelProperty → Except Error UVCoordinate
  | .uvCoordinate v => .ok ⟨printed.coordinate v.u, printed.coordinate v.v⟩
  | _ => .error .resourceTypeMismatch

/-- `getComposite`. -/
def getComposite : ModelProperty → Except Error Composite
  | .composite c => .ok c
  | _ => .error .resourceTypeMismatch

/-- The loop over the properties of a resource, by their indices. -/
def forProperties {α : Type} (r : PropertyResource ModelProperty)
    (f : ModelProperty → Except Error α) : Except Error (List α) :=
  r.group.buildResourceIndexMap.mapM fun k => do
    let v ← r.group.get k
    f v

/-- `mapUsedBMPropertyIDs` and `matIndices` after another constituent. -/
def useMaterial (mapping : PropertyIndexMapping) (baseMaterialID : Nat)
    (used : SortedMap Nat Unit × List Nat) (x : CompositeConstituent) :
    Except Error (SortedMap Nat Unit × List Nat) := do
  let index ← mapping.mapPropertyIDToIndex baseMaterialID x.propertyID
  if (used.1.find? x.propertyID).isSome then .ok used
  else .ok (used.1.insert x.propertyID (), used.2 ++ [index])

/-- The text of indices. -/
def indicesText (indices : List Nat) : String :=
  fnVectorToSpaceDelimitedString (indices.map Nat.repr)

/-- `writeCompositeMaterials`, at a resource. -/
def writeCompositeMaterials (printed : PrintedNumbers) (mapping : PropertyIndexMapping)
    (r : PropertyResource ModelProperty) : Except Error PropertiesElement := do
  let composites ← forProperties r getComposite
  let used ← composites.flatten.foldlM (useMaterial mapping r.baseMaterialID) (.empty, [])
  let matIndices ← writeEscaped (indicesText used.2)
  .ok (.compositeMaterials (writeIntAttribute r.baseMaterialID) matIndices
    (composites.map fun c => used.1.keys.map fun k => printed.ratio (c.getMixingRatio k)))

/-- The properties of a resource. -/
def writeProperties (printed : PrintedNumbers) (mapping : PropertyIndexMapping)
    (r : PropertyResource ModelProperty) : Except Error PropertiesElement :=
  match r.kind with
  | .baseMaterials => do
    let bases ← forProperties r writeBaseMaterial
    .ok (.baseMaterials bases)
  | .colorGroup => do
    let colors ← forProperties r writeColor
    .ok (.colorGroup colors)
  | .texture2DGroup => do
    let coordinates ← forProperties r (writeTex2Coord printed)
    .ok (.texture2DGroup coordinates)
  | .compositeMaterials => writeCompositeMaterials printed mapping r
  | .multiPropertyGroup => .error .resourceTypeMismatch

/-! ## Multi-property groups -/

/-- The text of the `pids`. -/
def pidsText (layers : List MultiPropertyLayer) : String :=
  fnVectorToSpaceDelimitedString (layers.map fun l => l.resourceID.repr)

/-- The text of the `blendmethods`. -/
def blendMethodsText (layers : List MultiPropertyLayer) : String :=
  fnVectorToSpaceDelimitedString (layers.tail.map fun l => blendMethodToString l.method)

/-- `writeMultiPropertyAttributes`. -/
def writeMultiPropertyAttributes (g : MultiPropertyGroup) :
    Except Error (List (String × String)) := do
  let id ← writeEscaped (toString (writeIntAttribute g.uniqueID))
  let pids ← writeEscaped (pidsText g.layers)
  let blendMethods ← writeEscaped (blendMethodsText g.layers)
  .ok [("id", id), ("pids", pids), ("blendmethods", blendMethods)]

/-- `vctPIndices` of a multi-property, layer by layer. -/
def pindices (mapping : PropertyIndexMapping) :
    List MultiPropertyLayer → MultiProperty → Except Error (List Nat)
  | [], _ => .ok []
  | _ :: _, [] => .error .multiPropertiesNotEnoughPropertyIDsSpecified
  | l :: layers, k :: multi => do
    let index ← mapping.mapPropertyIDToIndex l.resourceID k
    let indices ← pindices mapping layers multi
    .ok (index :: indices)

/-- The loop of `writeMultiPropertyMultiElements`, at property `x.1`, the one of index `x.2`. -/
def writeMulti (g : MultiPropertyGroup)
    (written : PropertyIndexMapping × List (List (String × String))) (x : Nat × Nat) :
    Except Error (PropertyIndexMapping × List (List (String × String))) := do
  let mapping ← written.1.registerPropertyID g.uniqueID x.1 x.2
  let multi ← g.group.get x.1
  let indices ← pindices mapping g.layers multi
  let text ← writeEscaped (indicesText indices)
  .ok (mapping, written.2 ++ [[("pindices", text)]])

/-- The loop of `writeMultiProperties`. -/
def writeMultiPropertyGroup (written : PropertyIndexMapping × List MultiPropertiesElement)
    (g : MultiPropertyGroup) :
    Except Error (PropertyIndexMapping × List MultiPropertiesElement) := do
  let attributes ← writeMultiPropertyAttributes g
  let multis ← g.group.buildResourceIndexMap.zipIdx.foldlM (writeMulti g) (written.1, [])
  .ok (multis.1, written.2 ++ [⟨attributes, multis.2⟩])

/-- `writeResources`, as far as the materials go. -/
def writeMaterials (printed : PrintedNumbers) (m : MaterialModel ModelProperty) :
    Except Error MaterialsElement := do
  let resources ←
    m.propertyResources.foldlM (writePropertyResource (writeProperties printed)) (.empty, [])
  let multis ← m.multiPropertyGroups.foldlM writeMultiPropertyGroup (resources.1, [])
  .ok ⟨resources.2, multis.2⟩

end Writer

end NMR
