import Mathlib.Algebra.Order.BigOperators.Group.List
import Lib3MF.Common.Platform.XmlScopedReader
import Lib3MF.Model.Classes.Merge
import Lib3MF.Model.Reader.MeshReader
import Lib3MF.Model.Reader.ModelReaderNode
import Lib3MF.Model.Reader.ModelReaderWarnings
import Lib3MF.Model.Writer.MultiPropertiesWriter

/-!
# Reading materials

A property resource is read by its class: `CModelReaderNode100_BaseMaterials`,
`CModelReaderNode100_Colors`, `CModelReaderNode100_Tex2DGroup` and
`CModelReaderNode100_CompositeMaterials`. The last one takes the base materials of the first indices
in place of the ones that `matindices` lists.

`CModelReaderNode100_MultiProperties` looks the layers up among the resources read before it, by
the IDs they have in the file, and turns the indices of a `multi` element into property IDs by the
index maps of these resources.
-/

namespace NMR

open Lib

/-- `stringToBlendMethod`. -/
def stringToBlendMethod (s : String) : Except Error BlendMethod :=
  if s = "mix" then .ok .mix
  else if s = "multiply" then .ok .multiply
  else .error .invalidBlendMethodAttribute

/-- The state of a reader: the IDs issued and the materials so far. -/
structure MaterialReaderState (V : Type) where
  resourceHandler : ResourceHandler
  model : MaterialModel V
  deriving DecidableEq

/-- `CModelReaderNode100_MultiProperties`. -/
structure MultiPropertiesNode where
  id : Nat
  pids : Option (List Nat)
  blendMethods : Option (List BlendMethod)
  deriving DecidableEq

/-- `CModelReaderNode100_Multi`. -/
structure MultiNode where
  hasPIndices : Bool
  pindices : List Nat
  deriving DecidableEq

/-- The texts of a property resource that are not numbers. -/
def PropertiesElement.texts : PropertiesElement → List String
  | .baseMaterials bases => bases.flatMap fun b => [b.1, b.2]
  | .colorGroup colors => colors
  | .texture2DGroup _ => []
  | .compositeMaterials _ matIndices _ => [matIndices]

/-- The texts of property resources. -/
def propertyTexts (es : List (PropertyResourceElement PropertiesElement)) : List String :=
  es.flatMap fun e => e.content.texts

/-- The texts of the materials. -/
def MaterialsElement.texts (e : MaterialsElement) : List String :=
  propertyTexts e.propertyResources ++ e.multiProperties.flatMap fun g =>
    g.attributes.map Prod.snd ++ g.multis.flatten.map Prod.snd

/-- The buffer of the XML reader takes a document with these texts and `others` bytes besides. -/
def TextsFit (texts : List String) (others : Nat) : Prop :=
  (texts.map String.utf8ByteSize).sum + others + bufferMargin ≤ xmlReaderBufferSize

instance (texts : List String) (others : Nat) : Decidable (TextsFit texts others) :=
  inferInstanceAs (Decidable (_ ≤ _))

/-- The texts are not too long. -/
theorem TextsFit.short {texts : List String} {others : Nat} (h : TextsFit texts others) :
    ∀ t ∈ texts, Short t := by
  intro t ht
  have hle := List.le_sum_of_mem (List.mem_map_of_mem (f := String.utf8ByteSize) ht)
  have hmax : xmlReaderBufferSize ≤ maxXMLStringLength := by decide
  unfold TextsFit at h
  unfold Short
  omega

namespace Reader

variable {V : Type}

/-! ## Properties -/

/-- `fnStringToDouble`, of the number the text stands for. -/
def fnStringToDouble (value : Double) : Except Error Double :=
  if value.IsInfinite then .error .stringToDoubleConversionOutOfRange else .ok value

/-- `fnStringToSRGBColor` into a colour, which is `0` where the text is none. -/
def readColorText (w : LongWidth) (text : String) : Except Error Nat := do
  let _ ← nfStrLen text
  let c ← w.fnStringToSRGBColor text.toList
  .ok (c.getD 0).toNat

/-- `CModelReaderNode100_BaseMaterial`. -/
def readBaseMaterial (w : LongWidth) (e : String × String) : Except Error ModelProperty := do
  let _ ← nfStrLen e.1
  let displayColor ← readColorText w e.2
  .ok (.baseMaterial ⟨e.1, displayColor⟩)

/-- `CModelReaderNode100_Color`. -/
def readColor (w : LongWidth) (e : String) : Except Error ModelProperty := do
  let c ← readColorText w e
  .ok (.color c)

/-- An attribute of `CModelReaderNode100_Tex2Coord`, where an exception leaves `0`. -/
def readCoordinate (value : Double) : Double :=
  match fnStringToDouble value with
  | .ok coordinate => coordinate
  | .error _ => .ofRat 0

/-- `CModelReaderNode100_Tex2Coord`. -/
def readTex2Coord (e : UVCoordinate) : ModelProperty :=
  .uvCoordinate ⟨readCoordinate e.u, readCoordinate e.v⟩

/-- `findBaseMaterial`; a resource is not constructed without base materials. -/
def findBaseMaterial (s : ReaderState V) (uniqueID : Nat) : Except Error (PropertyResource V) :=
  match s.model.propertyResources.find? fun r => r.uniqueID = uniqueID with
  | some r => if r.kind = .baseMaterials then .ok r else .error .resourceTypeMismatch
  | none =>
    if ∃ o ∈ s.model.objects, o.uniqueID = uniqueID then .error .resourceTypeMismatch
    else .error .invalidParam

/-- `m_vctMaterialPropertyIDs`, at index `i`. -/
def materialPropertyID (materials : PropertyGroup V) (i : Nat) : Except Error Nat :=
  match materials.buildResourceIndexMap[i]? with
  | some id => .ok id
  | none => .error .invalidBaseMaterial

/-- The warning about the number of ratios. -/
def checkRatios (criticalWarningLevel : ModelReaderWarningLevel) (ids : List Nat)
    (ratios : List Double) : Except Error Unit :=
  if ratios.length < ids.length then
    addWarning criticalWarningLevel .mixingRatioMissing .invalidOptionalValue
  else if ids.length < ratios.length then
    addWarning criticalWarningLevel .mixingRatioTooMany .invalidOptionalValue
  else .ok ()

/-- `CModelReaderNode100_Composite`, with the check of `addComposite`. -/
def readComposite (criticalWarningLevel : ModelReaderWarningLevel) (materials : PropertyGroup V)
    (ids : List Nat) (values : List Double) : Except Error Composite := do
  let ratios ← values.mapM fnStringToDouble
  let c := ids.zipIdx.map fun x => ⟨x.1, ratios.getD x.2 (.ofRat 0)⟩
  checkRatios criticalWarningLevel ids ratios
  checkComposite materials c
  .ok c

/-- `CModelReaderNode100_CompositeMaterials`, with attributes that each stand once. -/
def readCompositeMaterials (criticalWarningLevel : ModelReaderWarningLevel) (path : String)
    (s : ReaderState ModelProperty) (matID : Int) (matIndices : String)
    (composites : List (List Double)) : Except Error (ReadProperties ModelProperty) := do
  let id ← fnStringToUint32 matID
  let _ ← nfStrLen matIndices
  let indices ← fnVctUint32_fromString matIndices
  if id = 0 then
    addWarning criticalWarningLevel .invalidModelResource .invalidMandatoryValue
    throw .missingModelResourceID
  match s.resourceHandler.findResourceIDByPath path id with
  | none => .error .invalidModelResource
  | some p => do
    let materials ← findBaseMaterial s p.uniqueID
    let ids ← (List.range indices.length).mapM (materialPropertyID materials.group)
    let read ← composites.mapM (readComposite criticalWarningLevel materials.group ids)
    .ok ⟨.compositeMaterials, materials.uniqueID, read.map .composite⟩

/-- The properties of a resource. -/
def readProperties (w : LongWidth) (criticalWarningLevel : ModelReaderWarningLevel) (path : String)
    (s : ReaderState ModelProperty) :
    PropertiesElement → Except Error (ReadProperties ModelProperty)
  | .baseMaterials bases => do
    let read ← bases.mapM (readBaseMaterial w)
    .ok ⟨.baseMaterials, 0, read⟩
  | .colorGroup colors => do
    let read ← colors.mapM (readColor w)
    .ok ⟨.colorGroup, 0, read⟩
  | .texture2DGroup coordinates => .ok ⟨.texture2DGroup, 0, coordinates.map readTex2Coord⟩
  | .compositeMaterials matID matIndices composites =>
    readCompositeMaterials criticalWarningLevel path s matID matIndices composites

/-! ## Attributes -/

/-- A new node. -/
def MultiPropertiesNode.new : MultiPropertiesNode := ⟨0, none, none⟩

/-- A blend method of the list; an unknown one is a warning, and `mix`. -/
def readBlendMethod (criticalWarningLevel : ModelReaderWarningLevel) (s : String) :
    Except Error BlendMethod :=
  match stringToBlendMethod s with
  | .ok method => .ok method
  | .error e => do
    addWarning criticalWarningLevel e .invalidMandatoryValue
    .ok .mix

/-- `OnAttribute`. -/
def MultiPropertiesNode.onAttribute (criticalWarningLevel : ModelReaderWarningLevel)
    (n : MultiPropertiesNode) (name value : String) : Except Error MultiPropertiesNode :=
  if name = "id" then
    if n.id ≠ 0 then .error .duplicateResourceID
    else do
      let id ← textToUint32 value.toList
      .ok { n with id := id }
  else if name = "pids" then
    if n.pids.isSome then .error .duplicatePIDs
    else do
      let pids ← fnVctUint32_fromString value
      .ok { n with pids := some pids }
  else if name = "blendmethods" then
    if n.blendMethods.isSome then .error .duplicateBlendMethods
    else do
      let methods ← (fnVctString_fromString value).mapM (readBlendMethod criticalWarningLevel)
      .ok { n with blendMethods := some methods }
  else do
    addWarning criticalWarningLevel .namespaceInvalidAttribute .invalidOptionalValue
    .ok n

/-- One turn of `parseAttributes`. -/
def MultiPropertiesNode.readAttribute (criticalWarningLevel : ModelReaderWarningLevel)
    (n : MultiPropertiesNode) (a : String × String) : Except Error MultiPropertiesNode := do
  let _ ← nfStrLen a.1
  let _ ← nfStrLen a.2
  MultiPropertiesNode.onAttribute criticalWarningLevel n a.1 a.2

/-- A new node. -/
def MultiNode.new : MultiNode := ⟨false, []⟩

/-- `OnAttribute`. -/
def MultiNode.onAttribute (criticalWarningLevel : ModelReaderWarningLevel) (n : MultiNode)
    (name value : String) : Except Error MultiNode :=
  if name = "pindices" then do
    let indices ← fnVctUint32_fromString value
    .ok ⟨true, indices⟩
  else do
    addWarning criticalWarningLevel .namespaceInvalidAttribute .invalidOptionalValue
    .ok n

/-- One turn of `parseAttributes`. -/
def MultiNode.readAttribute (criticalWarningLevel : ModelReaderWarningLevel) (n : MultiNode)
    (a : String × String) : Except Error MultiNode := do
  let _ ← nfStrLen a.1
  let _ ← nfStrLen a.2
  MultiNode.onAttribute criticalWarningLevel n a.1 a.2

/-! ## Layers -/

/-- `m_pPIDs->size() - 1`, a `size_t`. -/
def sizeMinusOne (n : Nat) : Nat := (n + (2 ^ 64 - 1)) % 2 ^ 64

/-- The blend methods, which are all `mix` where the attribute is missing. -/
def blendMethodsOf (n : MultiPropertiesNode) (pids : List Nat) : Except Error (List BlendMethod) :=
  match n.blendMethods with
  | some methods => .ok methods
  | none =>
    if pids = [] then .error .lengthError
    else .ok (List.replicate (sizeMinusOne pids.length) .mix)

/-- The warning about the number of blend methods. -/
def checkBlendMethods (criticalWarningLevel : ModelReaderWarningLevel) (methods : List BlendMethod)
    (pids : List Nat) : Except Error Unit :=
  if methods.length ≠ sizeMinusOne pids.length then
    addWarning criticalWarningLevel .multiPropertiesDifferentNumberOfBlendMethodsAndPIDs
      .invalidMandatoryValue
  else .ok ()

/-- The layer of a resource of the file. -/
def readLayer (path : String) (handler : ResourceHandler) (x : Nat × BlendMethod) :
    Except Error MultiPropertyLayer :=
  match handler.findResourceIDByPath path x.1 with
  | none => .error .resourceNotFound
  | some p => .ok ⟨p.uniqueID, x.2⟩

/-- `vctLayers`: the first layer, and each one without a blend method, blends by `mix`. -/
def readLayers (criticalWarningLevel : ModelReaderWarningLevel) (path : String)
    (handler : ResourceHandler) (n : MultiPropertiesNode) :
    Except Error (List MultiPropertyLayer) :=
  match n.pids with
  | none => do
    addWarning criticalWarningLevel .multiPropertiesMissingPIDs .invalidMandatoryValue
    .ok []
  | some pids => do
    let methods ← blendMethodsOf n pids
    checkBlendMethods criticalWarningLevel methods pids
    (pids.zip (.mix :: methods ++ List.replicate pids.length .mix)).mapM (readLayer path handler)

/-- A layer is added to the group, which is in the model already. -/
def addReadLayer (m : MaterialModel V) (layers : List MultiPropertyLayer) (l : MultiPropertyLayer) :
    Except Error (List MultiPropertyLayer) :=
  if m.kindOf l.resourceID = none then .error .resourceNotFound else addLayer m.kindOf layers l

/-! ## Multi-properties -/

/-- The property IDs for the indices, layer by layer; a missing index is `0`. -/
def resolvePIndices (m : MaterialModel V) :
    List MultiPropertyLayer → List Nat → Except Error MultiProperty
  | [], _ => .ok []
  | l :: layers, indices =>
    match m.findGroup l.resourceID with
    | none => .error .resourceNotFound
    | some g =>
      match g.buildResourceIndexMap[indices.headD 0]? with
      | none => .error .invalidResourceIndex
      | some id => do
        let multi ← resolvePIndices m layers indices.tail
        .ok (id :: multi)

/-- The warning of a `multi` element without indices. -/
def checkPIndices (criticalWarningLevel : ModelReaderWarningLevel) (n : MultiNode) :
    Except Error Unit :=
  if n.hasPIndices then .ok ()
  else addWarning criticalWarningLevel .multiPropertiesInvalidMultiElement .invalidMandatoryValue

/-- `OnNSChildElement` at a `multi`. -/
def readMulti (criticalWarningLevel : ModelReaderWarningLevel) (m : MaterialModel V)
    (layers : List MultiPropertyLayer) (g : PropertyGroup MultiProperty)
    (e : List (String × String)) : Except Error (PropertyGroup MultiProperty) := do
  let n ← e.foldlM (MultiNode.readAttribute criticalWarningLevel) MultiNode.new
  checkPIndices criticalWarningLevel n
  let multi ← resolvePIndices m layers n.pindices
  let r ← g.add .tooManyComposites (fun _ => .ok ()) multi
  .ok r.1

/-! ## Groups -/

/-- The group with the layers and multi-properties, once the resource is in the model. -/
def readMultiPropertyGroup (criticalWarningLevel : ModelReaderWarningLevel) (m : MaterialModel V)
    (uniqueID : Nat) (layers : List MultiPropertyLayer) (multis : List (List (String × String))) :
    Except Error MultiPropertyGroup := do
  let layers ← layers.foldlM (addReadLayer m) []
  let group ← multis.foldlM (readMulti criticalWarningLevel m layers) .empty
  .ok ⟨uniqueID, layers, group⟩

/-- The model with one multi-property group more. -/
def addMultiPropertyGroup (m : MaterialModel V) (g : MultiPropertyGroup) : MaterialModel V :=
  { m with multiPropertyGroups := m.multiPropertyGroups ++ [g] }

/-- `addResource` of a new multi-property group. -/
def addNewGroup (m : MaterialModel V) (uniqueID : Nat) : Except Error (MaterialModel V) :=
  if (m.kindOf uniqueID).isSome then .error .duplicateModelResource
  else .ok (addMultiPropertyGroup m ⟨uniqueID, [], .empty⟩)

/-- `CModelReaderNode100_MultiProperties::parseXML`. -/
def readMultiProperties (criticalWarningLevel : ModelReaderWarningLevel) (path : String)
    (s : MaterialReaderState V) (e : MultiPropertiesElement) :
    Except Error (MaterialReaderState V) := do
  let n ← e.attributes.foldlM (MultiPropertiesNode.readAttribute criticalWarningLevel)
    MultiPropertiesNode.new
  if n.id = 0 then throw .missingModelResourceID
  let layers ← readLayers criticalWarningLevel path s.resourceHandler n
  let p ← s.resourceHandler.getNewResourceID path n.id
  let m ← addNewGroup s.model p.2.uniqueID
  let g ← readMultiPropertyGroup criticalWarningLevel m p.2.uniqueID layers e.multis
  .ok ⟨p.1, addMultiPropertyGroup s.model g⟩

/-- The materials of a part under `path`. -/
def readMaterials (w : LongWidth) (criticalWarningLevel : ModelReaderWarningLevel) (path : String)
    (e : MaterialsElement) : Except Error (MaterialReaderState ModelProperty) := do
  let s ← e.propertyResources.foldlM
    (readPropertyResource (readProperties w criticalWarningLevel) path) new
  e.multiProperties.foldlM (readMultiProperties criticalWarningLevel path)
    ⟨s.resourceHandler, ⟨s.model.propertyResources, []⟩⟩

end Reader

end NMR
