import Lib3MF.Lib.Checked
import Lib3MF.Model.Reader.MultiPropertiesReader

/-!
# Reading multi-property groups, index by index

`CModelReaderNode100_MultiProperties` with its lists accessed as the source does, by indices: the
resource IDs and blend methods of the layers, and the indices and properties of a `multi`. An
access out of range is no exception in the source; here it ends the reading (`Fault.outOfRange`).
-/

namespace NMR.Reader

open Lib

variable {V : Type}

abbrev CheckedReading (α : Type) := Checked Error α

/-- The blend methods where the attribute is missing: `resize` by a `size_t`, then the loop over
the elements. -/
def defaultBlendMethods (pids : List Nat) : CheckedReading (List BlendMethod) :=
  if pids.length = 0 then .error (.throws .lengthError)
  else
    (List.range (List.replicate (sizeMinusOne pids.length) BlendMethod.none).length).foldlM
      (fun methods i => do
        let method ← pure .mix
        setElementAt methods i method)
      (List.replicate (sizeMinusOne pids.length) BlendMethod.none)

/-- `m_pBlendMethods`. -/
def parseBlendMethods (n : MultiPropertiesNode) (pids : List Nat) :
    CheckedReading (List BlendMethod) :=
  match n.blendMethods with
  | some methods => .ok methods
  | none => defaultBlendMethods pids

/-- The blend method of layer `i`. -/
def layerMethod (methods : List BlendMethod) (i : Nat) : CheckedReading BlendMethod :=
  if 0 < i ∧ i < methods.length + 1 then elementAt methods (i - 1) else .ok .mix

/-- Turn `i` of the loop over the layers. -/
def parseLayer (path : String) (handler : ResourceHandler) (pids : List Nat)
    (methods : List BlendMethod) (i : Nat) : CheckedReading MultiPropertyLayer := do
  let id ← elementAt pids i
  match handler.findResourceIDByPath path id with
  | none => .error (.throws .resourceNotFound)
  | some pID =>
    let method ← layerMethod methods i
    return ⟨pID.uniqueID, method⟩

/-- `vctLayers`. -/
def parseLayers (criticalWarningLevel : ModelReaderWarningLevel) (path : String)
    (handler : ResourceHandler) (n : MultiPropertiesNode) :
    CheckedReading (List MultiPropertyLayer) :=
  match n.pids with
  | none => do
    Checked.lift (addWarning criticalWarningLevel .multiPropertiesMissingPIDs .invalidMandatoryValue)
    return []
  | some pids => do
    let methods ← parseBlendMethods n pids
    Checked.lift (checkBlendMethods criticalWarningLevel methods pids)
    (List.range pids.length).mapM (parseLayer path handler pids methods)

/-- The loop that appends zeros up to the number of layers. -/
def padPIndices (nLayers : Nat) (vctPIndices : List Nat) : List Nat :=
  vctPIndices ++ List.replicate (nLayers - vctPIndices.length) 0

/-- The property ID of layer `iLayer`. -/
def parsePropertyID (m : MaterialModel V) (layers : List MultiPropertyLayer)
    (vctPIndices : List Nat) (iLayer : Nat) : CheckedReading Nat :=
  match getLayer layers (UInt32.ofNat iLayer) with
  | .undefined => .error .outOfRange
  | .throws e => .error (.throws e)
  | .ok layer =>
    match m.findGroup layer.resourceID with
    | none => .error (.throws .resourceNotFound)
    | some g => do
      let index ← elementAt vctPIndices iLayer
      match g.buildResourceIndexMap[index]? with
      | none => .error (.throws .invalidResourceIndex)
      | some nPropertyID => return nPropertyID

/-- `pMultiProperty`: a vector for the layers, whose number is a `nfUint32`, filled in place. -/
def parsePropertyIDs (m : MaterialModel V) (layers : List MultiPropertyLayer)
    (vctPIndices : List Nat) : CheckedReading MultiProperty :=
  let nLayers := layers.length % 2 ^ 32
  (List.range (List.replicate nLayers 0).length).foldlM
    (fun multi iLayer => do
      let nPropertyID ← parsePropertyID m layers (padPIndices nLayers vctPIndices) iLayer
      setElementAt multi iLayer nPropertyID)
    (List.replicate nLayers 0)

/-- `OnNSChildElement` at a `multi`. -/
def parseMulti (criticalWarningLevel : ModelReaderWarningLevel) (m : MaterialModel V)
    (layers : List MultiPropertyLayer) (g : PropertyGroup MultiProperty)
    (e : List (String × String)) : CheckedReading (PropertyGroup MultiProperty) := do
  let n ← Checked.lift (e.foldlM (MultiNode.readAttribute criticalWarningLevel) MultiNode.new)
  Checked.lift (checkPIndices criticalWarningLevel n)
  let multi ← parsePropertyIDs m layers n.pindices
  let r ← Checked.lift (g.add .tooManyComposites (fun _ => .ok ()) multi)
  return r.1

/-- `CModelReaderNode100_MultiProperties::parseXML`. -/
def parseMultiProperties (criticalWarningLevel : ModelReaderWarningLevel) (path : String)
    (s : MaterialReaderState V) (e : MultiPropertiesElement) :
    CheckedReading (MaterialReaderState V) := do
  let n ← Checked.lift
    (e.attributes.foldlM (MultiPropertiesNode.readAttribute criticalWarningLevel)
      MultiPropertiesNode.new)
  if n.id = 0 then throw (.throws .missingModelResourceID)
  let layers ← parseLayers criticalWarningLevel path s.resourceHandler n
  let p ← Checked.lift (s.resourceHandler.getNewResourceID path n.id)
  let m ← Checked.lift (addNewGroup s.model p.2.uniqueID)
  let layers ← Checked.lift (layers.foldlM (addReadLayer m) [])
  let group ← e.multis.foldlM (parseMulti criticalWarningLevel m layers) .empty
  return ⟨p.1, addMultiPropertyGroup s.model ⟨p.2.uniqueID, layers, group⟩⟩

end NMR.Reader
