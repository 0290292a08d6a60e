import Lib3MF.Lib.Except
import Lib3MF.Common.Exception

/-!
# Metadata

`CModelMetaData` and `CModelMetaDataGroup`. A group keeps its entries in order, and beside them
the keys they had when they were added: renaming an entry leaves its old key.
-/

namespace NMR

open Lib

/-- `XML_3MF_METADATA_VALUE_1` to `XML_3MF_METADATA_VALUE_9`. -/
def metaDataValues : List String :=
  ["Title", "Designer", "Description", "Copyright", "LicenseTerms", "Rating", "CreationDate",
    "ModificationDate", "Application"]

/-- `XML_3MF_MAXMETADATACOUNT`. -/
def maxMetaDataCount : Nat := 2147483647

/-- `isValidNamespaceAndName`. -/
def isValidNamespaceAndName (nameSpace name : String) : Bool :=
  if nameSpace = "" then decide (name ∈ metaDataValues) else decide (name ≠ "")

/-- `calculateKey`. -/
def calculateKey (nameSpace name : String) : String :=
  if nameSpace = "" then name else nameSpace ++ ":" ++ name

/-- `decomposeKeyIntoNamespaceAndName`: at the first colon. -/
def decomposeKeyIntoNamespaceAndName (key : String) : String × String :=
  match key.toList.dropWhile (· ≠ ':') with
  | [] => ("", key)
  | _ :: name => (String.ofList (key.toList.takeWhile (· ≠ ':')), String.ofList name)

/-- `CModelMetaData`; every setter keeps the two checks of the constructor. -/
structure ModelMetaData where
  nameSpace : String
  name : String
  value : String
  type : String
  preserve : Bool
  valid : isValidNamespaceAndName nameSpace name = true
  typed : type ≠ ""
  deriving DecidableEq

namespace ModelMetaData

/-- The constructor. -/
def create (nameSpace name value type : String) (preserve : Bool) : Except Error ModelMetaData :=
  if hv : isValidNamespaceAndName nameSpace name = true then
    if ht : type = "" then .error .invalidMetaData
    else .ok ⟨nameSpace, name, value, type, preserve, hv, ht⟩
  else .error .invalidMetaData

/-- `getKey`. -/
def key (md : ModelMetaData) : String := calculateKey md.nameSpace md.name

/-- `setName`. -/
def setName (md : ModelMetaData) (name : String) : Except Error ModelMetaData :=
  if h : isValidNamespaceAndName md.nameSpace name = true then
    .ok { md with name := name, valid := h }
  else .error .invalidMetaData

/-- `setNameSpace`. -/
def setNameSpace (md : ModelMetaData) (nameSpace : String) : Except Error ModelMetaData :=
  if h : isValidNamespaceAndName nameSpace md.name = true then
    .ok { md with nameSpace := nameSpace, valid := h }
  else .error .invalidMetaData

@[simp] theorem create_self (md : ModelMetaData) :
    create md.nameSpace md.name md.value md.type md.preserve = .ok md := by
  simp [create, md.valid, md.typed]

end ModelMetaData

/-- `CModelMetaDataGroup`: `m_MetaData`, which `addMetaData` keeps within its quota, and the keys of
`m_MetaDataMap`. -/
structure ModelMetaDataGroup where
  metaData : List ModelMetaData
  keys : List String
  bounded : metaData.length ≤ maxMetaDataCount
  deriving DecidableEq

namespace ModelMetaDataGroup

/-- The constructor. -/
def empty : ModelMetaDataGroup := ⟨[], [], Nat.zero_le _⟩

/-- `clear`. -/
def clear (_ : ModelMetaDataGroup) : ModelMetaDataGroup := empty

/-- `hasMetaData`. -/
def hasMetaData (g : ModelMetaDataGroup) (key : String) : Bool := decide (key ∈ g.keys)

/-- `addMetaData`. -/
def addMetaData (g : ModelMetaDataGroup) (nameSpace name value type : String) (preserve : Bool) :
    Except Error ModelMetaDataGroup :=
  if g.hasMetaData (calculateKey nameSpace name) then .error .duplicateMetaData
  else if isValidNamespaceAndName nameSpace name = false then .error .invalidMetaData
  else if h : maxMetaDataCount ≤ g.metaData.length then .error .invalidMetaDataCount
  else do
    let md ← ModelMetaData.create nameSpace name value type preserve
    .ok ⟨g.metaData ++ [md], g.keys ++ [md.key],
      by rw [List.length_append, List.length_singleton]; omega⟩

/-- `removeMetaData`. -/
def removeMetaData (g : ModelMetaDataGroup) (index : Nat) : Except Error ModelMetaDataGroup :=
  if index < g.metaData.length then
    .ok ⟨g.metaData.eraseIdx index, g.keys,
      Nat.le_trans (List.length_eraseIdx_le ..) g.bounded⟩
  else .error .invalidIndex

/-- Call a setter of the entry at `index`, which `getMetaData` returns. -/
def updateMetaData (g : ModelMetaDataGroup) (index : Nat)
    (set : ModelMetaData → Except Error ModelMetaData) : Except Error ModelMetaDataGroup :=
  match g.metaData[index]? with
  | none => .error .invalidIndex
  | some md => do
    let md ← set md
    .ok ⟨g.metaData.set index md, g.keys, by rw [List.length_set]; exact g.bounded⟩

/-- `mergeMetaData`. -/
def mergeMetaData (g source : ModelMetaDataGroup) : Except Error ModelMetaDataGroup :=
  source.metaData.foldlM (fun g md => g.addMetaData md.nameSpace md.name md.value md.type md.preserve)
    g

end ModelMetaDataGroup

/-! ## Calls -/

/-- The calls on a group and on its entries. -/
inductive MetaDataCall where
  | addMetaData (nameSpace name value type : String) (preserve : Bool)
  | removeMetaData (index : Nat)
  | mergeMetaData (source : ModelMetaDataGroup)
  | clear
  /-- `setName` of the entry at `index`. -/
  | setName (index : Nat) (name : String)
  /-- `setNameSpace` of the entry at `index`. -/
  | setNameSpace (index : Nat) (nameSpace : String)
  deriving DecidableEq

namespace ModelMetaDataGroup

/-- `mergeMetaData` of the entries `source`, which keeps what it added before it throws. -/
def mergeEntries (g : ModelMetaDataGroup) :
    List ModelMetaData → ModelMetaDataGroup × Option Error
  | [] => (g, none)
  | md :: source =>
    match g.addMetaData md.nameSpace md.name md.value md.type md.preserve with
    | .ok g' => g'.mergeEntries source
    | .error e => (g, some e)

/-- One call, with the error it throws. -/
def step (g : ModelMetaDataGroup) : MetaDataCall → ModelMetaDataGroup × Option Error
  | .addMetaData nameSpace name value type preserve =>
    orThrow g (g.addMetaData nameSpace name value type preserve)
  | .removeMetaData index => orThrow g (g.removeMetaData index)
  | .mergeMetaData source => g.mergeEntries source.metaData
  | .clear => (g.clear, none)
  | .setName index name => orThrow g (g.updateMetaData index fun md => md.setName name)
  | .setNameSpace index nameSpace =>
    orThrow g (g.updateMetaData index fun md => md.setNameSpace nameSpace)

/-- The state a call leaves. -/
def next (g : ModelMetaDataGroup) (c : MetaDataCall) : ModelMetaDataGroup := (g.step c).1

/-- `mergeEntries` throws what `mergeMetaData` throws, and leaves what it returns. -/
theorem mergeEntries_spec (g source : ModelMetaDataGroup) :
    g.mergeMetaData source = match g.mergeEntries source.metaData with
      | (g', none) => .ok g'
      | (_, some e) => .error e := by
  unfold mergeMetaData
  generalize source.metaData = es
  induction es generalizing g with
  | nil => rfl
  | cons md es ih =>
    rw [List.foldlM_cons, mergeEntries]
    cases h : g.addMetaData md.nameSpace md.name md.value md.type md.preserve with
    | error e => rfl
    | ok g' => exact ih g'

end ModelMetaDataGroup

end NMR
