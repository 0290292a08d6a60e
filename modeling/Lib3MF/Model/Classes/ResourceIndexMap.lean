import Mathlib.Logic.Function.Basic
import Lib3MF.Lib.State
import Lib3MF.Lib.Run
import Lib3MF.Model.Classes.PropertyGroup

/-!
# Property groups and their index maps

`CModelResource` keeps the resource index map as a cache for the five classes of property groups,
which build it and drop it (`IndexedGroup`). A call is made on one group of a class
(`GroupCall`), `mergeFrom` on two, which may be the same one. The history of a group, which no
function reads, lists the property IDs that were issued and removed. The layers of a multi-property
group are left out, but for what adding those of the source ends in.
-/

namespace NMR

open Lib

/-- What happens to a property ID. -/
inductive PropertyEvent where
  | issued (id : Nat)
  | removed (id : Nat)
  deriving DecidableEq

/-- The classes of property groups. -/
inductive PropertyGroupKind where
  | baseMaterials | colorGroup | texture2DGroup | compositeMaterials | multiPropertyGroup
  deriving DecidableEq

/-- The error for a full group. -/
def PropertyGroupKind.tooMany : PropertyGroupKind → Error
  | .baseMaterials => .tooManyMaterials
  | .colorGroup => .tooManyColors
  | .texture2DGroup => .tooManyColors
  | .compositeMaterials => .tooManyComposites
  | .multiPropertyGroup => .tooManyComposites

/-- A property group with the index map of its base class; the history has the latest event
first. -/
structure IndexedGroup (α : Type) where
  group : PropertyGroup α
  resourceIndexMap : List Nat
  hasResourceIndexMap : Bool
  history : List PropertyEvent
  deriving DecidableEq

namespace IndexedGroup

variable {α : Type}

/-- The constructors. -/
def new : IndexedGroup α := ⟨.empty, [], false, []⟩

/-- `clearResourceIndexMap`. -/
def clearResourceIndexMap (g : IndexedGroup α) : IndexedGroup α :=
  { g with resourceIndexMap := [], hasResourceIndexMap := false }

/-- `buildResourceIndexMap`. -/
def buildResourceIndexMap (g : IndexedGroup α) : IndexedGroup α :=
  { g with resourceIndexMap := g.group.buildResourceIndexMap, hasResourceIndexMap := true }

/-- `mapResourceIndexToPropertyID`: `none` where it returns false, with 0 for the ID. -/
def mapResourceIndexToPropertyID (g : IndexedGroup α) (nPropertyIndex : Nat) : Option Nat :=
  g.resourceIndexMap[nPropertyIndex]?

/-- `addBaseMaterial`, `addColor`, `addUVCoordinate`, `addComposite`, `addMultiProperty`. What
`addComposite` finds out about the constituents is `check`; the other classes check nothing. -/
def add (kind : PropertyGroupKind) (check : α → Except Error Unit) (g : IndexedGroup α) (v : α) :
    Except Error (IndexedGroup α × Nat) := do
  let (group, nID) ← g.group.add kind.tooMany check v
  return ({ g with group := group, history := .issued nID :: g.history }.clearResourceIndexMap, nID)

/-- `setColor`, `setUVCoordinate`, `setComposite`, `setMultiProperty`, and the setters of a base
material. -/
def set (g : IndexedGroup α) (nPropertyID : Nat) (v : α) : Except Error (IndexedGroup α) :=
  return { g with group := ← g.group.set nPropertyID v }

/-- `removeMaterial`, `removeColor`, `removePropertyID`, `removeComposite`,
`removeMultiProperty`. -/
def remove (g : IndexedGroup α) (nPropertyID : Nat) : IndexedGroup α :=
  { g with
    group := g.group.remove nPropertyID
    history := if nPropertyID ∈ g.group.entries.keys then .removed nPropertyID :: g.history
      else g.history }.clearResourceIndexMap

end IndexedGroup

/-- The calls on the groups of one class. -/
inductive GroupCall (ι α : Type) where
  | add (i : ι) (check : α → Except Error Unit) (v : α)
  | set (i : ι) (nPropertyID : Nat) (v : α)
  | remove (i : ι) (nPropertyID : Nat)
  /-- `layers` is how `addLayer` of the layers of a multi-property group ends; the other classes have
  none. -/
  | mergeFrom (i source : ι) (check : α → Except Error Unit) (layers : Except Error Unit)
  | clearResourceIndexMap (i : ι)
  | buildResourceIndexMap (i : ι)

/-- The groups of one class. -/
abbrev Groups (ι α : Type) := ι → IndexedGroup α

namespace Groups

variable {ι α : Type} [DecidableEq ι]

abbrev M (ι α : Type) := EStateM Error (Groups ι α)

/-- A call that does not throw. -/
def change (i : ι) (f : IndexedGroup α → IndexedGroup α) : M ι α Unit :=
  modify fun s => Function.update s i (f (s i))

/-- A call that may throw, and leaves the group as it is then. -/
def attempt (i : ι) (f : IndexedGroup α → Except Error (IndexedGroup α)) : M ι α Unit := fun s =>
  match f (s i) with
  | .error e => .error e s
  | .ok g => .ok () (Function.update s i g)

/-- One property of `mergeFrom`. The source is looked at anew each time. -/
def mergeProperty (kind : PropertyGroupKind) (check : α → Except Error Unit) (i source : ι)
    (nIndex : Nat) : M ι α Unit := fun s =>
  let nPropertyID := ((s source).mapResourceIndexToPropertyID nIndex).getD 0
  match (s source).group.get nPropertyID with
  | .error e => .error e s
  | .ok v => attempt i (fun g => return (← g.add kind check v).1) s

/-- The layers that `mergeFrom` of a multi-property group adds, behind the properties. -/
def mergeLayers (layers : Except Error Unit) : M ι α Unit := fun s =>
  match layers with
  | .error e => .error e s
  | .ok () => .ok () s

/-- `mergeFrom`. -/
def mergeFrom (kind : PropertyGroupKind) (check : α → Except Error Unit)
    (layers : Except Error Unit) (i source : ι) : M ι α Unit := do
  let nCount := ((← get) source).group.getCount
  change source IndexedGroup.buildResourceIndexMap
  (List.range nCount).forM (mergeProperty kind check i source)
  mergeLayers layers
  change i IndexedGroup.clearResourceIndexMap

/-- A call. -/
def perform (kind : PropertyGroupKind) : GroupCall ι α → M ι α Unit
  | .add i check v => attempt i fun g => return (← g.add kind check v).1
  | .set i nPropertyID v => attempt i fun g => g.set nPropertyID v
  | .remove i nPropertyID => change i fun g => g.remove nPropertyID
  | .mergeFrom i source check layers => mergeFrom kind check layers i source
  | .clearResourceIndexMap i => change i IndexedGroup.clearResourceIndexMap
  | .buildResourceIndexMap i => change i IndexedGroup.buildResourceIndexMap

/-- The groups after a call, also one that threw. -/
def next (kind : PropertyGroupKind) (s : Groups ι α) (c : GroupCall ι α) : Groups ι α :=
  finalState (perform kind c s)

/-- All groups as their constructors leave them. -/
def new : Groups ι α := fun _ => .new

end Groups

end NMR
