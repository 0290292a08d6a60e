import Lib3MF.Model.Classes.MultiPropertyGroup

/-!
# The layers of a multi-property group

The calls on one `CModelMultiPropertyGroupResource` while resources are added to its model. What
`findResource` and the `dynamic_cast`s see of a resource is its class: one of the property
resources, or another.
-/

namespace NMR

open Lib

/-- The class of a resource; `none` is no property resource. -/
abbrev ResourceClass := Option PropertyResourceKind

/-- A multi-property group, in a model that has the resources of `classOf`. -/
structure LayeredGroup where
  classOf : Nat → Option ResourceClass
  layers : List MultiPropertyLayer

/-- The calls. -/
inductive LayerCall where
  /-- A resource is added to the model. -/
  | addResource (uniqueID : Nat) (c : ResourceClass)
  | addLayer (l : MultiPropertyLayer)
  | getLayer (index : UInt32)
  | setLayer (index : UInt32) (l : MultiPropertyLayer)
  | removeLayer (index : UInt32)

namespace LayeredGroup

/-- A new group of a model. -/
def new (classOf : Nat → Option ResourceClass) : LayeredGroup := ⟨classOf, []⟩

/-- The property resource a layer refers to, as the casts of `addLayer` see it. -/
def kindOf (g : LayeredGroup) (uniqueID : Nat) : Option PropertyResourceKind :=
  (g.classOf uniqueID).join

/-- `addResource` of the model, which has no resource of that ID. -/
def addResource (g : LayeredGroup) (uniqueID : Nat) (c : ResourceClass) : LayeredGroup :=
  if (g.classOf uniqueID).isSome then g
  else { g with classOf := fun id => if id = uniqueID then some c else g.classOf id }

/-- How a call ends. -/
inductive Outcome where
  | returns
  | throws (e : Error)
  | undefined
  deriving DecidableEq

/-- The state a call leaves that writes the layers it computes; where the behaviour is undefined,
nothing is said about it, and the layers stay. -/
def write (g : LayeredGroup) : Access (List MultiPropertyLayer) → LayeredGroup × Outcome
  | .ok layers => ({ g with layers := layers }, .returns)
  | .throws e => (g, .throws e)
  | .undefined => (g, .undefined)

/-- One call, with how it ends. -/
def step (g : LayeredGroup) : LayerCall → LayeredGroup × Outcome
  | .addResource uniqueID c => (g.addResource uniqueID c, .returns)
  | .addLayer l =>
    match addLayer g.kindOf g.layers l with
    | .ok layers => ({ g with layers := layers }, .returns)
    | .error e => (g, .throws e)
  | .getLayer index =>
    match getLayer g.layers index with
    | .ok _ => (g, .returns)
    | .throws e => (g, .throws e)
    | .undefined => (g, .undefined)
  | .setLayer index l => g.write (setLayer g.layers index l)
  | .removeLayer index => g.write (removeLayer g.layers index)

/-- The state a call leaves. -/
def next (g : LayeredGroup) (c : LayerCall) : LayeredGroup := (g.step c).1

end LayeredGroup

end NMR
