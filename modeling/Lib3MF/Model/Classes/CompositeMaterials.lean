import Lib3MF.Lib.Except
import Lib3MF.Model.Classes.Merge

/-!
# Composite materials

The base material groups and the composite resources of a model, each composite resource on one
of the groups. A resource is named by its place in its list; none is ever removed.
-/

namespace NMR

open Lib

/-- `CModelCompositeMaterialsResource`: the place of its base material group, and its composites. -/
structure CompositeMaterials where
  baseMaterialGroup : Nat
  composites : PropertyGroup Composite
  deriving DecidableEq

/-- The base material groups and the composite resources of a model. -/
structure ModelMaterials where
  baseMaterialGroups : List (PropertyGroup BaseMaterial)
  compositeMaterials : List CompositeMaterials
  deriving DecidableEq

/-- The calls; a group or a composite resource is given by its place. -/
inductive MaterialCall where
  | addBaseMaterialGroup
  | addMaterial (group : Nat) (v : BaseMaterial)
  | removeMaterial (group : Nat) (propertyID : Nat)
  | addCompositeMaterials (group : Nat)
  | addComposite (resource : Nat) (v : Composite)
  | setComposite (resource : Nat) (propertyID : Nat) (v : Composite)
  | removeComposite (resource : Nat) (propertyID : Nat)
  deriving DecidableEq

namespace ModelMaterials

/-- A new model. -/
def new : ModelMaterials := ⟨[], []⟩

/-- Call a function of a base material group. -/
def updateGroup (s : ModelMaterials) (group : Nat)
    (f : PropertyGroup BaseMaterial → Except Error (PropertyGroup BaseMaterial)) :
    Except Error ModelMaterials :=
  match s.baseMaterialGroups[group]? with
  | none => .error .apiInvalidParam
  | some g => do
    let g ← f g
    return { s with baseMaterialGroups := s.baseMaterialGroups.set group g }

/-- Call a function of a composite resource, which sees its base materials. -/
def updateComposites (s : ModelMaterials) (resource : Nat)
    (f : PropertyGroup BaseMaterial → PropertyGroup Composite →
      Except Error (PropertyGroup Composite)) : Except Error ModelMaterials :=
  match s.compositeMaterials[resource]? with
  | none => .error .apiInvalidParam
  | some c =>
    match s.baseMaterialGroups[c.baseMaterialGroup]? with
    | none => .error .invalidParam
    | some materials => do
      let composites ← f materials c.composites
      return { s with compositeMaterials :=
        s.compositeMaterials.set resource { c with composites := composites } }

/-- `AddCompositeMaterials`. -/
def addCompositeMaterials (s : ModelMaterials) (group : Nat) : Except Error ModelMaterials :=
  if group < s.baseMaterialGroups.length then
    .ok { s with compositeMaterials := s.compositeMaterials ++ [⟨group, .empty⟩] }
  else .error .apiResourceNotFound

/-- One call, with the error it throws. -/
def step (s : ModelMaterials) : MaterialCall → ModelMaterials × Option Error
  | .addBaseMaterialGroup =>
    ({ s with baseMaterialGroups := s.baseMaterialGroups ++ [.empty] }, none)
  | .addMaterial group v =>
    orThrow s (s.updateGroup group fun g => (addBaseMaterial g v).map Prod.fst)
  | .removeMaterial group id => orThrow s (s.updateGroup group fun g => .ok (g.remove id))
  | .addCompositeMaterials group => orThrow s (s.addCompositeMaterials group)
  | .addComposite resource v =>
    orThrow s (s.updateComposites resource fun materials g =>
      (addComposite materials g v).map Prod.fst)
  | .setComposite resource id v => orThrow s (s.updateComposites resource fun _ g => g.set id v)
  | .removeComposite resource id =>
    orThrow s (s.updateComposites resource fun _ g => .ok (g.remove id))

/-- The state a call leaves. -/
def next (s : ModelMaterials) (c : MaterialCall) : ModelMaterials := (s.step c).1

end ModelMaterials

end NMR
