import Lib3MF.Model.Classes.Model

/-!
# Components

`CModelComponentsObject::addComponent`, the API's `AddComponent` above it and the reader's use of
it.
-/

namespace NMR.Model

/-- `CModelComponentsObject::addComponent`, for a component of an object of the same model. -/
def addComponent (m : Model) (r : ResourceRef) (c : Component) : Except Error Model :=
  match m.data? r with
  | some (.componentsObject info cs) =>
    if m.uniqueID? c.object = m.uniqueID? r then .error .modelMismatch
    else .ok (m.setData r (.componentsObject info (cs ++ [c])))
  | _ => .error .apiInvalidComponentsObject

/-- `AddComponent` of the API, called with an object whose resource ID is `objectID`. -/
def apiAddComponent (m : Model) (r : ResourceRef) (objectID : Nat) (transform : Matrix3) :
    Except Error Model :=
  match m.data? r with
  | some (.componentsObject ..) =>
    if m.uniqueID? r = some objectID then .error .apiForbiddenCyclicReference
    else
      match m.findObject objectID with
      | .error e => .error e
      | .ok none => .error .apiResourceNotFound
      | .ok (some o) => m.addComponent r ⟨o, transform⟩
  | _ => .error .apiInvalidComponentsObject

/-- A `component` element of the reader, which found the ID `objectID` for its object. -/
def readComponent (m : Model) (r : ResourceRef) (objectID : Nat) (transform : Matrix3) :
    Except Error Model :=
  match m.findObject objectID with
  | .error e => .error e
  | .ok none => .error .couldNotFindComponentObject
  | .ok (some o) => m.addComponent r ⟨o, transform⟩

end NMR.Model
