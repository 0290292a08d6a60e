import Mathlib.Data.Prod.Lex
import Mathlib.Data.String.Basic
import Lib3MF.Lib.SortedMap
import Lib3MF.Common.Exception

/-!
# Package resource IDs

`CResourceHandler` issues the IDs of a model's resources: a resource read from part `path` under
the number `id` gets a `uniqueID` of the whole model, and is found again under either
(`findResourceID`, `findResourceIDByPath`).
-/

namespace NMR

open Lib

/-- `CPackageResourceID`. -/
structure PackageResourceID where
  path : String
  id : Nat
  uniqueID : Nat
  deriving DecidableEq

/-- `CResourceHandler`. -/
structure ResourceHandler where
  resourceIDs : SortedMap Nat PackageResourceID
  idAndPathToResourceIDs : SortedMap (Nat ×ₗ String) PackageResourceID
  deriving DecidableEq

namespace ResourceHandler

/-- A new handler. -/
def empty : ResourceHandler := ⟨.empty, .empty⟩

/-- `findResourceID(id)`. -/
def findResourceID (h : ResourceHandler) (uniqueID : Nat) : Option PackageResourceID :=
  h.resourceIDs.find? uniqueID

/-- `findResourceID(path, id)`. -/
def findResourceIDByPath (h : ResourceHandler) (path : String) (id : Nat) :
    Option PackageResourceID :=
  h.idAndPathToResourceIDs.find? (toLex (id, path))

/-- `getNewResourceID`: the unique ID is the number of IDs issued plus one, in 32 bits. -/
def getNewResourceID (h : ResourceHandler) (path : String) (id : Nat) :
    Except Error (ResourceHandler × PackageResourceID) :=
  if (h.findResourceIDByPath path id).isSome then .error .duplicateResourceID
  else
    let p : PackageResourceID := ⟨path, id, (h.resourceIDs.size + 1) % 2 ^ 32⟩
    .ok (⟨h.resourceIDs.insert p.uniqueID p,
      h.idAndPathToResourceIDs.insert (toLex (id, path)) p⟩, p)

/-- `id` is registered under `path`. -/
def Registered (h : ResourceHandler) (path : String) (id : Nat) : Prop :=
  (h.findResourceIDByPath path id).isSome

instance (h : ResourceHandler) (path : String) (id : Nat) : Decidable (h.Registered path id) :=
  inferInstanceAs (Decidable (_ = true))

variable {h h' : ResourceHandler} {path path' : String} {id id' : Nat} {p : PackageResourceID}

@[simp] theorem not_registered_empty : ¬ empty.Registered path id := by
  simp [Registered, findResourceIDByPath, empty]

/-- What issuing an ID does. -/
theorem getNewResourceID_spec (hn : h.getNewResourceID path id = .ok (h', p)) :
    ¬ h.Registered path id ∧ p = ⟨path, id, (h.resourceIDs.size + 1) % 2 ^ 32⟩ ∧
      h' = ⟨h.resourceIDs.insert p.uniqueID p,
        h.idAndPathToResourceIDs.insert (toLex (id, path)) p⟩ := by
  unfold getNewResourceID at hn
  split_ifs at hn with hr
  simp only [Except.ok.injEq, Prod.mk.injEq] at hn
  obtain ⟨rfl, rfl⟩ := hn
  exact ⟨hr, rfl, rfl⟩

/-- An ID is issued exactly when it is not registered yet. -/
theorem getNewResourceID_isOk :
    (∃ r, h.getNewResourceID path id = .ok r) ↔ ¬ h.Registered path id := by
  unfold getNewResourceID Registered
  split_ifs with hr <;> simp [hr]

/-- Afterwards the new ID is registered, and nothing else. -/
theorem registered_getNewResourceID (hn : h.getNewResourceID path id = .ok (h', p)) :
    h'.Registered path' id' ↔ (path' = path ∧ id' = id) ∨ h.Registered path' id' := by
  obtain ⟨-, rfl, rfl⟩ := getNewResourceID_spec hn
  simp only [Registered, findResourceIDByPath, SortedMap.find?_isSome, SortedMap.mem_keys_insert]
  constructor
  · rintro (he | hm)
    · have h2 : (id', path') = (id, path) := toLex.injective he
      simp only [Prod.mk.injEq] at h2
      exact .inl ⟨h2.2, h2.1⟩
    · exact .inr hm
  · rintro (⟨rfl, rfl⟩ | hm)
    · exact .inl rfl
    · exact .inr hm

end ResourceHandler

end NMR
