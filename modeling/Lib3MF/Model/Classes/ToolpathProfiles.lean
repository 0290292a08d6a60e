import Mathlib.Data.String.Basic
import Lib3MF.Common.Math.Geometry
import Lib3MF.Lib.SortedMap
import Lib3MF.Model.Classes.UUIDs

/-!
# The profiles of a toolpath

`CModelToolpath` as far as its profiles go: the list of them and the map that finds one by UUID.
A profile is named by its place in the list, which never changes. Reading a file adds its profiles
by `addExistingProfile`, under the text it finds there.
-/

namespace NMR

open Lib

/-- `CModelToolpathProfile`. -/
structure ToolpathProfile where
  uuid : UUID
  name : String
  laserPower : Double
  laserSpeed : Double
  laserFocus : Double
  laserIndex : Nat
  deriving DecidableEq

/-- `m_Profiles` and `m_ProfileMap`. -/
structure Toolpath where
  profiles : List ToolpathProfile
  profileMap : SortedMap String Nat

/-- What a profile is added with, apart from its UUID. -/
structure ProfileData where
  name : String
  laserPower : Double
  laserSpeed : Double
  laserFocus : Double
  laserIndex : Nat
  deriving DecidableEq

namespace Toolpath

/-- The constructor. -/
def new : Toolpath := ⟨[], .empty⟩

/-- A new profile with the UUID `uuid`, and in the map under `key`. -/
def pushProfile (t : Toolpath) (key : String) (uuid : UUID) (d : ProfileData) : Toolpath where
  profiles := t.profiles ++
    [⟨uuid, d.name, d.laserPower, d.laserSpeed, d.laserFocus, d.laserIndex⟩]
  profileMap := t.profileMap.insert key t.profiles.length

/-- `addProfile`. The constructor `CUUID` sets the UUID to `digits`, which it draws. -/
def addProfile (t : Toolpath) (digits : String) (d : ProfileData) : Except Error Toolpath := do
  let newUUID ← UUID.set digits
  return t.pushProfile newUUID newUUID d

/-- `addExistingProfile`. -/
def addExistingProfile (t : Toolpath) (uuid : String) (d : ProfileData) :
    Except Error Toolpath := do
  let checkUUID ← UUID.set uuid
  return t.pushProfile uuid checkUUID d

/-- `getProfileByUUID`: the place of the profile. -/
def getProfileByUUID (t : Toolpath) (uuid : String) : Option Nat := t.profileMap.find? uuid

end Toolpath

/-- The calls on a toolpath. -/
inductive ToolpathCall where
  | addProfile (digits : String) (d : ProfileData)
  | addExistingProfile (uuid : String) (d : ProfileData)
  deriving DecidableEq

namespace Toolpath

/-- One call, with the error it throws. -/
def step (t : Toolpath) : ToolpathCall → Toolpath × Option Error
  | .addProfile digits d => orThrow t (t.addProfile digits d)
  | .addExistingProfile uuid d => orThrow t (t.addExistingProfile uuid d)

/-- The state a call leaves. -/
def next (t : Toolpath) (c : ToolpathCall) : Toolpath := (t.step c).1

end Toolpath

end NMR
