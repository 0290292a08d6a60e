import Mathlib.Data.Finset.Insert
import Mathlib.Data.Finset.Erase
import Lib3MF.Lib.Except
import Lib3MF.Lib.Run
import Lib3MF.Common.Exception

/-!
# UUIDs

The UUIDs of a model: the registry `usedUUIDs` and the entities that hold one. The constructor of
a build item or an object registers the UUID it generates, the one of a component does not; a
setter registers the new UUID and then releases the old one; nothing is released when an entity
leaves the model.

An entity is named by its position among all that were constructed. One that left the model is
kept, since a client may still hold it; one that never got into it is dropped.
-/

namespace NMR

open Lib

/-- The text of a `CUUID`, in its normal form. -/
abbrev UUID := String

/-- `CUUID::set`: the hexadecimal digits in lower case, with the dashes put in anew. -/
def UUID.set (text : String) : Except Error UUID :=
  let digits := (text.toList.map Char.toLower).filter fun c =>
    ('0' ≤ c ∧ c ≤ '9') ∨ ('a' ≤ c ∧ c ≤ 'f')
  let part (start count : Nat) := (digits.drop start).take count
  if digits.length ≠ 32 then .error .illFormatUUID
  else .ok (String.ofList (part 0 8 ++ '-' :: part 8 4 ++ '-' :: part 12 4 ++ '-' :: part 16 4 ++
    '-' :: part 20 12))

/-- A digit is in lower case. -/
theorem toLower_of_digit {c : Char} (h : ('0' ≤ c ∧ c ≤ '9') ∨ ('a' ≤ c ∧ c ≤ 'f')) :
    c.toLower = c := by
  unfold Char.toLower
  apply dif_neg
  rintro ⟨h1, h2⟩
  have h1' : 65 ≤ c.val.toNat := UInt32.le_iff_toNat_le.1 h1
  have h2' : c.val.toNat ≤ 90 := UInt32.le_iff_toNat_le.1 h2
  rcases h with ⟨-, h⟩ | ⟨h, -⟩
  · have h' : c.val.toNat ≤ 57 := UInt32.le_iff_toNat_le.1 h
    omega
  · have h' : 97 ≤ c.val.toNat := UInt32.le_iff_toNat_le.1 h
    omega

/-- A UUID in its normal form is taken as it is. -/
theorem UUID.set_set {text : String} {u : UUID} (h : UUID.set text = .ok u) :
    UUID.set u = .ok u := by
  unfold UUID.set at h
  simp only at h
  generalize hd : (text.toList.map Char.toLower).filter (fun c =>
    decide (('0' ≤ c ∧ c ≤ '9') ∨ ('a' ≤ c ∧ c ≤ 'f'))) = digits at h
  have hhex : ∀ c ∈ digits, ('0' ≤ c ∧ c ≤ '9') ∨ ('a' ≤ c ∧ c ≤ 'f') := by
    intro c hc
    rw [← hd, List.mem_filter] at hc
    exact of_decide_eq_true hc.2
  split_ifs at h with hlen
  rw [not_not] at hlen
  obtain rfl := Except.ok.inj h
  -- the digits of the normal form are the digits it was made of
  have hpart (start count : Nat) : (((digits.drop start).take count).map Char.toLower).filter
      (fun c => decide (('0' ≤ c ∧ c ≤ '9') ∨ ('a' ≤ c ∧ c ≤ 'f'))) =
        (digits.drop start).take count := by
    have hsub : ∀ c ∈ (digits.drop start).take count, c ∈ digits :=
      fun c hc => List.mem_of_mem_drop (List.mem_of_mem_take hc)
    rw [List.map_congr_left fun c hc => toLower_of_digit (hhex c (hsub c hc)), List.map_id',
      List.filter_eq_self]
    exact fun c hc => decide_eq_true (hhex c (hsub c hc))
  have hdash : Char.toLower '-' = '-' := by decide
  have hjoin : (digits.drop 0).take 8 ++ ((digits.drop 8).take 4 ++ ((digits.drop 12).take 4 ++
      ((digits.drop 16).take 4 ++ (digits.drop 20).take 12))) = digits := by
    rw [List.drop_zero, show (digits.drop 20).take 12 = digits.drop 20 from
      List.take_of_length_le (by rw [List.length_drop]; omega)]
    rw [show digits.drop 20 = (digits.drop 16).drop 4 by rw [List.drop_drop], List.take_append_drop,
      show digits.drop 16 = (digits.drop 12).drop 4 by rw [List.drop_drop], List.take_append_drop,
      show digits.drop 12 = (digits.drop 8).drop 4 by rw [List.drop_drop], List.take_append_drop,
      List.take_append_drop]
  have hdigits : ((String.ofList ((digits.drop 0).take 8 ++ '-' :: (digits.drop 8).take 4 ++
      '-' :: (digits.drop 12).take 4 ++ '-' :: (digits.drop 16).take 4 ++
      '-' :: (digits.drop 20).take 12)).toList.map Char.toLower).filter
      (fun c => decide (('0' ≤ c ∧ c ≤ '9') ∨ ('a' ≤ c ∧ c ≤ 'f'))) = digits := by
    simp only [String.toList_ofList, List.map_append, List.map_cons, List.filter_append, hdash,
      List.append_assoc, List.cons_append, List.filter_cons, hpart, Bool.false_eq_true, if_false,
      show decide (('0' ≤ '-' ∧ '-' ≤ '9') ∨ ('a' ≤ '-' ∧ '-' ≤ 'f')) = false by decide]
    exact hjoin
  unfold UUID.set
  simp only [hdigits, hlen]
  rfl

/-- What holds UUIDs. -/
inductive EntityKind where
  | build | object | buildItem | component
  deriving DecidableEq

/-- An entity, with whether it is in the model. -/
structure Entity where
  kind : EntityKind
  uuid : UUID
  inModel : Bool
  deriving DecidableEq

/-- The UUIDs of a `CModel`. -/
structure UUIDs where
  usedUUIDs : Finset UUID
  entities : List Entity
  deriving DecidableEq

/-- The calls. `generated` is the UUID that a constructor draws; `added` says whether the entity
then gets into the model or is dropped on a later error. -/
inductive UUIDCall where
  /-- The constructor of `CModelObject`. -/
  | constructObject (generated : UUID) (added : Bool)
  /-- The constructor of `CModelBuildItem`. -/
  | constructBuildItem (generated : UUID) (added : Bool)
  /-- `AddComponent`. -/
  | addComponent (generated : UUID) (added : Bool)
  /-- The reader of a component, which then sets the UUID of the file, or another new one. -/
  | readComponent (generated uuid : UUID) (added : Bool)
  /-- `SetUUID` or `SetBuildUUID`. -/
  | setUUID (entity : Nat) (text : String)
  | removeBuildItem (entity : Nat)
  | clearAll
  deriving DecidableEq

namespace UUIDs

/-- `registerUUID`. -/
def registerUUID (s : UUIDs) (uuid : UUID) : Except Error UUIDs :=
  if uuid ∈ s.usedUUIDs then .error .uuidNotUnique
  else .ok { s with usedUUIDs := insert uuid s.usedUUIDs }

/-- `unRegisterUUID`. -/
def unRegisterUUID (s : UUIDs) (uuid : UUID) : UUIDs :=
  { s with usedUUIDs := s.usedUUIDs.erase uuid }

/-- A new entity, unless it is dropped. -/
def addEntity (s : UUIDs) (kind : EntityKind) (uuid : UUID) (added : Bool) : UUIDs :=
  if added then { s with entities := s.entities ++ [⟨kind, uuid, true⟩] } else s

/-- `setUUID` of an object, a build item or a component, and `setBuildUUID`. -/
def setUUID (s : UUIDs) (i : Nat) (uuid : UUID) : Except Error UUIDs :=
  match s.entities[i]? with
  | none => .error .invalidParam
  | some e => do
    let s ← s.registerUUID uuid
    let s := s.unRegisterUUID e.uuid
    return { s with entities := s.entities.set i { e with uuid := uuid } }

/-- `SetUUID` of the API. -/
def apiSetUUID (s : UUIDs) (i : Nat) (text : String) : Except Error UUIDs := do
  let uuid ← UUID.set text
  s.setUUID i uuid

/-- The constructors of an object and of a build item, which have no UUID to release. -/
def construct (s : UUIDs) (kind : EntityKind) (generated : UUID) (added : Bool) :
    Except Error UUIDs := do
  let s ← s.registerUUID generated
  return s.addEntity kind generated added

/-- The constructor of a component, and its setter. -/
def readComponent (s : UUIDs) (generated uuid : UUID) (added : Bool) : Except Error UUIDs := do
  let s ← s.registerUUID uuid
  let s := s.unRegisterUUID generated
  return s.addEntity .component uuid added

/-- `removeBuildItem`. -/
def removeBuildItem (s : UUIDs) (i : Nat) : Except Error UUIDs :=
  match s.entities[i]? with
  | none => .error .invalidParam
  | some e =>
    if e.kind = .buildItem ∧ e.inModel then
      .ok { s with entities := s.entities.set i { e with inModel := false } }
    else .error .buildItemNotFound

/-- `clearAll`: the build stays. -/
def clearAll (s : UUIDs) : UUIDs :=
  { s with entities := s.entities.map fun e => { e with inModel := e.inModel ∧ e.kind = .build } }

/-- A new model, with the UUID its constructor draws. -/
def new (generated : UUID) : UUIDs := ⟨{generated}, [⟨.build, generated, true⟩]⟩

/-- One call, with the error it throws. -/
def step (s : UUIDs) : UUIDCall → UUIDs × Option Error
  | .constructObject generated added => orThrow s (s.construct .object generated added)
  | .constructBuildItem generated added => orThrow s (s.construct .buildItem generated added)
  | .addComponent generated added => (s.addEntity .component generated added, none)
  | .readComponent generated uuid added => orThrow s (s.readComponent generated uuid added)
  | .setUUID i text => orThrow s (s.apiSetUUID i text)
  | .removeBuildItem i => orThrow s (s.removeBuildItem i)
  | .clearAll => (s.clearAll, none)

/-- The state a call leaves. -/
def next (s : UUIDs) (c : UUIDCall) : UUIDs := (s.step c).1

end UUIDs

end NMR
