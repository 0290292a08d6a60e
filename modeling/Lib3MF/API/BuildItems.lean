import Lib3MF.API.Session
import Lib3MF.Model.Classes.Merge

/-!
# Build items of several models

The calls that matter for the handles of build items, on the models of a process: `createModel` and
`MergeToModel` make models, `RemoveBuildItem` and the calls of a session change one of them. Models
are named by their order.
-/

namespace NMR

open Lib

/-- The calls; `model` is the place of the model. -/
inductive BuildCall where
  | createModel
  /-- A call of a session: `AddBuildItem`, a reader that adds an item, or another. -/
  | call (model : Nat) (c : Call)
  /-- A reader draws a handle and fails before it adds the item. -/
  | drawHandle (model : Nat)
  /-- `RemoveBuildItem`, with an item of that handle. -/
  | removeBuildItem (model handle : Nat)
  | mergeToModel (model : Nat) (uninit : FaceProperties) (fuel : Nat)

/-- The models of a process. -/
abbrev Models := List Model

namespace Models

/-- Call a function of one model; nothing changes where it throws. -/
def update (w : Models) (model : Nat) (f : Model → Except Error Model) : Models :=
  w.modify model fun m => (orThrow m (f m)).1

/-- `MergeToModel`: the source has drawn the handle of the new model's item. -/
def mergeToModel (w : Models) (model : Nat) (uninit : FaceProperties) (fuel : Nat) : Models :=
  match w[model]? with
  | none => w
  | some m =>
    match (m.mergeToModel uninit fuel).run with
    | some (.ok out) => w.set model out.source ++ [out.target]
    | _ => w

/-- The models a call leaves. -/
def next (w : Models) : BuildCall → Models
  | .createModel => w ++ [.new]
  | .call model c => w.modify model fun m => m.next c
  | .drawHandle model => w.update model fun m => m.createHandle.map Prod.fst
  | .removeBuildItem model handle => w.update model fun m => m.removeBuildItem handle
  | .mergeToModel model uninit fuel => w.mergeToModel model uninit fuel

end Models

end NMR
