import Lib3MF.Lib.Except
import Lib3MF.Lib.Run
import Lib3MF.Model.Classes.SliceStack
import Lib3MF.API.ComponentsObject

/-!
# Sessions

A session is a sequence of `Call`s on one model: the API's own operations, and what reading,
exporting and merging do to the model in terms of its methods. Reading a file clears the model,
sets its paths and, resource by resource, constructs it under the ID of the file, fills it and
adds it (here it is added first, which nobody sees); a read that fails leaves the resource it was
at constructed, but not added. Exporting moves the current path.
`Model.step` is one call, with the error it throws; `Model.next` the state it leaves.
-/

namespace NMR

open Lib

/-- What a resource is constructed as. -/
inductive NewResource where
  | meshObject (mesh : Mesh)
  | componentsObject
  | baseMaterials
  | colorGroup
  | texture2D (texture : Texture2D)
  | texture2DGroup (texture : ResourceRef)
  | compositeMaterials (baseMaterials : ResourceRef)
  | multiPropertyGroup
  | sliceStack (zBottom : Double)
  | toolpath (unitFactor : ℚ)
  deriving DecidableEq

/-- The data of a new resource. -/
def NewResource.data : NewResource → ResourceData
  | .meshObject mesh => .meshObject .new mesh
  | .componentsObject => .componentsObject .new []
  | .baseMaterials => .baseMaterials .empty
  | .colorGroup => .colorGroup .empty
  | .texture2D t => .texture2D t
  | .texture2DGroup t => .texture2DGroup t .empty
  | .compositeMaterials b => .compositeMaterials b .empty
  | .multiPropertyGroup => .multiPropertyGroup [] .empty
  | .sliceStack z => .sliceStack (.new z)
  | .toolpath f => .toolpath f

/-- The calls of a session. -/
inductive Call where
  /-- The constructor of a reader. -/
  | clearAll
  /-- A reader, for each part it reads, and a writer, for each part it writes. -/
  | setCurPath (path : String)
  | setRootPath (path : String)
  /-- A reader reads the resource the file numbers `id`. -/
  | readResource (id : Nat) (new : NewResource)
  /-- A reader fails inside that resource. -/
  | construct (id : Nat) (new : NewResource)
  /-- An `Add*` call of the API, or a merge: a resource with a fresh ID. -/
  | add (new : NewResource)
  | addComponent (r : ResourceRef) (objectID : Nat) (transform : Matrix3)
  | readComponent (r : ResourceRef) (objectID : Nat) (transform : Matrix3)
  | addSlice (r : ResourceRef) (zTop : Double)
  | addSliceStackReference (r : ResourceRef) (stackID : Nat)
  | collapseSliceReferences (r : ResourceRef)
  | setOwnPath (r : ResourceRef) (path : String)
  | setZBottom (r : ResourceRef) (zBottom : Double)
  | addBuildItem (objectID : Nat) (transform : Matrix3)
  /-- The setters of an object. -/
  | setObjectInfo (r : ResourceRef) (info : ObjectInfo)
  /-- The editing calls of a mesh, a texture, a property group or a toolpath. -/
  | edit (r : ResourceRef) (data : ResourceData)
  deriving DecidableEq

/-- A resource after an editing call that leaves it as `data`; the class never changes, and
components and slice stacks are edited by their own calls. -/
def ResourceData.editTo : ResourceData → ResourceData → ResourceData
  | .meshObject i _, .meshObject _ m => .meshObject i m
  | .baseMaterials _, .baseMaterials g => .baseMaterials g
  | .colorGroup _, .colorGroup g => .colorGroup g
  | .texture2D _, .texture2D t => .texture2D t
  | .texture2DGroup t _, .texture2DGroup _ g => .texture2DGroup t g
  | .compositeMaterials b _, .compositeMaterials _ g => .compositeMaterials b g
  | .multiPropertyGroup _ _, .multiPropertyGroup l g => .multiPropertyGroup l g
  | .toolpath _, .toolpath f => .toolpath f
  | d, _ => d

/-- A resource after a setter of its object. -/
def ResourceData.setInfo : ResourceData → ObjectInfo → ResourceData
  | .meshObject _ m, i => .meshObject i m
  | .componentsObject _ cs, i => .componentsObject i cs
  | d, _ => d

namespace Model

/-- `AddSliceStackReference` of the API. -/
def addSliceStackReference (m : Model) (r : ResourceRef) (stackID : Nat) : Except Error Model :=
  match m.findResource stackID with
  | none => .error .apiInvalidSliceStackResource
  | some o =>
    match m.stack? o with
    | none => .error .apiInvalidSliceStackResource
    | some _ => m.addSliceRef r o

/-- `AddBuildItem` of the API. The handle stays drawn where the item is not added. -/
def apiAddBuildItem (m : Model) (objectID : Nat) (transform : Matrix3) : Model × Option Error :=
  match m.findObject objectID with
  | .error e => (m, some e)
  | .ok none => (m, some .apiResourceNotFound)
  | .ok (some o) =>
    match m.createHandle with
    | .error e => (m, some e)
    | .ok (m, handle) => orThrow m (m.addBuildItem ⟨o, transform, handle⟩)

/-- Replace the data of a resource by a function of it. -/
def update (m : Model) (r : ResourceRef) (f : ResourceData → ResourceData) : Except Error Model :=
  match m.data? r with
  | none => .error .invalidParam
  | some d => .ok (m.setData r (f d))

/-- Construct a resource under `id` and add it. -/
def addNew (m : Model) (id : Nat) (new : NewResource) : Model × Option Error :=
  match m.construct id new.data with
  | .error e => (m, some e)
  | .ok (m, r) => orThrow m (m.addResource r)

/-- One call of a session, with the error it throws. -/
def step (m : Model) : Call → Model × Option Error
  | .clearAll => (m.clearAll, none)
  | .setCurPath path => (m.setCurPath path, none)
  | .setRootPath path => (m.setRootPath path, none)
  | .construct id new => orThrow m ((m.construct id new.data).map Prod.fst)
  | .readResource id new => m.addNew id new
  | .add new => m.addNew m.generateResourceID new
  | .addComponent r objectID t => orThrow m (m.apiAddComponent r objectID t)
  | .readComponent r objectID t => orThrow m (m.readComponent r objectID t)
  | .addSlice r z => orThrow m (m.addSlice r z)
  | .addSliceStackReference r stackID => orThrow m (m.addSliceStackReference r stackID)
  | .collapseSliceReferences r => orThrow m (m.collapseSliceReferences r)
  | .setOwnPath r path => orThrow m (m.setOwnPath r path)
  | .setZBottom r z => orThrow m (m.setZBottom r z)
  | .addBuildItem objectID t => m.apiAddBuildItem objectID t
  | .setObjectInfo r info => orThrow m (m.update r fun d => d.setInfo info)
  | .edit r data => orThrow m (m.update r fun d => d.editTo data)

/-- The state a call leaves. -/
def next (m : Model) (c : Call) : Model := (m.step c).1

end Model

end NMR
