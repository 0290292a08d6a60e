import Lib3MF.Model.Classes.Model

/-!
# Slice stacks

`CModelSliceStack`. `getHighestZ` follows the last references; the references are never cyclic
(`sliceRefs_descend`), so as many steps as there are resources suffice (`getHighestZ_eq`).
-/

namespace NMR

namespace SliceStack

/-- A new stack. -/
def new (zBottom : Double) : SliceStack := ⟨zBottom, [], [], ""⟩

/-- `AllowsGeometry`. -/
def allowsGeometry (s : SliceStack) : Bool := s.sliceRefs.isEmpty

/-- `AllowsReferences`. -/
def allowsReferences (s : SliceStack) : Bool := s.slices.isEmpty

/-- The z the stack's own slices reach. -/
def ownHighestZ (s : SliceStack) : Double :=
  match s.slices.getLast? with
  | some slice => Double.max s.zBottom slice.topZ
  | none => s.zBottom

/-- `AddSlice`. -/
def addSlice (s : SliceStack) (zTop : Double) : Except Error SliceStack :=
  if ¬ s.allowsGeometry then .error .slicesMixingSlicesWithSliceRefs
  else
    let back := match s.slices.getLast? with
      | some slice => slice.topZ
      | none => s.zBottom
    if Double.le zTop back then .error .slicesZNotIncreasing
    else .ok { s with slices := s.slices ++ [⟨zTop, [], []⟩] }

end SliceStack

namespace Model

/-- The slice stack a reference points to. -/
def stack? (m : Model) (r : ResourceRef) : Option SliceStack :=
  (m.data? r).bind ResourceData.stack?

/-- `getHighestZ`, following at most `fuel` references. -/
def getHighestZFuel (m : Model) : Nat → ResourceRef → Double
  | 0, _ => none
  | fuel + 1, r =>
    match m.stack? r with
    | none => none
    | some s =>
      match s.sliceRefs.getLast? with
      | some r' => Double.max s.ownHighestZ (m.getHighestZFuel fuel r')
      | none => s.ownHighestZ

/-- `getHighestZ`. -/
def getHighestZ (m : Model) (r : ResourceRef) : Double := m.getHighestZFuel (m.store.length + 1) r

/-- `AddSlice` on the stack `r`. -/
def addSlice (m : Model) (r : ResourceRef) (zTop : Double) : Except Error Model :=
  match m.stack? r with
  | none => .error .invalidParam
  | some s => (s.addSlice zTop).map fun s => m.setData r (.sliceStack s)

/-- `AddSliceRef`. -/
def addSliceRef (m : Model) (r other : ResourceRef) : Except Error Model :=
  match m.stack? r, m.stack? other with
  | some s, some o =>
    if ¬ s.allowsReferences then .error .slicesMixingSlicesWithSliceRefs
    else if r = other then .error .slicesSliceRefCircular
    else if 0 < o.sliceRefs.length then .error .slicesRefsLevelTooDeep
    else if Double.lt o.zBottom (m.getHighestZ r) then .error .slicesRefsZNotIncreasing
    else .ok (m.setData r (.sliceStack { s with sliceRefs := s.sliceRefs ++ [other] }))
  | _, _ => .error .invalidParam

/-- The slices `CollapseSliceReferences` copies into the stack `r`, whose own it has cleared
before. -/
def collapsedSlices (m : Model) (r : ResourceRef) (s : SliceStack) : List Slice :=
  s.sliceRefs.flatMap fun r' =>
    if r' = r then [] else ((m.stack? r').map (·.slices)).getD []

/-- `CollapseSliceReferences`: the references stay. -/
def collapseSliceReferences (m : Model) (r : ResourceRef) : Except Error Model :=
  match m.stack? r with
  | none => .error .invalidParam
  | some s => .ok (m.setData r (.sliceStack { s with slices := m.collapsedSlices r s }))

/-- `SetOwnPath`. -/
def setOwnPath (m : Model) (r : ResourceRef) (path : String) : Except Error Model :=
  match m.stack? r with
  | none => .error .invalidParam
  | some s =>
    .ok (m.setData r (.sliceStack { s with ownPath := if path = m.rootPath then "" else path }))

/-- `setZBottom`. -/
def setZBottom (m : Model) (r : ResourceRef) (zBottom : Double) : Except Error Model :=
  match m.stack? r with
  | none => .error .invalidParam
  | some s =>
    if s.slices.head?.any fun slice => Double.le slice.topZ zBottom then
      .error .slicesZNotIncreasing
    else if (s.sliceRefs.head?.bind m.stack?).any fun o => Double.lt o.zBottom zBottom then
      .error .slicesZNotIncreasing
    else .ok (m.setData r (.sliceStack { s with zBottom := zBottom }))

end Model

end NMR
