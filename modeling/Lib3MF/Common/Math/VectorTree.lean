import Mathlib.Data.Fin.VecNotation
import Mathlib.Data.Prod.Lex
import Mathlib.Data.Int.Order.Basic
import Lib3MF.Lib.SortedMap
import Lib3MF.Common.Exception

/-!
# The tree of quantised vectors

`CVectorTree`: a number for each cell of a grid in space. Coordinates are the bits of single
precision numbers; the quantisation `(nfInt32) floor(x / fUnits)` of one coordinate is the
parameter `floorUnits`, what the conversion yields where the quotient is out of range included.
-/

namespace NMR

open Lib

/-- The bits of a `nfFloat`. -/
abbrev FloatBits := BitVec 32

namespace FloatBits

/-- `fabs`. -/
def fabs (a : FloatBits) : FloatBits := a &&& 0x7fffffff#32

/-- NaN: above the infinity. -/
def isNaN (a : FloatBits) : Prop := 0x7f800000 < a.fabs.toNat

instance (a : FloatBits) : Decidable a.isNaN := inferInstanceAs (Decidable (_ < _))

/-- The place of a number among the others; both zeros are at 0. -/
def rank (a : FloatBits) : Int := if a.msb then -a.fabs.toNat else a.fabs.toNat

/-- `a < b`, false with NaN. -/
def lt (a b : FloatBits) : Prop := ¬ a.isNaN ∧ ¬ b.isNaN ∧ a.rank < b.rank

instance (a b : FloatBits) : Decidable (lt a b) := inferInstanceAs (Decidable (_ ∧ _ ∧ _))

end FloatBits

/-- `NVEC3`. -/
structure Nvec3 where
  x : FloatBits
  y : FloatBits
  z : FloatBits
  deriving DecidableEq

/-- `m_fields`. -/
def Nvec3.fields (v : Nvec3) : Fin 3 → FloatBits := ![v.x, v.y, v.z]

/-- `VECTORTREEENTRY`, in the order of its `operator<`. -/
abbrev VectorTreeEntry := ℤ ×ₗ ℤ ×ₗ ℤ

/-- `NMR_VECTOR_MINUNITS`, `NMR_VECTOR_MAXUNITS` and `NMR_VECTOR_DEFAULTUNITS`: 0.00001, 1000 and
0.001. -/
def vectorMinUnits : FloatBits := 0x3727c5ac#32
def vectorMaxUnits : FloatBits := 0x447a0000#32
def vectorDefaultUnits : FloatBits := 0x3a83126f#32

/-- The edge length of the cells, after the checks of `setUnits`. -/
structure VectorUnits where
  fUnits : FloatBits
  accepted : ¬ (fUnits.lt vectorMinUnits ∨ vectorMaxUnits.lt fUnits)

/-- `setUnits`. -/
def setUnits (fUnits : FloatBits) : Except Error VectorUnits :=
  if h : fUnits.lt vectorMinUnits ∨ vectorMaxUnits.lt fUnits then .error .invalidUnits
  else .ok ⟨fUnits, h⟩

/-- The units without a call of `setUnits`. -/
def VectorUnits.default : VectorUnits := ⟨vectorDefaultUnits, by decide⟩

/-- `fnVEC3I_floor`; its own check of the units is that of `setUnits`. -/
def floorVector (floorUnits : FloatBits → FloatBits → Int) (v : Nvec3) (u : VectorUnits) :
    VectorTreeEntry :=
  toLex (floorUnits v.x u.fUnits, toLex (floorUnits v.y u.fUnits, floorUnits v.z u.fUnits))

/-- `CVectorTree`. -/
structure VectorTree where
  units : VectorUnits
  entries : SortedMap VectorTreeEntry Nat

namespace VectorTree

variable (floorUnits : FloatBits → FloatBits → Int)

/-- A new tree, after its `setUnits`. -/
def new (u : VectorUnits) : VectorTree := ⟨u, .empty⟩

/-- `findVector3`. -/
def findVector3 (t : VectorTree) (v : Nvec3) : Option Nat :=
  t.entries.find? (floorVector floorUnits v t.units)

/-- `addVector3`: an entry that is there stays. -/
def addVector3 (t : VectorTree) (v : Nvec3) (value : Nat) : VectorTree :=
  { t with entries := t.entries.insert (floorVector floorUnits v t.units) value }

end VectorTree

end NMR
