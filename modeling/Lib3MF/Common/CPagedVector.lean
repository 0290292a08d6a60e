import Mathlib.Algebra.Order.Ring.Nat
import Lib3MF.Common.Exception
import Lib3MF.Lib.Arrays
import Lib3MF.Lib.Checked

/-!
# Paged vectors in memory

`CPagedVector` with its 32-bit count and the arrays its blocks are: `PagedVector` is the vector
apart from both. What a pointer points to is read from and written to the memory directly.
-/

namespace NMR

open Lib

/-- `CPagedVector`, with the memory of its elements. -/
structure CPagedVector (α : Type) where
  blockSize : BitVec 32
  count : BitVec 32
  headBlock : Option Nat
  blocks : List Nat
  memory : Arrays α

namespace CPagedVector

variable {α : Type}

/-- The constructor. -/
def create (blockSize : BitVec 32) : Except Error (CPagedVector α) :=
  if blockSize = 0 then .error .invalidBlockSize
  else .ok ⟨blockSize, 0, none, [], .empty⟩

/-- The constructor without an argument: blocks of `DEFAULTBLOCKSIZE` elements. -/
def new : CPagedVector α := ⟨1024, 0, none, [], .empty⟩

/-- `getCount`. -/
def getCount (v : CPagedVector α) : BitVec 32 := v.count

/-- `getBlockSize`. -/
def getBlockSize (v : CPagedVector α) : BitVec 32 := v.blockSize

/-- `new T[m_nBlockSize]`, the new head block; `fresh` is what the new elements are. -/
def newBlock (v : CPagedVector α) (fresh : Nat → α) : CPagedVector α :=
  let r := v.memory.new ((List.range v.blockSize.toNat).map fresh)
  { v with headBlock := some r.2, blocks := v.blocks ++ [r.2], memory := r.1 }

/-- `allocData` and `allocDataRef`: the new index, and the pointer to the element. -/
def allocData (v : CPagedVector α) (fresh : Nat → α) :
    Checked Error (CPagedVector α × BitVec 32 × Pointer) :=
  let idx := v.count % v.blockSize
  let w := if idx = 0 then v.newBlock fresh else v
  match w.headBlock with
  | none => .error .outOfRange
  | some block => .ok ({ w with count := w.count + 1 }, w.count, ⟨block, idx.toNat⟩)

/-- `getData` and `getDataRef`. -/
def getData (v : CPagedVector α) (idx : BitVec 32) : Checked Error Pointer :=
  if v.count ≤ idx then .error (.throws .invalidIndex)
  else do
    let block ← elementAt v.blocks (idx / v.blockSize).toNat
    .ok ⟨block, (idx % v.blockSize).toNat⟩

/-- `clearAllData`. -/
def clearAllData (v : CPagedVector α) : CPagedVector α :=
  { v with
    count := 0
    headBlock := none
    blocks := []
    memory := v.blocks.foldl Arrays.delete v.memory }

/-- What a pointer points to. -/
def deref (v : CPagedVector α) (p : Pointer) : Checked Error α :=
  match v.memory.read p with
  | some a => .ok a
  | none => .error .outOfRange

/-- A write through a pointer. -/
def write (v : CPagedVector α) (p : Pointer) (a : α) : CPagedVector α :=
  { v with memory := v.memory.write p a }

end CPagedVector

end NMR
