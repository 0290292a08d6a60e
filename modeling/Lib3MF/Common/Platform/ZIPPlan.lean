import Lib3MF.Lib.Run
import Lib3MF.Common.Platform.ZIPSession

/-!
# What a run of the ZIP writer is to hold

`ZIPPlan` follows the calls without an archive: which entries they create, which bytes are
written for each, and when the archive is finished. A name is too long beyond 32000 bytes; the
keys of the entries are numbered modulo 2^32, and end below 2^31 - 1 (`zipFileMaxEntries`).
-/

namespace NMR

open Lib

/-- The entries created so far, the last one perhaps still written. The plan is `stuck` when the
key of an entry came to 0, which no stream may have. -/
structure ZIPPlan where
  nextKey : BitVec 32
  finished : Bool
  stuck : Bool
  closed : List ZIPItem
  current : Option ZIPItem
  deriving DecidableEq

namespace ZIPPlan

/-- No calls yet. -/
def new : ZIPPlan := ⟨1, false, false, [], none⟩

/-- The entries created so far. -/
def items (p : ZIPPlan) : List ZIPItem := p.closed ++ p.current.toList

/-- The current entry is closed. -/
def close (p : ZIPPlan) : ZIPPlan := { p with closed := p.items, current := none }

/-- A new entry is begun. -/
def create (p : ZIPPlan) (name : List UInt8) : ZIPPlan :=
  let q := { p.close with nextKey := p.nextKey + 1 }
  if zipFileMaxEntries ≤ q.nextKey ∨ zipFileMaxFileNameLength < name.length then q
  else if p.nextKey = 0 then { q with stuck := true }
  else { q with current := some ⟨name, []⟩ }

/-- One call. -/
def step (p : ZIPPlan) : ZIPCall → ZIPPlan
  | .createEntry name =>
    if p.finished ∨ p.stuck then p else p.create (removeLeadingPathDelimiter name)
  | .writeBuffer i bytes =>
    if i = p.closed.length then { p with current := p.current.map (·.append bytes) } else p
  | .closeEntry => if p.finished ∨ p.stuck then p else p.close
  | .writeDirectory => if p.finished ∨ p.stuck then p else { p.close with finished := true }

/-- The plan of some calls. -/
def run (p : ZIPPlan) (calls : List ZIPCall) : ZIPPlan := Lib.run step p calls

@[simp] theorem items_close (p : ZIPPlan) : p.close.items = p.items := by simp [close, items]

end ZIPPlan

end NMR
