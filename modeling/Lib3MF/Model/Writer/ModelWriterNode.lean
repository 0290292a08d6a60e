import Mathlib.Algebra.Order.Ring.Nat
import Mathlib.Tactic.SplitIfs
import Lib3MF.Common.Exception

/-!
# Texts of the writer

What `CModelWriterNode` hands to the XML writer, and the limits the latter has.
-/

namespace NMR

/-- `NATIVEXMLMAXSTRINGLENGTH`. -/
def nativeXMLMaxStringLength : Nat := 1048576

/-- The length of a character after `escapeXMLString`. -/
def escapedLength (c : Char) : Nat :=
  if c.toNat = 34 ∨ c.toNat = 39 then 6
  else if c.toNat = 38 then 5
  else if c.toNat = 60 ∨ c.toNat = 62 then 4
  else c.utf8Size

/-- The checks of `WriteAttributeString` and `WriteText` on a value. -/
def writeEscaped (s : String) : Except Error String :=
  if s.utf8ByteSize > nativeXMLMaxStringLength then .error .invalidBufferSize
  else if (s.toList.map escapedLength).sum > nativeXMLMaxStringLength then
    .error .insufficientBufferSize
  else .ok s

theorem writeEscaped_ok {s s' : String} (h : writeEscaped s = .ok s') : s' = s := by
  unfold writeEscaped at h
  split_ifs at h
  exact (Except.ok.inj h).symm

end NMR
