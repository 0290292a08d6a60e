import Mathlib.Algebra.Order.Ring.Int
import Mathlib.Tactic.SplitIfs
import Lib3MF.Common.Exception

/-!
# Numbers in attributes

An integer attribute is the integer its decimal text stands for. The writer prints a `nfUint32`
as a `nfInt32`; the readers convert the text to a `long` of 64 bits and cut it to 32.
-/

namespace NMR

/-- `writeIntAttribute`, and `"%d"`, of a `nfUint32`. -/
def writeIntAttribute (value : Nat) : Int := Int.bmod value (2 ^ 32)

/-- `fnStringToInt32`. -/
def fnStringToInt32 (value : Int) : Except Error Int :=
  if 2 ^ 63 - 1 ≤ value ∨ value ≤ -2 ^ 63 then .error .stringToIntConversionOutOfRange
  else .ok (value.bmod (2 ^ 32))

/-- `fnStringToUint32`: `strtoul` takes a minus sign modulo `2 ^ 64`. -/
def fnStringToUint32 (value : Int) : Except Error Nat :=
  if 2 ^ 64 ≤ value.natAbs ∨ value % 2 ^ 64 = 2 ^ 64 - 1 then .error .stringToIntConversionOutOfRange
  else .ok (value % 2 ^ 32).toNat

/-- `XML_3MF_MAXRESOURCEID`. -/
def maxResourceID : Nat := 2147483647

/-- The printed number, case by case. -/
theorem writeIntAttribute_eq {v : Nat} (hv : v < 2 ^ 32) :
    writeIntAttribute v = if v < 2 ^ 31 then (v : Int) else v - 2 ^ 32 := by
  unfold writeIntAttribute
  simp only [Int.bmod_def]
  omega

/-- A printed number is read back, but for the one printed as `-1`. -/
theorem fnStringToUint32_writeIntAttribute {v : Nat} (hv : v < 2 ^ 32) :
    fnStringToUint32 (writeIntAttribute v) =
      if v = 2 ^ 32 - 1 then .error .stringToIntConversionOutOfRange else .ok v := by
  unfold fnStringToUint32
  rw [writeIntAttribute_eq hv]
  by_cases h31 : v < 2 ^ 31
  · have hmax : v ≠ 2 ^ 32 - 1 := by omega
    rw [if_pos h31, if_neg hmax, if_neg (by omega)]
    congr 1
    omega
  · rw [if_neg h31]
    by_cases hmax : v = 2 ^ 32 - 1
    · rw [if_pos hmax, if_pos (.inr (by omega))]
    · rw [if_neg hmax, if_neg (by omega)]
      congr 1
      omega

/-- An `nfInt32` is read back. -/
theorem fnStringToInt32_of_lt {v : Int} (hl : -2 ^ 31 ≤ v) (hu : v < 2 ^ 31) :
    fnStringToInt32 v = .ok v := by
  have hrange : ¬ (2 ^ 63 - 1 ≤ v ∨ v ≤ -2 ^ 63) := by omega
  have hbmod : v.bmod (2 ^ 32) = v := by
    simp only [Int.bmod_def]
    omega
  rw [fnStringToInt32, if_neg hrange, hbmod]

/-- A printed number as an `nfInt32`. -/
theorem fnStringToInt32_writeIntAttribute {v : Nat} (hv : v < 2 ^ 32) :
    fnStringToInt32 (writeIntAttribute v) = .ok (if v < 2 ^ 31 then (v : Int) else v - 2 ^ 32) := by
  rw [writeIntAttribute_eq hv]
  apply fnStringToInt32_of_lt <;> split_ifs <;> omega

end NMR
