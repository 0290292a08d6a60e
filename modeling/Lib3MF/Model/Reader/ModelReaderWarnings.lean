import Mathlib.Tactic.SplitIfs
import Lib3MF.Common.Exception

/-!
# Warnings of a reader

A warning is an error when its level is critical for the reader. The list of the warnings is not
kept: no reader looks into it.
-/

namespace NMR

/-- `eModelReaderWarningLevel`, the most serious one first. -/
inductive ModelReaderWarningLevel where
  | fatal
  | invalidMandatoryValue
  | missingMandatoryValue
  | invalidOptionalValue
  deriving DecidableEq, Repr

/-- The number of the level. -/
def ModelReaderWarningLevel.toNat : ModelReaderWarningLevel → Nat
  | .fatal => 0
  | .invalidMandatoryValue => 1
  | .missingMandatoryValue => 2
  | .invalidOptionalValue => 3

/-- `CModelReaderWarnings::addWarning` and `addException`, with `m_CriticalWarningLevel`. -/
def addWarning (criticalWarningLevel : ModelReaderWarningLevel) (error : Error)
    (warningLevel : ModelReaderWarningLevel) : Except Error Unit :=
  if warningLevel.toNat ≤ criticalWarningLevel.toNat then .error error else .ok ()

/-- A warning is none where its level is not critical. -/
theorem addWarning_eq_ok {criticalWarningLevel warningLevel : ModelReaderWarningLevel}
    {error : Error} : addWarning criticalWarningLevel error warningLevel = .ok () ↔
      criticalWarningLevel.toNat < warningLevel.toNat := by
  unfold addWarning
  split_ifs with h
  · simp only [false_iff]
    omega
  · simp only [true_iff]
    omega

/-- A warning about a mandatory value. -/
theorem addWarning_mandatory_eq_ok {criticalWarningLevel : ModelReaderWarningLevel} {error : Error} :
    addWarning criticalWarningLevel error .invalidMandatoryValue = .ok () ↔
      criticalWarningLevel = .fatal := by
  rw [addWarning_eq_ok]
  cases criticalWarningLevel <;> simp [ModelReaderWarningLevel.toNat]

end NMR
