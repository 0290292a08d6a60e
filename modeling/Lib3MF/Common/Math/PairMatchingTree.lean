import Mathlib.Data.Prod.Lex
import Mathlib.Data.Int.Order.Basic
import Lib3MF.Lib.SortedMap

/-!
# The tree of node pairs

`CPairMatchingTree`: a number for each unordered pair of nodes.
-/

namespace NMR

open Lib

/-- `PAIRMATCHINGTREEENTRY`, in the order of its `operator<`. -/
abbrev PairMatchingTreeEntry := ℤ ×ₗ ℤ

/-- The entry of a pair. -/
def pairEntry (data1 data2 : Int) : PairMatchingTreeEntry :=
  if data1 < data2 then toLex (data1, data2) else toLex (data2, data1)

/-- `CPairMatchingTree`. -/
structure PairMatchingTree where
  entries : SortedMap PairMatchingTreeEntry Int

namespace PairMatchingTree

def empty : PairMatchingTree := ⟨.empty⟩

/-- `addMatch`: an entry that is there stays. -/
def addMatch (t : PairMatchingTree) (data1 data2 param : Int) : PairMatchingTree :=
  ⟨t.entries.insert (pairEntry data1 data2) param⟩

/-- `checkMatch`. -/
def checkMatch (t : PairMatchingTree) (data1 data2 : Int) : Option Int :=
  t.entries.find? (pairEntry data1 data2)

end PairMatchingTree

/-- Two pairs have one entry exactly when they are one pair, or one is the other turned round. -/
theorem pairEntry_eq_iff {a b c d : Int} :
    pairEntry a b = pairEntry c d ↔ a = c ∧ b = d ∨ a = d ∧ b = c := by
  unfold pairEntry
  split_ifs <;> simp only [EmbeddingLike.apply_eq_iff_eq, Prod.mk.injEq] <;> omega

end NMR
