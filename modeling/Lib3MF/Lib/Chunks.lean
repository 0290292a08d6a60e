import Mathlib.Data.List.Basic

/-!
# Lists cut into pieces

`chunksOf n l` cuts a list into pieces of `n` items, the last one being shorter perhaps.
-/

namespace Lib

variable {α : Type*}

/-- At most `k` pieces of `n` items. -/
def splitEvery (n : Nat) : Nat → List α → List (List α)
  | 0, _ => []
  | _, [] => []
  | k + 1, a :: l => (a :: l).take n :: splitEvery n k ((a :: l).drop n)

/-- The pieces of `n` items of a list. -/
def chunksOf (n : Nat) (l : List α) : List (List α) := splitEvery n l.length l

end Lib
