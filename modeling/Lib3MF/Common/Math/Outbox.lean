import Mathlib.Data.List.FinRange
import Mathlib.Order.Bounds.Basic
import Mathlib.Tactic.FinCases
import Lib3MF.Common.Math.Geometry

/-!
# Boxes around points

`NOUTBOX3`, a box that grows by one point after the other, and the tests on matrices that decide
how points are placed. A box without points is inside out: its lower corner is at the largest float
and its upper one at the smallest. The thresholds are the decimal numbers of the source.
-/

namespace NMR

/-- `NOUTBOX3`. -/
structure Outbox where
  min : Vec3
  max : Vec3
  deriving DecidableEq

/-- `std::numeric_limits<nfFloat>::max()`. -/
def floatMax : ℚ := 2 ^ 128 - 2 ^ 104

/-- `NMR_MATRIX_IDENTITYTHRESHOLD`. -/
def matrixIdentityThreshold : ℚ := 1 / 10000000

/-- `fnOutboxInitialize`. -/
def fnOutboxInitialize : Outbox :=
  ⟨⟨floatMax, floatMax, floatMax⟩, ⟨-floatMax, -floatMax, -floatMax⟩⟩

/-- `fnOutboxMergeVector`. -/
def fnOutboxMergeVector (box : Outbox) (v : Vec3) : Outbox :=
  ⟨⟨Min.min box.min.x v.x, Min.min box.min.y v.y, Min.min box.min.z v.z⟩,
    ⟨Max.max box.max.x v.x, Max.max box.max.y v.y, Max.max box.max.z v.z⟩⟩

namespace Matrix3

/-- `dDelta` of `fnMATRIX3_isIdentity`. -/
def identityDelta (m : Matrix3) : ℚ :=
  ((List.finRange 4).map fun i => ((List.finRange 4).map fun j =>
    (m.fields i j - identity.fields i j) * (m.fields i j - identity.fields i j)).sum).sum

/-- `fnMATRIX3_isIdentity`. -/
def isIdentity (m : Matrix3) : Bool := m.identityDelta < matrixIdentityThreshold

theorem apply_identity : identity.apply = id := by
  funext v
  simp [apply, identity]

end Matrix3

/-! ## What a box says about its points -/

/-- The corners of the box have the least and the greatest coordinates of the points, where these
are floats. -/
def Outbox.IsBounds (box : Outbox) (vs : List Vec3) : Prop :=
  ∀ c ∈ [Vec3.x, Vec3.y, Vec3.z],
    IsLeast {q | q = floatMax ∨ ∃ v ∈ vs, c v = q} (c box.min) ∧
      IsGreatest {q | q = -floatMax ∨ ∃ v ∈ vs, c v = q} (c box.max)

namespace Outbox

theorem isBounds_initialize : fnOutboxInitialize.IsBounds [] := by
  intro c hc
  have hmin : c fnOutboxInitialize.min = floatMax := by
    fin_cases hc <;> rfl
  have hmax : c fnOutboxInitialize.max = -floatMax := by
    fin_cases hc <;> rfl
  rw [hmin, hmax]
  simp [isLeast_singleton, isGreatest_singleton]

/-- The coordinates with one point more. -/
theorem setOf_coordinates (c : Vec3 → ℚ) (q₀ : ℚ) (vs : List Vec3) (v : Vec3) :
    {q | q = q₀ ∨ ∃ u ∈ vs ++ [v], c u = q} = insert (c v) {q | q = q₀ ∨ ∃ u ∈ vs, c u = q} := by
  ext q
  simp only [List.mem_append, List.mem_singleton, Set.mem_ofPred_eq, Set.mem_insert_iff]
  constructor
  · rintro (h | ⟨u, hu | rfl, hq⟩)
    · exact .inr (.inl h)
    · exact .inr (.inr ⟨u, hu, hq⟩)
    · exact .inl hq.symm
  · rintro (rfl | h | ⟨u, hu, hq⟩)
    · exact .inr ⟨v, .inr rfl, rfl⟩
    · exact .inl h
    · exact .inr ⟨u, .inl hu, hq⟩

/-- A box stays tight when it grows by a point. -/
theorem IsBounds.mergeVector {box : Outbox} {vs : List Vec3} (h : box.IsBounds vs) (v : Vec3) :
    (fnOutboxMergeVector box v).IsBounds (vs ++ [v]) := by
  intro c hc
  have hmin : c (fnOutboxMergeVector box v).min = Min.min (c v) (c box.min) := by
    fin_cases hc <;> exact min_comm _ _
  have hmax : c (fnOutboxMergeVector box v).max = Max.max (c v) (c box.max) := by
    fin_cases hc <;> exact max_comm _ _
  rw [setOf_coordinates, setOf_coordinates, hmin, hmax]
  exact ⟨(h c hc).1.insert (c v), (h c hc).2.insert (c v)⟩

theorem IsBounds.foldl {box : Outbox} {vs : List Vec3} (h : box.IsBounds vs) (us : List Vec3) :
    (us.foldl fnOutboxMergeVector box).IsBounds (vs ++ us) := by
  induction us generalizing box vs with
  | nil => rwa [List.append_nil]
  | cons u us ih =>
    rw [List.foldl_cons, ← List.singleton_append, ← List.append_assoc]
    exact ih (h.mergeVector u)

end Outbox

end NMR
