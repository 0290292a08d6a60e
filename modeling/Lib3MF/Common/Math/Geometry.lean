import Mathlib.Data.Rat.Defs
import Mathlib.Algebra.Order.Ring.Rat
import Mathlib.Order.WithBot
import Mathlib.Data.Fintype.Pi

/-!
# Numbers, vectors and matrices

Coordinates and matrix entries are taken in exact arithmetic. Where only comparisons matter and
a caller may pass any double, `Double` keeps the infinities and NaN, which compares false with
everything (`Double.lt`, `Double.le`).
-/

namespace NMR

/-- A double as its comparisons see it: `none` is NaN, the infinities are the bounds. -/
abbrev Double := Option (WithBot (WithTop ℚ))

namespace Double

/-- `a < b`, false with NaN. -/
def lt : Double → Double → Prop
  | some a, some b => a < b
  | _, _ => False

/-- `a <= b`, false with NaN. -/
def le : Double → Double → Prop
  | some a, some b => a ≤ b
  | _, _ => False

instance : DecidableRel lt
  | some a, some b => inferInstanceAs (Decidable (a < b))
  | some _, none => isFalse id
  | none, _ => isFalse id

instance : DecidableRel le
  | some a, some b => inferInstanceAs (Decidable (a ≤ b))
  | some _, none => isFalse id
  | none, _ => isFalse id

/-- `std::max`: the second argument where the first is below it. -/
def max (a b : Double) : Double := if lt a b then b else a

/-- Not NaN. -/
def IsNumber (a : Double) : Prop := a.isSome

instance (a : Double) : Decidable a.IsNumber := inferInstanceAs (Decidable (a.isSome = true))

/-- `HUGE_VAL` or `-HUGE_VAL`. -/
def IsInfinite (a : Double) : Prop := a = some ⊥ ∨ a = some ⊤

instance (a : Double) : Decidable a.IsInfinite := inferInstanceAs (Decidable (_ ∨ _))

/-- An exact number. -/
def ofRat (q : ℚ) : Double := some ((q : WithTop ℚ) : WithBot (WithTop ℚ))

variable {a b c : Double}

theorem lt.left (h : lt a b) : a.IsNumber := by
  cases a with
  | none => exact h.elim
  | some _ => rfl

theorem lt.right (h : lt a b) : b.IsNumber := by
  cases b with
  | none => cases a <;> exact h.elim
  | some _ => rfl

theorem lt_of_not_le (ha : a.IsNumber) (hb : b.IsNumber) (h : ¬ le a b) : lt b a := by
  obtain ⟨x, rfl⟩ := Option.isSome_iff_exists.1 ha
  obtain ⟨y, rfl⟩ := Option.isSome_iff_exists.1 hb
  exact not_le.1 h

theorem le_of_not_lt (ha : a.IsNumber) (hb : b.IsNumber) (h : ¬ lt a b) : le b a := by
  obtain ⟨x, rfl⟩ := Option.isSome_iff_exists.1 ha
  obtain ⟨y, rfl⟩ := Option.isSome_iff_exists.1 hb
  exact not_lt.1 h

theorem not_lt_of_le (h : le a b) : ¬ lt b a := by
  cases a with
  | none => exact h.elim
  | some x =>
    cases b with
    | none => exact h.elim
    | some y => exact not_lt.2 (show x ≤ y from h)

theorem le_refl (ha : a.IsNumber) : le a a := by
  obtain ⟨x, rfl⟩ := Option.isSome_iff_exists.1 ha
  exact (show x ≤ x from by rfl)

theorem lt.le (h : lt a b) : le a b := by
  obtain ⟨x, rfl⟩ := Option.isSome_iff_exists.1 h.left
  obtain ⟨y, rfl⟩ := Option.isSome_iff_exists.1 h.right
  exact le_of_lt (show x < y from h)

theorem le.trans (hab : le a b) (hbc : le b c) : le a c := by
  cases a with
  | none => exact hab.elim
  | some x =>
    cases b with
    | none => exact hab.elim
    | some y =>
      cases c with
      | none => exact hbc.elim
      | some z => exact (show x ≤ y from hab).trans hbc

theorem lt.trans (hab : lt a b) (hbc : lt b c) : lt a c := by
  obtain ⟨x, rfl⟩ := Option.isSome_iff_exists.1 hab.left
  obtain ⟨y, rfl⟩ := Option.isSome_iff_exists.1 hab.right
  obtain ⟨z, rfl⟩ := Option.isSome_iff_exists.1 hbc.right
  exact (show x < y from hab).trans hbc

theorem max_of_lt (h : lt a b) : max a b = b := if_pos h

theorem le_max_right (ha : a.IsNumber) (hb : b.IsNumber) : le b (max a b) := by
  unfold max
  split_ifs with h
  · exact le_refl hb
  · exact le_of_not_lt ha hb h

theorem le_max_left (ha : a.IsNumber) : le a (max a b) := by
  unfold max
  split_ifs with h
  · exact h.le
  · exact le_refl ha

theorem max_isNumber (ha : a.IsNumber) (hb : b.IsNumber) : (max a b).IsNumber := by
  unfold max
  split_ifs
  · exact hb
  · exact ha

end Double

/-- `NVEC3`. -/
structure Vec3 where
  x : ℚ
  y : ℚ
  z : ℚ
  deriving DecidableEq

/-- `NMATRIX3`: four rows of four entries, applied to a vector as an affine map. -/
structure Matrix3 where
  fields : Fin 4 → Fin 4 → ℚ
  deriving DecidableEq

namespace Matrix3

/-- `fnMATRIX3_identity`. -/
def identity : Matrix3 := ⟨fun i j => if i = j then 1 else 0⟩

/-- `fnMATRIX3_multiply`. -/
def multiply (a b : Matrix3) : Matrix3 :=
  ⟨fun i j => a.fields i 0 * b.fields 0 j + a.fields i 1 * b.fields 1 j +
    a.fields i 2 * b.fields 2 j + a.fields i 3 * b.fields 3 j⟩

/-- `fnMATRIX3_apply`. -/
def apply (m : Matrix3) (v : Vec3) : Vec3 :=
  let row (i : Fin 4) := m.fields i 0 * v.x + m.fields i 1 * v.y + m.fields i 2 * v.z + m.fields i 3
  ⟨row 0, row 1, row 2⟩

/-- `fnMATRIX3_isplanar`. -/
def isplanar (m : Matrix3) : Bool :=
  let eps : ℚ := 1 / 10000000
  |m.fields 2 0| < eps ∧ |m.fields 2 1| < eps ∧ |m.fields 2 2 - 1| < eps ∧
    |m.fields 0 2| < eps ∧ |m.fields 1 2| < eps

end Matrix3

end NMR
