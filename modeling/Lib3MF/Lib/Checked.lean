import Mathlib.Data.List.Basic
import Lib3MF.Lib.Except

/-!
# Loops over list positions

A computation that may throw, or access a list out of range (`Checked`). `lift` embeds those that
only throw. A loop that reads the positions of a list one after the other is the loop over its
elements (`mapM_range`), and one that fills a vector in place collects what it computes
(`fill_range`).
-/

namespace Lib

/-- How a computation ends without a value. -/
inductive Fault (ε : Type) where
  | throws (e : ε)
  | outOfRange
  deriving DecidableEq

abbrev Checked (ε α : Type) := Except (Fault ε) α

variable {ε α β : Type}

/-- Element `i` of a list. -/
def elementAt (l : List α) (i : Nat) : Checked ε α :=
  match l[i]? with
  | some a => .ok a
  | none => .error .outOfRange

/-- Element `i` of a list is overwritten. -/
def setElementAt (l : List α) (i : Nat) (a : α) : Checked ε (List α) :=
  if i < l.length then .ok (l.set i a) else .error .outOfRange

theorem elementAt_of_getElem? {l : List α} {i : Nat} {a : α} (h : l[i]? = some a) :
    (elementAt l i : Checked ε α) = .ok a := by
  rw [elementAt, h]

/-- A read out of range is one behind the elements. -/
theorem elementAt_outOfRange {l : List α} {i : Nat}
    (h : (elementAt l i : Checked ε α) = .error .outOfRange) : l.length ≤ i := by
  unfold elementAt at h
  split at h
  · cases h
  · rwa [List.getElem?_eq_none_iff] at *

theorem setElementAt_of_lt {l : List α} {i : Nat} (h : i < l.length) (a : α) :
    (setElementAt l i a : Checked ε (List α)) = .ok (l.set i a) := if_pos h

/-! ## Computations that only throw -/

/-- A computation that only throws. -/
def Checked.lift (x : Except ε α) : Checked ε α := x.mapError .throws

namespace Checked

@[simp] theorem lift_ok (a : α) : lift (.ok a : Except ε α) = .ok a := rfl

@[simp] theorem lift_pure (a : α) : lift (pure a : Except ε α) = pure a := rfl

@[simp] theorem lift_error (e : ε) : lift (.error e : Except ε α) = .error (.throws e) := rfl

@[simp] theorem lift_throw (e : ε) : lift (throw e : Except ε α) = throw (.throws e) := rfl

theorem lift_bind (x : Except ε α) (f : α → Except ε β) :
    lift (x >>= f) = lift x >>= fun a => lift (f a) := by
  cases x <;> rfl

theorem lift_mapM (f : α → Except ε β) (l : List α) :
    lift (l.mapM f) = l.mapM fun a => lift (f a) := by
  induction l with
  | nil => rfl
  | cons a l ih =>
    rw [List.mapM_cons, List.mapM_cons, lift_bind]
    congr 1
    funext b
    rw [lift_bind, ih]
    rfl

theorem lift_foldlM (f : β → α → Except ε β) (b : β) (l : List α) :
    lift (l.foldlM f b) = l.foldlM (fun b a => lift (f b a)) b := by
  induction l generalizing b with
  | nil => rfl
  | cons a l ih =>
    rw [List.foldlM_cons, List.foldlM_cons, lift_bind]
    congr 1
    funext c
    exact ih c

theorem lift_eq_ok {x : Except ε α} {a : α} : lift x = .ok a ↔ x = .ok a := by
  cases x <;> simp

/-- Such a computation accesses nothing out of range. -/
theorem lift_ne_outOfRange (x : Except ε α) : lift x ≠ .error .outOfRange := by
  cases x <;> simp

end Checked

/-! ## Loops -/

/-- The loop over the positions of a list. -/
theorem mapM_range {m : Type → Type} [Monad m] [LawfulMonad m] (ys : List α) {f : Nat → m β}
    {g : α → m β} (h : ∀ i y, ys[i]? = some y → f i = g y) :
    (List.range ys.length).mapM f = ys.mapM g := by
  induction ys generalizing f with
  | nil => rfl
  | cons y ys ih =>
    have htail : (List.range ys.length).mapM (fun i => f (i + 1)) = ys.mapM g :=
      ih fun i z hz => h (i + 1) z (by rwa [List.getElem?_cons_succ])
    rw [List.length_cons, List.range_succ_eq_map, List.mapM_cons, List.mapM_map, List.mapM_cons,
      h 0 y rfl]
    show (g y >>= fun b => List.mapM (fun i => f (i + 1)) (List.range ys.length) >>= _) = _
    rw [htail]

/-- Filling the positions from `done.length` on. -/
theorem fill_from (f : Nat → Checked ε α) (done rest : List α) :
    (List.range' done.length rest.length).foldlM
        (fun v i => do
          let a ← f i
          setElementAt v i a) (done ++ rest) =
      (do
        let as ← (List.range' done.length rest.length).mapM f
        return done ++ as) := by
  induction rest generalizing done with
  | nil => rfl
  | cons r rest ih =>
    rw [List.length_cons, List.range'_succ, List.foldlM_cons, List.mapM_cons]
    cases hf : f done.length with
    | error e => rfl
    | ok a =>
      have hset : (done ++ r :: rest).set done.length a = done ++ [a] ++ rest := by
        rw [List.set_append_right _ _ (Nat.le_refl _)]
        simp
      have hstep := ih (done ++ [a])
      rw [List.length_append, List.length_singleton] at hstep
      show (setElementAt (done ++ r :: rest) done.length a >>= _) = _
      rw [setElementAt_of_lt (by simp), hset]
      show List.foldlM _ (done ++ [a] ++ rest) _ = _
      rw [hstep]
      cases (List.range' (done.length + 1) rest.length).mapM f with
      | error e => rfl
      | ok as => simp [bind, Except.bind, pure, Except.pure]

/-- A loop that fills a vector position by position. -/
theorem fill_range (f : Nat → Checked ε α) (v : List α) :
    (List.range v.length).foldlM
        (fun v i => do
          let a ← f i
          setElementAt v i a) v =
      (List.range v.length).mapM f := by
  have h := fill_from f [] v
  rw [List.length_nil, ← List.range_eq_range', List.nil_append] at h
  rw [h]
  cases (List.range v.length).mapM f <;> rfl

/-- What belongs to position `i` of related lists. -/
theorem forall₂_getElem? {r : α → β → Prop} {l : List α} {l' : List β} (h : List.Forall₂ r l l')
    {i : Nat} {b : β} (hb : l'[i]? = some b) : ∃ a, l[i]? = some a ∧ r a b := by
  induction h generalizing i with
  | nil => simp at hb
  | cons hr _ ih =>
    cases i with
    | zero => exact ⟨_, rfl, Option.some.inj hb ▸ hr⟩
    | succ i => exact ih (by rwa [List.getElem?_cons_succ] at hb)

end Lib
