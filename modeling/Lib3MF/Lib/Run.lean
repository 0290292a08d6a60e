import Mathlib.Data.List.Basic
import Mathlib.Data.List.Infix

/-!
# Runs of a deterministic system

`run step s as` is the state after the calls `as`; `Reaches step s as t` says that `t` is passed
on the way. A property kept by every call that meets `guard` holds in every state passed by a
run whose calls all meet it (`Reaches.inv`); where the guard is also necessary, the run keeps the
property exactly when every call meets the guard (`guarded_iff`, and `guarded_and_iff` where the
calls have to give the right answers too). Two systems in step meet their guards together
(`guarded_sim`).
-/

namespace Lib

variable {σ α : Type*} {step : σ → α → σ} {guard : σ → α → Prop}

/-- The state after the calls `as`. -/
def run (step : σ → α → σ) (s : σ) : List α → σ
  | [] => s
  | a :: as => run step (step s a) as

/-- Every call of `as` meets `guard` in the state it is made in. -/
def Guarded (step : σ → α → σ) (guard : σ → α → Prop) (s : σ) : List α → Prop
  | [] => True
  | a :: as => guard s a ∧ Guarded step guard (step s a) as

/-- The run `as` from `s` passes through `t`: some prefix of it ends there. -/
def Reaches (step : σ → α → σ) (s : σ) (as : List α) (t : σ) : Prop :=
  ∃ pre, pre <+: as ∧ run step s pre = t

@[simp] theorem run_nil (s : σ) : run step s [] = s := rfl

@[simp] theorem run_cons (s : σ) (a : α) (as : List α) :
    run step s (a :: as) = run step (step s a) as := rfl

theorem run_append (s : σ) (as bs : List α) :
    run step s (as ++ bs) = run step (run step s as) bs := by
  induction as generalizing s with
  | nil => rfl
  | cons a as ih => exact ih (step s a)

@[simp] theorem guarded_nil (s : σ) : Guarded step guard s [] := trivial

@[simp] theorem guarded_cons (s : σ) (a : α) (as : List α) :
    Guarded step guard s (a :: as) ↔ guard s a ∧ Guarded step guard (step s a) as := Iff.rfl

theorem guarded_append (s : σ) (as bs : List α) :
    Guarded step guard s (as ++ bs) ↔ Guarded step guard s as ∧ Guarded step guard (run step s as) bs := by
  induction as generalizing s with
  | nil => exact ⟨fun h => ⟨trivial, h⟩, fun h => h.2⟩
  | cons a as ih => exact (and_congr_right fun _ => ih (step s a)).trans and_assoc.symm

theorem guarded_true (s : σ) (as : List α) (step : σ → α → σ) :
    Guarded step (fun _ _ => True) s as := by
  induction as generalizing s with
  | nil => trivial
  | cons a as ih => exact ⟨trivial, ih _⟩

/-- A state passed by a run is its start, or is passed after the first call. -/
theorem reaches_cons {s t : σ} {a : α} {as : List α} :
    Reaches step s (a :: as) t ↔ t = s ∨ Reaches step (step s a) as t := by
  constructor
  · rintro ⟨pre, hpre, rfl⟩
    cases pre with
    | nil => exact .inl rfl
    | cons b pre =>
      obtain ⟨rfl, hp⟩ := List.cons_prefix_cons.1 hpre
      exact .inr ⟨pre, hp, rfl⟩
  · rintro (rfl | ⟨pre, hp, rfl⟩)
    · exact ⟨[], List.nil_prefix, rfl⟩
    · exact ⟨a :: pre, List.cons_prefix_cons.2 ⟨rfl, hp⟩, rfl⟩

theorem reaches_nil {s t : σ} : Reaches step s ([] : List α) t ↔ t = s := by
  constructor
  · rintro ⟨pre, hpre, rfl⟩
    rw [List.prefix_nil.1 hpre]; rfl
  · rintro rfl
    exact ⟨[], List.nil_prefix, rfl⟩

/-- The end of a run is a state it passes. -/
theorem reaches_run (s : σ) (as : List α) : Reaches step s as (run step s as) :=
  ⟨as, List.prefix_rfl, rfl⟩

/-- **The invariant rule**: what every guarded call keeps holds in every state of a guarded run. -/
theorem Reaches.inv {s t : σ} {as : List α} (Inv : σ → Prop) (hr : Reaches step s as t) (h0 : Inv s)
    (hstep : ∀ s a, Inv s → guard s a → Inv (step s a)) (hg : Guarded step guard s as) :
    Inv t := by
  induction as generalizing s with
  | nil => rwa [reaches_nil.1 hr]
  | cons a as ih =>
    rcases reaches_cons.1 hr with rfl | hr
    · exact h0
    · exact ih hr (hstep s a h0 hg.1) hg.2

/-- Every guarded call is good and keeps the invariant, so a guarded run has good calls only. -/
theorem Guarded.good {good : σ → α → Prop} {s : σ} {as : List α} (Inv : σ → Prop)
    (hg : Guarded step guard s as) (h0 : Inv s)
    (hstep : ∀ s a, Inv s → guard s a → good s a ∧ Inv (step s a)) : Guarded step good s as := by
  induction as generalizing s with
  | nil => trivial
  | cons a as ih =>
    obtain ⟨hgood, hinv⟩ := hstep s a h0 hg.1
    exact ⟨hgood, ih hg.2 hinv⟩

/-- What every call keeps in a state with `P` holds in every state of a run that keeps `P`. -/
theorem Reaches.inv_of {s t : σ} {as : List α} (Inv P : σ → Prop) (hr : Reaches step s as t)
    (hall : ∀ t, Reaches step s as t → P t) (h0 : Inv s)
    (hstep : ∀ s a, Inv s → P s → Inv (step s a)) : Inv t := by
  induction as generalizing s with
  | nil => rwa [reaches_nil.1 hr]
  | cons a as ih =>
    rcases reaches_cons.1 hr with rfl | hr
    · exact h0
    · have hs : P s := hall s (reaches_cons.2 (.inl rfl))
      exact ih hr (fun t ht => hall t (reaches_cons.2 (.inr ht))) (hstep s a h0 hs)

/-- With a guard that is exact for one call, a run keeps the invariant exactly when every call
meets the guard. -/
theorem guarded_iff (Inv : σ → Prop) {s : σ} {as : List α} (h0 : Inv s)
    (hstep : ∀ s a, Inv s → (Inv (step s a) ↔ guard s a)) :
    (∀ t, Reaches step s as t → Inv t) ↔ Guarded step guard s as := by
  constructor
  · intro h
    induction as generalizing s with
    | nil => trivial
    | cons a as ih =>
      have ha : Inv (step s a) := h _ (reaches_cons.2 (.inr ⟨[], List.nil_prefix, rfl⟩))
      exact ⟨(hstep s a h0).1 ha, ih ha fun t ht => h t (reaches_cons.2 (.inr ht))⟩
  · intro hg t ht
    exact ht.inv Inv h0 (fun s a hs ha => (hstep s a hs).2 ha) hg

/-- With a guard that is exact for one call and its answer, a run keeps the invariant and gets the
right answers exactly when every call meets the guard. -/
theorem guarded_and_iff (Inv : σ → Prop) {good : σ → α → Prop} {s : σ} {as : List α} (h0 : Inv s)
    (hstep : ∀ s a, Inv s → (Inv (step s a) ∧ good s a ↔ guard s a)) :
    (∀ t, Reaches step s as t → Inv t) ∧ Guarded step good s as ↔ Guarded step guard s as := by
  constructor
  · intro ⟨h, hg⟩
    induction as generalizing s with
    | nil => trivial
    | cons a as ih =>
      have ha : Inv (step s a) := h _ (reaches_cons.2 (.inr ⟨[], List.nil_prefix, rfl⟩))
      exact ⟨(hstep s a h0).1 ⟨ha, hg.1⟩,
        ih ha (fun t ht => h t (reaches_cons.2 (.inr ht))) hg.2⟩
  · intro hg
    constructor
    · intro t ht
      exact ht.inv Inv h0 (fun s a hs ha => ((hstep s a hs).2 ha).1) hg
    · induction as generalizing s with
      | nil => trivial
      | cons a as ih =>
        obtain ⟨hi, ha⟩ := (hstep s a h0).2 hg.1
        exact ⟨ha, ih hi hg.2⟩

/-- Of two systems in step, the calls meet the guard of the one where they meet that of the
other. -/
theorem guarded_sim {τ : Type*} {step' : τ → α → τ} {guard' : τ → α → Prop} (R : σ → τ → Prop)
    {s : σ} {t : τ} {as : List α} (h0 : R s t) (hstep : ∀ s t a, R s t → R (step s a) (step' t a))
    (hguard : ∀ s t a, R s t → (guard s a ↔ guard' t a)) :
    Guarded step guard s as ↔ Guarded step' guard' t as := by
  induction as generalizing s t with
  | nil => exact Iff.rfl
  | cons a as ih => exact and_congr (hguard s t a h0) (ih (hstep s t a h0))

end Lib
