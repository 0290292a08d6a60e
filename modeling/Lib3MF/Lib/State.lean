import Mathlib.Data.List.Basic

/-!
# Computations with a state that may throw

A computation in `EStateM` that throws leaves the state it has reached. `bind_of_ok` and
`bind_of_error` run one step by step. `Ends` says what holds of the state at the end, by how the
computation ends; `Succeeds` that it ends well; `Frames r x` that `x` relates the state before it to
the one after it by `r`, however it ends, and holds of a sequence when it holds of its steps.
-/

namespace Lib

variable {ε σ α β : Type}

/-- A step that succeeds. -/
theorem bind_of_ok {x : EStateM ε σ α} {f : α → EStateM ε σ β} {s s' : σ} {a : α}
    (h : x s = .ok a s') : (x >>= f) s = f a s' := by
  show EStateM.bind x f s = _
  rw [EStateM.bind, h]

/-- A step that throws. -/
theorem bind_of_error {x : EStateM ε σ α} {f : α → EStateM ε σ β} {s s' : σ} {e : ε}
    (h : x s = .error e s') : (x >>= f) s = .error e s' := by
  show EStateM.bind x f s = _
  rw [EStateM.bind, h]

/-- What a sequence that succeeds has done. -/
theorem bind_state_ok {x : EStateM ε σ α} {f : α → EStateM ε σ β} {s s' : σ} {b : β} :
    (x >>= f) s = .ok b s' ↔ ∃ a t, x s = .ok a t ∧ f a t = .ok b s' := by
  show EStateM.bind x f s = _ ↔ _
  rw [EStateM.bind]
  rcases x s with ⟨a, t⟩ | ⟨e, t⟩
  · simp
  · simp

/-- A check that throws. -/
def require (c : Prop) [Decidable c] (e : ε) : EStateM ε σ Unit :=
  if c then pure () else throw e

/-- A branch without an alternative. -/
def doIf (c : Prop) [Decidable c] (x : EStateM ε σ Unit) : EStateM ε σ Unit :=
  if c then x else pure ()

theorem require_of_pos {c : Prop} [Decidable c] (h : c) (e : ε) (s : σ) :
    require c e s = .ok () s := by
  rw [require, if_pos h]
  rfl

theorem require_of_neg {c : Prop} [Decidable c] (h : ¬ c) (e : ε) (s : σ) :
    require c e s = .error e s := by
  rw [require, if_neg h]
  rfl

theorem doIf_of_pos {c : Prop} [Decidable c] (h : c) (x : EStateM ε σ Unit) (s : σ) :
    doIf c x s = x s := by rw [doIf, if_pos h]

theorem doIf_of_neg {c : Prop} [Decidable c] (h : ¬ c) (x : EStateM ε σ Unit) (s : σ) :
    doIf c x s = .ok () s := by
  rw [doIf, if_neg h]
  rfl

theorem get_bind (f : σ → EStateM ε σ β) (s : σ) :
    ((MonadState.get : EStateM ε σ σ) >>= f) s = f s s := rfl

theorem modify_bind (g : σ → σ) (f : Unit → EStateM ε σ β) (s : σ) :
    ((modify g : EStateM ε σ Unit) >>= f) s = f () (g s) := rfl

theorem require_bind {c : Prop} [Decidable c] (h : c) (e : ε) (f : Unit → EStateM ε σ β) (s : σ) :
    (require c e >>= f) s = f () s := bind_of_ok (require_of_pos h e s)

theorem doIf_bind_of_pos {c : Prop} [Decidable c] (h : c) (x : EStateM ε σ Unit)
    (f : Unit → EStateM ε σ β) (s : σ) : (doIf c x >>= f) s = (x >>= f) s := by
  rw [doIf, if_pos h]

theorem doIf_bind_of_neg {c : Prop} [Decidable c] (h : ¬ c) (x : EStateM ε σ Unit)
    (f : Unit → EStateM ε σ β) (s : σ) : (doIf c x >>= f) s = f () s :=
  bind_of_ok (doIf_of_neg h x s)

/-- The state at the end. -/
def finalState : EStateM.Result ε σ α → σ
  | .ok _ s => s
  | .error _ s => s

/-- A computation ends in a state with `q` when it succeeds, with `e` when it throws. -/
def Ends (x : EStateM.Result ε σ α) (q e : σ → Prop) : Prop :=
  match x with
  | .ok _ s => q s
  | .error _ s => e s

theorem Ends.final {x : EStateM.Result ε σ α} {q e p : σ → Prop} (h : Ends x q e)
    (hq : ∀ s, q s → p s) (he : ∀ s, e s → p s) : p (finalState x) := by
  cases x with
  | ok a s => exact hq s h
  | error a s => exact he s h

theorem Ends.mono {x : EStateM.Result ε σ α} {q q' e e' : σ → Prop} (h : Ends x q e)
    (hq : ∀ s, q s → q' s) (he : ∀ s, e s → e' s) : Ends x q' e' := by
  cases x with
  | ok a s => exact hq s h
  | error a s => exact he s h

/-- The rule of a sequence. -/
theorem Ends.bind {x : EStateM ε σ α} {f : α → EStateM ε σ β} {s : σ} {p q e : σ → Prop}
    (hx : Ends (x s) p e) (hf : ∀ a t, x s = .ok a t → p t → Ends (f a t) q e) :
    Ends ((x >>= f) s) q e := by
  cases hxs : x s with
  | ok a t =>
    rw [bind_of_ok hxs]
    rw [hxs] at hx
    exact hf a t hxs hx
  | error a t =>
    rw [bind_of_error hxs]
    rwa [hxs] at hx

/-- The rule of a loop: what each pass keeps, also one that throws. -/
theorem Ends.forM {γ : Type} {p : σ → Prop} {f : γ → EStateM ε σ PUnit} {l : List γ} {s : σ}
    (step : ∀ c ∈ l, ∀ t, p t → Ends (f c t) p p) (hs : p s) : Ends (l.forM f s) p p := by
  induction l generalizing s with
  | nil => exact hs
  | cons c l ih =>
    exact (step c List.mem_cons_self s hs).bind fun _ t _ ht =>
      ih (fun d hd => step d (List.mem_cons_of_mem _ hd)) ht

/-- A computation succeeds, in a state with `q`. -/
def Succeeds (x : EStateM ε σ α) (s : σ) (q : σ → Prop) : Prop := ∃ a s', x s = .ok a s' ∧ q s'

namespace Succeeds

variable {x : EStateM ε σ α} {s s' : σ} {a : α} {p q : σ → Prop}

theorem of_ok (h : x s = .ok a s') (hq : q s') : Succeeds x s q := ⟨a, s', h, hq⟩

theorem mono (h : Succeeds x s p) (hq : ∀ t, p t → q t) : Succeeds x s q := by
  obtain ⟨a, s', hx, hp⟩ := h
  exact ⟨a, s', hx, hq s' hp⟩

/-- The rule of a sequence. -/
theorem bind {f : α → EStateM ε σ β} (hx : Succeeds x s p)
    (hf : ∀ a t, p t → Succeeds (f a) t q) : Succeeds (x >>= f) s q := by
  obtain ⟨a, t, hx, hp⟩ := hx
  obtain ⟨b, u, hfa, hq⟩ := hf a t hp
  exact ⟨b, u, (bind_of_ok hx).trans hfa, hq⟩

theorem get_bind {f : σ → EStateM ε σ β} (h : Succeeds (f s) s q) :
    Succeeds ((MonadState.get : EStateM ε σ σ) >>= f) s q := h

theorem modify_bind {g : σ → σ} {f : Unit → EStateM ε σ β} (h : Succeeds (f ()) (g s) q) :
    Succeeds ((modify g : EStateM ε σ Unit) >>= f) s q := h

theorem require_bind {c : Prop} [Decidable c] {e : ε} {f : Unit → EStateM ε σ β} (hc : c)
    (h : Succeeds (f ()) s q) : Succeeds (require c e >>= f) s q := by
  obtain ⟨b, t, hb, hq⟩ := h
  exact ⟨b, t, (Lib.require_bind hc e f s).trans hb, hq⟩

/-- The invariant rule of a loop: `Inv done s` for the items done. -/
theorem forM_from {γ : Type} (Inv : List γ → σ → Prop) {f : γ → EStateM ε σ PUnit}
    {l done : List γ} (step : ∀ done c t, c ∈ l → Inv done t → Succeeds (f c) t (Inv (done ++ [c])))
    (hs : Inv done s) : Succeeds (l.forM f) s (Inv (done ++ l)) := by
  induction l generalizing done s with
  | nil =>
    rw [List.append_nil]
    exact ⟨PUnit.unit, s, rfl, hs⟩
  | cons c l ih =>
    refine bind (step done c s List.mem_cons_self hs) fun _ t ht => ?_
    have hl := ih (fun done d t hd => step done d t (List.mem_cons_of_mem _ hd)) ht
    rwa [List.append_assoc] at hl

theorem forM {γ : Type} (Inv : List γ → σ → Prop) {f : γ → EStateM ε σ PUnit} {l : List γ}
    (step : ∀ done c t, c ∈ l → Inv done t → Succeeds (f c) t (Inv (done ++ [c])))
    (hs : Inv [] s) : Succeeds (l.forM f) s (Inv l) :=
  forM_from Inv step hs

end Succeeds

/-- However `x` ends, the states before and after it are related. -/
def Frames (r : σ → σ → Prop) (x : EStateM ε σ α) : Prop := ∀ s, r s (finalState (x s))

namespace Frames

variable {r : σ → σ → Prop}

theorem pure (hr : ∀ s, r s s) (a : α) : Frames r (pure a : EStateM ε σ α) := hr

theorem throw (hr : ∀ s, r s s) (e : ε) : Frames r (throw e : EStateM ε σ α) := hr

theorem get (hr : ∀ s, r s s) : Frames r (get : EStateM ε σ σ) := hr

theorem modify {f : σ → σ} (h : ∀ s, r s (f s)) : Frames r (modify f : EStateM ε σ PUnit) := h

theorem ends {x : EStateM ε σ α} (h : Frames r x) (s : σ) : Ends (x s) (r s) (r s) := by
  have := h s
  cases hx : x s with
  | ok a t => rwa [hx] at this
  | error a t => rwa [hx] at this

/-- The sequence of two steps. -/
theorem bind (ht : ∀ s t u, r s t → r t u → r s u) {x : EStateM ε σ α} {f : α → EStateM ε σ β}
    (hx : Frames r x) (hf : ∀ a, Frames r (f a)) : Frames r (x >>= f) := by
  intro s
  have h := hx s
  cases hxs : x s with
  | ok a t =>
    rw [bind_of_ok hxs]
    rw [hxs] at h
    exact ht _ _ _ h (hf a t)
  | error e t =>
    rw [bind_of_error hxs]
    rwa [hxs] at h

/-- A first step that reads the state. -/
theorem get_bind {f : σ → EStateM ε σ β} (hf : ∀ s, r s (finalState (f s s))) :
    Frames r ((MonadState.get : EStateM ε σ σ) >>= f) := hf

/-- A loop over a list. -/
theorem foldlM (hr : ∀ s, r s s) (ht : ∀ s t u, r s t → r t u → r s u)
    {f : β → α → EStateM ε σ β} (hf : ∀ b a, Frames r (f b a)) (l : List α) (b : β) :
    Frames r (l.foldlM f b) := by
  induction l generalizing b with
  | nil => exact pure hr b
  | cons a l ih => exact bind ht (hf b a) ih

theorem forM (hr : ∀ s, r s s) (ht : ∀ s t u, r s t → r t u → r s u)
    {f : α → EStateM ε σ PUnit} (hf : ∀ a, Frames r (f a)) (l : List α) : Frames r (l.forM f) := by
  induction l with
  | nil => exact pure hr _
  | cons a l ih => exact bind ht (hf a) fun _ => ih

end Frames

end Lib
