import Lib3MF.Lib.State

/-!
# Loops that check what they append

A loop that checks each item against the ones before it and then stores it (`Appends`) ends with
all items stored when together they are valid; otherwise it throws with the longest valid beginning
stored (`Appends.forM_eq`). `AllOrNothing` says that a call that throws changes nothing.
-/

namespace Lib

variable {ε σ α β : Type} {Valid : List α → Prop} {f : α → EStateM ε σ Unit}
  {stored : List α → σ} {as pre pre' : List α}

/-- A call either does what `done` says or throws and leaves the state as it was. -/
def AllOrNothing (call : EStateM ε σ β) (s : σ) (done : β → σ → Prop) : Prop :=
  match call s with
  | .ok b s' => done b s'
  | .error _ s' => s' = s

theorem allOrNothing_of_ok {call : EStateM ε σ β} {s s' : σ} {b : β} {done : β → σ → Prop}
    (h : call s = .ok b s') : AllOrNothing call s done ↔ done b s' := by
  unfold AllOrNothing
  rw [h]

theorem allOrNothing_of_error {call : EStateM ε σ β} {s s' : σ} {e : ε} {done : β → σ → Prop}
    (h : call s = .error e s') : AllOrNothing call s done ↔ s' = s := by
  unfold AllOrNothing
  rw [h]

/-- `pre` is the longest valid beginning of `as`, which is not all of it. -/
def LongestValid (Valid : List α → Prop) (as pre : List α) : Prop :=
  ∃ a rest, as = pre ++ a :: rest ∧ Valid pre ∧ ¬ Valid (pre ++ [a])

/-- The loop of `f` over `as` stores each item that is valid after those before it, and throws at
another one. With `pre` stored the state is `stored pre`. -/
structure Appends (Valid : List α → Prop) (f : α → EStateM ε σ Unit) (stored : List α → σ)
    (as : List α) : Prop where
  closed : ∀ pre a, Valid (pre ++ [a]) → Valid pre
  ok : ∀ pre a rest, as = pre ++ a :: rest → Valid (pre ++ [a]) →
    f a (stored pre) = .ok () (stored (pre ++ [a]))
  error : ∀ pre a rest, as = pre ++ a :: rest → Valid pre → ¬ Valid (pre ++ [a]) →
    ∃ e, f a (stored pre) = .error e (stored pre)

theorem valid_of_append (closed : ∀ pre a, Valid (pre ++ [a]) → Valid pre) (pre post : List α)
    (h : Valid (pre ++ post)) : Valid pre := by
  induction post generalizing pre with
  | nil => rwa [List.append_nil] at h
  | cons a post ih =>
    apply closed pre a
    apply ih
    rwa [List.append_assoc]

theorem LongestValid.not_valid (closed : ∀ pre a, Valid (pre ++ [a]) → Valid pre)
    (h : LongestValid Valid as pre) : ¬ Valid as := by
  obtain ⟨a, rest, rfl, -, hnot⟩ := h
  intro hv
  apply hnot
  apply valid_of_append closed (pre ++ [a]) rest
  rwa [List.append_assoc]

theorem LongestValid.prefix_of (closed : ∀ pre a, Valid (pre ++ [a]) → Valid pre)
    (h : LongestValid Valid as pre) (hp : pre' <+: as) (hv : Valid pre') : pre' <+: pre := by
  obtain ⟨a, rest, rfl, -, hnot⟩ := h
  obtain hle | hle := List.prefix_or_prefix_of_prefix hp (List.prefix_append pre (a :: rest))
  · exact hle
  · obtain ⟨post, rfl⟩ := hle
    cases post with
    | nil => exact ⟨[], by simp⟩
    | cons b post =>
      obtain ⟨more, hmore⟩ := hp
      rw [List.append_assoc, List.append_cancel_left_eq, List.cons_append] at hmore
      obtain ⟨rfl, -⟩ := List.cons.inj hmore
      refine absurd (valid_of_append closed (pre ++ [b]) post ?_) hnot
      rwa [List.append_assoc]

/-- There is only one longest valid beginning. -/
theorem LongestValid.unique (closed : ∀ pre a, Valid (pre ++ [a]) → Valid pre)
    (h : LongestValid Valid as pre) (h' : LongestValid Valid as pre') : pre' = pre := by
  have hp : pre <+: as := let ⟨a, rest, heq, _⟩ := h; ⟨a :: rest, heq.symm⟩
  have hp' : pre' <+: as := let ⟨a, rest, heq, _⟩ := h'; ⟨a :: rest, heq.symm⟩
  have hle : pre' <+: pre := h.prefix_of closed hp' (let ⟨_, _, _, hv, _⟩ := h'; hv)
  have hge : pre <+: pre' := h'.prefix_of closed hp (let ⟨_, _, _, hv, _⟩ := h; hv)
  exact hle.eq_of_length_le hge.length_le

namespace Appends

theorem forM_from (h : Appends Valid f stored as) (pre post : List α) (has : as = pre ++ post)
    (hv : Valid pre) :
    (Valid as ∧ post.forM f (stored pre) = .ok () (stored as)) ∨
      ∃ p e, LongestValid Valid as p ∧ post.forM f (stored pre) = .error e (stored p) := by
  induction post generalizing pre with
  | nil =>
    rw [List.append_nil] at has
    subst has
    exact .inl ⟨hv, rfl⟩
  | cons a post ih =>
    by_cases ha : Valid (pre ++ [a])
    · have hstep : (a :: post).forM f (stored pre) = post.forM f (stored (pre ++ [a])) :=
        bind_of_ok (h.ok pre a post has ha)
      rw [hstep]
      exact ih (pre ++ [a]) (by rw [has, List.append_assoc]; rfl) ha
    · obtain ⟨e, he⟩ := h.error pre a post has hv ha
      exact .inr ⟨pre, e, ⟨a, post, has, hv, ha⟩, bind_of_error he⟩

/-- **The rule of the loop.** -/
theorem forM_eq (h : Appends Valid f stored as) (hnil : Valid []) :
    (Valid as ∧ as.forM f (stored []) = .ok () (stored as)) ∨
      ∃ p e, LongestValid Valid as p ∧ as.forM f (stored []) = .error e (stored p) :=
  h.forM_from [] as rfl hnil

/-- The loop changes nothing where it throws exactly when its start held what is stored then. -/
theorem allOrNothing_iff (h : Appends Valid f stored as) (hnil : Valid [])
    {call : EStateM ε σ Unit} {s : σ} (hcall : call s = as.forM f (stored []))
    {done : Unit → σ → Prop} (hdone : done () (stored as)) :
    AllOrNothing call s done ↔
      Valid as ∨ ∃ pre, LongestValid Valid as pre ∧ s = stored pre := by
  obtain ⟨hv, hrun⟩ | ⟨p, e, hp, hrun⟩ := h.forM_eq hnil
  · rw [allOrNothing_of_ok (hcall.trans hrun)]
    exact iff_of_true hdone (.inl hv)
  · rw [allOrNothing_of_error (hcall.trans hrun)]
    refine ⟨fun hs => .inr ⟨p, hp, hs.symm⟩, fun hs => ?_⟩
    obtain hv | ⟨p', hp', rfl⟩ := hs
    · exact absurd hv (hp.not_valid h.closed)
    · rw [hp.unique h.closed hp']

end Appends

end Lib
