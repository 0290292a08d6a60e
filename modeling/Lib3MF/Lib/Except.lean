import Mathlib.Data.List.Forall2
import Mathlib.Data.List.Induction

/-!
# Computations that may throw

What a result of `>>=`, `mapM` or `foldlM` in `Except` says about the steps: `bind_eq_ok` takes a
computation apart at its first step, `foldlM_ok` is the invariant rule of a loop over a list.
`RunsAs` compares a computation that may not end with one in `Except`, step by step.
-/

namespace Lib

variable {ε α β : Type}

@[simp] theorem bind_eq_ok {x : Except ε α} {f : α → Except ε β} {b : β} :
    (x >>= f) = .ok b ↔ ∃ a, x = .ok a ∧ f a = .ok b := by
  cases x with
  | error e => simp [bind, Except.bind]
  | ok a => simp [bind, Except.bind]

/-- Going on after a step that does not throw. -/
theorem ok_bind (a : α) (f : α → Except ε β) : (Except.ok a >>= f) = f a := rfl

/-- A computation throws in its first step or behind it. -/
theorem bind_eq_error {x : Except ε α} {f : α → Except ε β} {e : ε} :
    (x >>= f) = .error e ↔ x = .error e ∨ ∃ a, x = .ok a ∧ f a = .error e := by
  cases x with
  | error e => simp [bind, Except.bind]
  | ok a => simp [bind, Except.bind]

@[simp] theorem pure_eq_ok {a b : α} : (pure a : Except ε α) = .ok b ↔ a = b := by
  simp [pure, Except.pure]

@[simp] theorem throw_ne_ok {e : ε} {b : α} : (throw e : Except ε α) ≠ .ok b := nofun

/-- A guard that throws was passed. -/
@[simp] theorem guard_eq_ok {c : Prop} [Decidable c] {e : ε} {f : α → Except ε β}
    {x : Except ε β} {b : β} :
    (if c then throw e >>= f else x) = .ok b ↔ ¬ c ∧ x = .ok b := by
  split_ifs with h
  · simp [h]
  · simp [h]

/-- The state a function leaves that changes nothing when it throws, with its error. -/
def orThrow {σ : Type*} (s : σ) : Except ε σ → σ × Option ε
  | .ok s' => (s', none)
  | .error e => (s, some e)

/-- The state is the old one or the one that the function returns. -/
theorem orThrow_fst {σ : Type*} (s : σ) (x : Except ε σ) :
    (orThrow s x).1 = s ∨ ∃ s', x = .ok s' ∧ (orThrow s x).1 = s' := by
  cases x with
  | error e => exact .inl rfl
  | ok s' => exact .inr ⟨s', rfl, rfl⟩

/-- The invariant rule of a loop: `Inv done b` for the items done and the value so far. -/
theorem foldlM_ok (Inv : List α → β → Prop) {f : β → α → Except ε β} {l done : List α} {b b' : β}
    (step : ∀ done b a b', a ∈ l → Inv done b → f b a = .ok b' → Inv (done ++ [a]) b')
    (hb : Inv done b) (h : l.foldlM f b = .ok b') : Inv (done ++ l) b' := by
  induction l generalizing done b with
  | nil =>
    cases h
    rwa [List.append_nil]
  | cons a l ih =>
    rw [List.foldlM_cons] at h
    obtain ⟨b₁, hf, hl⟩ := bind_eq_ok.1 h
    have := ih (fun done b x b' hx => step done b x b' (List.mem_cons_of_mem _ hx))
      (step done b a b₁ List.mem_cons_self hb hf) hl
    rwa [List.append_assoc] at this

/-- A loop in which the items before an item decide whether its step succeeds. -/
theorem foldlM_ok_iff (Inv : List α → β → Prop) (Ok : List α → α → Prop) {f : β → α → Except ε β}
    (step : ∀ done b a, Inv done b →
      (Ok done a → ∃ b', f b a = .ok b') ∧ ∀ b', f b a = .ok b' → Ok done a ∧ Inv (done ++ [a]) b')
    {l done : List α} {b : β} (hb : Inv done b) :
    (∃ b', l.foldlM f b = .ok b') ↔ ∀ pre a rest, l = pre ++ a :: rest → Ok (done ++ pre) a := by
  induction l generalizing done b with
  | nil =>
    refine ⟨fun _ pre a rest h => ?_, fun _ => ⟨b, rfl⟩⟩
    cases pre <;> cases h
  | cons x l ih =>
    rw [List.foldlM_cons]
    constructor
    · intro ⟨b', h⟩ pre a rest hl
      obtain ⟨b₁, hf, h⟩ := bind_eq_ok.1 h
      obtain ⟨hok, hinv⟩ := (step done b x hb).2 b₁ hf
      cases pre with
      | nil =>
        obtain ⟨rfl, rfl⟩ := List.cons.inj hl
        rwa [List.append_nil]
      | cons y pre =>
        obtain ⟨rfl, rfl⟩ := List.cons.inj hl
        have := (ih hinv).1 ⟨b', h⟩ pre a rest rfl
        rwa [List.append_assoc] at this
    · intro h
      have hx := h [] x l rfl
      rw [List.append_nil] at hx
      obtain ⟨b₁, hf⟩ := (step done b x hb).1 hx
      have hrest := (ih ((step done b x hb).2 b₁ hf).2).2 fun pre a rest hl => by
        have := h (x :: pre) a rest (by rw [hl]; rfl)
        rwa [List.append_assoc]
      obtain ⟨b', hb'⟩ := hrest
      exact ⟨b', bind_eq_ok.2 ⟨b₁, hf, hb'⟩⟩

/-- A loop that passes over some items. -/
theorem foldlM_ite {f : β → α → Except ε β} {c : α → Prop} [DecidablePred c] (l : List α) (b : β) :
    l.foldlM (fun b a => if c a then f b a else .ok b) b =
      (l.filter fun a => c a).foldlM f b := by
  induction l generalizing b with
  | nil => rfl
  | cons a l ih =>
    rw [List.foldlM_cons]
    by_cases h : c a
    · rw [if_pos h, List.filter_cons_of_pos (by simpa using h), List.foldlM_cons]
      exact congrArg (f b a >>= ·) (funext ih)
    · rw [if_neg h, List.filter_cons_of_neg (by simpa using h)]
      exact ih b

theorem foldlM_zipIdx_from (Inv : List α → β → Prop) {f : β → α × Nat → Except ε β}
    {l done : List α} {b b' : β}
    (step : ∀ done b a b', Inv done b → f b (a, done.length) = .ok b' → Inv (done ++ [a]) b')
    (hb : Inv done b) (h : (l.zipIdx done.length).foldlM f b = .ok b') : Inv (done ++ l) b' := by
  induction l generalizing done b with
  | nil =>
    cases h
    rwa [List.append_nil]
  | cons a l ih =>
    rw [List.zipIdx_cons, List.foldlM_cons] at h
    obtain ⟨b₁, hf, hl⟩ := bind_eq_ok.1 h
    rw [← List.length_singleton (a := a), ← List.length_append] at hl
    have := ih (step done b a b₁ hb hf) hl
    rwa [List.append_assoc] at this

/-- The invariant rule of a loop over items and their indices. -/
theorem foldlM_zipIdx_ok (Inv : List α → β → Prop) {f : β → α × Nat → Except ε β} {l : List α}
    {b b' : β}
    (step : ∀ done b a b', Inv done b → f b (a, done.length) = .ok b' → Inv (done ++ [a]) b')
    (hb : Inv [] b) (h : l.zipIdx.foldlM f b = .ok b') : Inv l b' :=
  foldlM_zipIdx_from Inv step hb h

theorem foldlM_zipIdx_total_from (Inv : List α → β → Prop) {f : β → α × Nat → Except ε β}
    {all l done : List α} {b : β}
    (step : ∀ done a rest b, done ++ a :: rest = all → Inv done b →
      ∃ b', f b (a, done.length) = .ok b' ∧ Inv (done ++ [a]) b')
    (hall : done ++ l = all) (hb : Inv done b) :
    ∃ b', (l.zipIdx done.length).foldlM f b = .ok b' ∧ Inv all b' := by
  induction l generalizing done b with
  | nil =>
    rw [List.append_nil] at hall
    exact ⟨b, rfl, hall ▸ hb⟩
  | cons a l ih =>
    obtain ⟨b₁, hf, hi⟩ := step done a l b hall hb
    have hall' : (done ++ [a]) ++ l = all := by
      rw [List.append_assoc]
      exact hall
    obtain ⟨b₂, hl, hi₂⟩ := ih hall' hi
    rw [List.length_append, List.length_singleton] at hl
    exact ⟨b₂, by rw [List.zipIdx_cons, List.foldlM_cons, hf]; exact hl, hi₂⟩

/-- Such a loop does not throw when no item does, coming after the items before it. -/
theorem foldlM_zipIdx_total (Inv : List α → β → Prop) {f : β → α × Nat → Except ε β} {l : List α}
    {b : β}
    (step : ∀ done a rest b, done ++ a :: rest = l → Inv done b →
      ∃ b', f b (a, done.length) = .ok b' ∧ Inv (done ++ [a]) b')
    (hb : Inv [] b) : ∃ b', l.zipIdx.foldlM f b = .ok b' ∧ Inv l b' :=
  foldlM_zipIdx_total_from Inv step (List.nil_append _) hb

/-- A counting loop does not throw when no round does, coming after the rounds before it. -/
theorem foldlM_range_total (Inv : Nat → β → Prop) {f : β → Nat → Except ε β} {n : Nat} {b : β}
    (step : ∀ i b, i < n → Inv i b → ∃ b', f b i = .ok b' ∧ Inv (i + 1) b')
    (hb : Inv 0 b) : ∃ b', (List.range n).foldlM f b = .ok b' ∧ Inv n b' := by
  induction n with
  | zero => exact ⟨b, rfl, hb⟩
  | succ n ih =>
    obtain ⟨b₁, hl, h₁⟩ := ih fun i b hi => step i b (Nat.lt_succ_of_lt hi)
    obtain ⟨b₂, hf, h₂⟩ := step n b₁ (Nat.lt_succ_self n) h₁
    refine ⟨b₂, ?_, h₂⟩
    rw [List.range_succ, List.foldlM_append]
    refine bind_eq_ok.2 ⟨b₁, hl, ?_⟩
    rw [List.foldlM_cons, hf]
    rfl

/-- The first step of a computation that may not end either. -/
theorem run_bind_eq_ok {α β ε : Type} {x : ExceptT ε Option α} {f : α → ExceptT ε Option β}
    {b : β} : (x >>= f).run = some (.ok b) ↔
      ∃ a, x.run = some (.ok a) ∧ (f a).run = some (.ok b) := by
  rw [ExceptT.run_bind]
  rcases x.run with - | (e | a) <;> simp

/-- The invariant rule of a loop that may not end. -/
theorem foldlM_run_ok (Inv : List α → β → Prop) {f : β → α → ExceptT ε Option β} {l done : List α}
    {b b' : β}
    (step : ∀ done b a b', a ∈ l → Inv done b → (f b a).run = some (.ok b') → Inv (done ++ [a]) b')
    (hb : Inv done b) (h : (l.foldlM f b).run = some (.ok b')) : Inv (done ++ l) b' := by
  induction l generalizing done b with
  | nil =>
    cases h
    rwa [List.append_nil]
  | cons a l ih =>
    rw [List.foldlM_cons] at h
    obtain ⟨b₁, hf, hl⟩ := run_bind_eq_ok.1 h
    have := ih (fun done b x b' hx => step done b x b' (List.mem_cons_of_mem _ hx))
      (step done b a b₁ List.mem_cons_self hb hf) hl
    rwa [List.append_assoc] at this

/-- A loop that may not end does, when each round keeps the invariant and goes on. -/
theorem foldlM_run_total (Inv : List α → β → Prop) {f : β → α → ExceptT ε Option β}
    {l done rest : List α} {b : β} (hl : done ++ rest = l)
    (step : ∀ done a rest b, done ++ a :: rest = l → Inv done b →
      ∃ b', (f b a).run = some (.ok b') ∧ Inv (done ++ [a]) b')
    (hb : Inv done b) : ∃ b', (rest.foldlM f b).run = some (.ok b') ∧ Inv l b' := by
  induction rest generalizing done b with
  | nil =>
    rw [List.append_nil] at hl
    exact ⟨b, rfl, hl ▸ hb⟩
  | cons a rest ih =>
    obtain ⟨b₁, hf, h₁⟩ := step done a rest b hl hb
    obtain ⟨b', hr, h'⟩ := ih (by rw [List.append_assoc]; exact hl) h₁
    refine ⟨b', ?_, h'⟩
    rw [List.foldlM_cons]
    exact run_bind_eq_ok.2 ⟨b₁, hf, hr⟩

/-- The invariant rule of a counting loop that may not end. -/
theorem foldlM_range_run_ok (Inv : Nat → β → Prop) {f : β → Nat → ExceptT ε Option β} {n : Nat}
    {b b' : β}
    (step : ∀ i b b', i < n → Inv i b → (f b i).run = some (.ok b') → Inv (i + 1) b')
    (hb : Inv 0 b) (h : ((List.range n).foldlM f b).run = some (.ok b')) : Inv n b' := by
  induction n generalizing b' with
  | zero =>
    cases h
    exact hb
  | succ n ih =>
    rw [List.range_succ, List.foldlM_append] at h
    obtain ⟨b₁, hl, hf⟩ := run_bind_eq_ok.1 h
    rw [List.foldlM_cons] at hf
    obtain ⟨b₂, hf, hnil⟩ := run_bind_eq_ok.1 hf
    cases hnil
    exact step n b₁ _ (Nat.lt_succ_self n)
      (ih (fun i b b' hi => step i b b' (Nat.lt_succ_of_lt hi)) hl) hf

/-- `mapM` succeeds when every step does, with the results in order. -/
theorem mapM_eq_ok {f : α → Except ε β} {l : List α} {l' : List β} :
    l.mapM f = .ok l' ↔ List.Forall₂ (fun a b => f a = .ok b) l l' := by
  induction l generalizing l' with
  | nil =>
    rw [List.mapM_nil, pure_eq_ok, List.forall₂_nil_left_iff, eq_comm]
  | cons a l ih =>
    rw [List.mapM_cons, List.forall₂_cons_left_iff]
    simp only [bind_eq_ok, pure_eq_ok]
    constructor
    · intro ⟨b, hb, bs, hbs, he⟩
      exact ⟨b, bs, hb, ih.1 hbs, he.symm⟩
    · intro ⟨b, bs, hb, hbs, he⟩
      exact ⟨b, hb, bs, ih.2 hbs, he.symm⟩

/-- Each step of `mapM` succeeds. -/
theorem exists_ok_of_mapM {f : α → Except ε β} {l : List α} {l' : List β} {a : α}
    (h : l.mapM f = .ok l') (ha : a ∈ l) : ∃ b, f a = .ok b := by
  obtain ⟨i, hi, rfl⟩ := List.mem_iff_getElem.1 ha
  have hl := mapM_eq_ok.1 h
  exact ⟨_, hl.get hi (hl.length_eq ▸ hi)⟩

/-- The result of `mapM` has that of each step. -/
theorem mem_of_mapM {f : α → Except ε β} {l : List α} {l' : List β} {a : α} {b : β}
    (h : l.mapM f = .ok l') (ha : a ∈ l) (hb : f a = .ok b) : b ∈ l' := by
  obtain ⟨i, hi, rfl⟩ := List.mem_iff_getElem.1 ha
  have hl := mapM_eq_ok.1 h
  have hi' : i < l'.length := hl.length_eq ▸ hi
  obtain rfl := Except.ok.inj (hb.symm.trans (hl.get hi hi'))
  exact List.get_mem l' ⟨i, hi'⟩

/-- A loop of steps that do not throw. -/
theorem mapM_ok {f : α → Except ε β} {g : α → β} {l : List α} (h : ∀ a ∈ l, f a = .ok (g a)) :
    l.mapM f = .ok (l.map g) := by
  rw [mapM_eq_ok, List.forall₂_map_right_iff, List.forall₂_same]
  exact h

/-- Two loops with the same steps. -/
theorem mapM_congr {f g : α → Except ε β} {l : List α} (h : ∀ a ∈ l, f a = g a) :
    l.mapM f = l.mapM g := by
  induction l with
  | nil => rfl
  | cons a l ih =>
    rw [List.mapM_cons, List.mapM_cons, h a List.mem_cons_self,
      ih fun b hb => h b (List.mem_cons_of_mem _ hb)]

/-- A loop of steps that take back those of another loop. -/
theorem mapM_of_mapM {γ : Type} {f : α → Except ε β} {g : β → Except ε γ} {h : α → γ} {l : List α}
    {l' : List β} (hl : l.mapM f = .ok l')
    (hstep : ∀ a b, a ∈ l → b ∈ l' → f a = .ok b → g b = .ok (h a)) :
    l'.mapM g = .ok (l.map h) := by
  rw [mapM_eq_ok] at hl
  induction hl with
  | nil => rfl
  | @cons a b l l' hab _ ih =>
    rw [List.mapM_cons, hstep a b List.mem_cons_self List.mem_cons_self hab, ok_bind,
      ih fun a b ha hb => hstep a b (List.mem_cons_of_mem _ ha) (List.mem_cons_of_mem _ hb)]
    rfl

/-- Partners that are known are those of a function. -/
theorem forall₂_eq_map {r : α → β → Prop} {g : α → β} {l : List α} {l' : List β}
    (h : ∀ a b, a ∈ l → r a b → b = g a) (hl : List.Forall₂ r l l') : l' = l.map g := by
  induction hl with
  | nil => rfl
  | cons hab _ ih =>
    rw [List.map_cons, h _ _ List.mem_cons_self hab,
      ih fun a b ha => h a b (List.mem_cons_of_mem _ ha)]

/-- A loop whose steps give known results, where they give any. -/
theorem eq_map_of_mapM {f : α → Except ε β} {g : α → β} {l : List α} {l' : List β}
    (h : ∀ a b, a ∈ l → f a = .ok b → b = g a) (hl : l.mapM f = .ok l') : l' = l.map g :=
  forall₂_eq_map h (mapM_eq_ok.1 hl)

/-- A loop of steps that succeed under a condition, with known results. -/
theorem mapM_eq_ok_iff {f : α → Except ε β} {g : α → β} {p : α → Prop}
    (h : ∀ a b, f a = .ok b ↔ p a ∧ b = g a) {l : List α} {l' : List β} :
    l.mapM f = .ok l' ↔ (∀ a ∈ l, p a) ∧ l' = l.map g := by
  constructor
  · intro hl
    exact ⟨fun a ha => (exists_ok_of_mapM hl ha).elim fun b hb => ((h a b).1 hb).1,
      eq_map_of_mapM (fun a b _ hab => ((h a b).1 hab).2) hl⟩
  · rintro ⟨hp, rfl⟩
    exact mapM_ok fun a ha => (h a _).2 ⟨hp a ha, rfl⟩

/-- The partner of an item. -/
theorem forall₂_mem {r : α → β → Prop} {l : List α} {l' : List β} (h : List.Forall₂ r l l') {a : α}
    (ha : a ∈ l) : ∃ b ∈ l', r a b := by
  induction h with
  | nil => cases ha
  | cons hab _ ih =>
    rcases List.mem_cons.1 ha with rfl | ha
    · exact ⟨_, List.mem_cons_self, hab⟩
    · obtain ⟨b, hb, hr⟩ := ih ha
      exact ⟨b, List.mem_cons_of_mem _ hb, hr⟩

/-- What holds of the results of the steps, in terms of the items. -/
theorem forall₂_iff {q r : α → β → Prop} {p : α → Prop} {l : List α} {l' : List β}
    (h : List.Forall₂ q l l') (hq : ∀ a b, q a b → (r a b ↔ p a)) :
    List.Forall₂ r l l' ↔ ∀ a ∈ l, p a := by
  induction h with
  | nil => simp
  | cons hab _ ih =>
    rw [List.forall₂_cons, List.forall_mem_cons, hq _ _ hab, ih]

/-- A loop over the results of a first one succeeds, and its results go with the items, when each
item's step does. -/
theorem exists_mapM_iff {γ : Type} {q : α → β → Prop} {s : α → γ → Prop} {p : α → Prop}
    {f : β → Except ε γ} {l : List α} {l' : List β} (h : List.Forall₂ q l l')
    (hq : ∀ a ∈ l, ∀ b, q a b → ((∃ c, f b = .ok c ∧ s a c) ↔ p a)) :
    (∃ cs, l'.mapM f = .ok cs ∧ List.Forall₂ s l cs) ↔ ∀ a ∈ l, p a := by
  induction h with
  | nil => simp
  | @cons a b l l' hab h ih =>
    rw [List.forall_mem_cons, ← hq a List.mem_cons_self b hab,
      ← ih fun a' ha => hq a' (List.mem_cons_of_mem _ ha)]
    constructor
    · intro ⟨cs, hcs, hs⟩
      rw [mapM_eq_ok, List.forall₂_cons_left_iff] at hcs
      obtain ⟨c, cs', hc, hcs', rfl⟩ := hcs
      obtain ⟨hac, hs⟩ := List.forall₂_cons.1 hs
      exact ⟨⟨c, hc, hac⟩, cs', mapM_eq_ok.2 hcs', hs⟩
    · intro ⟨⟨c, hc, hac⟩, cs, hcs, hs⟩
      exact ⟨c :: cs, mapM_eq_ok.2 (.cons hc (mapM_eq_ok.1 hcs)), .cons hac hs⟩

/-- A loop of checks passes when each of them does. -/
theorem forM_eq_ok {α ε : Type} {check : α → Except ε Unit} {l : List α} :
    l.forM check = .ok () ↔ ∀ a ∈ l, check a = .ok () := by
  induction l with
  | nil => simp [List.forM, pure, Except.pure]
  | cons a l ih =>
    show (check a >>= fun _ => l.forM check) = _ ↔ _
    rw [bind_eq_ok, List.forall_mem_cons, ← ih]
    exact ⟨fun ⟨_, ha, hl⟩ => ⟨ha, hl⟩, fun ⟨ha, hl⟩ => ⟨_, ha, hl⟩⟩

/-! ## Runs that end alike -/

/-- A run that may not end does, as `y` does, in a result that `rel` relates to that of `y`. -/
def RunsAs (rel : α → β → Prop) (x : ExceptT ε Option α) (y : Except ε β) : Prop :=
  (∃ e, x.run = some (.error e) ∧ y = .error e) ∨
    ∃ a b, x.run = some (.ok a) ∧ y = .ok b ∧ rel a b

section RunsAs

variable {γ δ : Type} {rel : α → β → Prop} {rel' : γ → δ → Prop} {x x' : ExceptT ε Option α}
  {y : Except ε β}

theorem RunsAs.ok {a : α} {b : β} (h : rel a b) :
    RunsAs rel (pure a : ExceptT ε Option α) (.ok b) :=
  .inr ⟨a, b, rfl, rfl, h⟩

theorem RunsAs.error (rel : α → β → Prop) (e : ε) :
    RunsAs rel (throw e : ExceptT ε Option α) (.error e) :=
  .inl ⟨e, rfl, rfl⟩

/-- Only how the run ends matters. -/
theorem RunsAs.congr (h : RunsAs rel x y) (hx : x'.run = x.run) : RunsAs rel x' y := by
  unfold RunsAs
  rwa [hx]

theorem RunsAs.bind (h : RunsAs rel x y) {f : α → ExceptT ε Option γ} {g : β → Except ε δ}
    (hf : ∀ a b, rel a b → RunsAs rel' (f a) (g b)) : RunsAs rel' (x >>= f) (y >>= g) := by
  rcases h with ⟨e, hx, rfl⟩ | ⟨a, b, hx, rfl, hab⟩
  · refine .inl ⟨e, ?_, rfl⟩
    rw [ExceptT.run_bind, hx]
    rfl
  · refine (hf a b hab).congr ?_
    rw [ExceptT.run_bind, hx]
    rfl

/-- A step that returns. -/
theorem RunsAs.bind_ok {a : α} (hx : x.run = some (.ok a)) {f : α → ExceptT ε Option γ}
    {z : Except ε δ} (h : RunsAs rel' (f a) z) : RunsAs rel' (x >>= f) z := by
  refine h.congr ?_
  rw [ExceptT.run_bind, hx]
  rfl

/-- A guard on both sides. -/
theorem RunsAs.guard {c c' : Prop} [Decidable c] [Decidable c'] (hc : c ↔ c') (e : ε)
    (h : ¬ c → RunsAs rel x y) : RunsAs rel (do if c then throw e
                                                x) (if c' then .error e else y) := by
  by_cases h' : c
  · rw [if_pos h', if_pos (hc.1 h')]
    exact .error rel e
  · rw [if_neg h', if_neg (mt hc.2 h')]
    exact h h'

/-- A loop over indices, and one over the elements of these indices. -/
theorem RunsAs.foldlM {R : Nat → α → β → Prop} {l : List γ} {f : α → Nat → ExceptT ε Option α}
    {g : β → γ → Except ε β}
    (step : ∀ i c a b, l[i]? = some c → R i a b → RunsAs (R (i + 1)) (f a i) (g b c))
    {a : α} {b : β} (h0 : R 0 a b) :
    RunsAs (R l.length) ((List.range l.length).foldlM f a) (l.foldlM g b) := by
  induction l using List.reverseRecOn with
  | nil => exact .ok h0
  | append_singleton l c ih =>
    rw [List.length_append, List.length_singleton, List.range_succ, List.foldlM_append,
      List.foldlM_append]
    refine (ih fun i c a b hi => step i c a b ?_).bind fun a b hab => ?_
    · rw [List.getElem?_append_left (List.getElem?_eq_some_iff.1 hi).1, hi]
    · rw [List.foldlM_cons, List.foldlM_cons]
      exact (step l.length c a b List.getElem?_concat_length hab).bind fun a b hab => .ok hab

end RunsAs

end Lib
