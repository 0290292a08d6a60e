import Lib3MF.Lib.Except
import Lib3MF.Lib.Traverse

/-!
# The tree a graph unfolds into

A graph without infinite descent unfolds into a tree from each of its nodes. Its edges carry labels,
and `occurrences` lists the nodes of the tree, depth first, with what the labels on the way to each
come to. A walk with fuel that keeps no visited set works on them in this order (`walk_eq`); it may
leave out what is still ahead of it, and it ends at the first error.
-/

namespace Lib

section Tree

variable {α κ γ : Type*} (children : α → List (κ × α)) (act : γ → κ → γ)

/-- `b` is a child of `a`. -/
def Child (a b : α) : Prop := ∃ c ∈ children a, c.2 = b

/-- A way leads from `a` with the label `l` to `b` with the label `k`. -/
inductive Leads : α → γ → α → γ → Prop where
  | here (a : α) (l : γ) : Leads a l a l
  | down {a : α} {l : γ} {c : κ × α} {b : α} {k : γ} (hc : c ∈ children a)
      (h : Leads c.2 (act l c.1) b k) : Leads a l b k

variable {children} (h : Descends (Child children))

/-- The nodes of the tree below a node, depth first, with their labels. -/
noncomputable def occurrences : α → γ → List (α × γ) :=
  h.fix fun a below l =>
    (a, l) :: (children a).attach.flatMap fun c => below c.1.2 ⟨c.1, c.2, rfl⟩ (act l c.1.1)

theorem occurrences_eq (a : α) (l : γ) : occurrences act h a l =
    (a, l) :: (children a).flatMap fun c => occurrences act h c.2 (act l c.1) := by
  unfold occurrences
  rw [h.fix_eq]
  congr 1
  simp only [List.flatMap_subtype, List.unattach_attach]

theorem mem_occurrences {a b : α} {l k : γ} :
    (b, k) ∈ occurrences act h a l ↔ Leads children act a l b k := by
  constructor
  · intro hb
    induction a using h.induction generalizing l with
    | hstep a ih =>
      rw [occurrences_eq, List.mem_cons, List.mem_flatMap] at hb
      rcases hb with hb | ⟨c, hc, hb⟩
      · cases hb
        exact .here _ _
      · exact .down hc (ih c.2 ⟨c, hc, rfl⟩ hb)
  · intro hb
    induction hb with
    | here =>
      rw [occurrences_eq]
      exact List.mem_cons_self
    | down hc _ ih =>
      rw [occurrences_eq]
      exact List.mem_cons_of_mem _ (List.mem_flatMap.2 ⟨_, hc, ih⟩)

omit h in
/-- Ways are paths. -/
theorem exists_leads_iff {a b : α} {l : γ} :
    (∃ k, Leads children act a l b k) ↔ Relation.ReflTransGen (Child children) a b := by
  constructor
  · rintro ⟨k, h⟩
    induction h with
    | here => exact .refl
    | down hc _ ih => exact .head ⟨_, hc, rfl⟩ ih
  · intro h
    induction h using Relation.ReflTransGen.head_induction_on generalizing l with
    | refl => exact ⟨l, .here b l⟩
    | head hc _ ih =>
      obtain ⟨c, hc, rfl⟩ := hc
      obtain ⟨k, hk⟩ := @ih (act l c.1)
      exact ⟨k, .down hc hk⟩

end Tree

/-! ## Walks -/

section Walk

variable {α κ ε σ : Type} {γ : Type} {children : α → List (κ × α)} {act : γ → κ → γ}
  {go : σ → Bool} {visit : α → γ → σ → Except ε σ}

/-- A computation that does not run out of fuel. -/
def ended {β : Type} (x : Except ε β) : ExceptT ε Option β := ExceptT.mk (some x)

/-- The visit of a node, which is left out once the walk is over. -/
def visitIf (go : σ → Bool) (visit : α → γ → σ → Except ε σ) (s : σ) (x : α × γ) : Except ε σ :=
  if go s then visit x.1 x.2 s else .ok s

/-- Visit a node and walk through its children, until the walk is over. -/
def walk (children : α → List (κ × α)) (act : γ → κ → γ) (go : σ → Bool)
    (visit : α → γ → σ → Except ε σ) : Nat → α → γ → σ → ExceptT ε Option σ
  | 0, _, _, _ => ExceptT.mk none
  | fuel + 1, a, l, s => do
    let s ← ended (visit a l s)
    (children a).foldlM
      (fun s c => if go s then walk children act go visit fuel c.2 (act l c.1) s else pure s) s

theorem ended_bind {β δ : Type} (x : Except ε β) (f : β → Except ε δ)
    {g : β → ExceptT ε Option δ} (hg : ∀ b, g b = ended (f b)) :
    (ended x >>= g) = ended (x >>= f) := by
  cases x with
  | error e => rfl
  | ok b => exact hg b

/-- A loop none of whose rounds runs out of fuel. -/
theorem foldlM_ended {β : Type} {f : σ → β → ExceptT ε Option σ} {g : σ → β → Except ε σ}
    {l : List β} (hf : ∀ b ∈ l, ∀ s, f s b = ended (g s b)) (s : σ) :
    l.foldlM f s = ended (l.foldlM g s) := by
  induction l generalizing s with
  | nil => rfl
  | cons b l ih =>
    rw [List.foldlM_cons, List.foldlM_cons, hf b List.mem_cons_self]
    exact ended_bind _ _ (ih fun b hb => hf b (List.mem_cons_of_mem _ hb))

/-- A loop over parts is a loop of loops. -/
theorem foldlM_flatMap {β δ : Type} (f : σ → δ → Except ε σ) (g : β → List δ) (l : List β) (s : σ) :
    (l.flatMap g).foldlM f s = l.foldlM (fun s b => (g b).foldlM f s) s := by
  induction l generalizing s with
  | nil => rfl
  | cons b l ih =>
    rw [List.flatMap_cons, List.foldlM_append, List.foldlM_cons]
    exact bind_congr fun s => ih s

/-- Nothing is visited once the walk is over. -/
theorem foldlM_visitIf_of_not {s : σ} (hs : go s = false) (l : List (α × γ)) :
    l.foldlM (visitIf go visit) s = .ok s := by
  induction l with
  | nil => rfl
  | cons x l ih =>
    rw [List.foldlM_cons, visitIf, hs]
    exact ih

/-- **With enough fuel, walks visit the nodes of the tree one after the other.** -/
theorem walk_eq (h : Descends (Child children)) (a : α) :
    ∃ n, ∀ fuel, n ≤ fuel → ∀ (ε σ : Type) (go : σ → Bool) (visit : α → γ → σ → Except ε σ) l s,
      go s = true → walk children act go visit fuel a l s =
        ended ((occurrences act h a l).foldlM (visitIf go visit) s) := by
  induction a using h.induction with
  | hstep a ih =>
    obtain ⟨n, hn⟩ := exists_depth _ fun c hc => ih c.2 ⟨c, hc, rfl⟩
    refine ⟨n + 1, fun fuel hf ε σ go visit l s hs => ?_⟩
    obtain ⟨fuel, rfl⟩ : ∃ k, fuel = k + 1 := ⟨fuel - 1, by omega⟩
    rw [occurrences_eq, List.foldlM_cons, visitIf, if_pos hs, walk]
    refine ended_bind _ _ fun s => ?_
    rw [foldlM_flatMap]
    refine foldlM_ended (fun c hc s => ?_) s
    split_ifs with hs
    · exact hn fuel (by omega) c hc ε σ go visit _ s hs
    · rw [foldlM_visitIf_of_not (Bool.eq_false_of_not_eq_true hs)]
      rfl

/-! ### Searches -/

section Search

variable (check : α → γ → Except ε Bool) (goal : Bool) {l : List (α × γ)}

/-- A search that goes on while its answer is `goal` ends with it where every node gives it. -/
theorem foldlM_search_iff :
    l.foldlM (visitIf (· == goal) fun a k _ => check a k) goal = .ok goal ↔
      ∀ x ∈ l, check x.1 x.2 = .ok goal := by
  induction l with
  | nil => exact iff_of_true rfl fun x hx => absurd hx List.not_mem_nil
  | cons x l ih =>
    rw [List.foldlM_cons, visitIf, if_pos (beq_self_eq_true goal), List.forall_mem_cons, ← ih]
    cases hx : check x.1 x.2 with
    | error e =>
      constructor
      · intro h
        cases h
      · intro h
        cases h.1
    | ok found =>
      by_cases hf : found = goal
      · rw [hf]
        exact (and_iff_right rfl).symm
      · -- the rest is left out
        have hrest := @foldlM_visitIf_of_not _ _ _ _ (· == goal) (fun a k _ => check a k) _
          (beq_eq_false_iff_ne.2 hf) l
        refine iff_of_false (fun h => hf ?_) fun h => hf (Except.ok.inj h.1)
        exact Except.ok.inj (hrest.symm.trans h)

/-- A search none of whose nodes throws has an answer. -/
theorem foldlM_search_ok (h : ∀ x ∈ l, ∃ found, check x.1 x.2 = .ok found) (found : Bool) :
    ∃ found', l.foldlM (visitIf (· == goal) fun a k _ => check a k) found = .ok found' := by
  induction l generalizing found with
  | nil => exact ⟨found, rfl⟩
  | cons x l ih =>
    obtain ⟨hx, hl⟩ := List.forall_mem_cons.1 h
    obtain ⟨found₁, h₁⟩ := hx
    rw [List.foldlM_cons, visitIf, h₁]
    split_ifs
    · exact ih hl found₁
    · exact ih hl found

end Search

end Walk

end Lib
