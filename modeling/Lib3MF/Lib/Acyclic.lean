import Mathlib.Logic.Relation
import Mathlib.Order.WellFounded
import Mathlib.Data.List.Chain
import Mathlib.Data.List.Perm.Subperm
import Mathlib.Data.Fintype.Card
import Mathlib.Data.Set.Finite.Basic

/-!
# Graphs without infinite descent

`edge a b` reads "`a` refers to `b`". A graph is kept well founded by a new edge exactly when the
target does not lead back to the source (`descends_addEdge_iff`), so a store that admits only such
edges never closes a cycle. `Descends.induction` is the induction rule for traversals: what
holds of a node once it holds of all its children holds of every node.
-/

namespace Lib

variable {α : Type*} {edge : α → α → Prop}

/-- No node leads to itself. -/
def Acyclic (edge : α → α → Prop) : Prop :=
  ∀ a, ¬ Relation.TransGen edge a a

/-- Every descent along the edges is finite. -/
def Descends (edge : α → α → Prop) : Prop :=
  WellFounded fun b a => edge a b

/-- The graph with one more edge. -/
def AddEdge (edge : α → α → Prop) (a b : α) (x y : α) : Prop :=
  edge x y ∨ (x = a ∧ y = b)

theorem Descends.acyclic (h : Descends edge) : Acyclic edge := by
  intro a ha
  have hswap : Relation.TransGen (fun b a => edge a b) a a := Relation.transGen_swap.1 ha
  exact h.transGen.irrefl.irrefl a hswap

theorem Descends.mono {edge' : α → α → Prop} (h : Descends edge)
    (hsub : ∀ a b, edge' a b → edge a b) : Descends edge' :=
  Subrelation.wf (fun hab => hsub _ _ hab) h

/-- Without cycles every descent is finite, where only finitely many nodes have edges. -/
theorem Acyclic.descends (h : Acyclic edge) {s : Set α} (hs : s.Finite)
    (hsub : ∀ a b, edge a b → a ∈ s) : Descends edge := by
  have hfin : Finite s := hs
  have hwf : WellFounded fun b a : s => Relation.TransGen edge a.1 b.1 := by
    have htrans : IsTrans s fun b a : s => Relation.TransGen edge a.1 b.1 :=
      ⟨fun _ _ _ hab hbc => hbc.trans hab⟩
    have hirrefl : Std.Irrefl fun b a : s => Relation.TransGen edge a.1 b.1 := ⟨fun a => h a.1⟩
    exact Finite.wellFounded_of_trans_of_irrefl _
  -- a node without edges ends a descent
  have hleaf : ∀ y, y ∉ s → Acc (fun b a => edge a b) y :=
    fun y hy => Acc.intro y fun z hz => absurd (hsub y z hz) hy
  have hmem : ∀ x : s, Acc (fun b a => edge a b) x.1 := by
    intro x
    induction x using hwf.induction with
    | _ x ih =>
      refine Acc.intro x.1 fun y hy => ?_
      by_cases hys : y ∈ s
      · exact ih ⟨y, hys⟩ (Relation.TransGen.single hy)
      · exact hleaf y hys
  refine ⟨fun x => ?_⟩
  by_cases hx : x ∈ s
  · exact hmem ⟨x, hx⟩
  · exact hleaf x hx

/-- The induction rule over the children of a node. -/
theorem Descends.induction {P : α → Prop} (h : Descends edge)
    (hstep : ∀ a, (∀ b, edge a b → P b) → P a) (a : α) : P a :=
  WellFounded.induction h a fun a ih => hstep a ih

/-- What the target of a new edge leads to descends as before, as it never meets the source. -/
theorem acc_of_not_reaches {a b x : α} (h : Descends edge)
    (hba : ¬ Relation.ReflTransGen edge b a) (hx : Relation.ReflTransGen edge b x) :
    Acc (fun y x => AddEdge edge a b x y) x := by
  induction x using h.induction with
  | hstep x ih =>
    refine Acc.intro x fun y hy => ?_
    rcases hy with hy | ⟨rfl, -⟩
    · exact ih y hy (hx.tail hy)
    · exact absurd hx hba

/-- **A new edge keeps descents finite unless its target leads back to its source.** -/
theorem descends_addEdge_iff {a b : α} (h : Descends edge) :
    Descends (AddEdge edge a b) ↔ ¬ Relation.ReflTransGen edge b a := by
  constructor
  · intro h' hba
    have hsub : Relation.ReflTransGen (AddEdge edge a b) b a :=
      Relation.ReflTransGen.mono (fun _ _ hxy => Or.inl hxy) _ _ hba
    exact h'.acyclic a (Relation.TransGen.head' (.inr ⟨rfl, rfl⟩) hsub)
  · intro hba
    refine ⟨fun x => ?_⟩
    induction x using h.induction with
    | hstep x ih =>
      refine Acc.intro x fun y hy => ?_
      rcases hy with hy | ⟨-, rfl⟩
      · exact ih y hy
      · exact acc_of_not_reaches h hba .refl

/-- A path of an acyclic graph visits no node twice, so it is no longer than there are nodes. -/
theorem Acyclic.length_le (h : Acyclic edge) {path nodes : List α} (hp : path.IsChain edge)
    (hn : path ⊆ nodes) : path.length ≤ nodes.length := by
  have hpw : path.Pairwise (Relation.TransGen edge) :=
    (hp.imp fun _ _ => Relation.TransGen.single).pairwise
  have hnd : path.Nodup := hpw.imp fun {a b} hab => by
    rintro rfl
    exact h a hab
  exact (List.subperm_of_subset hnd hn).length_le

end Lib
