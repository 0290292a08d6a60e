import Lib3MF.Lib.Acyclic
import Lib3MF.Model.Proof.Store

/-!
# The rules of slice stacks over a session

`StackOk` is what the 3MF slice extension asks of one stack among the others, `SliceStacksOk` of
all of them. The operations check their own stack only. A session keeps the rules as long as its
calls meet `SliceGuard` (`sliceStacks_ok`): no bottom or slice is NaN, a slice added to a
referenced stack and a bottom set there stay clear of its neighbours, a stack that is referenced
gets no references, and no references to stacks with slices are collapsed. A reference added
behind the back of the first one breaks them (`sliceStacks_nested`).

The references are never cyclic, guarded or not (`sliceRefs_descend`).
-/

namespace NMR

open Lib

/-! ## Neighbours in a list -/

/-- The pairs of consecutive members. -/
def pairs {α : Type} (l : List α) : List (α × α) := l.zip l.tail

section
variable {α : Type} {l : List α} {a b x : α}

theorem mem_of_mem_pairs (h : (a, b) ∈ pairs l) : a ∈ l ∧ b ∈ l :=
  ⟨List.of_mem_zip h |>.1, List.mem_of_mem_tail (List.of_mem_zip h).2⟩

theorem mem_pairs_append :
    (a, b) ∈ pairs (l ++ [x]) ↔ (a, b) ∈ pairs l ∨ l.getLast? = some a ∧ b = x := by
  induction l with
  | nil => simp [pairs]
  | cons y l ih =>
    cases l with
    | nil => simp [pairs, eq_comm]
    | cons z l =>
      have hp (l : List α) : pairs (y :: z :: l) = (y, z) :: pairs (z :: l) := rfl
      have hl : (y :: z :: l).getLast? = (z :: l).getLast? := by simp
      rw [List.cons_append, List.cons_append, hp, hp, List.mem_cons, List.mem_cons, hl]
      rw [List.cons_append] at ih
      rw [ih, or_assoc]

end

/-- The rules for one stack of the model. -/
structure StackOk (m : Model) (s : SliceStack) : Prop where
  /-- z-values increase from the bottom on. -/
  increasing : (s.zBottom :: s.slices.map (·.topZ)).Pairwise Double.lt
  /-- Own slices or references. -/
  exclusive : s.slices = [] ∨ s.sliceRefs = []
  /-- A referenced stack holds no references itself. -/
  leaf : ∀ r ∈ s.sliceRefs, ∃ t, m.stack? r = some t ∧ t.sliceRefs = []
  /-- A referenced stack starts above the one before it. -/
  apart : ∀ a b, (a, b) ∈ pairs s.sliceRefs → ∀ t u, m.stack? a = some t → m.stack? b = some u →
    Double.le t.ownHighestZ u.zBottom

/-- The rules for all stacks. -/
def SliceStacksOk (m : Model) : Prop := ∀ r s, m.stack? r = some s → StackOk m s

theorem SliceStack.addSlice_refs {s s' : SliceStack} {z : Double} (h : s.addSlice z = .ok s') :
    s.sliceRefs = [] := by
  unfold SliceStack.addSlice at h
  split_ifs at h with h1
  · simpa [SliceStack.allowsGeometry] using h1

namespace Model

/-- The slice stacks of the model. -/
def sliceStacks (m : Model) : List SliceStack := m.store.filterMap (·.data.stack?)

/-- `AddSliceRef` accepts the stack with ID `stackID` as a reference of `r`. -/
def AcceptsSliceRef (m : Model) (r : ResourceRef) (stackID : Nat) : Prop :=
  ∃ o ∈ m.findResource stackID, ∃ t ∈ m.stack? o, ∃ s ∈ m.stack? r,
    s.slices = [] ∧ r ≠ o ∧ t.sliceRefs = [] ∧ ¬ Double.lt t.zBottom (m.getHighestZ r)

/-- The calls that keep the rules. -/
def SliceGuard (m : Model) : Call → Prop
  | .construct _ (.sliceStack z) | .readResource _ (.sliceStack z) | .add (.sliceStack z) =>
    z.IsNumber
  | .addSlice r z => ∀ s ∈ m.stack? r, s.sliceRefs = [] → z.IsNumber ∧
      ∀ t ∈ m.sliceStacks, ∀ p ∈ pairs t.sliceRefs, p.1 = r →
        ∀ u ∈ m.stack? p.2, Double.le z u.zBottom
  | .addSliceStackReference r stackID =>
    m.AcceptsSliceRef r stackID → ∀ t ∈ m.sliceStacks, r ∉ t.sliceRefs
  | .setZBottom r z => ∀ s ∈ m.stack? r, z.IsNumber ∧
      ∀ t ∈ m.sliceStacks, ∀ p ∈ pairs t.sliceRefs,
      (p.2 = r → p.1 ≠ r → ∀ u ∈ m.stack? p.1, Double.le u.ownHighestZ z) ∧
      (p.1 = r → p.2 ≠ r → s.slices = [] → ∀ u ∈ m.stack? p.2, Double.le z u.zBottom)
  | .collapseSliceReferences r => ∀ s ∈ m.stack? r, ∀ o ∈ s.sliceRefs, ∀ t ∈ m.stack? o,
      t.slices = []
  | _ => True

instance (m : Model) (r : ResourceRef) (stackID : Nat) : Decidable (m.AcceptsSliceRef r stackID) :=
  inferInstanceAs (Decidable (∃ _ ∈ _, ∃ _ ∈ _, ∃ _ ∈ _, _))

instance (m : Model) : DecidablePred m.SliceGuard := fun c => by
  unfold SliceGuard
  split <;> infer_instance

/-- The rules, with no NaN at a bottom. -/
structure SliceInv (m : Model) : Prop where
  ok : SliceStacksOk m
  number : ∀ r s, m.stack? r = some s → s.zBottom.IsNumber

variable {m m' : Model} {c : Call} {r r' : Nat} {s s' : SliceStack}

theorem mem_sliceStacks (h : m.stack? r = some s) : s ∈ m.sliceStacks := by
  simp only [stack?, data?, Option.bind_eq_some_iff, Option.map_eq_some_iff] at h
  obtain ⟨d, ⟨res, hr, rfl⟩, hd⟩ := h
  exact List.mem_filterMap.2 ⟨res, List.mem_of_getElem? hr, hd⟩

theorem exists_of_mem_sliceStacks (h : s ∈ m.sliceStacks) : ∃ r, m.stack? r = some s := by
  obtain ⟨res, hr, hd⟩ := List.mem_filterMap.1 h
  obtain ⟨r, hr⟩ := List.getElem?_of_mem hr
  exact ⟨r, by simp only [stack?, data?, hr, Option.map_some, Option.bind_some, hd]⟩

theorem stack?_congr (h : m'.data? r = m.data? r) : m'.stack? r = m.stack? r := by
  simp only [stack?, h]

theorem stack?_setData_ne {d : ResourceData} (h : r ≠ r') :
    (m.setData r d).stack? r' = m.stack? r' := stack?_congr (data?_setData_ne h)

theorem stack?_setData_same {d : ResourceData} (h : (m.data? r).isSome) :
    (m.setData r d).stack? r = d.stack? := by
  simp only [stack?, data?_setData_same h, Option.bind_some]

/-- Writing back what is there. -/
theorem stack?_setData_self {d : ResourceData} (h : m.data? r = some d) :
    (m.setData r d).stack? r' = m.stack? r' := by
  refine stack?_congr ?_
  rw [data?_setData]
  split_ifs with hr
  · subst hr; rw [h]; rfl
  · rfl

/-! ## What a stack reaches -/

theorem ownHighestZ_of_nil (s : SliceStack) (h : s.slices = []) :
    s.ownHighestZ = s.zBottom := by
  simp [SliceStack.ownHighestZ, h]

theorem le_ownHighestZ (h : s.zBottom.IsNumber) : Double.le s.zBottom s.ownHighestZ := by
  unfold SliceStack.ownHighestZ
  split
  · exact Double.le_max_left h
  · exact Double.le_refl h

theorem ownHighestZ_isNumber (hz : s.zBottom.IsNumber)
    (h : (s.zBottom :: s.slices.map (·.topZ)).Pairwise Double.lt) : s.ownHighestZ.IsNumber := by
  unfold SliceStack.ownHighestZ
  split
  · rename_i slice hl
    have hm : slice.topZ ∈ s.slices.map (·.topZ) :=
      List.mem_map.2 ⟨slice, List.mem_of_getLast? hl, rfl⟩
    exact Double.max_isNumber hz ((List.pairwise_cons.1 h).1 _ hm).right
  · exact hz

/-- A stack without references reaches what its slices reach. -/
theorem getHighestZFuel_leaf {fuel : Nat} (hs : m.stack? r = some s) (hl : s.sliceRefs = []) :
    m.getHighestZFuel (fuel + 1) r = s.ownHighestZ := by
  simp only [getHighestZFuel, hs, hl, List.getLast?_nil]

/-! ## One stack edited -/

/-- The rules after the stack `r` became `s'`: what `s'` has to keep on its own, towards the
stacks it references, and as a neighbour in the stacks that reference it. -/
theorem SliceInv.setStack (hi : SliceInv m) (hs : m.stack? r = some s)
    (hnum : s'.zBottom.IsNumber)
    (hinc : (s'.zBottom :: s'.slices.map (·.topZ)).Pairwise Double.lt)
    (hexc : s'.slices = [] ∨ s'.sliceRefs = [])
    (hrefs : ∀ o ∈ s'.sliceRefs, o ≠ r ∧ ∃ t, m.stack? o = some t ∧ t.sliceRefs = [])
    (hleaf : s'.sliceRefs = [] ∨ ∀ t ∈ m.sliceStacks, r ∉ t.sliceRefs)
    (happart : ∀ a b, (a, b) ∈ pairs s'.sliceRefs → ∀ t u, m.stack? a = some t →
      m.stack? b = some u → Double.le t.ownHighestZ u.zBottom)
    (hleft : ∀ t ∈ m.sliceStacks, ∀ a u, (a, r) ∈ pairs t.sliceRefs → a ≠ r →
      m.stack? a = some u → Double.le u.ownHighestZ s'.zBottom)
    (hright : ∀ t ∈ m.sliceStacks, ∀ b u, (r, b) ∈ pairs t.sliceRefs → b ≠ r →
      m.stack? b = some u → Double.le s'.ownHighestZ u.zBottom)
    (hself : ∀ t ∈ m.sliceStacks, (r, r) ∈ pairs t.sliceRefs →
      Double.le s'.ownHighestZ s'.zBottom) :
    SliceInv (m.setData r (.sliceStack s')) := by
  have hd : (m.data? r).isSome := by rw [stack?_data?.1 hs]; rfl
  have hr : (m.setData r (.sliceStack s')).stack? r = some s' := stack?_setData_same hd
  have hne {o : Nat} (ho : r ≠ o) : (m.setData r (.sliceStack s')).stack? o = m.stack? o :=
    stack?_setData_ne ho
  refine ⟨fun q t hq => ?_, fun q t hq => ?_⟩
  · by_cases hqr : r = q
    · -- the stack itself: its references are other stacks, unchanged
      subst hqr
      rw [hr] at hq
      cases hq
      refine ⟨hinc, hexc, fun o ho => ?_, fun a b hab t u ht hu => ?_⟩
      · obtain ⟨hor, t, ht, hl⟩ := hrefs o ho
        exact ⟨t, by rw [hne (Ne.symm hor)]; exact ht, hl⟩
      · obtain ⟨ha, hb⟩ := mem_of_mem_pairs hab
        rw [hne (Ne.symm (hrefs a ha).1)] at ht
        rw [hne (Ne.symm (hrefs b hb).1)] at hu
        exact happart a b hab t u ht hu
    · rw [hne hqr] at hq
      have hk := hi.ok q t hq
      have hmem : t ∈ m.sliceStacks := mem_sliceStacks hq
      refine ⟨hk.increasing, hk.exclusive, fun o ho => ?_, fun a b hab t₁ u ht hu => ?_⟩
      · by_cases hor : r = o
        · subst hor
          exact ⟨s', hr, hleaf.resolve_right fun h => h t hmem ho⟩
        · obtain ⟨t₁, ht₁, hl⟩ := hk.leaf o ho
          exact ⟨t₁, by rw [hne hor]; exact ht₁, hl⟩
      · by_cases har : r = a
        · subst har
          rw [hr] at ht
          cases ht
          by_cases hbr : r = b
          · subst hbr
            rw [hr] at hu
            cases hu
            exact hself t hmem hab
          · rw [hne hbr] at hu
            exact hright t hmem b u hab (Ne.symm hbr) hu
        · rw [hne har] at ht
          by_cases hbr : r = b
          · subst hbr
            rw [hr] at hu
            cases hu
            exact hleft t hmem a t₁ hab (Ne.symm har) ht
          · rw [hne hbr] at hu
            exact hk.apart a b hab t₁ u ht hu
  · by_cases hqr : r = q
    · subst hqr
      rw [hr] at hq
      cases hq
      exact hnum
    · rw [hne hqr] at hq
      exact hi.number q t hq

section
variable (hi : SliceInv m) (hs : m.stack? r = some s)
include hi hs

theorem SliceInv.refs (o : Nat) (ho : o ∈ s.sliceRefs) (hn : s.sliceRefs = [] → False) :
    o ≠ r ∧ ∃ t, m.stack? o = some t ∧ t.sliceRefs = [] := by
  obtain ⟨t, ht, hl⟩ := (hi.ok r s hs).leaf o ho
  refine ⟨fun h => ?_, t, ht, hl⟩
  subst h
  rw [hs] at ht
  cases ht
  exact hn hl

theorem SliceInv.left {t u : SliceStack} (ht : t ∈ m.sliceStacks) {a : Nat}
    (hab : (a, r) ∈ pairs t.sliceRefs) (hu : m.stack? a = some u) :
    Double.le u.ownHighestZ s.zBottom := by
  obtain ⟨q, htq⟩ := exists_of_mem_sliceStacks ht
  exact (hi.ok q t htq).apart a r hab u s hu hs

theorem SliceInv.right {t u : SliceStack} (ht : t ∈ m.sliceStacks) {b : Nat}
    (hab : (r, b) ∈ pairs t.sliceRefs) (hu : m.stack? b = some u) :
    Double.le s.ownHighestZ u.zBottom := by
  obtain ⟨q, htq⟩ := exists_of_mem_sliceStacks ht
  exact (hi.ok q t htq).apart r b hab s u hs hu

/-- A stack with references is not referenced. -/
theorem SliceInv.unreferenced : s.sliceRefs = [] ∨ ∀ t ∈ m.sliceStacks, r ∉ t.sliceRefs := by
  by_cases hl : s.sliceRefs = []
  · exact .inl hl
  · refine .inr fun t ht hr => hl ?_
    obtain ⟨q, htq⟩ := exists_of_mem_sliceStacks ht
    obtain ⟨t', ht', hl'⟩ := (hi.ok q t htq).leaf r hr
    rw [hs] at ht'
    cases ht'
    exact hl'

/-- `AddSlice` above the last slice and below the next stacks of those that reference this one. -/
theorem SliceInv.addSlice {z : Double} (ha : s.addSlice z = .ok s') (hz : z.IsNumber)
    (hg : ∀ t ∈ m.sliceStacks, ∀ p ∈ pairs t.sliceRefs, p.1 = r →
      ∀ u ∈ m.stack? p.2, Double.le z u.zBottom) :
    SliceInv (m.setData r (.sliceStack s')) := by
  have hk := hi.ok r s hs
  have hnum := hi.number r s hs
  unfold SliceStack.addSlice at ha
  dsimp only at ha
  split_ifs at ha with h1 h2
  have hl : s.sliceRefs = [] := by simpa [SliceStack.allowsGeometry] using h1
  cases ha
  -- the new slice lies above all others
  have hback : ∀ y ∈ s.zBottom :: s.slices.map (·.topZ), Double.lt y z := by
    cases hlast : s.slices.getLast? with
    | none =>
      rw [hlast] at h2
      rw [List.getLast?_eq_none_iff.1 hlast]
      intro y hy
      rw [List.mem_singleton.1 hy]
      exact Double.lt_of_not_le hz hnum h2
    | some slice =>
      rw [hlast] at h2
      obtain ⟨init, hinit⟩ := List.getLast?_eq_some_iff.1 hlast
      have hp := hk.increasing
      rw [hinit, List.map_append, ← List.cons_append] at hp ⊢
      have hlt := (List.pairwise_append.1 hp).2.2
      have hsz : Double.lt s.zBottom slice.topZ := hlt _ (by simp) _ (by simp)
      have hlz : Double.lt slice.topZ z := Double.lt_of_not_le hz hsz.right h2
      intro y hy
      rcases List.mem_append.1 hy with hy | hy
      · exact (hlt y hy _ (by simp)).trans hlz
      · rw [show y = slice.topZ by simpa using hy]
        exact hlz
  have htop : SliceStack.ownHighestZ { s with slices := s.slices ++ [⟨z, [], []⟩] } = z := by
    simp only [SliceStack.ownHighestZ, List.getLast?_append, List.getLast?_singleton,
      Option.some_or]
    exact Double.max_of_lt (hback s.zBottom (by simp))
  refine hi.setStack hs hnum ?_ (.inr hl) (by simp [hl]) (.inl hl) (by simp [hl, pairs])
    (fun t ht a u hab hne hu => hi.left hs ht hab hu) (fun t ht b u hab hne hu => ?_)
    fun t ht hab => ?_
  · rw [List.map_append, ← List.cons_append, List.pairwise_append]
    refine ⟨hk.increasing, by simp, fun y hy w hw => ?_⟩
    rw [show w = z by simpa using hw]
    exact hback y hy
  · rw [htop]
    exact hg t ht (r, b) hab rfl u hu
  · rw [htop]
    exact hg t ht (r, r) hab rfl s hs

/-- `AddSliceRef` of a stack that starts above the last one, to a stack nothing references. -/
theorem SliceInv.addSliceRef {o : Nat} {t : SliceStack} (ht : m.stack? o = some t)
    (hsl : s.slices = []) (hne : r ≠ o) (hl : t.sliceRefs = [])
    (hz : ¬ Double.lt t.zBottom (m.getHighestZ r)) (hg : ∀ t ∈ m.sliceStacks, r ∉ t.sliceRefs) :
    SliceInv (m.setData r (.sliceStack { s with sliceRefs := s.sliceRefs ++ [o] })) := by
  have hk := hi.ok r s hs
  have hnum := hi.number r s hs
  have hrs : r ∉ s.sliceRefs := hg s (mem_sliceStacks hs)
  have hnotin : ∀ t ∈ m.sliceStacks, ∀ a b, (a, b) ∈ pairs t.sliceRefs → a ≠ r ∧ b ≠ r := by
    intro t ht a b hab
    obtain ⟨ha, hb⟩ := mem_of_mem_pairs hab
    exact ⟨fun h => hg t ht (h ▸ ha), fun h => hg t ht (h ▸ hb)⟩
  refine hi.setStack hs hnum hk.increasing (.inl hsl) (fun x hx => ?_) (.inr hg)
    (fun a b hab t₁ u ht₁ hu => ?_) (fun t ht a u hab => absurd rfl (hnotin t ht a r hab).2)
    (fun t ht b u hab => absurd rfl (hnotin t ht r b hab).1)
    fun t ht hab => absurd rfl (hnotin t ht r r hab).1
  · rcases List.mem_append.1 hx with hx | hx
    · exact ⟨fun h => hrs (h ▸ hx), hk.leaf x hx⟩
    · rw [List.mem_singleton.1 hx]
      exact ⟨hne.symm, t, ht, hl⟩
  · rcases mem_pairs_append.1 hab with hab | ⟨hlast, rfl⟩
    · exact hk.apart a b hab t₁ u ht₁ hu
    · -- `getHighestZ` has looked at the last reference
      rw [ht] at hu
      cases hu
      obtain ⟨t₂, ht₂, hl₂⟩ := hk.leaf a (List.mem_of_getLast? hlast)
      rw [ht₁] at ht₂
      cases ht₂
      have hlen : 0 < m.store.length := by
        have := lt_of_data? (stack?_data?.1 hs)
        omega
      obtain ⟨n, hn⟩ : ∃ n, m.store.length = n + 1 := ⟨m.store.length - 1, by omega⟩
      have hh : m.getHighestZ r = Double.max s.zBottom t₁.ownHighestZ := by
        rw [getHighestZ, hn]
        simp only [getHighestZFuel, hs, hlast, ht₁, hl₂, List.getLast?_nil,
          ownHighestZ_of_nil s hsl]
      have ht₁n : t₁.ownHighestZ.IsNumber :=
        ownHighestZ_isNumber (hi.number a t₁ ht₁) (hi.ok a t₁ ht₁).increasing
      rw [hh] at hz
      exact (Double.le_max_right hnum ht₁n).trans
        (Double.le_of_not_lt (hi.number b t ht) (Double.max_isNumber hnum ht₁n) hz)

/-- `setZBottom` below the own slices and clear of the neighbours. -/
theorem SliceInv.setZBottom {z : Double} (hz : z.IsNumber)
    (hsl : ∀ slice ∈ s.slices.head?, ¬ Double.le slice.topZ z)
    (hg : ∀ t ∈ m.sliceStacks, ∀ p ∈ pairs t.sliceRefs,
      (p.2 = r → p.1 ≠ r → ∀ u ∈ m.stack? p.1, Double.le u.ownHighestZ z) ∧
      (p.1 = r → p.2 ≠ r → s.slices = [] → ∀ u ∈ m.stack? p.2, Double.le z u.zBottom)) :
    SliceInv (m.setData r (.sliceStack { s with zBottom := z })) := by
  have hk := hi.ok r s hs
  have hnum := hi.number r s hs
  have hp := List.pairwise_cons.1 hk.increasing
  have hinc : (z :: s.slices.map (·.topZ)).Pairwise Double.lt := by
    refine List.pairwise_cons.2 ⟨fun y hy => ?_, hp.2⟩
    cases hsls : s.slices with
    | nil => rw [hsls] at hy; cases hy
    | cons slice rest =>
      have h0 : Double.lt s.zBottom slice.topZ := hp.1 _ (by simp [hsls])
      have hzs : Double.lt z slice.topZ :=
        Double.lt_of_not_le h0.right hz (hsl slice (by simp [hsls]))
      have hp2 := hp.2
      rw [hsls, List.map_cons, List.pairwise_cons] at hp2
      rw [hsls, List.map_cons] at hy
      rcases List.mem_cons.1 hy with rfl | hy
      · exact hzs
      · exact hzs.trans (hp2.1 y hy)
  -- with slices of its own the stack reaches as far as before
  have htop : s.slices ≠ [] →
      SliceStack.ownHighestZ { s with zBottom := z } = s.ownHighestZ := by
    intro hne
    obtain ⟨slice, hlast⟩ := Option.ne_none_iff_exists'.1 (mt List.getLast?_eq_none_iff.1 hne)
    have hm : slice.topZ ∈ s.slices.map (·.topZ) :=
      List.mem_map.2 ⟨slice, List.mem_of_getLast? hlast, rfl⟩
    simp only [SliceStack.ownHighestZ, hlast]
    rw [Double.max_of_lt (hp.1 _ hm), Double.max_of_lt ((List.pairwise_cons.1 hinc).1 _ hm)]
  have hur := hi.unreferenced hs
  refine hi.setStack hs hz hinc hk.exclusive (fun o ho => ?_) hur hk.apart
    (fun t ht a u hab hne hu => (hg t ht (a, r) hab).1 rfl hne u hu)
    (fun t ht b u hab hne hu => ?_) fun t ht hab => ?_
  · exact hi.refs hs o ho fun h => by rw [h] at ho; cases ho
  · by_cases hsn : s.slices = []
    · rw [ownHighestZ_of_nil { s with zBottom := z } hsn]
      exact (hg t ht (r, b) hab).2 rfl hne hsn u hu
    · rw [htop hsn]
      exact hi.right hs ht hab hu
  · by_cases hsn : s.slices = []
    · rw [ownHighestZ_of_nil { s with zBottom := z } hsn]
      exact Double.le_refl hz
    · -- a stack with slices is no neighbour of itself
      have h1 := hi.right hs ht hab hs
      obtain ⟨slice, hlast⟩ := Option.ne_none_iff_exists'.1 (mt List.getLast?_eq_none_iff.1 hsn)
      have hm : slice.topZ ∈ s.slices.map (·.topZ) :=
        List.mem_map.2 ⟨slice, List.mem_of_getLast? hlast, rfl⟩
      have h2 := hp.1 _ hm
      simp only [SliceStack.ownHighestZ, hlast] at h1
      rw [Double.max_of_lt h2] at h1
      exact (Double.not_lt_of_le h1 h2).elim

end

/-! ## Sessions -/

theorem SliceInv.congr (h : ∀ r, m'.stack? r = m.stack? r) (hi : SliceInv m) : SliceInv m' := by
  refine ⟨fun r s hs => ?_, fun r s hs => hi.number r s (by rw [← h r]; exact hs)⟩
  have hk := hi.ok r s (by rw [← h r]; exact hs)
  refine ⟨hk.increasing, hk.exclusive, fun o ho => ?_, fun a b hab t u ht hu => ?_⟩
  · obtain ⟨t, ht, hl⟩ := hk.leaf o ho
    exact ⟨t, by rw [h o]; exact ht, hl⟩
  · exact hk.apart a b hab t u (by rw [← h a]; exact ht) (by rw [← h b]; exact hu)

/-- A new stack has nothing to clash with. -/
theorem SliceInv.append {d : ResourceData} {p : PackageResourceID} (hi : SliceInv m)
    (h : m'.store = m.store ++ [⟨p, d⟩])
    (hd : ∀ s, d.stack? = some s → s.zBottom.IsNumber ∧ s.slices = [] ∧ s.sliceRefs = []) :
    SliceInv m' := by
  have hst (r : Nat) : m'.stack? r = if r = m.store.length then d.stack? else m.stack? r := by
    simp only [stack?, data?_append h]
    split_ifs <;> rfl
  have hold {r : Nat} {t : SliceStack} (ht : m.stack? r = some t) : m'.stack? r = some t := by
    rw [hst, if_neg (ne_of_lt (lt_of_data? (stack?_data?.1 ht)))]
    exact ht
  refine ⟨fun r s hs => ?_, fun r s hs => ?_⟩
  · rw [hst] at hs
    split_ifs at hs with hr
    · obtain ⟨-, h1, h2⟩ := hd s hs
      exact ⟨by simp [h1], .inl h1, by simp [h2], by simp [h2, pairs]⟩
    · have hk := hi.ok r s hs
      refine ⟨hk.increasing, hk.exclusive, fun o ho => ?_, fun a b hab t u ht hu => ?_⟩
      · obtain ⟨t, ht, hl⟩ := hk.leaf o ho
        exact ⟨t, hold ht, hl⟩
      · obtain ⟨ha, hb⟩ := mem_of_mem_pairs hab
        obtain ⟨t', ht', -⟩ := hk.leaf a ha
        obtain ⟨u', hu', -⟩ := hk.leaf b hb
        rw [hold ht'] at ht
        rw [hold hu'] at hu
        cases ht
        cases hu
        exact hk.apart a b hab t u ht' hu'
  · rw [hst] at hs
    split_ifs at hs with hr
    · exact (hd s hs).1
    · exact hi.number r s hs

theorem NewResource.stack?_data {new : NewResource} (h : new.data.stack? = some s) :
    ∃ z, new = .sliceStack z ∧ s = .new z := by
  cases new <;> cases h
  exact ⟨_, rfl, rfl⟩

/-- Collapsing references to stacks without slices leaves no slices. -/
theorem collapsedSlices_nil (h : ∀ o ∈ s.sliceRefs, ∀ t ∈ m.stack? o, t.slices = []) :
    m.collapsedSlices r s = [] := by
  refine List.flatMap_eq_nil_iff.2 fun o ho => ?_
  split_ifs with hor
  · rfl
  · cases ht : m.stack? o with
    | none => rfl
    | some t => exact h o ho t ht

/-- **A guarded call keeps the rules.** -/
theorem SliceInv.next (hi : SliceInv m) (hg : m.SliceGuard c) : SliceInv (m.next c) := by
  rcases store_next m c with h | ⟨new, p, hc, h⟩ | ⟨r, d, d', hd, hE, hm⟩
  · exact hi.congr fun r => stack?_congr (data?_congr h)
  · refine hi.append h fun s hs => ?_
    obtain ⟨z, rfl, rfl⟩ := NewResource.stack?_data hs
    rcases hc with rfl | ⟨id, rfl | rfl⟩ <;> exact ⟨hg, rfl, rfl⟩
  · rw [hm]
    by_cases hs : d.stack? = none
    · -- no slice stack, before and after
      have hs' : d'.stack? = none := by
        cases hE with
        | component => rfl
        | readComponent => rfl
        | info => cases d <;> first | rfl | cases hs
        | @edit _ _ e => cases d <;> cases e <;> first | rfl | cases hs
        | _ => cases hs
      refine hi.congr fun q => ?_
      by_cases hrq : r = q
      · subst hrq
        rw [stack?_setData_same (by rw [hd]; rfl), hs']
        simp only [stack?, hd, Option.bind_some, hs]
      · exact stack?_setData_ne hrq
    · obtain ⟨s, hs⟩ := Option.ne_none_iff_exists'.1 hs
      have hst : m.stack? r = some s := by simp only [stack?, hd, Option.bind_some, hs]
      have hk := hi.ok r s hst
      have hnum := hi.number r s hst
      have hur := hi.unreferenced hst
      cases hE with
      | component => cases hs
      | readComponent => cases hs
      | slice ha =>
        cases hs
        obtain ⟨hz, hb⟩ := hg _ hst (SliceStack.addSlice_refs ha)
        exact hi.addSlice hst ha hz hb
      | sliceRef ho ht hsl hne hl hz =>
        cases hs
        exact hi.addSliceRef hst ht hsl hne hl hz
          (hg ⟨_, ho, _, ht, _, hst, hsl, hne, hl, hz⟩)
      | collapse =>
        cases hs
        rw [collapsedSlices_nil (hg _ hst)]
        refine hi.setStack hst hnum (by simp) (.inl rfl) (fun o ho => ?_) hur hk.apart
          (fun t ht a u hab hne hu => hi.left hst ht hab hu) (fun t ht b u hab hne hu => ?_)
          fun t ht hab => Double.le_refl hnum
        · exact hi.refs hst o ho fun h => by rw [h] at ho; cases ho
        · exact (le_ownHighestZ hnum).trans (hi.right hst ht hab hu)
      | ownPath =>
        cases hs
        exact hi.setStack hst hnum hk.increasing hk.exclusive
          (fun o ho => hi.refs hst o ho fun h => by rw [h] at ho; cases ho) hur hk.apart
          (fun t ht a u hab hne hu => hi.left hst ht hab hu)
          (fun t ht b u hab hne hu => hi.right hst ht hab hu)
          fun t ht hab => (hi.right hst ht hab hst :)
      | zBottom hsl =>
        cases hs
        exact hi.setZBottom hst (hg _ hst).1 hsl (hg _ hst).2
      | info =>
        cases d <;> cases hs
        exact hi.congr fun q => stack?_setData_self hd
      | @edit _ _ e =>
        cases d <;> cases hs
        exact hi.congr fun q => stack?_setData_self hd

theorem sliceInv_new : SliceInv Model.new :=
  ⟨fun r s hs => by simp [stack?, data?, Model.new] at hs,
    fun r s hs => by simp [stack?, data?, Model.new] at hs⟩

/-- **In a session whose calls meet `SliceGuard`, all slice stacks keep the rules.** -/
theorem sliceStacks_ok (calls : List Call) (hg : Guarded Model.next SliceGuard .new calls)
    (m : Model) (hm : Reaches Model.next .new calls m) : SliceStacksOk m :=
  (hm.inv SliceInv sliceInv_new (fun _ _ => SliceInv.next) hg).ok

/-- A stack with a slice, referenced by another one. -/
def referenceCalls : List Call :=
  [.add (.sliceStack (.ofRat 0)), .addSlice 0 (.ofRat 1), .add (.sliceStack (.ofRat 0)),
    .addSliceStackReference 1 1]

theorem sliceStacks_ok_reference :
    SliceStacksOk (run Model.next .new referenceCalls) ∧
      ((run Model.next .new referenceCalls).stack? 1).map (·.sliceRefs) = some [0] := by
  refine ⟨sliceStacks_ok referenceCalls ?_ _ (reaches_run _ _), by decide⟩
  simp only [referenceCalls, guarded_cons, guarded_nil]
  exact ⟨by decide, by decide, by decide, by decide, trivial⟩

/-- References added to a stack that is referenced already. -/
def nestedCalls : List Call :=
  [.add (.sliceStack (.ofRat 0)), .add (.sliceStack (.ofRat 0)), .add (.sliceStack (.ofRat 0)),
    .addSliceStackReference 0 2, .addSliceStackReference 1 3]

theorem sliceStacks_nested :
    ¬ ∀ calls m, Reaches Model.next .new calls m → SliceStacksOk m := by
  intro h
  have h0 : (run Model.next .new nestedCalls).stack? 0 = some ⟨.ofRat 0, [], [1], ""⟩ := by decide
  have h1 : (run Model.next .new nestedCalls).stack? 1 = some ⟨.ofRat 0, [], [2], ""⟩ := by decide
  obtain ⟨t, ht, hl⟩ := (h nestedCalls _ (reaches_run _ _) 0 _ h0).leaf 1 (by simp)
  rw [h1] at ht
  cases ht
  cases hl

/-! ## Slice references are never cyclic -/

/-- The stack `r` references `o`. -/
def SliceReferences (m : Model) (r o : ResourceRef) : Prop :=
  ∃ s, m.stack? r = some s ∧ o ∈ s.sliceRefs

theorem sliceReferences_congr (h : ∀ r, (m'.stack? r).map (·.sliceRefs) =
    (m.stack? r).map (·.sliceRefs)) : m'.SliceReferences = m.SliceReferences := by
  funext a b
  have ha := h a
  simp only [SliceReferences, eq_iff_iff]
  cases h₁ : m'.stack? a <;> cases h₂ : m.stack? a <;> rw [h₁, h₂] at ha <;> simp_all

/-- A call keeps descents along slice references finite: a stack is only referenced while it
has no references. -/
theorem sliceRefs_descend_next (h : Descends m.SliceReferences) (c : Call) :
    Descends (m.next c).SliceReferences := by
  rcases store_next m c with hs | ⟨new, p, -, hs⟩ | ⟨r, d, d', hd, hE, hm⟩
  · have he : (m.next c).SliceReferences = m.SliceReferences :=
      sliceReferences_congr fun r => by rw [stack?_congr (data?_congr hs)]
    rw [he]
    exact h
  · refine h.mono ?_
    rintro a b ⟨s, ha, hb⟩
    simp only [stack?, data?_append hs] at ha
    split_ifs at ha with hr
    · obtain ⟨z, -, rfl⟩ := NewResource.stack?_data (by simpa using ha)
      cases hb
    · exact ⟨s, ha, hb⟩
  · rw [hm]
    have hset (hd' : d'.stack?.map (·.sliceRefs) = d.stack?.map (·.sliceRefs)) :
        Descends (m.setData r d').SliceReferences := by
      rw [sliceReferences_congr fun q => ?_]
      · exact h
      · by_cases hrq : r = q
        · subst hrq
          rw [stack?_setData_same (by rw [hd]; rfl), hd']
          simp only [stack?, hd, Option.bind_some]
        · rw [stack?_setData_ne hrq]
    cases hE with
    | component => exact hset rfl
    | readComponent => exact hset rfl
    | @slice _ _ s s' ha =>
      refine hset ?_
      simp only [SliceStack.addSlice] at ha
      split_ifs at ha
      cases ha
      rfl
    | @sliceRef _ _ o s t ho ht hsl hne hl hz =>
      have hno : ¬ Relation.ReflTransGen m.SliceReferences o r := fun hro => by
        -- the target leads nowhere, and it is another stack
        rcases Relation.ReflTransGen.cases_head hro with he | ⟨b, ⟨t', ht', hb⟩, -⟩
        · exact hne he.symm
        · rw [ht] at ht'
          cases ht'
          rw [hl] at hb
          cases hb
      refine ((descends_addEdge_iff h).2 hno).mono ?_
      rintro a b ⟨s₁, ha, hb⟩
      by_cases hra : r = a
      · subst hra
        rw [stack?_setData_same (by rw [hd]; rfl)] at ha
        cases ha
        rcases List.mem_append.1 hb with hb | hb
        · exact .inl ⟨s, stack?_data?.2 hd, hb⟩
        · exact .inr ⟨rfl, List.mem_singleton.1 hb⟩
      · rw [stack?_setData_ne hra] at ha
        exact .inl ⟨s₁, ha, hb⟩
    | collapse => exact hset rfl
    | ownPath => exact hset rfl
    | zBottom => exact hset rfl
    | info => exact hset (by cases d <;> rfl)
    | @edit _ _ e => exact hset (by cases d <;> cases e <;> rfl)

/-- **The slice references of a session are never cyclic.** -/
theorem sliceRefs_descend (calls : List Call) (m : Model)
    (hm : Reaches Model.next .new calls m) : Descends m.SliceReferences := by
  refine hm.inv (fun m => Descends m.SliceReferences) ?_
    (fun _ _ h _ => sliceRefs_descend_next h _) (guarded_true _ _ _)
  refine ⟨fun r => Acc.intro r fun o ⟨s, hs, _⟩ => ?_⟩
  simp [stack?, data?, Model.new] at hs

/-- No fuel is needed beyond the resources that are not on the path to `r`. -/
theorem getHighestZFuel_succ (h : Acyclic m.SliceReferences) {fuel : Nat} (path : List Nat)
    (hp : (path ++ [r]).IsChain m.SliceReferences) (hlt : path ⊆ List.range m.store.length)
    (hf : m.store.length ≤ path.length + fuel) :
    m.getHighestZFuel (fuel + 1) r = m.getHighestZFuel fuel r := by
  induction fuel generalizing path r with
  | zero =>
    cases hs : m.stack? r with
    | none => simp only [getHighestZFuel, hs]
    | some s =>
      -- the path with `r` would be longer than there are resources
      have hsub : path ++ [r] ⊆ List.range m.store.length := by
        refine List.append_subset.2 ⟨hlt, fun x hx => ?_⟩
        rw [List.mem_singleton.1 hx]
        exact List.mem_range.2 (lt_of_data? (stack?_data?.1 hs))
      have hlen := h.length_le hp hsub
      simp only [List.length_append, List.length_singleton, List.length_range] at hlen
      omega
  | succ fuel ih =>
    cases hs : m.stack? r with
    | none => simp only [getHighestZFuel, hs]
    | some s =>
      have hsub : path ++ [r] ⊆ List.range m.store.length := by
        refine List.append_subset.2 ⟨hlt, fun x hx => ?_⟩
        rw [List.mem_singleton.1 hx]
        exact List.mem_range.2 (lt_of_data? (stack?_data?.1 hs))
      cases hl : s.sliceRefs.getLast? with
      | none => simp only [getHighestZFuel, hs, hl]
      | some o =>
        have hro : m.SliceReferences r o := ⟨s, hs, List.mem_of_getLast? hl⟩
        have hp' : (path ++ [r] ++ [o]).IsChain m.SliceReferences :=
          List.isChain_append.2 ⟨hp, List.isChain_singleton _, by simpa using hro⟩
        have ho := ih (path ++ [r]) hp' hsub (by simp; omega)
        rw [getHighestZFuel, hs]
        simp only [hl]
        rw [ho, getHighestZFuel, hs]
        simp only [hl]

/-- `getHighestZ` is the recursive function of the source. -/
theorem getHighestZ_eq {calls : List Call} (hm : Reaches Model.next .new calls m)
    (hs : m.stack? r = some s) :
    m.getHighestZ r = match s.sliceRefs.getLast? with
      | some o => Double.max s.ownHighestZ (m.getHighestZ o)
      | none => s.ownHighestZ := by
  have hac := (sliceRefs_descend calls m hm).acyclic
  rw [getHighestZ, getHighestZFuel, hs]
  cases hl : s.sliceRefs.getLast? with
  | none => simp only [hl]
  | some o =>
    simp only [hl]
    rw [getHighestZ, getHighestZFuel_succ hac [] (List.isChain_singleton o)
      (List.nil_subset _) (by simp)]

end Model

end NMR
