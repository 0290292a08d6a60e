import Lib3MF.API.Proof.SliceStacks

/-!
# Collapsing slice references

`CollapseSliceReferences` replaces the slices of a stack by copies of the slices of the stacks it
references. `collapse_copies` says what it leaves of any stack of a session: the copies in order,
strictly increasing where the stacks of the model keep their rules, the other stacks as they were,
and nothing more to do for a second call. Slices the stack had of its own are gone, also where it
had no references (`collapse_loses_slices`).
-/

namespace NMR

open Lib

namespace Double

variable {a b c : Double}

theorem le.right (h : le a b) : b.IsNumber := by
  cases b with
  | none => cases a <;> exact h.elim
  | some _ => rfl

theorem le.trans_lt (hab : le a b) (hbc : lt b c) : lt a c := by
  cases a with
  | none => exact hab.elim
  | some x =>
    obtain ⟨y, rfl⟩ := Option.isSome_iff_exists.1 hbc.left
    obtain ⟨z, rfl⟩ := Option.isSome_iff_exists.1 hbc.right
    exact lt_of_le_of_lt (show x ≤ y from hab) hbc

end Double

namespace Model

variable {m m' : Model} {r o : ResourceRef} {s s' t : SliceStack} {z : Double}

/-- The slices the stack `o` owns. -/
def slicesOf (m : Model) (o : ResourceRef) : List Slice := ((m.stack? o).map (·.slices)).getD []

theorem slicesOf_eq (h : m.stack? o = some t) : m.slicesOf o = t.slices := by
  simp only [slicesOf, h, Option.map_some, Option.getD_some]

/-- The slices a stack represents: its own, or those of the stacks it references. -/
def representedSlices (m : Model) (s : SliceStack) : List Slice :=
  if s.sliceRefs = [] then s.slices else s.sliceRefs.flatMap m.slicesOf

/-- z-values strictly increase from slice to slice. -/
def Increasing (slices : List Slice) : Prop := (slices.map (·.topZ)).Pairwise Double.lt

instance (slices : List Slice) : Decidable (Increasing slices) :=
  inferInstanceAs (Decidable (List.Pairwise _ _))

/-- The stack `r`, which was `s` in `m`, after its references are collapsed: it has no references,
owns the slices it represented, takes further slices, the others are unchanged and there is
nothing left to collapse. -/
structure Collapses (m : Model) (r : ResourceRef) (s : SliceStack) (m' : Model) (s' : SliceStack) :
    Prop where
  noReferences : s'.sliceRefs = []
  slices : s'.slices = m.representedSlices s
  increasing : Increasing s'.slices
  extends_above : ∀ z, Double.lt (m'.getHighestZ r) z → ∃ m'', m'.addSlice r z = .ok m''
  others : ∀ o ∈ s.sliceRefs, m'.stack? o = m.stack? o
  again : m'.collapseSliceReferences r = .ok m'

/-! ## The slices copied -/

theorem notMem_sliceRefs (hd : Descends m.SliceReferences) (hs : m.stack? r = some s) :
    r ∉ s.sliceRefs :=
  fun hr => hd.acyclic r (.single ⟨s, hs, hr⟩)

/-- A stack references others only, so nothing is left out. -/
theorem collapsedSlices_eq (hr : r ∉ s.sliceRefs) :
    m.collapsedSlices r s = s.sliceRefs.flatMap m.slicesOf := by
  unfold collapsedSlices
  refine List.flatMap_congr fun o ho => ?_
  have hne : o ≠ r := fun he => hr (he ▸ ho)
  rw [if_neg hne]
  rfl

/-- A slice of a stack that keeps the rules ends where the stack does, or below. -/
theorem topZ_le_ownHighestZ (h : (t.zBottom :: t.slices.map (·.topZ)).Pairwise Double.lt)
    {slice : Slice} (hslice : slice ∈ t.slices) : Double.le slice.topZ t.ownHighestZ := by
  obtain ⟨hbottom, hslices⟩ := List.pairwise_cons.1 h
  rcases List.eq_nil_or_concat t.slices with hnil | ⟨l, last, hl⟩
  · simp [hnil] at hslice
  · have hz : Double.lt t.zBottom last.topZ :=
      hbottom _ (List.mem_map.2 ⟨last, by simp [hl], rfl⟩)
    have hown : t.ownHighestZ = last.topZ := by
      unfold SliceStack.ownHighestZ
      simp only [hl, List.concat_eq_append, List.getLast?_append, List.getLast?_singleton,
        Option.some_or]
      exact Double.max_of_lt hz
    rw [hown]
    simp only [hl, List.concat_eq_append, List.mem_append, List.mem_singleton] at hslice
    rcases hslice with hslice | rfl
    · simp only [hl, List.concat_eq_append, List.map_append, List.map_cons, List.map_nil,
        List.pairwise_append] at hslices
      exact (hslices.2.2 _ (List.mem_map.2 ⟨slice, hslice, rfl⟩) _ (by simp)).le
    · exact Double.le_refl hz.right

/-- Every slice of the references behind `o` ends above the stack `o`. -/
theorem lt_of_mem_copies (hok : SliceStacksOk m) {refs : List ResourceRef}
    (hleaf : ∀ o ∈ refs, ∃ t, m.stack? o = some t ∧ t.sliceRefs = [])
    (happart : ∀ a b, (a, b) ∈ pairs (o :: refs) → ∀ t u, m.stack? a = some t →
      m.stack? b = some u → Double.le t.ownHighestZ u.zBottom)
    (ht : m.stack? o = some t) {slice : Slice} (hslice : slice ∈ refs.flatMap m.slicesOf) :
    Double.lt t.ownHighestZ slice.topZ := by
  induction refs generalizing o t with
  | nil => simp at hslice
  | cons b refs ih =>
    obtain ⟨u, hu, -⟩ := hleaf b (by simp)
    have hle : Double.le t.ownHighestZ u.zBottom := happart o b (by simp [pairs]) t u ht hu
    rw [List.flatMap_cons, slicesOf_eq hu, List.mem_append] at hslice
    rcases hslice with hslice | hslice
    · have hbottom := (List.pairwise_cons.1 (hok b u hu).increasing).1
      exact hle.trans_lt (hbottom _ (List.mem_map.2 ⟨slice, hslice, rfl⟩))
    · have hrest : Double.lt u.ownHighestZ slice.topZ := by
        refine ih (fun o ho => hleaf o (List.mem_cons_of_mem _ ho)) (fun a c hac => ?_) hu hslice
        exact happart a c (List.mem_cons_of_mem _ hac)
      exact (hle.trans (le_ownHighestZ hle.right)).trans_lt hrest

/-- Where the stacks keep their rules, the copies are strictly increasing. -/
theorem increasing_copies (hok : SliceStacksOk m) {refs : List ResourceRef}
    (hleaf : ∀ o ∈ refs, ∃ t, m.stack? o = some t ∧ t.sliceRefs = [])
    (happart : ∀ a b, (a, b) ∈ pairs refs → ∀ t u, m.stack? a = some t →
      m.stack? b = some u → Double.le t.ownHighestZ u.zBottom) :
    Increasing (refs.flatMap m.slicesOf) := by
  induction refs with
  | nil => exact .nil
  | cons o refs ih =>
    obtain ⟨t, ht, -⟩ := hleaf o (by simp)
    have hincreasing := (hok o t ht).increasing
    unfold Increasing
    rw [List.flatMap_cons, slicesOf_eq ht, List.map_append, List.pairwise_append]
    refine ⟨(List.pairwise_cons.1 hincreasing).2, ih (fun a ha => hleaf a (by simp [ha])) ?_, ?_⟩
    · intro a b hab
      cases refs with
      | nil => cases hab
      | cons c refs => exact happart a b (List.mem_cons_of_mem _ hab)
    · intro x hx y hy
      obtain ⟨slice, hslice, rfl⟩ := List.mem_map.1 hx
      obtain ⟨slice', hslice', rfl⟩ := List.mem_map.1 hy
      exact (topZ_le_ownHighestZ hincreasing hslice).trans_lt
        (lt_of_mem_copies hok (fun a ha => hleaf a (by simp [ha])) happart ht hslice')

/-! ## The call -/

theorem collapseSliceReferences_eq (hs : m.stack? r = some s) :
    m.collapseSliceReferences r =
      .ok (m.setData r (.sliceStack { s with slices := m.collapsedSlices r s })) := by
  simp only [collapseSliceReferences, hs]

/-- Other stacks keep their slices, so a second call copies the same ones. -/
theorem collapse_again (hs : m.stack? r = some s)
    (hm' : m' = m.setData r (.sliceStack { s with slices := m.collapsedSlices r s })) :
    m'.collapseSliceReferences r = .ok m' := by
  have hd : (m.data? r).isSome := by rw [stack?_data?.1 hs]; rfl
  have hr : m'.stack? r = some { s with slices := m.collapsedSlices r s } := by
    rw [hm', stack?_setData_same hd]
    rfl
  have hcopies : m'.collapsedSlices r { s with slices := m.collapsedSlices r s } =
      m.collapsedSlices r s := by
    unfold collapsedSlices
    refine List.flatMap_congr fun o _ => ?_
    split_ifs with ho
    · rfl
    · rw [hm', stack?_setData_ne (Ne.symm ho)]
  rw [collapseSliceReferences_eq hr, hcopies]
  congr 1
  rw [hm']
  simp only [setData, List.modify_modify_eq]
  rfl

/-- A stack without slices and references takes any slice above its bottom. -/
theorem addSlice_of_empty (hs : m.stack? r = some s) (hslices : s.slices = [])
    (hrefs : s.sliceRefs = []) (hz : Double.lt (m.getHighestZ r) z) :
    ∃ m', m.addSlice r z = .ok m' := by
  have hz' : ¬ Double.le z s.zBottom := by
    rw [getHighestZ, getHighestZFuel_leaf hs hrefs, ownHighestZ_of_nil s hslices] at hz
    exact fun hle => Double.not_lt_of_le hle hz
  have hadd : s.addSlice z = .ok { s with slices := [⟨z, [], []⟩] } := by
    simp only [SliceStack.addSlice, SliceStack.allowsGeometry, hrefs, hslices, List.isEmpty_nil,
      not_true_eq_false, if_false, List.getLast?_nil, if_neg hz', List.nil_append]
  exact ⟨_, by simp only [addSlice, hs, hadd]; rfl⟩

/-- **What `CollapseSliceReferences` leaves** of a stack of a session: copies of the slices of all
stacks it references, in order, strictly increasing where the stacks keep their rules. The other
stacks are unchanged, a second call changes nothing, and a stack left without references takes
slices above its highest z. -/
theorem collapse_copies {calls : List Call} (hm : Reaches Model.next .new calls m)
    (hs : m.stack? r = some s) :
    ∃ m' s', m.collapseSliceReferences r = .ok m' ∧ m'.stack? r = some s' ∧
      s'.slices = s.sliceRefs.flatMap m.slicesOf ∧
      (SliceStacksOk m → Increasing s'.slices) ∧
      (r ∉ s.sliceRefs ∧ ∀ o ≠ r, m'.stack? o = m.stack? o) ∧
      (s'.sliceRefs = [] → ∀ z, Double.lt (m'.getHighestZ r) z → ∃ m'', m'.addSlice r z = .ok m'') ∧
      m'.collapseSliceReferences r = .ok m' := by
  have hr : r ∉ s.sliceRefs := notMem_sliceRefs (sliceRefs_descend calls m hm) hs
  have hcopies : m.collapsedSlices r s = s.sliceRefs.flatMap m.slicesOf := collapsedSlices_eq hr
  have hd : (m.data? r).isSome := by rw [stack?_data?.1 hs]; rfl
  have hs' : (m.setData r (.sliceStack { s with slices := m.collapsedSlices r s })).stack? r =
      some { s with slices := m.collapsedSlices r s } := stack?_setData_same hd
  refine ⟨_, _, collapseSliceReferences_eq hs, hs', hcopies, fun hok => ?_,
    ⟨hr, fun o ho => stack?_setData_ne (Ne.symm ho)⟩, fun hrefs z hz => ?_, collapse_again hs rfl⟩
  · show Increasing (m.collapsedSlices r s)
    rw [hcopies]
    exact increasing_copies hok (hok r s hs).leaf (hok r s hs).apart
  · replace hrefs : s.sliceRefs = [] := hrefs
    refine addSlice_of_empty hs' ?_ hrefs hz
    show m.collapsedSlices r s = []
    rw [hcopies, hrefs]
    rfl

/-- A stack of one slice, referenced by a second stack. -/
theorem collapse_copies_reference :
    ∃ m' s', (run Model.next .new referenceCalls).collapseSliceReferences 1 = .ok m' ∧
      m'.stack? 1 = some s' ∧ s'.slices = [⟨.ofRat 1, [], []⟩] := by
  have hs : (run Model.next .new referenceCalls).stack? 1 = some ⟨.ofRat 0, [], [0], ""⟩ := by
    decide
  obtain ⟨m', s', hm', hs', hslices, -⟩ := collapse_copies (reaches_run Model.new referenceCalls) hs
  exact ⟨m', s', hm', hs', hslices.trans (by decide)⟩

/-- A stack with a slice of its own. -/
def ownSliceCalls : List Call := [.add (.sliceStack (.ofRat 0)), .addSlice 0 (.ofRat 1)]

/-- A slice above the next stack is added to a stack that is referenced already. -/
def overlapCalls : List Call :=
  [.add (.sliceStack (.ofRat 0)), .add (.sliceStack (.ofRat 1)), .addSlice 1 (.ofRat 2),
    .add (.sliceStack (.ofRat 0)), .addSliceStackReference 2 1, .addSliceStackReference 2 2,
    .addSlice 0 (.ofRat 5)]

/-- **Slices are lost** where there are no references, and copies need not be increasing. -/
theorem collapse_loses_slices :
    (¬ ∀ m, Reaches Model.next .new ownSliceCalls m → ∀ r s, m.stack? r = some s →
      ∃ m' s', m.collapseSliceReferences r = .ok m' ∧ m'.stack? r = some s' ∧
        Collapses m r s m' s') ∧
    ¬ ∀ m, Reaches Model.next .new overlapCalls m → ∀ r s, m.stack? r = some s →
      ∃ m' s', m.collapseSliceReferences r = .ok m' ∧ m'.stack? r = some s' ∧
        Increasing s'.slices := by
  refine ⟨fun h => ?_, fun h => ?_⟩
  · have hs : (run Model.next .new ownSliceCalls).stack? 0 =
        some ⟨.ofRat 0, [⟨.ofRat 1, [], []⟩], [], ""⟩ := by decide
    obtain ⟨m', s', hm', hs', hc⟩ := h _ (reaches_run _ _) 0 _ hs
    have hafter : ((run Model.next .new ownSliceCalls).collapseSliceReferences 0).toOption.bind
        (·.stack? 0) = some ⟨.ofRat 0, [], [], ""⟩ := by decide
    rw [hm'] at hafter
    cases hs'.symm.trans hafter
    exact absurd hc.slices (by decide)
  · have hs : (run Model.next .new overlapCalls).stack? 2 = some ⟨.ofRat 0, [], [0, 1], ""⟩ := by
      decide
    obtain ⟨m', s', hm', hs', hi⟩ := h _ (reaches_run _ _) 2 _ hs
    have hafter : ((run Model.next .new overlapCalls).collapseSliceReferences 2).toOption.bind
        (·.stack? 2) =
          some ⟨.ofRat 0, [⟨.ofRat 5, [], []⟩, ⟨.ofRat 2, [], []⟩], [0, 1], ""⟩ := by decide
    rw [hm'] at hafter
    cases hs'.symm.trans hafter
    exact absurd hi (by decide)

end Model

end NMR
