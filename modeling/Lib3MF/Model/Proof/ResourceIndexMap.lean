import Mathlib.Data.List.Sort
import Lib3MF.Model.Classes.ResourceIndexMap

/-!
# Property IDs and the index map over runs

What one call keeps of a group is `Consistent`: the index map, where there is one, lists the keys,
and the IDs are issued in a row, modulo `2 ^ 32`. So in every state that is reached the IDs are
distinct and the index map enumerates them, and as long as the group has not issued more than
`2 ^ 32` IDs no ID is issued again (`propertyIDs_kept`). Over a longer history the counter starts
from the beginning.
-/

namespace NMR

open Lib

/-! ## Histories -/

/-- The IDs that were issued, the latest first. -/
def issuedIDs : List PropertyEvent → List Nat
  | [] => []
  | .issued id :: history => id :: issuedIDs history
  | .removed _ :: history => issuedIDs history

/-- No ID is issued after it was removed. -/
def NeverReissued (history : List PropertyEvent) : Prop :=
  history.Pairwise fun later earlier => ∀ id, later = .issued id → earlier ≠ .removed id

/-- The IDs a counter issues from 1 on, the latest first. -/
def countedIDs (n : Nat) : List Nat := ((List.range n).map fun k => (k + 1) % 2 ^ 32).reverse

theorem length_countedIDs (n : Nat) : (countedIDs n).length = n := by
  simp [countedIDs]

theorem countedIDs_succ (n : Nat) : countedIDs (n + 1) = (n + 1) % 2 ^ 32 :: countedIDs n := by
  simp [countedIDs, List.range_succ]

theorem mem_countedIDs {n id : Nat} : id ∈ countedIDs n ↔ ∃ k < n, id = (k + 1) % 2 ^ 32 := by
  simp [countedIDs, eq_comm]

/-- A counter of 32 bits issues `2 ^ 32` IDs without a repetition, and no more. -/
theorem nodup_countedIDs {n : Nat} : (countedIDs n).Nodup ↔ n ≤ 2 ^ 32 := by
  apply Iff.intro
  · intro h
    have hsub : countedIDs n ⊆ List.range (2 ^ 32) := by
      intro id hid
      obtain ⟨k, -, rfl⟩ := mem_countedIDs.1 hid
      exact List.mem_range.2 (Nat.mod_lt _ (by decide))
    have hle := (List.subperm_of_subset h hsub).length_le
    rwa [length_countedIDs, List.length_range] at hle
  · intro h
    refine List.nodup_reverse.2 (List.Nodup.map_on (fun a ha b hb he => ?_) List.nodup_range)
    have ha' := List.mem_range.1 ha
    have hb' := List.mem_range.1 hb
    omega

/-! ## One group -/

namespace IndexedGroup

variable {α : Type} {g g' : IndexedGroup α}

/-- The index map is an increasing bijection from the numbers below the count onto the IDs. -/
structure Enumerates (g : IndexedGroup α) : Prop where
  defined : ∀ i, (g.mapResourceIndexToPropertyID i).isSome ↔ i < g.group.getCount
  increasing : ∀ i j a b, i < j → g.mapResourceIndexToPropertyID i = some a →
    g.mapResourceIndexToPropertyID j = some b → a < b
  onto : ∀ id, (∃ i, g.mapResourceIndexToPropertyID i = some id) ↔
    (g.group.entries.find? id).isSome

/-- What is to hold of a group. -/
structure KeepsIDs (g : IndexedGroup α) : Prop where
  distinct : g.group.entries.keys.Nodup
  enumerates : g.hasResourceIndexMap = true → g.Enumerates
  neverReissued : NeverReissued g.history

/-- What every call keeps. -/
structure Consistent (g : IndexedGroup α) : Prop where
  indexed : g.hasResourceIndexMap = true → g.resourceIndexMap = g.group.entries.keys
  counter : g.group.nextPropertyID = ((issuedIDs g.history).length + 1) % 2 ^ 32
  counted : issuedIDs g.history = countedIDs (issuedIDs g.history).length
  known : ∀ id, id ∈ g.group.entries.keys ∨ .removed id ∈ g.history → id ∈ issuedIDs g.history
  fresh : (issuedIDs g.history).length ≤ 2 ^ 32 → NeverReissued g.history

theorem consistent_new : (new : IndexedGroup α).Consistent :=
  ⟨fun h => (by cases h), rfl, rfl, fun _ h => (by simp [new, PropertyGroup.empty] at h),
    fun _ => List.Pairwise.nil⟩

theorem Consistent.enumerates (h : g.Consistent) (hm : g.hasResourceIndexMap = true) :
    g.Enumerates := by
  have hmap : ∀ i, g.mapResourceIndexToPropertyID i = g.group.entries.keys[i]? := fun i => by
    rw [mapResourceIndexToPropertyID, h.indexed hm]
  have hs : g.group.entries.keys.Pairwise (· < ·) := g.group.entries.sorted
  refine ⟨fun i => ?_, fun i j a b hij ha hb => ?_, fun id => ?_⟩
  · rw [hmap, PropertyGroup.getCount, ← SortedMap.size_keys]
    simp
  · rw [hmap] at ha hb
    obtain ⟨hi, rfl⟩ := List.getElem?_eq_some_iff.1 ha
    obtain ⟨hj, rfl⟩ := List.getElem?_eq_some_iff.1 hb
    exact List.pairwise_iff_getElem.1 hs i j hi hj hij
  · simp only [hmap]
    rw [SortedMap.find?_isSome, List.mem_iff_getElem?]

theorem Consistent.clear (h : g.Consistent) : g.clearResourceIndexMap.Consistent :=
  ⟨fun hm => (by cases hm), h.counter, h.counted, h.known, h.fresh⟩

theorem Consistent.build (h : g.Consistent) : g.buildResourceIndexMap.Consistent :=
  ⟨fun _ => rfl, h.counter, h.counted, h.known, h.fresh⟩

/-- The next ID was not issued before, while there are IDs left. -/
theorem Consistent.next_fresh (h : g.Consistent) (hn : (issuedIDs g.history).length < 2 ^ 32) :
    g.group.nextPropertyID ∉ issuedIDs g.history := by
  intro hmem
  rw [h.counted, h.counter] at hmem
  obtain ⟨k, hk, he⟩ := mem_countedIDs.1 hmem
  omega

theorem Consistent.add {kind : PropertyGroupKind} {check : α → Except Error Unit} {v : α}
    {r : IndexedGroup α × Nat} (h : g.Consistent) (hr : g.add kind check v = .ok r) :
    r.1.Consistent := by
  rw [IndexedGroup.add, bind_eq_ok] at hr
  obtain ⟨⟨group, id⟩, ha, hr⟩ := hr
  obtain ⟨-, -, he⟩ := PropertyGroup.add_spec ha
  obtain ⟨rfl, rfl⟩ := Prod.mk.inj he
  simp only [pure_eq_ok] at hr
  subst hr
  refine ⟨fun hm => (by cases hm), ?_, ?_, fun id hid => ?_, fun hn => ?_⟩
  · show (g.group.nextPropertyID + 1) % 2 ^ 32 = ((issuedIDs g.history).length + 1 + 1) % 2 ^ 32
    rw [h.counter, Nat.mod_add_mod]
  · show g.group.nextPropertyID :: issuedIDs g.history =
      countedIDs ((issuedIDs g.history).length + 1)
    rw [countedIDs_succ, ← h.counted, h.counter]
  · show id ∈ g.group.nextPropertyID :: issuedIDs g.history
    rcases hid with hid | hid
    · rcases SortedMap.mem_keys_insert.1 hid with rfl | hid
      · exact List.mem_cons_self
      · exact List.mem_cons_of_mem _ (h.known id (.inl hid))
    · rcases List.mem_cons.1 hid with hid | hid
      · cases hid
      · exact List.mem_cons_of_mem _ (h.known id (.inr hid))
  · -- an ID that was removed is one that was issued
    have hlen : (issuedIDs g.history).length + 1 ≤ 2 ^ 32 := hn
    refine List.pairwise_cons.2 ⟨fun e he id hi hr => ?_, h.fresh (by omega)⟩
    obtain rfl := PropertyEvent.issued.inj hi
    exact h.next_fresh hlen (h.known _ (.inr (hr ▸ he)))

theorem Consistent.set {id : Nat} {v : α} (h : g.Consistent) (hr : g.set id v = .ok g') :
    g'.Consistent := by
  rw [IndexedGroup.set, bind_eq_ok] at hr
  obtain ⟨group, hs, hr⟩ := hr
  simp only [pure_eq_ok] at hr
  subst hr
  unfold PropertyGroup.set at hs
  split_ifs at hs with hid
  obtain rfl := Except.ok.inj hs
  have hkeys : ∀ x, x ∈ (g.group.entries.set id v).keys ↔ x ∈ g.group.entries.keys := by
    intro x
    rw [SortedMap.mem_keys_set]
    exact ⟨fun hx => hx.elim (fun he => he ▸ SortedMap.find?_isSome.1 hid) fun hx => hx, .inr⟩
  have hsorted : (g.group.entries.set id v).keys = g.group.entries.keys :=
    (g.group.entries.set id v).sorted.eq_of_mem_iff g.group.entries.sorted hkeys
  exact ⟨fun hm => (h.indexed hm).trans hsorted.symm, h.counter, h.counted,
    fun x hx => h.known x (hx.imp_left (hkeys x).1), h.fresh⟩

theorem Consistent.remove (h : g.Consistent) (id : Nat) : (g.remove id).Consistent := by
  have hkeys : ∀ x ∈ (g.group.entries.erase id).keys, x ∈ g.group.entries.keys := by
    intro x hx
    rw [← SortedMap.find?_isSome, SortedMap.find?_erase] at hx
    split_ifs at hx
    · cases hx
    · exact SortedMap.find?_isSome.1 hx
  unfold IndexedGroup.remove
  split_ifs with hid
  · refine ⟨fun hm => (by cases hm), h.counter, h.counted, fun x hx => ?_, fun hn => ?_⟩
    · rcases hx with hx | hx
      · exact h.known x (.inl (hkeys x hx))
      · rcases List.mem_cons.1 hx with hx | hx
        · exact h.known x (.inl (PropertyEvent.removed.inj hx ▸ hid))
        · exact h.known x (.inr hx)
    · exact List.pairwise_cons.2 ⟨fun e _ id hi => (by cases hi), h.fresh hn⟩
  · exact ⟨fun hm => (by cases hm), h.counter, h.counted,
      fun x hx => h.known x (hx.imp_left (hkeys x)), h.fresh⟩

theorem Consistent.keepsIDs (h : g.Consistent) (hn : (issuedIDs g.history).length ≤ 2 ^ 32) :
    g.KeepsIDs :=
  ⟨g.group.entries.sorted.imp ne_of_lt, h.enumerates, h.fresh hn⟩

end IndexedGroup

/-! ## Runs -/

namespace Groups

variable {ι α : Type} [DecidableEq ι] {s : Groups ι α}

/-- Every group is consistent. -/
def AllConsistent (s : Groups ι α) : Prop := ∀ i, (s i).Consistent

theorem AllConsistent.update {i : ι} {g : IndexedGroup α} (h : AllConsistent s)
    (hg : g.Consistent) : AllConsistent (Function.update s i g) := by
  intro j
  by_cases hj : j = i
  · subst hj
    rw [Function.update_self]
    exact hg
  · rw [Function.update_of_ne hj]
    exact h j

theorem change_consistent {i : ι} {f : IndexedGroup α → IndexedGroup α}
    (hf : ∀ g : IndexedGroup α, g.Consistent → (f g).Consistent) (h : AllConsistent s) :
    Ends (change i f s) AllConsistent AllConsistent :=
  h.update (hf _ (h i))

theorem attempt_consistent {i : ι} {f : IndexedGroup α → Except Error (IndexedGroup α)}
    (hf : ∀ g g', g.Consistent → f g = .ok g' → g'.Consistent) (h : AllConsistent s) :
    Ends (attempt i f s) AllConsistent AllConsistent := by
  unfold attempt
  cases hc : f (s i) with
  | error e => exact h
  | ok g => exact h.update (hf _ _ (h i) hc)

theorem add_consistent (kind : PropertyGroupKind) (check : α → Except Error Unit) (i : ι) (v : α)
    (h : AllConsistent s) :
    Ends (attempt i (fun g => return (← g.add kind check v).1) s) AllConsistent AllConsistent := by
  refine attempt_consistent (fun g g' hg hr => ?_) h
  obtain ⟨r, ha, hr⟩ := bind_eq_ok.1 hr
  obtain rfl := pure_eq_ok.1 hr
  exact hg.add ha

omit [DecidableEq ι] in
theorem mergeLayers_consistent (layers : Except Error Unit) (h : AllConsistent s) :
    Ends (mergeLayers layers s) AllConsistent AllConsistent := by
  unfold mergeLayers
  cases layers with
  | error e => exact h
  | ok u => exact h

theorem mergeFrom_consistent (kind : PropertyGroupKind) (check : α → Except Error Unit)
    (layers : Except Error Unit) (i source : ι) (h : AllConsistent s) :
    Ends (mergeFrom kind check layers i source s) AllConsistent AllConsistent := by
  show Ends ((change source IndexedGroup.buildResourceIndexMap >>= fun _ =>
    (List.range (s source).group.getCount).forM (mergeProperty kind check i source) >>= fun _ =>
      mergeLayers layers >>= fun _ => change i IndexedGroup.clearResourceIndexMap) s) _ _
  refine (change_consistent (fun g hg => hg.build) h).bind fun _ t _ ht => ?_
  refine (Ends.forM (fun n _ u hu => ?_) ht).bind fun _ t _ ht =>
    (mergeLayers_consistent layers ht).bind fun _ t _ ht =>
      change_consistent (fun g hg => hg.clear) ht
  unfold mergeProperty
  dsimp only
  cases (u source).group.get (((u source).mapResourceIndexToPropertyID n).getD 0) with
  | error e => exact hu
  | ok v => exact add_consistent kind check i v hu

/-- One call. -/
theorem next_consistent (kind : PropertyGroupKind) (h : AllConsistent s) (c : GroupCall ι α) :
    AllConsistent (next kind s c) := by
  have hends : Ends (perform kind c s) AllConsistent AllConsistent := by
    cases c with
    | add i check v => exact add_consistent kind check i v h
    | set i id v => exact attempt_consistent (fun g g' hg hr => hg.set hr) h
    | remove i id => exact change_consistent (fun g hg => hg.remove id) h
    | mergeFrom i source check layers => exact mergeFrom_consistent kind check layers i source h
    | clearResourceIndexMap i => exact change_consistent (fun g hg => hg.clear) h
    | buildResourceIndexMap i => exact change_consistent (fun g hg => hg.build) h
  exact hends.final (fun _ h => h) fun _ h => h

theorem run_consistent (kind : PropertyGroupKind) (h : AllConsistent s)
    (calls : List (GroupCall ι α)) : AllConsistent (run (next kind) s calls) := by
  induction calls generalizing s with
  | nil => exact h
  | cons c calls ih => exact ih (next_consistent kind h c)

/-! ### What `mergeFrom` leaves -/

/-- The properties that `mergeFrom` takes over from another group. -/
theorem forM_mergeProperty {kind : PropertyGroupKind} {check : α → Except Error Unit} {i source : ι}
    (hne : i ≠ source) {ns : List Nat} {s' : Groups ι α}
    (h : ns.forM (mergeProperty kind check i source) s = .ok () s') :
    (ns.map fun n => ((s source).mapResourceIndexToPropertyID n).getD 0).foldlM
        (PropertyGroup.mergeProperty (PropertyGroup.add kind.tooMany check) (s source).group)
        (s i).group = .ok (s' i).group := by
  induction ns generalizing s with
  | nil =>
    cases h
    rfl
  | cons n ns ih =>
    change (mergeProperty kind check i source n >>= fun _ =>
      ns.forM (mergeProperty kind check i source)) s = _ at h
    obtain ⟨_, t, hn, hns⟩ := bind_state_ok.1 h
    unfold mergeProperty attempt at hn
    dsimp only at hn
    rw [List.map_cons, List.foldlM_cons, bind_eq_ok]
    cases hv : (s source).group.get (((s source).mapResourceIndexToPropertyID n).getD 0) with
    | error e =>
      rw [hv] at hn
      cases hn
    | ok v =>
      rw [hv] at hn
      dsimp only at hn
      cases ha : (s i).group.add kind.tooMany check v with
      | error e => simp [IndexedGroup.add, ha, bind, Except.bind] at hn
      | ok r =>
        simp only [IndexedGroup.add, ha, bind, Except.bind, pure, Except.pure,
          EStateM.Result.ok.injEq, true_and] at hn
        subst hn
        have hi := ih hns
        rw [Function.update_of_ne (Ne.symm hne), Function.update_self] at hi
        refine ⟨r.1, ?_, hi⟩
        rw [PropertyGroup.mergeProperty, hv]
        show ((s i).group.add kind.tooMany check v >>= fun r => pure r.1) = _
        rw [ha]
        rfl

/-- **Merging another group** gives what `PropertyGroup.mergeFrom` gives of the two. -/
theorem mergeFrom_group {kind : PropertyGroupKind} {check : α → Except Error Unit}
    {layers : Except Error Unit} {i source : ι} (hne : i ≠ source) {s' : Groups ι α}
    (h : mergeFrom kind check layers i source s = .ok () s') :
    PropertyGroup.mergeFrom (PropertyGroup.add kind.tooMany check) (s i).group
      (s source).group = .ok (s' i).group := by
  change (change source IndexedGroup.buildResourceIndexMap >>= fun _ =>
    (List.range (s source).group.getCount).forM (mergeProperty kind check i source) >>= fun _ =>
      mergeLayers layers >>= fun _ => change i IndexedGroup.clearResourceIndexMap) s = _ at h
  obtain ⟨_, t, hb, h⟩ := bind_state_ok.1 h
  obtain ⟨_, u, hl, h⟩ := bind_state_ok.1 h
  obtain ⟨_, v, hlayers, hclear⟩ := bind_state_ok.1 h
  have ht : t = Function.update s source (s source).buildResourceIndexMap := by
    cases hb
    rfl
  have hv : v = u := by
    unfold mergeLayers at hlayers
    cases layers with
    | error e => cases hlayers
    | ok x =>
      cases hlayers
      rfl
  have hs' : (s' i).group = (u i).group := by
    cases hclear
    rw [hv]
    show (Function.update u i (u i).clearResourceIndexMap i).group = _
    rw [Function.update_self]
    rfl
  have hm := forM_mergeProperty hne hl
  rw [ht, Function.update_self, Function.update_of_ne hne] at hm
  have hkeys : (List.range (s source).group.getCount).map (fun n =>
      ((s source).buildResourceIndexMap.mapResourceIndexToPropertyID n).getD 0) =
      (s source).group.buildResourceIndexMap := by
    apply List.ext_getElem
    · rw [List.length_map, List.length_range, PropertyGroup.buildResourceIndexMap,
        SortedMap.size_keys, PropertyGroup.getCount]
    · intro n h₁ h₂
      rw [List.getElem_map, List.getElem_range]
      show ((s source).group.buildResourceIndexMap[n]?).getD 0 = _
      rw [List.getElem?_eq_getElem h₂, Option.getD_some]
  rw [hkeys] at hm
  rw [hs']
  exact hm

/-- **Property IDs and the index map.** After every run, in every group, the IDs are distinct and
the index map enumerates them; IDs are issued once up to `2 ^ 32` of them and no further, and up
to there no ID comes back. -/
theorem propertyIDs_kept (kind : PropertyGroupKind) (calls : List (GroupCall ι α)) (i : ι) :
    (run (next kind) new calls i).group.entries.keys.Nodup ∧
    ((run (next kind) new calls i).hasResourceIndexMap = true →
      (run (next kind) new calls i).Enumerates) ∧
    ((issuedIDs (run (next kind) new calls i).history).Nodup ↔
      (issuedIDs (run (next kind) new calls i).history).length ≤ 2 ^ 32) ∧
    ((issuedIDs (run (next kind) new calls i).history).length ≤ 2 ^ 32 →
      (run (next kind) new calls i).KeepsIDs) := by
  have h : (run (next kind) new calls i).Consistent :=
    run_consistent kind (fun _ => IndexedGroup.consistent_new) calls i
  refine ⟨(run (next kind) new calls i).group.entries.sorted.imp ne_of_lt, h.enumerates, ?_,
    h.keepsIDs⟩
  rw [h.counted, nodup_countedIDs, length_countedIDs]

/-! ### A counter that starts again -/

/-- A colour is added and removed again, `n` times. -/
def addAndRemove : Nat → List (GroupCall Unit Nat)
  | 0 => []
  | n + 1 => addAndRemove n ++ [.add () (fun _ => .ok ()) 0, .remove () ((n + 1) % 2 ^ 32)]

/-- The history of that. -/
def addedAndRemoved : Nat → List PropertyEvent
  | 0 => []
  | n + 1 => .removed ((n + 1) % 2 ^ 32) :: .issued ((n + 1) % 2 ^ 32) :: addedAndRemoved n

theorem removed_one_mem (n : Nat) : PropertyEvent.removed 1 ∈ addedAndRemoved (n + 1) := by
  induction n with
  | zero => exact List.mem_cons_self
  | succ n ih => exact List.mem_cons_of_mem _ (List.mem_cons_of_mem _ ih)

/-- A colour is added to an empty group. -/
theorem add_to_empty (n : Nat) (history : List PropertyEvent) (map : List Nat) (has : Bool) :
    next (ι := Unit) .colorGroup (fun _ => ⟨⟨.empty, n⟩, map, has, history⟩)
        (.add () (fun _ => .ok ()) 0) =
      fun _ => (⟨⟨SortedMap.empty.insert n 0, (n + 1) % 2 ^ 32⟩, [], false,
        .issued n :: history⟩ : IndexedGroup Nat) := by
  funext j
  rfl

/-- It is removed again. -/
theorem remove_added (n m : Nat) (history : List PropertyEvent) (map : List Nat) (has : Bool) :
    next (ι := Unit) .colorGroup (fun _ => ⟨⟨SortedMap.empty.insert n 0, m⟩, map, has, history⟩)
        (.remove () n) =
      fun _ => (⟨⟨.empty, m⟩, [], false, .removed n :: history⟩ : IndexedGroup Nat) := by
  have hmem : n ∈ (SortedMap.empty.insert n 0 : SortedMap Nat Nat).keys :=
    SortedMap.mem_keys_insert.2 (.inl rfl)
  have herase : ((SortedMap.empty.insert n 0 : SortedMap Nat Nat).erase n) = .empty := by
    simp [SortedMap.erase, SortedMap.insert, SortedMap.empty, SortedMap.insertEntries]
  funext j
  show IndexedGroup.remove _ n = _
  rw [IndexedGroup.remove, PropertyGroup.remove, if_pos hmem, herase]
  rfl

theorem run_addAndRemove (n : Nat) : run (next .colorGroup) new (addAndRemove n) =
    fun _ => (⟨⟨.empty, (n + 1) % 2 ^ 32⟩, [], false, addedAndRemoved n⟩ : IndexedGroup Nat) := by
  induction n with
  | zero => rfl
  | succ n ih =>
    rw [addAndRemove, run_append, ih, run_cons, add_to_empty, run_cons, run_nil, remove_added,
      Nat.mod_add_mod]
    rfl

/-- After `2 ^ 32` colours, each removed again, the first ID is issued once more. -/
theorem removed_id_reissued :
    ∃ calls : List (GroupCall Unit Nat), ¬ (run (next .colorGroup) new calls ()).KeepsIDs := by
  refine ⟨addAndRemove (2 ^ 32) ++ [.add () (fun _ => .ok ()) 0], fun h => ?_⟩
  have hrun : run (next .colorGroup) new
      (addAndRemove (2 ^ 32) ++ [.add () (fun _ => .ok ()) 0]) () =
      (⟨⟨SortedMap.empty.insert 1 0, 2⟩, [], false,
        .issued 1 :: addedAndRemoved (2 ^ 32)⟩ : IndexedGroup Nat) := by
    have hfirst : (2 ^ 32 + 1) % 2 ^ 32 = 1 := by simp
    have hsecond : (1 + 1) % 2 ^ 32 = 2 := by simp
    simp only [run_append, run_addAndRemove, run_cons, run_nil, add_to_empty, hfirst, hsecond]
  have hnever := h.neverReissued
  rw [hrun] at hnever
  have hmem : PropertyEvent.removed 1 ∈ addedAndRemoved (2 ^ 32) := removed_one_mem (2 ^ 32 - 1)
  exact (List.pairwise_cons.1 hnever).1 _ hmem 1 rfl rfl

end Groups

end NMR
