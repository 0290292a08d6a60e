import Lib3MF.API.Proof.ObjectDepth
import Lib3MF.Lib.Acyclic

/-!
# Components before the objects that use them

The order of `getSortedObjectList` is that of a topological sort: where the components of a model
close no cycle, no object stands before one it uses (`componentsFirst_of_short`). The levels have
32 bits, so this takes a way of fewer than `2^32` objects; at the end of a longer one all levels
are the largest, and the IDs decide (`componentsFirst_iff`).
-/

namespace NMR.Model

open Lib Relation

variable {m m' : Model} {t u r o : ResourceRef} {fuel : Nat} {l : List ResourceRef}

/-- The objects are listed, each behind those it uses, directly or through others. -/
structure ComponentsFirst (m : Model) : Prop where
  computed : ∃ fuel l, m.getSortedObjectList fuel = some l
  perm : ∀ fuel l, m.getSortedObjectList fuel = some l → l.Perm m.objects
  sorted : ∀ fuel l, m.getSortedObjectList fuel = some l →
    l.Pairwise fun a b => ¬ TransGen m.References a b

/-- Components are objects of the model, and no two of its objects have one ID. -/
structure OwnComponents (m : Model) : Prop where
  closed : ∀ r o, r ∈ m.objects → m.References r o → o ∈ m.objects
  injective : ∀ r o, r ∈ m.objects → o ∈ m.objects →
    (m.uniqueID? r).getD 0 = (m.uniqueID? o).getD 0 → r = o

/-- Only resources have components. -/
theorem lt_of_references (h : m.References r o) : r < m.store.length := by
  obtain ⟨c, hc, -⟩ := h
  by_contra hr
  have hd : m.data? r = none := by
    rw [data?, List.getElem?_eq_none (Nat.le_of_not_lt hr)]
    rfl
  simp [components, hd] at hc

/-- Where the components close no cycle, the recursion ends. -/
theorem grounded_of_acyclic (h : Acyclic m.References) : Grounded m.References m.objects := by
  have hd := h.descends (Set.finite_lt_nat m.store.length) fun r o hr => lt_of_references hr
  exact fun r _ => hd.apply r

/-- What an object is sorted by. -/
def sortKey (m : Model) (level : ResourceRef → Nat) (r : ResourceRef) : Natᵒᵈ ×ₗ Nat :=
  toLex (OrderDual.toDual (level r), (m.uniqueID? r).getD 0)

/-- The list, by the levels that were computed. -/
theorem getSortedObjectList_spec (h : m.getSortedObjectList fuel = some l) :
    l.Perm m.objects ∧ ∃ level : ResourceRef → Nat,
      (∀ x ∈ m.objects, IsGreatest (levels m.References m.objects x) (level x)) ∧
      l.Pairwise fun a b => m.sortKey level a ≤ m.sortKey level b := by
  unfold getSortedObjectList at h
  cases hm : m.calculateComponentDepthLevels fuel with
  | none => rw [hm] at h; cases h
  | some m' =>
    rw [hm] at h
    cases h
    obtain ⟨hgr, hid⟩ := calculateComponentDepthLevels_isGreatest hm
    refine ⟨List.mergeSort_perm _ _, m'.componentDepthLevel, hgr, ?_⟩
    refine pairwise_mergeSort_key (m.sortKey m'.componentDepthLevel) (fun a b => ?_) m.objects
    rw [sortsBefore, sortKey, sortKey, Prod.Lex.toLex_lt_toLex, hid, hid]
    split_ifs with he
    · simp [he]
    · simp [he]

/-- The list is computed, as there is no cycle. -/
theorem exists_getSortedObjectList (h : Acyclic m.References) :
    ∃ fuel l, m.getSortedObjectList fuel = some l := by
  obtain ⟨fuel, m', hm'⟩ := calculateComponentDepthLevels_isSome_iff.2 (grounded_of_acyclic h)
  refine ⟨fuel, m.objects.mergeSort fun a b => ¬ m'.sortsBefore b a, ?_⟩
  rw [getSortedObjectList, hm']
  rfl

/-- The list is in order when every object has a lower key than those that use it. -/
theorem componentsFirst_of_keys (h : Acyclic m.References)
    (hkey : ∀ level : ResourceRef → Nat,
      (∀ x ∈ m.objects, IsGreatest (levels m.References m.objects x) (level x)) →
      ∀ t ∈ m.objects, ∀ u ∈ m.objects, TransGen m.References u t →
        m.sortKey level t < m.sortKey level u) : m.ComponentsFirst where
  computed := exists_getSortedObjectList h
  perm fuel l hl := (getSortedObjectList_spec hl).1
  sorted fuel l hl := by
    obtain ⟨hperm, level, hgr, hs⟩ := getSortedObjectList_spec hl
    refine hs.imp_of_mem fun {a b} ha hb hle hab => ?_
    exact absurd hle (not_le.2 (hkey level hgr b (hperm.mem_iff.1 hb) a (hperm.mem_iff.1 ha) hab))

/-- And only then, where keys are different. -/
theorem ComponentsFirst.key_lt (hm : m.ComponentsFirst) (hown : m.OwnComponents)
    (h : Acyclic m.References) (ht : t ∈ m.objects) (hu : u ∈ m.objects)
    (htu : TransGen m.References u t) :
    ∃ level : ResourceRef → Nat,
      (∀ x ∈ m.objects, IsGreatest (levels m.References m.objects x) (level x)) ∧
        m.sortKey level t < m.sortKey level u := by
  obtain ⟨fuel, l, hl⟩ := hm.computed
  obtain ⟨hperm, level, hgr, hs⟩ := getSortedObjectList_spec hl
  refine ⟨level, hgr, ?_⟩
  have hne : u ≠ t := by
    rintro rfl
    exact h u htu
  have hsub := (pair_sublist_or (hperm.mem_iff.2 ht) (hperm.mem_iff.2 hu) hne.symm).resolve_right
    fun hc => List.rel_of_pairwise_cons ((hm.sorted fuel l hl).sublist hc) List.mem_cons_self htu
  refine lt_of_le_of_ne (List.rel_of_pairwise_cons (hs.sublist hsub) List.mem_cons_self) fun he => ?_
  have hid := congrArg (fun x => (ofLex x).2) he
  exact hne (hown.injective t u ht hu hid).symm

/-! ## Levels -/

/-- Where no way is longer than 32 bits count, an object has a lower level than what it uses. -/
theorem level_lt_of_short {level : ResourceRef → Nat}
    (hgr : ∀ x ∈ m.objects, IsGreatest (levels m.References m.objects x) (level x))
    (ht : t ∈ m.objects) (hu : u ∈ m.objects) (htu : TransGen m.References u t)
    (hshort : ∀ r ∈ m.objects, ∀ n, Steps m.References n r t → 1 + n < 2 ^ 32) :
    level u < level t := by
  obtain ⟨p, hp, hstep⟩ := exists_steps_of_transGen htu
  obtain ⟨r, hr, n, hs, hn⟩ := (hgr u hu).1
  have hlong := hs.trans hstep
  have hlt := hshort r hr (n + p) hlong
  have hle := (hgr t ht).2 ⟨r, hr, n + p, hlong, rfl⟩
  rw [Nat.mod_eq_of_lt hlt] at hle
  rw [hn, Nat.mod_eq_of_lt (by omega)]
  omega

/-- A way as long as 32 bits count gives the largest level. -/
theorem level_of_long {level : ResourceRef → Nat}
    (hgr : ∀ x ∈ m.objects, IsGreatest (levels m.References m.objects x) (level x))
    (ht : t ∈ m.objects) (hr : r ∈ m.objects) (hs : Steps m.References (2 ^ 32 - 2) r t) :
    level t = 2 ^ 32 - 1 := by
  have hle := (hgr t ht).2 ⟨r, hr, _, hs, rfl⟩
  obtain ⟨r', -, n, -, hn⟩ := (hgr t ht).1
  have hlt : level t < 2 ^ 32 := hn ▸ Nat.mod_lt _ (by decide)
  rw [Nat.mod_eq_of_lt (by decide)] at hle
  omega

/-- **An object and what it uses**: it has the higher key, unless both have the largest level and
its ID is not the higher one. -/
theorem key_lt_iff {level : ResourceRef → Nat} (hown : m.OwnComponents)
    (hgr : ∀ x ∈ m.objects, IsGreatest (levels m.References m.objects x) (level x))
    (ht : t ∈ m.objects) (hu : u ∈ m.objects) (htu : TransGen m.References u t) :
    m.sortKey level t < m.sortKey level u ↔
      ((∃ r ∈ m.objects, Steps m.References (2 ^ 32 - 2) r u) →
        (m.uniqueID? t).getD 0 < (m.uniqueID? u).getD 0) := by
  have hclosed : ∀ a b, a ∈ m.objects → m.References a b → b ∈ m.objects := hown.closed
  obtain ⟨p, hp, hstep⟩ := exists_steps_of_transGen htu
  rw [sortKey, sortKey, Prod.Lex.toLex_lt_toLex]
  by_cases hlong : ∃ r ∈ m.objects, Steps m.References (2 ^ 32 - 2) r u
  · obtain ⟨r, hr, hs⟩ := hlong
    obtain ⟨r', hr', hs'⟩ := (hs.trans hstep).suffix hclosed hr (Nat.le_add_right _ p)
    have hlu := level_of_long hgr hu hr hs
    have hlt := level_of_long hgr ht hr' hs'
    rw [hlu, hlt]
    simp only [lt_irrefl, false_or, true_and]
    exact ⟨fun h _ => h, fun h => h ⟨r, hr, hs⟩⟩
  · refine iff_of_true (.inl ?_) fun h => absurd h hlong
    -- the longest way to `u`, and one edge more to `t`
    obtain ⟨r, hr, n, hs, hn⟩ := (hgr u hu).1
    have hlt : n < 2 ^ 32 - 2 := by
      by_contra hge
      obtain ⟨r', hr', hs'⟩ := hs.suffix hclosed hr (Nat.le_of_not_lt hge)
      exact hlong ⟨r', hr', hs'⟩
    obtain ⟨r', hr', hs'⟩ :=
      (hs.trans hstep).suffix hclosed hr (Nat.add_le_add_left (Nat.succ_le_of_lt hp) n)
    have hle := (hgr t ht).2 ⟨r', hr', _, hs', rfl⟩
    rw [Nat.mod_eq_of_lt (by omega)] at hle
    rw [Nat.mod_eq_of_lt (by omega)] at hn
    change level u < level t
    omega

/-! ## The order -/

/-- **Short ways**: whatever the order of the objects and the levels left from earlier calls. -/
theorem componentsFirst_of_short (h : Acyclic m.References)
    (hshort : ∀ r ∈ m.objects, ∀ n x, Steps m.References n r x → 1 + n < 2 ^ 32) :
    m.ComponentsFirst :=
  componentsFirst_of_keys h fun _ hgr t ht _ hu htu => by
    rw [sortKey, sortKey, Prod.Lex.toLex_lt_toLex]
    exact .inl (level_lt_of_short hgr ht hu htu fun r hr n hs => hshort r hr n t hs)

/-- **Any ways**, in a model with its own components only. -/
theorem componentsFirst_iff (h : Acyclic m.References) (hown : m.OwnComponents) :
    m.ComponentsFirst ↔ ∀ t ∈ m.objects, ∀ u ∈ m.objects, TransGen m.References u t →
      (∃ r ∈ m.objects, Steps m.References (2 ^ 32 - 2) r u) →
        (m.uniqueID? t).getD 0 < (m.uniqueID? u).getD 0 := by
  constructor
  · intro hm t ht u hu htu
    obtain ⟨level, hgr, hlt⟩ := hm.key_lt hown h ht hu htu
    exact (key_lt_iff hown hgr ht hu htu).1 hlt
  · intro hid
    exact componentsFirst_of_keys h fun level hgr t ht u hu htu =>
      (key_lt_iff hown hgr ht hu htu).2 (hid t ht u hu htu)

/-- **The sorted list of objects** of a model without component cycles: it is a permutation with
every object behind those it uses where no way from object to component has `2^32` objects, and,
when the components are the model's own, exactly where the objects at the end of such a way
are in the order of their IDs. -/
theorem sorted_objects (h : Acyclic m.References) :
    ((∀ r ∈ m.objects, ∀ n x, Steps m.References n r x → 1 + n < 2 ^ 32) → m.ComponentsFirst) ∧
      (m.OwnComponents → (m.ComponentsFirst ↔
        ∀ t ∈ m.objects, ∀ u ∈ m.objects, TransGen m.References u t →
          (∃ r ∈ m.objects, Steps m.References (2 ^ 32 - 2) r u) →
            (m.uniqueID? t).getD 0 < (m.uniqueID? u).getD 0)) :=
  ⟨componentsFirst_of_short h, componentsFirst_iff h⟩

/-! ## A chain of objects -/

/-- `n` components objects, added one after the other: the last one has the first as its component,
and each of the others the one added after it, up to the last but one, which has none. Sorting reads
the objects and their lookup only; the resource map and the handler are left empty. -/
def chainModel (n : Nat) : Model :=
  { new with
    store := (List.range n).map fun i =>
      ⟨⟨"", (i + 1) % 2 ^ 32, (i + 1) % 2 ^ 32⟩, .componentsObject .new
        (if i + 2 < n then [⟨i + 1, .identity⟩] else if i + 1 = n then [⟨0, .identity⟩] else [])⟩
    resources := List.range n
    objectLookup := List.range n }

variable {n i j : Nat}

theorem data?_chainModel (hi : i < n) :
    (chainModel n).data? i = some (.componentsObject .new
      (if i + 2 < n then [⟨i + 1, .identity⟩] else if i + 1 = n then [⟨0, .identity⟩] else [])) := by
  simp [data?, chainModel, hi]

theorem uniqueID?_chainModel (hi : i < n) :
    (chainModel n).uniqueID? i = some ((i + 1) % 2 ^ 32) := by
  simp [uniqueID?, chainModel, hi]

theorem references_chainModel : (chainModel n).References i j ↔
    i + 2 < n ∧ j = i + 1 ∨ i + 1 = n ∧ j = 0 := by
  by_cases hi : i < n
  · rw [References, components, data?_chainModel hi]
    simp only [Option.map_some, Option.getD_some, ResourceData.components]
    split_ifs with h1 h2
    · have hne : ¬ i + 1 = n := by omega
      simp [h1, hne, eq_comm]
    · simp [h1, h2, eq_comm]
    · simp [h1, h2]
  · have hno : ¬ (chainModel n).References i j := by
      intro h
      have hlt := lt_of_references h
      rw [chainModel, List.length_map, List.length_range] at hlt
      exact hi hlt
    refine iff_of_false hno ?_
    omega

theorem objects_chainModel : (chainModel n).objects = List.range n := by
  refine List.filter_eq_self.2 fun i hi => ?_
  rw [data?_chainModel (List.mem_range.1 hi)]
  rfl

/-- Along an edge the place in the chain is the next one. -/
theorem acyclic_chainModel (hn : 2 ≤ n) : Acyclic (chainModel n).References := by
  have hedge : ∀ i j : Nat, (chainModel n).References i j →
      (if i + 1 = n then 0 else i + 1) < if j + 1 = n then 0 else j + 1 := by
    intro i j h
    rw [references_chainModel] at h
    split_ifs <;> omega
  have hplace : ∀ i j : Nat, TransGen (chainModel n).References i j →
      (if i + 1 = n then 0 else i + 1) < if j + 1 = n then 0 else j + 1 := by
    intro i j h
    induction h with
    | single h => exact hedge _ _ h
    | tail _ h ih => exact ih.trans (hedge _ _ h)
  exact fun i h => Nat.lt_irrefl _ (hplace i i h)

theorem ownComponents_chainModel (hn : 2 ≤ n) (hn' : n ≤ 2 ^ 32) :
    (chainModel n).OwnComponents where
  closed r o hr h := by
    rw [objects_chainModel, List.mem_range] at hr ⊢
    rcases references_chainModel.1 h with ⟨h1, rfl⟩ | ⟨h1, rfl⟩ <;> omega
  injective r o hr ho h := by
    rw [objects_chainModel, List.mem_range] at hr ho
    rw [uniqueID?_chainModel hr, uniqueID?_chainModel ho, Option.getD_some, Option.getD_some] at h
    have heq : ∀ a b : Nat, a < n → b < n → (a + 1) % 2 ^ 32 = (b + 1) % 2 ^ 32 → a = b := by
      intro a b ha hb hab
      omega
    exact heq r o hr ho h

/-- The way from the head of the chain. -/
theorem steps_chainModel (hi : i + 2 ≤ n) : Steps (chainModel n).References (i + 1) (n - 1) i := by
  induction i with
  | zero => exact .head (references_chainModel.2 (.inr ⟨by omega, rfl⟩)) (.refl 0)
  | succ i ih =>
    exact (ih (by omega)).trans (.head (references_chainModel.2 (.inl ⟨by omega, rfl⟩)) (.refl _))

/-- A chain of two objects. -/
theorem sorted_objects_chainModel : (chainModel 2).ComponentsFirst :=
  (sorted_objects (acyclic_chainModel (Nat.le_refl 2))).1 fun r hr n x hs => by
    rw [objects_chainModel, List.mem_range] at hr
    have hn : n < 2 := by
      by_contra hge
      obtain ⟨k, rfl⟩ : ∃ k, n = k + 1 + 1 := ⟨n - 2, by omega⟩
      obtain ⟨y, h1, hs⟩ := steps_succ.1 hs
      obtain ⟨z, h2, -⟩ := steps_succ.1 hs
      rw [references_chainModel] at h1 h2
      omega
    omega

/-- In a chain of `2^32` objects the last two have one level, and the last one stands behind the
one that uses it. -/
theorem chain_unsorted :
    ¬ ∀ m : Model, Acyclic m.References → m.ComponentsFirst := by
  intro hall
  obtain ⟨n, hn⟩ : ∃ n, n = 2 ^ 32 := ⟨_, rfl⟩
  have hac := acyclic_chainModel (n := n) (by omega)
  have hown := ownComponents_chainModel (n := n) (by omega) (by omega)
  have ht : n - 2 ∈ (chainModel n).objects := by
    rw [objects_chainModel, List.mem_range]
    omega
  have hu : n - 3 ∈ (chainModel n).objects := by
    rw [objects_chainModel, List.mem_range]
    omega
  have hhead : n - 1 ∈ (chainModel n).objects := by
    rw [objects_chainModel, List.mem_range]
    omega
  have hway := steps_chainModel (n := n) (i := n - 3) (by omega)
  rw [show n - 3 + 1 = 2 ^ 32 - 2 by omega] at hway
  have hid := (componentsFirst_iff hac hown).1 (hall _ hac) _ ht _ hu
    (.single (references_chainModel.2 (.inl ⟨by omega, by omega⟩))) ⟨_, hhead, hway⟩
  rw [uniqueID?_chainModel (by omega), uniqueID?_chainModel (by omega), Option.getD_some,
    Option.getD_some] at hid
  omega

end NMR.Model
