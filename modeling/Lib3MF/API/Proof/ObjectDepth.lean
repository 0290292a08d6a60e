import Lib3MF.API.Proof.Components
import Lib3MF.Lib.Depth
import Lib3MF.Model.Classes.BeamLattices

/-!
# The levels objects are sorted by

`calculateComponentDepthLevel` raises the level of every object below it to the length of the way
it came, so that afterwards the level of an object is the length of the longest descent from an
object of the model, counted in 32 bits (`calculateComponentDepthLevels_isGreatest`).
-/

namespace NMR.Model

open Lib

variable {m m' m₁ m₂ : Model} {r x t u : ResourceRef} {d d' : ResourceData} {fuel level k : Nat}

/-- The levels that descents from `starts` reach an object at. -/
def levels (edge : ResourceRef → ResourceRef → Prop) (starts : List ResourceRef)
    (x : ResourceRef) : Set Nat :=
  {k | ∃ r ∈ starts, ∃ n, Steps edge n r x ∧ k = (1 + n) % 2 ^ 32}

/-- `m'` is `m` with the levels of objects raised to those of `K`. -/
structure Raised (m m' : Model) (K : ResourceRef → Set Nat) : Prop where
  components : SameComponents m m'
  isObject : ∀ x, (m'.data? x).any (·.isObject) = (m.data? x).any (·.isObject)
  uniqueID : ∀ x, m'.uniqueID? x = m.uniqueID? x
  mono : ∀ x, m.componentDepthLevel x ≤ m'.componentDepthLevel x
  reached : ∀ x, (m.data? x).any (·.isObject) = true → ∀ k ∈ K x, k ≤ m'.componentDepthLevel x
  level : ∀ x, m'.componentDepthLevel x = m.componentDepthLevel x ∨
    m'.componentDepthLevel x ∈ K x

theorem Raised.refl (m : Model) {K : ResourceRef → Set Nat}
    (hK : ∀ x, (m.data? x).any (·.isObject) = true → K x = ∅) : Raised m m K where
  components := fun _ => rfl
  isObject := fun _ => rfl
  uniqueID := fun _ => rfl
  mono := fun _ => le_rfl
  reached := fun x hx k hk => by
    rw [hK x hx] at hk
    exact hk.elim
  level := fun _ => .inl rfl

theorem Raised.trans {K₁ K₂ : ResourceRef → Set Nat} (h₁ : Raised m m₁ K₁)
    (h₂ : Raised m₁ m₂ K₂) : Raised m m₂ fun x => K₁ x ∪ K₂ x where
  components := fun r => (h₂.components r).trans (h₁.components r)
  isObject := fun x => (h₂.isObject x).trans (h₁.isObject x)
  uniqueID := fun x => (h₂.uniqueID x).trans (h₁.uniqueID x)
  mono := fun x => (h₁.mono x).trans (h₂.mono x)
  reached := fun x hx k hk => by
    rcases hk with hk | hk
    · exact (h₁.reached x hx k hk).trans (h₂.mono x)
    · exact h₂.reached x ((h₁.isObject x).trans hx) k hk
  level := fun x => by
    rcases h₂.level x with h | h
    · rcases h₁.level x with h' | h'
      · exact .inl (h.trans h')
      · exact .inr (.inl (h ▸ h'))
    · exact .inr (.inr h)

theorem Raised.congr {K K' : ResourceRef → Set Nat} (h : Raised m m' K) (hK : ∀ x, K x = K' x) :
    Raised m m' K' := by
  have he : K = K' := funext hK
  exact he ▸ h

theorem componentDepthLevel_setData (h : m.data? r = some d) :
    (m.setData r d').componentDepthLevel x =
      if r = x then d'.componentDepthLevel else m.componentDepthLevel x := by
  unfold componentDepthLevel
  rw [data?_setData]
  split_ifs with hr
  · rw [← hr, h]
    rfl
  · rfl

theorem isObject_setData (h : m.data? r = some d) (hd : d'.isObject = d.isObject) :
    ((m.setData r d').data? x).any (·.isObject) = (m.data? x).any (·.isObject) := by
  rw [data?_setData]
  split_ifs with hr
  · rw [← hr, h]
    exact hd
  · rfl

/-- One object is visited. -/
theorem raised_setData (level : Nat) (h : m.data? r = some d) (hc : d'.components = d.components)
    (hd : d'.isObject = d.isObject)
    (hl : d'.componentDepthLevel = max d.componentDepthLevel level) :
    Raised m (m.setData r d') fun x => {k | x = r ∧ k = level} := by
  have hr : m.componentDepthLevel r = d.componentDepthLevel := by
    unfold componentDepthLevel
    rw [h]
    rfl
  have hx (x : ResourceRef) : (m.setData r d').componentDepthLevel x =
      if r = x then max (m.componentDepthLevel x) level else m.componentDepthLevel x := by
    rw [componentDepthLevel_setData h, hl]
    split_ifs with he
    · rw [← he, hr]
    · rfl
  refine ⟨sameComponents_setData h hc, fun x => isObject_setData h hd,
    fun x => uniqueID?_setData, fun x => ?_, fun x _ k hk => ?_, fun x => ?_⟩
  · rw [hx]
    split_ifs
    · exact le_max_left _ _
    · exact le_rfl
  · obtain ⟨rfl, rfl⟩ := hk
    rw [hx, if_pos rfl]
    exact le_max_right _ _
  · rw [hx]
    split_ifs with he
    · rcases max_choice (m.componentDepthLevel x) level with hm | hm
      · exact .inl hm
      · exact .inr ⟨he.symm, hm⟩
    · exact .inl rfl

theorem componentDepthLevel_calculate (i : ObjectInfo) (level : Nat) :
    (i.calculateComponentDepthLevel level).componentDepthLevel = max i.componentDepthLevel level := by
  unfold ObjectInfo.calculateComponentDepthLevel
  split_ifs with h
  · exact (max_eq_right h).symm
  · exact (max_eq_left (by omega)).symm

/-- The levels of a visit that starts at `r` with `level`. -/
def levelsFrom (edge : ResourceRef → ResourceRef → Prop) (r : ResourceRef) (level : Nat)
    (x : ResourceRef) : Set Nat :=
  {k | ∃ n, Steps edge n r x ∧ k = (level + n) % 2 ^ 32}

theorem levelsFrom_eq {edge : ResourceRef → ResourceRef → Prop} {cs : List Component}
    (hl : level < 2 ^ 32) (he : ∀ o, edge r o ↔ ∃ c ∈ cs, c.object = o) (x : ResourceRef) :
    levelsFrom edge r level x =
      {k | x = r ∧ k = level} ∪ {k | ∃ c ∈ cs, k ∈ levelsFrom edge c.object ((level + 1) % 2 ^ 32) x} := by
  ext k
  constructor
  · intro ⟨n, hs, hk⟩
    cases n with
    | zero =>
      rw [Nat.add_zero, Nat.mod_eq_of_lt hl] at hk
      exact .inl ⟨(steps_zero.1 hs).symm, hk⟩
    | succ n =>
      obtain ⟨b, hb, hs⟩ := steps_succ.1 hs
      obtain ⟨c, hc, rfl⟩ := (he b).1 hb
      refine .inr ⟨c, hc, n, hs, ?_⟩
      rw [hk]
      omega
  · intro hk
    rcases hk with ⟨hx, hk⟩ | ⟨c, hc, n, hs, hk⟩
    · refine ⟨0, steps_zero.2 hx.symm, ?_⟩
      rw [hk, Nat.add_zero, Nat.mod_eq_of_lt hl]
    · refine ⟨n + 1, steps_succ.2 ⟨c.object, (he _).2 ⟨c, hc, rfl⟩, hs⟩, ?_⟩
      rw [hk]
      omega

theorem levelsFrom_leaf {edge : ResourceRef → ResourceRef → Prop} (hl : level < 2 ^ 32)
    (he : ∀ o, ¬ edge r o) (x : ResourceRef) :
    levelsFrom edge r level x = {k | x = r ∧ k = level} := by
  have hnil : ∀ o, edge r o ↔ ∃ c ∈ ([] : List Component), c.object = o :=
    fun o => ⟨fun h => absurd h (he o), fun ⟨_, hc, _⟩ => absurd hc List.not_mem_nil⟩
  rw [levelsFrom_eq hl hnil]
  simp

theorem not_references (h : ∀ info cs, m.data? r ≠ some (.componentsObject info cs))
    (o : ResourceRef) : ¬ m.References r o := by
  intro ⟨c, hc, _⟩
  simp only [components] at hc
  cases hd : m.data? r with
  | none => rw [hd] at hc; cases hc
  | some d =>
    rw [hd] at hc
    cases d with
    | componentsObject info cs => exact h info cs hd
    | _ => cases hc

/-- **A visit** raises what is below its start to the levels of the ways to it. -/
theorem calculateComponentDepthLevel_raised (hl : level < 2 ^ 32)
    (h : calculateComponentDepthLevel fuel level r m = some m') :
    Raised m m' (levelsFrom m.References r level) := by
  induction fuel generalizing level r m m' with
  | zero => cases h
  | succ fuel ih =>
    simp only [calculateComponentDepthLevel] at h
    split at h
    · rename_i info cs hd
      have hlt : (level + 1) % 2 ^ 32 < 2 ^ 32 := Nat.mod_lt _ (by decide)
      -- the object itself, then its components, one visit each
      let K (done : List Component) (x : ResourceRef) : Set Nat := {k | x = r ∧ k = level} ∪
        {k | ∃ c ∈ done, k ∈ levelsFrom m.References c.object ((level + 1) % 2 ^ 32) x}
      have h₀ : Raised m (m.setData r (.componentsObject
          (info.calculateComponentDepthLevel level) cs)) (K []) := by
        refine Raised.congr (raised_setData level hd rfl rfl ?_) fun x => ?_
        · exact componentDepthLevel_calculate info level
        · simp [K]
      have hstep (done : List Component) (m₁ : Model) (c : Component) (m₂ : Model)
          (h₁ : Raised m m₁ (K done))
          (h₂ : calculateComponentDepthLevel fuel ((level + 1) % 2 ^ 32) c.object m₁ = some m₂) :
          Raised m m₂ (K (done ++ [c])) := by
        have hv := ih hlt h₂
        rw [h₁.components.references] at hv
        refine (h₁.trans hv).congr fun x => ?_
        ext k
        simp only [K, Set.mem_union, Set.mem_ofPred_eq, List.mem_append, List.mem_singleton,
          or_and_right, exists_or, exists_eq_left, or_assoc]
      have hfold := foldlM_some (fun done m₁ => Raised m m₁ (K done))
        (fun done m₁ c m₂ _ => hstep done m₁ c m₂) h₀ h
      refine hfold.congr fun x => (levelsFrom_eq hl (fun o => ?_) x).symm
      rw [References, components_of_data? hd]
      rfl
    · rename_i info mesh hd
      cases h
      have hleaf := not_references (m := m) (r := r) fun info cs hc => by
        rw [hd] at hc
        cases hc
      refine Raised.congr (raised_setData level hd rfl rfl ?_)
        fun x => (levelsFrom_leaf hl hleaf x).symm
      exact componentDepthLevel_calculate info level
    · rename_i hcomp hmesh
      cases h
      refine Raised.refl m fun x hx => ?_
      rw [levelsFrom_leaf hl (not_references hcomp)]
      refine Set.eq_empty_iff_forall_notMem.2 fun k hk => ?_
      obtain ⟨rfl, -⟩ := hk
      -- what is visited is no object
      cases hd : m.data? x with
      | none => rw [hd] at hx; cases hx
      | some d =>
        rw [hd] at hx
        cases d with
        | meshObject info mesh => exact hmesh info mesh hd
        | componentsObject info cs => exact hcomp info cs hd
        | _ => cases hx

/-! ## All levels -/

/-- Afterwards the objects of a list have the level 0. -/
structure Cleared (m m' : Model) (l : List ResourceRef) : Prop where
  components : SameComponents m m'
  isObject : ∀ x, (m'.data? x).any (·.isObject) = (m.data? x).any (·.isObject)
  uniqueID : ∀ x, m'.uniqueID? x = m.uniqueID? x
  level : ∀ x ∈ l, m'.componentDepthLevel x = 0

theorem cleared_foldl (l : List ResourceRef) (m : Model) :
    Cleared m (l.foldl clearComponentDepthLevel m) l := by
  induction l using List.reverseRecOn with
  | nil => exact ⟨fun _ => rfl, fun _ => rfl, fun _ => rfl, fun x hx => absurd hx List.not_mem_nil⟩
  | append_singleton l r ih =>
    rw [List.foldl_append]
    set m₁ := l.foldl clearComponentDepthLevel m
    change Cleared m (m₁.clearComponentDepthLevel r) (l ++ [r])
    unfold clearComponentDepthLevel
    cases hd : m₁.data? r with
    | none =>
      refine ⟨ih.components, ih.isObject, ih.uniqueID, fun x hx => ?_⟩
      rcases List.mem_append.1 hx with hx | hx
      · exact ih.level x hx
      · rw [List.mem_singleton.1 hx, componentDepthLevel, hd]
        rfl
    | some d =>
      have hc : d.clearComponentDepthLevel.components = d.components := by cases d <;> rfl
      have ho : d.clearComponentDepthLevel.isObject = d.isObject := by cases d <;> rfl
      have hl : d.clearComponentDepthLevel.componentDepthLevel = 0 := by cases d <;> rfl
      refine ⟨fun x => (sameComponents_setData hd hc x).trans (ih.components x),
        fun x => (isObject_setData hd ho).trans (ih.isObject x),
        fun x => uniqueID?_setData.trans (ih.uniqueID x), fun x hx => ?_⟩
      change (m₁.setData r _).componentDepthLevel x = 0
      rw [componentDepthLevel_setData hd]
      split_ifs with hr
      · exact hl
      · rcases List.mem_append.1 hx with hx | hx
        · exact ih.level x hx
        · exact absurd (List.mem_singleton.1 hx).symm hr

theorem isObject_of_mem (h : x ∈ m.objects) : (m.data? x).any (·.isObject) = true :=
  (List.mem_filter.1 h).2

/-- **The levels** that objects are sorted by are those of their longest descents. -/
theorem calculateComponentDepthLevels_isGreatest (h : m.calculateComponentDepthLevels fuel = some m') :
    (∀ x ∈ m.objects, IsGreatest (levels m.References m.objects x) (m'.componentDepthLevel x)) ∧
      ∀ x, m'.uniqueID? x = m.uniqueID? x := by
  have hcl := cleared_foldl m.objects m
  set m₀ := m.objects.foldl clearComponentDepthLevel m
  let K (done : List ResourceRef) (x : ResourceRef) : Set Nat :=
    {k | ∃ r ∈ done, k ∈ levelsFrom m.References r 1 x}
  have hstep (done : List ResourceRef) (m₁ : Model) (r : ResourceRef) (m₂ : Model)
      (h₁ : Raised m₀ m₁ (K done)) (h₂ : calculateComponentDepthLevel fuel 1 r m₁ = some m₂) :
      Raised m₀ m₂ (K (done ++ [r])) := by
    have hv := calculateComponentDepthLevel_raised (by decide) h₂
    rw [h₁.components.references, hcl.components.references] at hv
    refine (h₁.trans hv).congr fun x => ?_
    ext k
    simp only [K, Set.mem_union, Set.mem_ofPred_eq, List.mem_append, List.mem_singleton,
      or_and_right, exists_or, exists_eq_left]
  have h₀ : Raised m₀ m₀ (K []) := Raised.refl m₀ fun x _ => by simp [K]
  have hr : Raised m₀ m' (K m.objects) := foldlM_some (fun done m₁ => Raised m₀ m₁ (K done))
    (fun done m₁ r m₂ _ => hstep done m₁ r m₂) h₀ h
  have hK (x : ResourceRef) : levels m.References m.objects x = K m.objects x := by
    ext k
    simp only [levels, K, levelsFrom, Set.mem_ofPred_eq]
  refine ⟨fun x hx => ?_, fun x => (hr.uniqueID x).trans (hcl.uniqueID x)⟩
  have hobj : (m₀.data? x).any (·.isObject) = true := (hcl.isObject x).trans (isObject_of_mem hx)
  rw [hK]
  refine ⟨?_, fun k hk => hr.reached x hobj k hk⟩
  rcases hr.level x with hl | hl
  · -- the object itself is visited, at level 1
    have hone := hr.reached x hobj 1 ⟨x, hx, 0, .refl x, rfl⟩
    rw [hl, hcl.level x hx] at hone
    omega
  · exact hl

/-! ## Where the levels exist -/

/-- No descent from an object of the model is infinite. -/
def Grounded (edge : ResourceRef → ResourceRef → Prop) (starts : List ResourceRef) : Prop :=
  ∀ r ∈ starts, Acc (fun o r => edge r o) r

theorem calculateComponentDepthLevel_returns_of_acc (h : Acc (fun o r => m.References r o) r) :
    ∃ n, ∀ fuel, n ≤ fuel → ∀ m', SameComponents m m' → ∀ level,
      (calculateComponentDepthLevel fuel level r m').isSome := by
  induction h with
  | intro r _ ih =>
    obtain ⟨n, hn⟩ := exists_depth _ fun c hc => ih c.object ⟨c, hc, rfl⟩
    refine ⟨n + 1, fun fuel hf m' hm level => ?_⟩
    obtain ⟨fuel, rfl⟩ : ∃ k, fuel = k + 1 := ⟨fuel - 1, by omega⟩
    refine calculateComponentDepthLevel_returns (fun o ho => ?_) hm level
    obtain ⟨c, hc, rfl⟩ := ho
    exact hn fuel (by omega) c hc

/-- **The levels are computed** exactly where no descent from an object is infinite. -/
theorem calculateComponentDepthLevels_isSome_iff :
    (∃ fuel m', m.calculateComponentDepthLevels fuel = some m') ↔
      Grounded m.References m.objects := by
  have hcl := cleared_foldl m.objects m
  constructor
  · intro ⟨fuel, m', h⟩ r hr
    have hstep := (foldlM_steps (fun m₁ => SameComponents m m₁) h hcl.components
      fun r _ m₁ m₂ h₁ h₂ x => (calculateComponentDepthLevel_same h₂ x).trans (h₁ x)).2 r hr
    obtain ⟨m₁, m₂, h₁, h₂⟩ := hstep
    rw [← h₁.references]
    exact acc_of_calculateComponentDepthLevel (by rw [h₂]; rfl)
  · intro hg
    obtain ⟨n, hn⟩ := exists_depth _ fun r hr => calculateComponentDepthLevel_returns_of_acc (hg r hr)
    obtain ⟨m', hm', -⟩ := foldlM_isSome (fun m₁ => SameComponents m m₁) hcl.components
      fun r hr m₁ h₁ => by
        obtain ⟨m₂, h₂⟩ := Option.isSome_iff_exists.1 (hn n le_rfl r hr m₁ h₁ 1)
        exact ⟨m₂, h₂, fun x => (calculateComponentDepthLevel_same h₂ x).trans (h₁ x)⟩
    exact ⟨n, m', hm'⟩

/-! ## The order of the objects -/

/-- `t` is written before `u`: its longest descent is longer, or as long and its ID is lower. -/
def Precedes (m : Model) (edge : ResourceRef → ResourceRef → Prop) (t u : ResourceRef) : Prop :=
  ∃ a b, IsGreatest (levels edge m.objects t) a ∧ IsGreatest (levels edge m.objects u) b ∧
    (b < a ∨ a = b ∧ (m.uniqueID? t).getD 0 < (m.uniqueID? u).getD 0)

/-- **The list of objects** holds two objects with different IDs in the order of their levels and
IDs, where it is computed. -/
theorem getSortedObjectList_iff (ht : t ∈ m.objects) (hu : u ∈ m.objects)
    (hne : (m.uniqueID? t).getD 0 ≠ (m.uniqueID? u).getD 0) :
    (∀ fuel l, m.getSortedObjectList fuel = some l → [t, u].Sublist l) ↔
      (Grounded m.References m.objects → m.Precedes m.References t u) := by
  have key (fuel : Nat) (m' : Model) (h : m.calculateComponentDepthLevels fuel = some m') :
      [t, u].Sublist (m.objects.mergeSort fun a b => ¬ m'.sortsBefore b a) ↔
        m.Precedes m.References t u := by
    obtain ⟨hgr, hid⟩ := calculateComponentDepthLevels_isGreatest h
    rw [pair_sublist_mergeSort_iff (fun r =>
      toLex (OrderDual.toDual (m'.componentDepthLevel r), (m.uniqueID? r).getD 0))
      (fun a b => ?_) ht hu (fun he => hne (congrArg (fun x => (ofLex x).2) he)), Prod.Lex.toLex_lt_toLex]
    · constructor
      · intro hlt
        refine ⟨_, _, hgr t ht, hgr u hu, ?_⟩
        rcases hlt with hlt | ⟨he, hlt⟩
        · exact .inl hlt
        · exact .inr ⟨he, hlt⟩
      · intro ⟨a, b, ha, hb, hlt⟩
        rw [(hgr t ht).unique ha, (hgr u hu).unique hb]
        exact hlt
    · rw [sortsBefore, Prod.Lex.toLex_lt_toLex, hid, hid]
      split_ifs with he
      · simp [he]
      · simp [he]
  constructor
  · intro h hg
    obtain ⟨fuel, m', hm'⟩ := calculateComponentDepthLevels_isSome_iff.2 hg
    refine (key fuel m' hm').1 (h fuel _ ?_)
    rw [getSortedObjectList, hm']
    rfl
  · intro h fuel l hl
    unfold getSortedObjectList at hl
    cases hm : m.calculateComponentDepthLevels fuel with
    | none => rw [hm] at hl; cases hl
    | some m' =>
      rw [hm] at hl
      cases hl
      exact (key fuel m' hm).2 (h (calculateComponentDepthLevels_isSome_iff.1 ⟨fuel, m', hm⟩))

end NMR.Model
