import Lib3MF.Lib.Run
import Lib3MF.Model.Classes.CompositeMaterials

/-!
# The constituents of composites

`Sound`: every constituent of a composite names a material of the base material group its resource
is on, in a ratio between 0 and 1. `addComposite` checks the constituents
(`checkComposite_eq_ok`), but a NaN passes the check of the ratio; `setComposite` checks nothing,
and `removeMaterial` does not look for the composites that use the material
(`sound_removeMaterial_iff`). `composites_sound_iff` says when a run keeps the composites sound.
-/

namespace NMR.ModelMaterials

open Lib

variable {s : ModelMaterials} {group resource id : Nat} {x : CompositeConstituent}

/-- The material a property ID names in a group. -/
def material? (s : ModelMaterials) (group id : Nat) : Option BaseMaterial :=
  (s.baseMaterialGroups[group]?).bind fun g => g.entries.find? id

/-- A ratio between 0 and 1. -/
def IsRatio (r : Double) : Prop := (Double.ofRat 0).le r ∧ r.le (.ofRat 1)

/-- What holds of a constituent of a composite on `group`. -/
def Mixes (s : ModelMaterials) (group : Nat) (x : CompositeConstituent) : Prop :=
  (s.material? group x.propertyID).isSome ∧ IsRatio x.mixingRatio

/-- The composites of a resource, as sound as they need be in `s`. -/
def SoundIn (s : ModelMaterials) (c : CompositeMaterials) : Prop :=
  ∀ id v, c.composites.entries.find? id = some v → ∀ x ∈ v, s.Mixes c.baseMaterialGroup x

/-- Every composite is made of materials of its group, in ratios between 0 and 1. -/
def Sound (s : ModelMaterials) : Prop := ∀ c ∈ s.compositeMaterials, s.SoundIn c

/-- A composite resource, with the base materials it is on. -/
def resource? (s : ModelMaterials) (resource : Nat) :
    Option (CompositeMaterials × PropertyGroup BaseMaterial) :=
  (s.compositeMaterials[resource]?).bind fun c =>
    (s.baseMaterialGroups[c.baseMaterialGroup]?).map fun g => (c, g)

/-- What a call must not do: remove a material that is used, store a composite whose ratio is a NaN,
or set one to what `addComposite` would refuse. -/
def Allowed (s : ModelMaterials) : MaterialCall → Prop
  | .removeMaterial group propertyID => ∀ c ∈ s.compositeMaterials, c.baseMaterialGroup = group →
    ∀ id v, c.composites.entries.find? id = some v → ∀ x ∈ v, x.propertyID ≠ propertyID
  | .addComposite resource v => ∀ c materials, s.resource? resource = some (c, materials) →
    c.composites.getCount < maxResourceIndex →
      c.composites.nextPropertyID ∉ c.composites.entries.keys →
        checkComposite materials v = .ok () → ∀ x ∈ v, x.mixingRatio.IsNumber
  | .setComposite resource propertyID v => ∀ c materials,
    s.resource? resource = some (c, materials) → propertyID ∈ c.composites.entries.keys →
      ∀ x ∈ v, s.Mixes c.baseMaterialGroup x
  | _ => True

/-! ## The checks -/

/-- **The check of a ratio** passes what is between 0 and 1, and a NaN. -/
theorem isRatio_iff (r : Double) :
    IsRatio r ↔ r.IsNumber ∧ ¬ (r.lt (.ofRat 0) ∨ (Double.ofRat 1).lt r) := by
  have h0 : (Double.ofRat 0).IsNumber := rfl
  have h1 : (Double.ofRat 1).IsNumber := rfl
  constructor
  · intro ⟨ha, hb⟩
    refine ⟨?_, ?_⟩
    · cases r with
      | none => exact hb.elim
      | some a => rfl
    · rintro (h | h)
      · exact Double.not_lt_of_le ha h
      · exact Double.not_lt_of_le hb h
  · intro ⟨hn, h⟩
    rw [not_or] at h
    exact ⟨Double.le_of_not_lt hn h0 h.1, Double.le_of_not_lt h1 hn h.2⟩

/-! ## Steps -/

theorem sound_new : Sound new := by simp [Sound, new]

/-- More materials do no harm. -/
theorem SoundIn.mono {s' : ModelMaterials} {c : CompositeMaterials}
    (h : ∀ group id, (s.material? group id).isSome → (s'.material? group id).isSome)
    (hc : s.SoundIn c) : s'.SoundIn c :=
  fun id v hv x hx => ⟨h _ _ (hc id v hv x hx).1, (hc id v hv x hx).2⟩

/-- A base material group replaced. -/
theorem material?_set (g : PropertyGroup BaseMaterial) (b k : Nat) :
    material? { s with baseMaterialGroups := s.baseMaterialGroups.set group g } b k =
      if b = group ∧ group < s.baseMaterialGroups.length then g.entries.find? k
      else s.material? b k := by
  unfold material?
  simp only [List.getElem?_set]
  by_cases hb : group = b
  · subst hb
    by_cases hlt : group < s.baseMaterialGroups.length
    · simp [hlt]
    · simp [hlt]
  · simp [hb, Ne.symm hb]

/-- **A material removed** leaves the composites sound exactly when none of them uses it. -/
theorem sound_removeMaterial_iff (hs : Sound s) {g : PropertyGroup BaseMaterial}
    (hg : s.baseMaterialGroups[group]? = some g) :
    Sound { s with baseMaterialGroups := s.baseMaterialGroups.set group (g.remove id) } ↔
      Allowed s (.removeMaterial group id) := by
  obtain ⟨hlt, -⟩ := List.getElem?_eq_some_iff.1 hg
  have hmaterial (b k : Nat) : (material? { s with
      baseMaterialGroups := s.baseMaterialGroups.set group (g.remove id) } b k).isSome ↔
        (s.material? b k).isSome ∧ ¬ (b = group ∧ k = id) := by
    rw [material?_set]
    by_cases hb : b = group
    · have hold : s.material? b k = g.entries.find? k := by
        unfold material?
        rw [hb, hg]
        rfl
      rw [if_pos ⟨hb, hlt⟩, hold]
      simp only [PropertyGroup.remove, SortedMap.find?_erase, hb, true_and]
      split_ifs with hk
      · simp [hk]
      · simp [hk]
    · rw [if_neg fun h => hb h.1]
      simp [hb]
  constructor
  · intro h c hc hb k v hv x hx he
    exact ((hmaterial _ _).1 (h c hc k v hv x hx).1).2 ⟨hb, he⟩
  · intro h c hc k v hv x hx
    obtain ⟨hm, hr⟩ := hs c hc k v hv x hx
    exact ⟨(hmaterial _ _).2 ⟨hm, fun ⟨hb, he⟩ => h c hc hb k v hv x hx he⟩, hr⟩

/-- The composites of a resource replaced. -/
theorem sound_setComposites_iff (hs : Sound s) {c : CompositeMaterials}
    (hc : s.compositeMaterials[resource]? = some c) (c' : CompositeMaterials) :
    Sound { s with compositeMaterials := s.compositeMaterials.set resource c' } ↔ s.SoundIn c' := by
  obtain ⟨hlt, -⟩ := List.getElem?_eq_some_iff.1 hc
  constructor
  · intro h
    exact h c' (List.mem_set hlt c')
  · intro h c₁ hc₁
    rcases List.mem_or_eq_of_mem_set hc₁ with h₁ | rfl
    · exact hs c₁ h₁
    · exact h

/-- A material added. -/
theorem sound_addMaterial (hs : Sound s) (group : Nat) (v : BaseMaterial) :
    Sound (s.next (.addMaterial group v)) := by
  unfold next step updateGroup
  cases hg : s.baseMaterialGroups[group]? with
  | none => simpa [hg, orThrow] using hs
  | some g =>
    cases ha : addBaseMaterial g v with
    | error e => simpa [hg, ha, orThrow, bind, Except.bind, Except.map] using hs
    | ok r =>
      obtain ⟨-, -, rfl⟩ := PropertyGroup.add_spec ha
      simp only [hg, ha, orThrow, bind, Except.bind, Except.map, pure, Except.pure]
      intro c hc
      apply (hs c hc).mono
      intro b k hk
      rw [material?_set]
      split_ifs with hb
      · have hold : g.entries.find? k = s.material? b k := by
          unfold material?
          rw [hb.1, hg]
          rfl
        simp only [SortedMap.find?_insert]
        split_ifs
        · rfl
        · rw [hold]
          exact hk
      · exact hk

theorem resource?_eq_some {c : CompositeMaterials} {materials : PropertyGroup BaseMaterial} :
    s.resource? resource = some (c, materials) ↔ s.compositeMaterials[resource]? = some c ∧
      s.baseMaterialGroups[c.baseMaterialGroup]? = some materials := by
  unfold resource?
  cases s.compositeMaterials[resource]? with
  | none => simp
  | some c' =>
    simp only [Option.bind_some, Option.map_eq_some_iff, Prod.mk.injEq, Option.some.injEq]
    constructor
    · rintro ⟨g, hg, rfl, rfl⟩
      exact ⟨rfl, hg⟩
    · rintro ⟨rfl, hg⟩
      exact ⟨_, hg, rfl, rfl⟩

/-- A call of a composite resource. -/
theorem updateComposites_eq {f : PropertyGroup BaseMaterial → PropertyGroup Composite →
    Except Error (PropertyGroup Composite)} :
    (orThrow s (s.updateComposites resource f)).1 = match s.resource? resource with
      | none => s
      | some (c, materials) => match f materials c.composites with
        | .error _ => s
        | .ok g => { s with compositeMaterials :=
            s.compositeMaterials.set resource { c with composites := g } } := by
  unfold updateComposites resource?
  cases s.compositeMaterials[resource]? with
  | none => rfl
  | some c =>
    simp only [Option.bind_some]
    cases s.baseMaterialGroups[c.baseMaterialGroup]? with
    | none => rfl
    | some materials =>
      simp only [Option.map_some]
      cases f materials c.composites <;> rfl

/-- A composite stored under a new ID, or in place of another. -/
theorem soundIn_iff {c : CompositeMaterials} (hc : s.SoundIn c) {g : PropertyGroup Composite}
    {v : Composite} (hfind : ∀ k, g.entries.find? k =
      if k = id then some v else c.composites.entries.find? k) :
    s.SoundIn { c with composites := g } ↔ ∀ x ∈ v, s.Mixes c.baseMaterialGroup x := by
  unfold SoundIn
  simp only [hfind]
  constructor
  · intro h x hx
    exact h id v (if_pos rfl) x hx
  · intro h k w hw
    split_ifs at hw with hk
    · rw [← Option.some.inj hw]
      exact h
    · exact hc k w hw

/-- A composite stored under an ID that is in use changes nothing. -/
theorem find?_insert_mem {m : SortedMap Nat Composite} (h : id ∈ m.keys) (v : Composite) (k : Nat) :
    (m.insert id v).find? k = m.find? k := by
  rw [SortedMap.find?_insert]
  split_ifs with hk
  · obtain ⟨w, hw⟩ := Option.isSome_iff_exists.1 (SortedMap.find?_isSome.2 h)
    rw [hk, hw]
    rfl
  · rfl

theorem sound_addComposite_iff (hs : Sound s) (v : Composite) :
    Sound (s.next (.addComposite resource v)) ↔ Allowed s (.addComposite resource v) := by
  simp only [next, step, updateComposites_eq, Allowed]
  cases hr : s.resource? resource with
  | none => simpa using hs
  | some r =>
    obtain ⟨c, materials⟩ := r
    obtain ⟨hc, hm⟩ := resource?_eq_some.1 hr
    have hsc := hs c (List.mem_of_getElem? hc)
    simp only [Option.some.injEq, Prod.mk.injEq, and_imp, forall_apply_eq_imp_iff, forall_eq']
    cases ha : addComposite materials c.composites v with
    | error e =>
      refine iff_of_true hs fun hcount _ hcheck => ?_
      have hok := c.composites.add_of_check .tooManyComposites (checkComposite materials) v hcount
        hcheck
      rw [addComposite, hok] at ha
      cases ha
    | ok r =>
      obtain ⟨hcount, hcheck, rfl⟩ := PropertyGroup.add_spec ha
      simp only [Except.map, hcount, hcheck, forall_const]
      rw [sound_setComposites_iff hs hc]
      by_cases hnew : c.composites.nextPropertyID ∈ c.composites.entries.keys
      · -- the counter has come round to an ID in use: nothing is stored
        refine iff_of_true (fun k w hw => ?_) fun h => absurd hnew h
        rw [find?_insert_mem hnew] at hw
        exact hsc k w hw
      · have hin : s.SoundIn ⟨c.baseMaterialGroup, c.composites.entries.insert
            c.composites.nextPropertyID v, (c.composites.nextPropertyID + 1) % 2 ^ 32⟩ ↔
            ∀ x ∈ v, s.Mixes c.baseMaterialGroup x :=
          soundIn_iff hsc fun k => by
            rw [SortedMap.find?_insert, SortedMap.find?_eq_none.2 hnew, Option.getD_none]
        rw [hin]
        simp only [hnew, not_false_iff, forall_const]
        apply forall₂_congr
        intro x hx
        obtain ⟨hfound, hratio⟩ := checkComposite_eq_ok.1 hcheck x hx
        unfold Mixes material?
        rw [hm, isRatio_iff]
        simp only [Option.bind_some, hfound, hratio, not_false_iff, and_true, true_and]

theorem sound_setComposite_iff (hs : Sound s) (v : Composite) :
    Sound (s.next (.setComposite resource id v)) ↔ Allowed s (.setComposite resource id v) := by
  simp only [next, step, updateComposites_eq, Allowed]
  cases hr : s.resource? resource with
  | none => simpa using hs
  | some r =>
    obtain ⟨c, materials⟩ := r
    obtain ⟨hc, -⟩ := resource?_eq_some.1 hr
    have hsc := hs c (List.mem_of_getElem? hc)
    simp only [Option.some.injEq, Prod.mk.injEq, and_imp, forall_apply_eq_imp_iff, forall_eq']
    by_cases hid : id ∈ c.composites.entries.keys
    · simp only [PropertyGroup.set, SortedMap.find?_isSome.2 hid, if_true, hid, forall_const]
      rw [sound_setComposites_iff hs hc]
      exact soundIn_iff hsc fun k => SortedMap.find?_set
    · have hnone : ¬ (c.composites.entries.find? id).isSome := by
        rw [SortedMap.find?_isSome]
        exact hid
      simp only [PropertyGroup.set, hnone, hid, false_imp_iff, iff_true]
      exact hs

theorem sound_removeComposite (hs : Sound s) (resource id : Nat) :
    Sound (s.next (.removeComposite resource id)) := by
  simp only [next, step, updateComposites_eq]
  cases hr : s.resource? resource with
  | none => exact hs
  | some r =>
    obtain ⟨c, materials⟩ := r
    obtain ⟨hc, -⟩ := resource?_eq_some.1 hr
    apply (sound_setComposites_iff hs hc _).2
    intro k w hw
    simp only [PropertyGroup.remove, SortedMap.find?_erase] at hw
    split_ifs at hw
    exact hs c (List.mem_of_getElem? hc) k w hw

theorem sound_addBaseMaterialGroup (hs : Sound s) : Sound (s.next .addBaseMaterialGroup) := by
  intro c hc
  apply (hs c hc).mono
  intro group id h
  unfold material? at h ⊢
  cases hg : s.baseMaterialGroups[group]? with
  | none =>
    rw [hg] at h
    cases h
  | some g =>
    obtain ⟨hlt, -⟩ := List.getElem?_eq_some_iff.1 hg
    rw [hg] at h
    simp only [next, step, List.getElem?_append_left hlt, hg]
    exact h

theorem sound_addCompositeMaterials (hs : Sound s) (group : Nat) :
    Sound (s.next (.addCompositeMaterials group)) := by
  unfold next step addCompositeMaterials
  simp only
  split_ifs with hg
  · intro c hc
    rcases List.mem_append.1 hc with h | h
    · exact hs c h
    · rw [List.mem_singleton.1 h]
      intro id v hv
      cases hv
  · exact hs

/-! ## Runs -/

/-- **A call keeps the composites sound** exactly when it is allowed. -/
theorem sound_next_iff (s : ModelMaterials) (c : MaterialCall) (hs : Sound s) :
    Sound (s.next c) ↔ Allowed s c := by
  cases c with
  | addBaseMaterialGroup => exact iff_of_true (sound_addBaseMaterialGroup hs) trivial
  | addMaterial group v => exact iff_of_true (sound_addMaterial hs group v) trivial
  | removeMaterial group id =>
    cases hg : s.baseMaterialGroups[group]? with
    | none =>
      have hstay : s.next (.removeMaterial group id) = s := by
        simp only [next, step, updateGroup, hg]
        rfl
      rw [hstay]
      refine iff_of_true hs fun c hc hb k v hv x hx => ?_
      have hm := (hs c hc k v hv x hx).1
      rw [hb, material?, hg] at hm
      cases hm
    | some g =>
      have hremove : s.next (.removeMaterial group id) = { s with
          baseMaterialGroups := s.baseMaterialGroups.set group (g.remove id) } := by
        simp only [next, step, updateGroup, hg]
        rfl
      rw [hremove]
      exact sound_removeMaterial_iff hs hg
  | addCompositeMaterials group => exact iff_of_true (sound_addCompositeMaterials hs group) trivial
  | addComposite resource v => exact sound_addComposite_iff hs v
  | setComposite resource id v => exact sound_setComposite_iff hs v
  | removeComposite resource id => exact iff_of_true (sound_removeComposite hs resource id) trivial

/-- **The composites are sound** in every state of a run on a new model exactly when the run removes
no material that is used, adds no composite with a NaN ratio, and sets none to what `addComposite`
would refuse. -/
theorem composites_sound_iff (calls : List MaterialCall) :
    (∀ s, Reaches next new calls s → Sound s) ↔ Guarded next Allowed new calls :=
  guarded_iff Sound sound_new sound_next_iff

/-- The only material of a composite, removed. -/
theorem used_material_removed : ¬ ∀ s, Reaches next new [.addBaseMaterialGroup, .addMaterial 0 ⟨"", 0⟩,
    .addCompositeMaterials 0, .addComposite 0 [⟨1, .ofRat 1⟩], .removeMaterial 0 1] s → Sound s := by
  intro h
  have hend := h _ (reaches_run _ _) ⟨0, _⟩ List.mem_cons_self 1 [⟨1, .ofRat 1⟩] rfl
    ⟨1, .ofRat 1⟩ List.mem_cons_self
  exact absurd hend.1 (by decide)

end NMR.ModelMaterials
