import Mathlib.Data.List.Perm.Basic
import Lib3MF.Lib.Run
import Lib3MF.Model.Classes.MultiPropertyLayers

/-!
# The restrictions on the layers of a multi-property group

`Restricted`: at most one layer refers to base or composite materials, at most one to a colour
group, none to a multi-property group, and every one to a resource of the model. `addLayer` checks
all of it (`restricted_addLayer`) and `setLayer` nothing (`restricted_set_iff`). The index checks
compare with the number of layers less one, which wraps where there are none
(`lastLayerIndex_lt_iff`). So a run keeps the restrictions and rejects every index past the end
exactly when each layer set fits the others and no layer of an empty group is accessed
(`layers_restricted_iff`).
-/

namespace NMR.LayeredGroup

open Lib

variable {g : LayeredGroup} {l : MultiPropertyLayer} {i : Nat} {index : UInt32}

/-- The layer refers to a base-material or composite resource. -/
def IsMaterial (g : LayeredGroup) (l : MultiPropertyLayer) : Prop :=
  g.kindOf l.resourceID = some .baseMaterials ∨ g.kindOf l.resourceID = some .compositeMaterials

/-- The layer refers to a colour group. -/
def IsColorGroup (g : LayeredGroup) (l : MultiPropertyLayer) : Prop :=
  g.kindOf l.resourceID = some .colorGroup

instance (g : LayeredGroup) : DecidablePred g.IsMaterial :=
  fun _ => inferInstanceAs (Decidable (_ ∨ _))

instance (g : LayeredGroup) : DecidablePred g.IsColorGroup :=
  fun _ => inferInstanceAs (Decidable (_ = _))

/-- The layer refers to a resource of the model that is no multi-property group. -/
def Refers (g : LayeredGroup) (l : MultiPropertyLayer) : Prop :=
  (g.classOf l.resourceID).isSome ∧ g.kindOf l.resourceID ≠ some .multiPropertyGroup

/-- The restrictions on the layers. -/
structure Restricted (g : LayeredGroup) : Prop where
  material : g.layers.countP (g.IsMaterial ·) ≤ 1
  colorGroup : g.layers.countP (g.IsColorGroup ·) ≤ 1
  refers : ∀ l ∈ g.layers, g.Refers l

/-- The layer may be put in place of layer `i`. -/
structure Fits (g : LayeredGroup) (i : Nat) (l : MultiPropertyLayer) : Prop where
  refers : g.Refers l
  material : g.IsMaterial l → ∀ l' ∈ g.layers.eraseIdx i, ¬ g.IsMaterial l'
  colorGroup : g.IsColorGroup l → ∀ l' ∈ g.layers.eraseIdx i, ¬ g.IsColorGroup l'

/-- An index past the end is rejected, and the group stays as it is. -/
def Rejects (g : LayeredGroup) (c : LayerCall) : Prop :=
  match c with
  | .getLayer index | .setLayer index _ | .removeLayer index =>
    g.layers.length ≤ index.toNat → ∃ e, g.step c = (g, .throws e)
  | _ => True

/-- What a call must not do: access a layer of an empty group, or set one that does not fit. -/
def Allowed (g : LayeredGroup) : LayerCall → Prop
  | .getLayer _ | .removeLayer _ => g.layers ≠ []
  | .setLayer index l => g.layers ≠ [] ∧ (index.toNat < g.layers.length → g.Fits index.toNat l)
  | _ => True

/-! ## The checks -/

/-- **The index check** rejects what is past the end, where there is a layer. -/
theorem lastLayerIndex_lt_iff (layers : List MultiPropertyLayer) (index : UInt32)
    (h : layers.length ≤ index.toNat) : lastLayerIndex layers < index.toNat ↔ layers ≠ [] := by
  have hi := index.toNat_lt
  unfold lastLayerIndex
  cases layers with
  | nil =>
    simp only [List.length_nil, if_true, ne_eq, not_true, iff_false]
    omega
  | cons l layers =>
    simp only [List.length_cons, Nat.add_one_ne_zero, if_false, ne_eq, reduceCtorEq,
      not_false_iff, iff_true] at h ⊢
    omega

theorem restricted_new (classOf : Nat → Option ResourceClass) : Restricted (new classOf) :=
  ⟨by simp [new], by simp [new], by simp [new]⟩

/-- Removing layers keeps the restrictions. -/
theorem Restricted.sublist (hg : Restricted g) {layers : List MultiPropertyLayer}
    (h : layers.Sublist g.layers) : Restricted { g with layers := layers } :=
  ⟨h.countP_le.trans hg.material, h.countP_le.trans hg.colorGroup,
    fun l hl => hg.refers l (h.subset hl)⟩

/-- A resource added to the model is none that a layer refers to. -/
theorem restricted_addResource (hg : Restricted g) (uniqueID : Nat) (c : ResourceClass) :
    Restricted (g.addResource uniqueID c) := by
  unfold addResource
  split_ifs with hid
  · exact hg
  -- what a layer refers to is there already
  have hsame : ∀ l ∈ g.layers,
      (if l.resourceID = uniqueID then some c else g.classOf l.resourceID) =
        g.classOf l.resourceID := by
    intro l hl
    apply if_neg
    intro he
    rw [← he] at hid
    exact hid (hg.refers l hl).1
  refine ⟨?_, ?_, fun l hl => ?_⟩
  · rw [← List.countP_congr (p := fun l => decide (g.IsMaterial l))]
    · exact hg.material
    · intro l hl
      rw [decide_eq_true_iff, decide_eq_true_iff]
      simp only [IsMaterial, kindOf, hsame l hl]
  · rw [← List.countP_congr (p := fun l => decide (g.IsColorGroup l))]
    · exact hg.colorGroup
    · intro l hl
      rw [decide_eq_true_iff, decide_eq_true_iff]
      simp only [IsColorGroup, kindOf, hsame l hl]
  · have h := hg.refers l hl
    simpa only [Refers, kindOf, hsame l hl] using h

/-- **A layer set keeps the restrictions** exactly when it fits the others. -/
theorem restricted_set_iff (hg : Restricted g) (hi : i < g.layers.length) :
    Restricted { g with layers := g.layers.set i l } ↔ g.Fits i l := by
  have hperm := List.set_perm_cons_eraseIdx hi l
  have hcount (p : MultiPropertyLayer → Prop) [DecidablePred p]
      (h : g.layers.countP (p ·) ≤ 1) :
      (g.layers.set i l).countP (p ·) ≤ 1 ↔ (p l → ∀ l' ∈ g.layers.eraseIdx i, ¬ p l') := by
    have hle : (g.layers.eraseIdx i).countP (p ·) ≤ 1 :=
      (List.eraseIdx_sublist g.layers i).countP_le.trans h
    rw [hperm.countP_eq, List.countP_cons]
    by_cases hp : p l
    · rw [if_pos (decide_eq_true hp)]
      simp only [hp, forall_const]
      rw [show (g.layers.eraseIdx i).countP (p ·) + 1 ≤ 1 ↔
        (g.layers.eraseIdx i).countP (p ·) = 0 by omega, List.countP_eq_zero]
      simp
    · rw [if_neg (by simpa using hp)]
      simpa [hp] using hle
  have hrefers : (∀ l' ∈ g.layers.set i l, g.Refers l') ↔ g.Refers l := by
    simp only [hperm.mem_iff, List.forall_mem_cons]
    exact and_iff_left fun l' hl' => hg.refers l' (List.mem_of_mem_eraseIdx hl')
  constructor
  · intro ⟨hm, hc, hr⟩
    exact ⟨hrefers.1 hr, (hcount _ hg.material).1 hm, (hcount _ hg.colorGroup).1 hc⟩
  · intro ⟨hr, hm, hc⟩
    exact ⟨(hcount _ hg.material).2 hm, (hcount _ hg.colorGroup).2 hc, hrefers.2 hr⟩

/-- A layer behind the others. -/
theorem restricted_append (hg : Restricted g) (hr : g.Refers l)
    (hm : g.IsMaterial l → ∀ l' ∈ g.layers, ¬ g.IsMaterial l')
    (hc : g.IsColorGroup l → ∀ l' ∈ g.layers, ¬ g.IsColorGroup l') :
    Restricted { g with layers := g.layers ++ [l] } := by
  have hcount (p : MultiPropertyLayer → Prop) [DecidablePred p]
      (hle : g.layers.countP (p ·) ≤ 1) (h : p l → ∀ l' ∈ g.layers, ¬ p l') :
      (g.layers ++ [l]).countP (p ·) ≤ 1 := by
    rw [List.countP_append, List.countP_singleton]
    by_cases hp : p l
    · rw [List.countP_eq_zero.2 (by simpa using h hp), if_pos (decide_eq_true hp)]
    · rw [if_neg (by simpa using hp)]
      exact hle
  refine ⟨hcount _ hg.material hm, hcount _ hg.colorGroup hc, fun l' hl' => ?_⟩
  rcases List.mem_append.1 hl' with h | h
  · exact hg.refers l' h
  · rw [List.mem_singleton.1 h]
    exact hr

/-- **`addLayer` keeps the restrictions.** -/
theorem restricted_addLayer (hg : Restricted g) {layers : List MultiPropertyLayer}
    (h : addLayer g.kindOf g.layers l = .ok layers) : Restricted { g with layers := layers } := by
  have hfound {k : PropertyResourceKind} (hk : g.kindOf l.resourceID = some k) :
      (g.classOf l.resourceID).isSome := by
    unfold kindOf at hk
    cases hc : g.classOf l.resourceID with
    | none => rw [hc] at hk; cases hk
    | some c => rfl
  have hrefers {k : PropertyResourceKind} (hk : g.kindOf l.resourceID = some k)
      (hne : k ≠ .multiPropertyGroup) : g.Refers l := by
    refine ⟨hfound hk, ?_⟩
    rw [hk, Ne, Option.some.injEq]
    exact hne
  unfold addLayer at h
  simp only at h
  split at h
  · cases h
  · cases h
  · rename_i hk
    rw [← Except.ok.inj h]
    exact restricted_append hg (hrefers hk nofun) (by simp [IsMaterial, hk])
      (by simp [IsColorGroup, hk])
  · rename_i hk
    split_ifs at h with hany
    rw [← Except.ok.inj h]
    refine restricted_append hg (hrefers hk nofun) (fun _ => ?_) (by simp [IsColorGroup, hk])
    simpa [IsMaterial] using hany
  · rename_i hk
    split_ifs at h with hany
    rw [← Except.ok.inj h]
    refine restricted_append hg (hrefers hk nofun) (fun _ => ?_) (by simp [IsColorGroup, hk])
    simpa [IsMaterial] using hany
  · rename_i hk
    split_ifs at h with hany
    rw [← Except.ok.inj h]
    refine restricted_append hg (hrefers hk nofun) (by simp [IsMaterial, hk]) (fun _ => ?_)
    simpa [IsColorGroup] using hany

/-! ## Runs -/

theorem getLayer_past (hi : g.layers.length ≤ index.toNat) : getLayer g.layers index =
    if lastLayerIndex g.layers < index.toNat then .throws .invalidIndex else .undefined := by
  unfold getLayer
  rw [List.getElem?_eq_none hi]

theorem setLayer_past (hi : g.layers.length ≤ index.toNat) : setLayer g.layers index l =
    if lastLayerIndex g.layers < index.toNat then .throws .invalidIndex else .undefined := by
  unfold setLayer
  rw [if_neg (not_lt.2 hi)]

theorem removeLayer_past (hi : g.layers.length ≤ index.toNat) : removeLayer g.layers index =
    if lastLayerIndex g.layers < index.toNat then .throws .invalidIndex else .undefined := by
  unfold removeLayer
  rw [if_neg (not_lt.2 hi)]

/-- **An index past the end is rejected** exactly when the group has a layer. -/
theorem rejects_iff (g : LayeredGroup) (c : LayerCall) :
    Rejects g c ↔ match c with
      | .getLayer index | .setLayer index _ | .removeLayer index =>
        g.layers.length ≤ index.toNat → g.layers ≠ []
      | _ => True := by
  cases c with
  | addResource uniqueID c => exact Iff.rfl
  | addLayer l => exact Iff.rfl
  | getLayer index =>
    apply forall_congr'
    intro hi
    rw [step, getLayer_past hi, ← lastLayerIndex_lt_iff _ _ hi]
    split_ifs with h <;> simp [h]
  | setLayer index l =>
    apply forall_congr'
    intro hi
    rw [step, setLayer_past hi, ← lastLayerIndex_lt_iff _ _ hi]
    split_ifs with h <;> simp [write, h]
  | removeLayer index =>
    apply forall_congr'
    intro hi
    rw [step, removeLayer_past hi, ← lastLayerIndex_lt_iff _ _ hi]
    split_ifs with h <;> simp [write, h]

/-- An index of a layer passes the check. -/
theorem lastLayerIndex_of_lt {layers : List MultiPropertyLayer} (hi : index.toNat < layers.length) :
    ¬ lastLayerIndex layers < index.toNat := by
  unfold lastLayerIndex
  rw [if_neg (by omega)]
  omega

/-- No layers, and the first index past the end. -/
theorem past_iff (index : UInt32) :
    (g.layers.length ≤ index.toNat → g.layers ≠ []) ↔ g.layers ≠ [] := by
  refine ⟨fun h he => ?_, fun h _ => h⟩
  apply h _ he
  rw [he]
  exact Nat.zero_le _

theorem next_getLayer (g : LayeredGroup) (index : UInt32) : g.next (.getLayer index) = g := by
  rw [next, step]
  split <;> rfl

theorem restricted_removeLayer (hg : Restricted g) (index : UInt32) :
    Restricted (g.next (.removeLayer index)) := by
  by_cases hi : index.toNat < g.layers.length
  · have hremove : removeLayer g.layers index = .ok (g.layers.eraseIdx index.toNat) := by
      rw [removeLayer, if_neg (lastLayerIndex_of_lt hi), if_pos hi]
    simp only [next, step, hremove, write]
    exact hg.sublist (List.eraseIdx_sublist ..)
  · have hstay : g.next (.removeLayer index) = g := by
      rw [next, step, removeLayer_past (not_lt.1 hi)]
      split_ifs <;> rfl
    rw [hstay]
    exact hg

/-- **A call keeps the restrictions and rejects indices past the end** exactly when it is
allowed. -/
theorem restricted_next_iff (g : LayeredGroup) (c : LayerCall) (hg : Restricted g) :
    Restricted (g.next c) ∧ Rejects g c ↔ Allowed g c := by
  rw [rejects_iff]
  cases c with
  | addResource uniqueID c =>
    exact iff_of_true ⟨restricted_addResource hg uniqueID c, trivial⟩ trivial
  | addLayer l =>
    refine iff_of_true ⟨?_, trivial⟩ trivial
    unfold next step
    simp only
    cases h : addLayer g.kindOf g.layers l with
    | error e => exact hg
    | ok layers => exact restricted_addLayer hg h
  | getLayer index =>
    rw [next_getLayer, and_iff_right hg]
    exact past_iff index
  | setLayer index l =>
    apply (and_congr Iff.rfl (past_iff index)).trans
    rw [and_comm]
    apply and_congr_right
    intro _
    by_cases hi : index.toNat < g.layers.length
    · have hset : setLayer g.layers index l = .ok (g.layers.set index.toNat l) := by
        rw [setLayer, if_neg (lastLayerIndex_of_lt hi), if_pos hi]
      simp only [next, step, hset, write, hi, forall_const]
      exact restricted_set_iff hg hi
    · have hstay : g.next (.setLayer index l) = g := by
        rw [next, step, setLayer_past (not_lt.1 hi)]
        split_ifs <;> rfl
      rw [hstay]
      exact iff_of_true hg fun h => absurd h hi
  | removeLayer index =>
    rw [and_iff_right (restricted_removeLayer hg index)]
    exact past_iff index

/-- **The restrictions hold** in every state of a run on a new group, and every index past the end
is rejected, exactly when each layer set fits the others and no layer of an empty group is
accessed. -/
theorem layers_restricted_iff (classOf : Nat → Option ResourceClass) (calls : List LayerCall) :
    (∀ g, Reaches next (new classOf) calls g → Restricted g) ∧
        Guarded next Rejects (new classOf) calls ↔
      Guarded next Allowed (new classOf) calls :=
  guarded_and_iff Restricted (restricted_new classOf) restricted_next_iff

/-- Two resources, both base materials. -/
def twoMaterials (uniqueID : Nat) : Option ResourceClass :=
  if uniqueID = 1 ∨ uniqueID = 2 then some (some .baseMaterials)
  else if uniqueID = 3 then some (some .texture2DGroup) else none

/-- A second layer of base materials, set in place of a texture layer. -/
theorem second_material_set :
    ¬ ((∀ g, Reaches next (new twoMaterials)
          [.addLayer ⟨1, .mix⟩, .addLayer ⟨3, .mix⟩, .setLayer 1 ⟨2, .mix⟩] g → Restricted g) ∧
        Guarded next Rejects (new twoMaterials)
          [.addLayer ⟨1, .mix⟩, .addLayer ⟨3, .mix⟩, .setLayer 1 ⟨2, .mix⟩]) := by
  intro ⟨h, _⟩
  have hend := (h _ (reaches_run _ _)).material
  exact absurd hend (by decide)

end NMR.LayeredGroup
