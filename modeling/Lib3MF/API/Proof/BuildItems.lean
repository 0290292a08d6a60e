import Lib3MF.API.BuildItems
import Lib3MF.Model.Proof.Merge
import Lib3MF.Model.Proof.Store

/-!
# The handles of build items

`RemoveBuildItem` takes the first item that has the handle, which is the item it is given where the
handles are distinct (`removesExactly_of_distinct`). A handle drawn from the model's own counter is
larger than those drawn before (`handlesDrawn_next`), but `MergeToModel` gives the item of the new
model a handle of the source. So the handles stay distinct exactly when no item is added while the
counter of its model stands at the handle of another item (`buildItems_iff`).
-/

namespace NMR

open Lib

namespace Model

variable {m m' : Model} {c : Call} {handle : Nat}

/-- The handles of the build items. -/
def handles (m : Model) : List Nat := m.buildItems.map BuildItem.handle

/-- Removing an item of the model removes that item and no other. -/
def RemovesExactly (m : Model) : Prop :=
  ∀ i b, m.buildItems[i]? = some b →
    m.removeBuildItem b.handle = .ok { m with buildItems := m.buildItems.eraseIdx i }

/-- All handles are drawn from the model's own counter. -/
def HandlesDrawn (m : Model) : Prop := ∀ h ∈ m.handles, h < m.handleCounter

/-- The next handle is no item's, where a call adds one. -/
def HandleFree (m : Model) : Call → Prop
  | .addBuildItem objectID _ => ∀ r, m.findObject objectID = .ok (some r) →
    m.handleCounter < maxHandle → m.buildItems.length < maxBuildItemCount →
      m.handleCounter ∉ m.handles
  | _ => True

/-! ## Removing -/

theorem eraseP_handle {l : List BuildItem} {b : BuildItem} {i : Nat}
    (h : (l.map BuildItem.handle).Nodup) (hi : l[i]? = some b) :
    l.eraseP (fun x => x.handle = b.handle) = l.eraseIdx i := by
  induction l generalizing i with
  | nil => cases hi
  | cons a l ih =>
    rw [List.map_cons, List.nodup_cons] at h
    cases i with
    | zero =>
      obtain rfl := Option.some.inj hi
      rw [List.eraseP_cons_of_pos (by simp), List.eraseIdx_cons_zero]
    | succ i =>
      rw [List.getElem?_cons_succ] at hi
      have hne : a.handle ≠ b.handle := by
        intro he
        apply h.1
        rw [he]
        exact List.mem_map_of_mem (List.mem_of_getElem? hi)
      rw [List.eraseP_cons_of_neg (by simpa using hne), List.eraseIdx_cons_succ, ih h.2 hi]

/-- **Where the handles are distinct**, removing an item removes exactly that one. -/
theorem removesExactly_of_distinct (h : m.handles.Nodup) : m.RemovesExactly := by
  intro i b hi
  have hany : m.buildItems.any (fun x => x.handle = b.handle) := by
    rw [List.any_eq_true]
    exact ⟨b, List.mem_of_getElem? hi, by simp⟩
  unfold removeBuildItem
  rw [if_pos hany, eraseP_handle h hi]

/-- Removing an item leaves the handles of the others. -/
theorem removeBuildItem_spec (h : m.removeBuildItem handle = .ok m') :
    m'.handles.Sublist m.handles ∧ m'.handleCounter = m.handleCounter := by
  unfold removeBuildItem at h
  split_ifs at h
  cases h
  exact ⟨List.eraseP_sublist.map _, rfl⟩

/-! ## Calls of a session -/

/-- Nothing changes in the build items and the counter. -/
def SameItems (m m' : Model) : Prop :=
  m'.buildItems = m.buildItems ∧ m'.handleCounter = m.handleCounter

theorem sameItems_addNew (m : Model) (id : Nat) (new : NewResource) :
    m.SameItems (m.addNew id new).1 := by
  unfold addNew
  cases hc : m.construct id new.data with
  | error e => exact ⟨rfl, rfl⟩
  | ok x =>
    obtain ⟨m₁, r⟩ := x
    obtain ⟨hd, p, -, -, rfl⟩ := construct_spec hc
    dsimp only
    rcases orThrow_fst _ (addResource { m with
      resourceHandler := hd, store := m.store ++ [⟨p, new.data⟩] } r) with h | ⟨m', h, he⟩
    · rw [h]
      exact ⟨rfl, rfl⟩
    · rw [he]
      unfold addResource at h
      split at h
      · cases h
      · rename_i res _
        dsimp only at h
        split_ifs at h
        cases h
        cases res.data <;> exact ⟨rfl, rfl⟩

/-- Only two calls change the build items. -/
theorem sameItems_next (m : Model) (hc : c ≠ .clearAll) (hb : ∀ id t, c ≠ .addBuildItem id t) :
    m.SameItems (m.next c) := by
  by_cases he : IsEdit c
  · rcases edit_next m he with h | ⟨r, d, d', -, -, h⟩
    · rw [h]
      exact ⟨rfl, rfl⟩
    · rw [h]
      exact ⟨rfl, rfl⟩
  cases c with
  | clearAll => exact absurd rfl hc
  | addBuildItem objectID t => exact absurd rfl (hb objectID t)
  | setCurPath path => exact ⟨rfl, rfl⟩
  | setRootPath path => exact ⟨rfl, rfl⟩
  | construct id new =>
    simp only [next, step]
    cases hn : m.construct id new.data with
    | error e => exact ⟨rfl, rfl⟩
    | ok x =>
      obtain ⟨hd, p, -, -, he⟩ := construct_spec hn
      simp only [Except.map, orThrow, he]
      exact ⟨rfl, rfl⟩
  | readResource id new => exact sameItems_addNew m id new
  | add new => exact sameItems_addNew m m.generateResourceID new
  | _ => exact absurd trivial he

/-- `AddBuildItem` adds no item, or one with the next handle. -/
theorem addBuildItem_next (m : Model) (objectID : Nat) (t : Matrix3) :
    (m.next (.addBuildItem objectID t)).buildItems = m.buildItems ∧
        m.handleCounter ≤ (m.next (.addBuildItem objectID t)).handleCounter ∧
        m.HandleFree (.addBuildItem objectID t) ∨
      ∃ r, m.findObject objectID = .ok (some r) ∧ m.handleCounter < maxHandle ∧
        m.buildItems.length < maxBuildItemCount ∧
        (m.next (.addBuildItem objectID t)).buildItems =
          m.buildItems ++ [⟨r, t, m.handleCounter⟩] ∧
        (m.next (.addBuildItem objectID t)).handleCounter = m.handleCounter + 1 := by
  unfold next step apiAddBuildItem HandleFree
  simp only
  cases hf : m.findObject objectID with
  | error e => exact .inl ⟨rfl, le_rfl, nofun⟩
  | ok o =>
    cases o with
    | none => exact .inl ⟨rfl, le_rfl, nofun⟩
    | some r =>
      unfold createHandle addBuildItem
      by_cases hh : maxHandle ≤ m.handleCounter
      · rw [if_pos hh]
        exact .inl ⟨rfl, le_rfl, fun _ _ hlt => absurd hh (not_le.2 hlt)⟩
      · rw [if_neg hh]
        simp only
        by_cases hb : maxBuildItemCount ≤ m.buildItems.length
        · rw [if_pos hb]
          exact .inl ⟨rfl, Nat.le_succ _, fun _ _ _ hlt => absurd hb (not_le.2 hlt)⟩
        · rw [if_neg hb]
          exact .inr ⟨r, rfl, not_le.1 hh, not_le.1 hb, rfl, rfl⟩

/-- **A call keeps the handles distinct** exactly when it adds no item whose handle is in use. -/
theorem distinct_next_iff (hm : m.handles.Nodup) (c : Call) :
    (m.next c).handles.Nodup ↔ m.HandleFree c := by
  by_cases hc : c = .clearAll
  · subst hc
    exact iff_of_true List.nodup_nil trivial
  by_cases hb : ∃ id t, c = .addBuildItem id t
  · obtain ⟨id, t, rfl⟩ := hb
    rcases m.addBuildItem_next id t with ⟨hitems, -, hfree⟩ | ⟨r, hr, hh, hn, hitems, -⟩
    · refine iff_of_true ?_ hfree
      rw [handles, hitems]
      exact hm
    · have hlist : (m.next (.addBuildItem id t)).handles = m.handles ++ [m.handleCounter] := by
        rw [handles, hitems, List.map_append]
        rfl
      rw [hlist, ← List.concat_eq_append, List.nodup_concat]
      constructor
      · intro h _ _ _ _
        exact h.1
      · intro h
        exact ⟨h r hr hh hn, hm⟩
  · push Not at hb
    obtain ⟨hitems, -⟩ := m.sameItems_next hc hb
    refine iff_of_true ?_ ?_
    · rw [handles, hitems]
      exact hm
    · cases c <;> first | exact trivial | exact absurd rfl (hb _ _)

/-- **Handles drawn from the counter** stay below it, so the next one is free. -/
theorem handlesDrawn_next (hm : m.HandlesDrawn) (c : Call) :
    (m.next c).HandlesDrawn ∧ m.HandleFree c := by
  have hfree : m.HandleFree c := by
    cases c with
    | addBuildItem id t => exact fun _ _ _ _ h => absurd (hm _ h) (lt_irrefl _)
    | _ => trivial
  refine ⟨?_, hfree⟩
  by_cases hc : c = .clearAll
  · subst hc
    exact fun h hh => absurd hh List.not_mem_nil
  by_cases hb : ∃ id t, c = .addBuildItem id t
  · obtain ⟨id, t, rfl⟩ := hb
    intro h hh
    rcases m.addBuildItem_next id t with ⟨hitems, hle, -⟩ | ⟨r, -, -, -, hitems, hcount⟩
    · rw [handles, hitems] at hh
      exact (hm h hh).trans_le hle
    · rw [handles, hitems, List.map_append, List.mem_append] at hh
      rw [hcount]
      rcases hh with hh | hh
      · exact (hm h hh).trans (Nat.lt_succ_self _)
      · rw [List.map_singleton, List.mem_singleton] at hh
        rw [hh]
        exact Nat.lt_succ_self _
  · push Not at hb
    obtain ⟨hitems, hcount⟩ := m.sameItems_next hc hb
    intro h hh
    rw [handles, hitems] at hh
    rw [hcount]
    exact hm h hh

end Model

namespace Models

variable {w : Models} {model : Nat}

/-- The handles of the items of each model are distinct, and removing an item removes that one. -/
def Sound (w : Models) : Prop := ∀ m ∈ w, m.handles.Nodup ∧ m.RemovesExactly

/-- What a call must not do: add an item while the counter stands at the handle of another. -/
def Allowed (w : Models) : BuildCall → Prop
  | .call model c => ∀ m, w[model]? = some m → m.HandleFree c
  | _ => True

theorem sound_iff : Sound w ↔ ∀ m ∈ w, m.handles.Nodup :=
  forall₂_congr fun _ _ => and_iff_left_of_imp Model.removesExactly_of_distinct

/-- One of the models changed. -/
theorem sound_modify_iff (hw : Sound w) (f : Model → Model) :
    Sound (w.modify model f) ↔ ∀ m, w[model]? = some m → (f m).handles.Nodup := by
  rw [sound_iff] at hw ⊢
  constructor
  · intro h m hm
    apply h
    rw [List.mem_iff_getElem?]
    exact ⟨model, by rw [List.getElem?_modify_eq, hm]; rfl⟩
  · intro h m' hm'
    obtain ⟨i, hi⟩ := List.mem_iff_getElem?.1 hm'
    rw [List.getElem?_modify] at hi
    obtain ⟨m, hm, rfl⟩ := Option.map_eq_some_iff.1 hi
    split_ifs with he
    · exact h m (by rw [he]; exact hm)
    · exact hw m (List.mem_of_getElem? hm)

/-- A function that leaves some of the items. -/
theorem sound_update (hw : Sound w) {f : Model → Except Error Model}
    (hf : ∀ m m', f m = .ok m' → m'.handles.Sublist m.handles) : Sound (w.update model f) := by
  apply (sound_modify_iff hw _).2
  intro m hm
  have hm := (hw m (List.mem_of_getElem? hm)).1
  cases h : f m with
  | error e => exact hm
  | ok m' => exact hm.sublist (hf m m' h)

/-- The source of a merge keeps its items; the new model has one. -/
theorem mergeToModel_handles {m : Model} {uninit : FaceProperties} {fuel : Nat}
    {out : Model.MergeResult} (h : (m.mergeToModel uninit fuel).run = some (.ok out)) :
    out.source.handles = m.handles ∧ out.target.handles = [m.handleCounter] := by
  obtain ⟨mesh, -, h⟩ := run_bind_eq_ok.1 h
  change some (m.mergeMeshToModel mesh) = _ at h
  have h := Option.some.inj h
  obtain ⟨mesh', b, -, hitems, -⟩ := (Model.mergeMeshToModel_spec h).mesh
  simp only [Model.mergeMeshToModel, bind_eq_ok, pure_eq_ok] at h
  obtain ⟨_, -, _, -, _, -, m₂, -, ⟨source, handle⟩, hdraw, m₃, hb, rfl⟩ := h
  unfold Model.createHandle at hdraw
  split_ifs at hdraw
  cases hdraw
  unfold Model.addBuildItem at hb
  split_ifs at hb
  cases hb
  refine ⟨rfl, ?_⟩
  have hempty : m₂.buildItems = [] := by
    have hlen := congrArg List.length hitems
    rw [List.length_append, List.length_singleton, List.length_singleton] at hlen
    exact List.eq_nil_of_length_eq_zero (by omega)
  show (m₂.buildItems ++ _).map _ = _
  rw [hempty]
  rfl

theorem sound_mergeToModel (hw : Sound w) (model : Nat) (uninit : FaceProperties) (fuel : Nat) :
    Sound (w.mergeToModel model uninit fuel) := by
  unfold mergeToModel
  cases hm : w[model]? with
  | none => exact hw
  | some m =>
    dsimp only
    split
    · rename_i out hout
      obtain ⟨hsource, htarget⟩ := mergeToModel_handles hout
      rw [sound_iff] at hw ⊢
      intro m' hm'
      rcases List.mem_append.1 hm' with h | h
      · rcases List.mem_or_eq_of_mem_set h with h | rfl
        · exact hw m' h
        · rw [hsource]
          exact hw m (List.mem_of_getElem? hm)
      · rw [List.mem_singleton.1 h, htarget]
        exact List.nodup_singleton _
    · exact hw

theorem sound_createModel (hw : Sound w) : Sound (w ++ [.new]) := by
  rw [sound_iff] at hw ⊢
  intro m hm
  rcases List.mem_append.1 hm with h | h
  · exact hw m h
  · rw [List.mem_singleton.1 h]
    exact List.nodup_nil

/-- **A call keeps the handles distinct** exactly when it is allowed. -/
theorem sound_next_iff (w : Models) (c : BuildCall) (hw : Sound w) :
    Sound (w.next c) ↔ Allowed w c := by
  cases c with
  | createModel => exact iff_of_true (sound_createModel hw) trivial
  | call model c =>
    apply (sound_modify_iff hw _).trans
    apply forall₂_congr
    intro m hm
    exact Model.distinct_next_iff (hw m (List.mem_of_getElem? hm)).1 c
  | drawHandle model =>
    refine iff_of_true (sound_update hw fun m m' h => ?_) trivial
    unfold Model.createHandle at h
    by_cases hc : maxHandle ≤ m.handleCounter
    · rw [if_pos hc] at h
      cases h
    · rw [if_neg hc] at h
      cases h
      exact List.Sublist.refl m.handles
  | removeBuildItem model handle =>
    exact iff_of_true (sound_update hw fun m m' h => (Model.removeBuildItem_spec h).1) trivial
  | mergeToModel model uninit fuel =>
    exact iff_of_true (sound_mergeToModel hw model uninit fuel) trivial

/-- **The handles are distinct and removal is exact** in every state of a run exactly when no item
is added while the counter of its model stands at the handle of another item. -/
theorem buildItems_iff (calls : List BuildCall) :
    (∀ w, Reaches next [] calls w → Sound w) ↔ Guarded next Allowed [] calls :=
  guarded_iff Sound (fun _ hm => absurd hm List.not_mem_nil) sound_next_iff

/-- A merged model, and an item added to it. -/
theorem merged_handle_drawn_twice : ¬ ∀ w, Reaches next [] [.createModel,
    .mergeToModel 0 .invalid 1, .call 1 (.addBuildItem 1 .identity)] w → Sound w := by
  intro h
  have hend := sound_iff.1 (h _ (reaches_run _ _))
  exact absurd (hend _ (List.mem_cons_of_mem _ List.mem_cons_self)) (by decide)

end Models

end NMR
