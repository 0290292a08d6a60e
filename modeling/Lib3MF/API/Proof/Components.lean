import Lib3MF.Lib.Traverse
import Lib3MF.Model.Classes.ModelObject
import Lib3MF.Model.Proof.Store

/-!
# Components never close a cycle, unless a call makes them

`References m r o`: the components object `r` has `o` as a component. A call adds at most one
such edge (`references_next`), and a recursion over components ends for every object exactly when
descents along the edges are finite (`componentsTerminate_iff`). `addComponent` only refuses an
object as its own component, so a session keeps its graph acyclic exactly when no call adds an
object that already leads back to the components object (`components_acyclic_iff`); two objects
added to each other are the smallest session that does not (`components_cycle`).
-/

namespace NMR.Model

open Lib

/-- The components of a resource. -/
def components (m : Model) (r : ResourceRef) : List Component :=
  ((m.data? r).map (·.components)).getD []

/-- `r` is a components object with the component `o`. -/
def References (m : Model) (r o : ResourceRef) : Prop := ∃ c ∈ m.components r, c.object = o

/-- The recursions over components return for every object: some recursion depth is enough. -/
def ComponentsTerminate (m : Model) : Prop :=
  ∀ r, ∃ n, ∀ fuel, n ≤ fuel → (m.isValid fuel r).Returns ∧
    (∀ uninit mesh matrix, (m.mergeToMesh uninit fuel r mesh matrix).Returns) ∧
    ∀ level, (calculateComponentDepthLevel fuel level r m).isSome

/-- The call makes `o` a component of `r`. -/
def AddsComponent (m : Model) (c : Call) (r o : ResourceRef) : Prop :=
  ∃ objectID t, (c = .addComponent r objectID t ∧ m.uniqueID? r ≠ some objectID ∨
      c = .readComponent r objectID t) ∧
    (∃ info cs, m.data? r = some (.componentsObject info cs)) ∧
    m.findObject objectID = .ok (some o) ∧ m.uniqueID? o ≠ m.uniqueID? r

variable {m m' : Model} {c : Call} {r r' o : Nat}

/-! ## The graph after a call -/

theorem components_of_data? {d : ResourceData} (h : m.data? r = some d) :
    m.components r = d.components := by
  simp only [components, h, Option.map_some, Option.getD_some]

theorem components_congr (h : m'.data? r = m.data? r) : m'.components r = m.components r := by
  simp only [components, h]

theorem components_setData {d d' : ResourceData} (h : m.data? r = some d) :
    (m.setData r d').components r' =
      if r = r' then d'.components else m.components r' := by
  split_ifs with hr
  · subst hr
    exact components_of_data? (data?_setData_same (by rw [h]; rfl))
  · exact components_congr (data?_setData_ne hr)

/-- An edit other than the addition of a component leaves the components. -/
theorem Edits.components {d d' : ResourceData} (h : Edits m c r d d') :
    d'.components = d.components ∨
      ∃ objectID o t, (c = .addComponent r objectID t ∧ m.uniqueID? r ≠ some objectID ∨
        c = .readComponent r objectID t) ∧ (∃ info cs, d = .componentsObject info cs) ∧
        m.findObject objectID = .ok (some o) ∧ m.uniqueID? o ≠ m.uniqueID? r ∧
        d'.components = d.components ++ [⟨o, t⟩] := by
  cases h with
  | component hr ho hne => exact .inr ⟨_, _, _, .inl ⟨rfl, hr⟩, ⟨_, _, rfl⟩, ho, hne, rfl⟩
  | readComponent ho hne => exact .inr ⟨_, _, _, .inr rfl, ⟨_, _, rfl⟩, ho, hne, rfl⟩
  | slice => exact .inl rfl
  | sliceRef => exact .inl rfl
  | collapse => exact .inl rfl
  | ownPath => exact .inl rfl
  | zBottom => exact .inl rfl
  | info => cases d <;> exact .inl rfl
  | @edit _ _ e => cases d <;> cases e <;> exact .inl rfl

theorem NewResource.data_components (new : NewResource) : new.data.components = [] := by
  cases new <;> rfl

/-- **A call adds at most one component.** -/
theorem components_next (m : Model) (c : Call) :
    (∀ r', (m.next c).components r' = m.components r') ∨
      ∃ r o t, m.AddsComponent c r o ∧ ∀ r', (m.next c).components r' =
        if r = r' then m.components r' ++ [⟨o, t⟩] else m.components r' := by
  rcases store_next m c with h | ⟨new, p, -, h⟩ | ⟨r, d, d', hd, hE, hm⟩
  · exact .inl fun r' => components_congr (data?_congr h)
  · refine .inl fun r' => ?_
    by_cases hr : r' = m.store.length
    · have h' : (m.next c).data? r' = some new.data := by rw [data?_append h, if_pos hr]
      rw [components_of_data? h', NewResource.data_components]
      simp only [components, data?_of_length_le (le_of_eq hr.symm), Option.map_none,
        Option.getD_none]
    · exact components_congr (by rw [data?_append h, if_neg hr])
  · rw [hm]
    rcases hE.components with he | ⟨objectID, o, t, hc, ⟨info, cs, rfl⟩, ho, hne, he⟩
    · refine .inl fun r' => ?_
      rw [components_setData hd]
      split_ifs with hr
      · subst hr; rw [he, components_of_data? hd]
      · rfl
    · refine .inr ⟨r, o, t, ⟨objectID, t, hc, ⟨info, cs, hd⟩, ho, hne⟩, fun r' => ?_⟩
      rw [components_setData hd]
      split_ifs with hr
      · subst hr; rw [he, components_of_data? hd]
      · rfl

/-- A call that adds a component is accepted. -/
theorem AddsComponent.references (h : m.AddsComponent c r o) : (m.next c).References r o := by
  obtain ⟨objectID, t, hc, ⟨info, cs, hd⟩, ho, hne⟩ := h
  have hadd : m.addComponent r ⟨o, t⟩ =
      .ok (m.setData r (.componentsObject info (cs ++ [⟨o, t⟩]))) := by
    simp only [addComponent, hd, if_neg hne]
  have hn : m.next c = m.setData r (.componentsObject info (cs ++ [⟨o, t⟩])) := by
    rcases hc with ⟨rfl, hr⟩ | rfl
    · simp only [next, step, apiAddComponent, hd, if_neg hr, ho, hadd, orThrow]
    · simp only [next, step, readComponent, ho, hadd, orThrow]
  refine ⟨⟨o, t⟩, ?_, rfl⟩
  rw [hn, components_setData hd, if_pos rfl]
  simp [ResourceData.components]

/-- The references after a call: as before, or with the edge the call adds. -/
theorem references_next (m : Model) (c : Call) :
    ((m.next c).References = m.References ∧ ∀ r o, ¬ m.AddsComponent c r o) ∨
      ∃ r o, m.AddsComponent c r o ∧ (∀ r' o', m.AddsComponent c r' o' → r' = r ∧ o' = o) ∧
        (m.next c).References = AddEdge m.References r o := by
  have huniq {r r' o o' : Nat} (h : m.AddsComponent c r o) (h' : m.AddsComponent c r' o') :
      r' = r ∧ o' = o := by
    obtain ⟨id₁, t₁, hc₁, -, ho₁, -⟩ := h
    obtain ⟨id₂, t₂, hc₂, -, ho₂, -⟩ := h'
    rcases hc₁ with ⟨rfl, -⟩ | rfl <;> rcases hc₂ with ⟨hc, -⟩ | hc <;> cases hc <;>
      (rw [ho₁] at ho₂; cases ho₂; exact ⟨rfl, rfl⟩)
  by_cases hadd : ∃ r o, m.AddsComponent c r o
  · obtain ⟨r, o, ha⟩ := hadd
    refine .inr ⟨r, o, ha, fun r' o' h' => huniq ha h', ?_⟩
    rcases components_next m c with h | ⟨r₁, o₁, t, ha₁, h⟩
    · -- the components are as before, so the edge was there already
      obtain ⟨x, hx, hxo⟩ := ha.references
      rw [h] at hx
      funext a b
      simp only [References, AddEdge, h, eq_iff_iff]
      constructor
      · exact .inl
      · rintro (hab | ⟨rfl, rfl⟩)
        · exact hab
        · exact ⟨x, hx, hxo⟩
    · obtain ⟨rfl, rfl⟩ := huniq ha ha₁
      funext a b
      simp only [References, AddEdge, h, eq_iff_iff]
      by_cases hab : r₁ = a
      · subst hab
        simp only [if_pos, List.mem_append, List.mem_singleton, or_and_right, exists_or,
          exists_eq_left, true_and]
        exact or_congr_right eq_comm
      · simp only [if_neg hab, Ne.symm hab, false_and, or_false]
  · refine .inl ⟨?_, fun r o h => hadd ⟨r, o, h⟩⟩
    rcases components_next m c with h | ⟨r₁, o₁, t, ha₁, h⟩
    · funext a b
      simp only [References, h]
    · exact absurd ⟨r₁, o₁, ha₁⟩ hadd

/-! ## Recursions over components -/

/-- The traversals change no components. -/
def SameComponents (m m' : Model) : Prop := ∀ r, m'.components r = m.components r

theorem SameComponents.references (h : SameComponents m m') : m'.References = m.References := by
  funext a b
  simp only [References, h a]

theorem sameComponents_setData {d d' : ResourceData} (h : m.data? r = some d)
    (hd : d'.components = d.components) : SameComponents m (m.setData r d') := by
  intro r'
  rw [components_setData h]
  split_ifs with hr
  · subst hr; rw [hd, components_of_data? h]
  · rfl

/-- `calculateComponentDepthLevel` writes depth levels only. -/
theorem calculateComponentDepthLevel_same {fuel level : Nat}
    (h : calculateComponentDepthLevel fuel level r m = some m') : SameComponents m m' := by
  induction fuel generalizing level r m m' with
  | zero => cases h
  | succ fuel ih =>
    simp only [calculateComponentDepthLevel] at h
    split at h
    · rename_i info cs hd
      have h₀ : SameComponents m (m.setData r (.componentsObject
          (info.calculateComponentDepthLevel level) cs)) := sameComponents_setData hd rfl
      exact (foldlM_steps (fun m₁ => SameComponents m m₁) h h₀
        fun c _ m₁ m₂ h₁ h₂ r' => (ih h₂ r').trans (h₁ r')).1
    · rename_i info mesh hd
      cases h
      exact sameComponents_setData hd rfl
    · cases h
      exact fun _ => rfl

theorem isValid_returns {fuel : Nat} (h : ∀ o, m.References r o → (m.isValid fuel o).Returns) :
    (m.isValid (fuel + 1) r).Returns := by
  unfold isValid
  split
  · rfl
  · rename_i info cs hd
    split_ifs with he
    · rfl
    · refine foldlM_run_isSome fun c hc valid => ?_
      split_ifs with hv
      · exact h _ ⟨c, by rw [components_of_data? hd]; exact hc, rfl⟩
      · rfl
  · rfl

theorem mergeToMesh_returns {fuel : Nat} {uninit : FaceProperties}
    (h : ∀ o, m.References r o → ∀ mesh matrix, (m.mergeToMesh uninit fuel o mesh matrix).Returns)
    (mesh : Mesh) (matrix : Matrix3) : (m.mergeToMesh uninit (fuel + 1) r mesh matrix).Returns := by
  unfold mergeToMesh
  split
  · rfl
  · rename_i info cs hd
    refine foldlM_run_isSome fun c hc mesh => ?_
    exact h _ ⟨c, by rw [components_of_data? hd]; exact hc, rfl⟩ _ _
  · rfl

theorem calculateComponentDepthLevel_returns {fuel : Nat}
    (h : ∀ o, m.References r o → ∀ m', SameComponents m m' → ∀ level,
      (calculateComponentDepthLevel fuel level o m').isSome)
    (hm : SameComponents m m') (level : Nat) :
    (calculateComponentDepthLevel (fuel + 1) level r m').isSome := by
  unfold calculateComponentDepthLevel
  split
  · rename_i info cs hd
    have h₀ : SameComponents m' (m'.setData r (.componentsObject
        (info.calculateComponentDepthLevel level) cs)) := sameComponents_setData hd rfl
    refine Option.isSome_iff_exists.2 (Exists.imp (fun _ => And.left) (foldlM_isSome
      (fun m₁ => SameComponents m m₁) (fun r' => (h₀ r').trans (hm r')) fun c hc m₁ h₁ => ?_))
    have hr : m.References r c.object :=
      ⟨c, by rw [← hm r, components_of_data? hd]; exact hc, rfl⟩
    obtain ⟨m₃, h₃⟩ := Option.isSome_iff_exists.1 (h c.object hr m₁ h₁ ((level + 1) % 2 ^ 32))
    exact ⟨m₃, h₃, fun r' => (calculateComponentDepthLevel_same h₃ r').trans (h₁ r')⟩
  · rfl
  · rfl

/-- Where every descent is finite, some recursion depth is enough. -/
theorem componentsTerminate_of_descends (h : Descends m.References) : m.ComponentsTerminate := by
  -- the depth serves the object in every state with the same components
  suffices hs : ∀ r, ∃ n, ∀ fuel, n ≤ fuel → (m.isValid fuel r).Returns ∧
      (∀ uninit mesh matrix, (m.mergeToMesh uninit fuel r mesh matrix).Returns) ∧
      ∀ m', SameComponents m m' → ∀ level,
        (calculateComponentDepthLevel fuel level r m').isSome by
    intro r
    obtain ⟨n, hn⟩ := hs r
    exact ⟨n, fun fuel hf => ⟨(hn fuel hf).1, (hn fuel hf).2.1,
      (hn fuel hf).2.2 m fun _ => rfl⟩⟩
  intro r
  induction r using h.induction with
  | hstep r ih =>
    have hch : ∀ c ∈ m.components r, _ := fun c hc => ih c.object ⟨c, hc, rfl⟩
    obtain ⟨n, hn⟩ := exists_depth _ hch
    refine ⟨n + 1, fun fuel hf => ?_⟩
    obtain ⟨fuel, rfl⟩ : ∃ k, fuel = k + 1 := ⟨fuel - 1, by omega⟩
    have hk := hn fuel (by omega)
    refine ⟨isValid_returns ?_, fun uninit => mergeToMesh_returns ?_,
      fun m' hm => calculateComponentDepthLevel_returns ?_ hm⟩
    · rintro _ ⟨c, hc, rfl⟩
      exact (hk c hc).1
    · rintro _ ⟨c, hc, rfl⟩
      exact (hk c hc).2.1 uninit
    · rintro _ ⟨c, hc, rfl⟩
      exact (hk c hc).2.2

/-- A recursion that returned has gone down every descent. -/
theorem acc_of_calculateComponentDepthLevel {fuel level : Nat}
    (h : (calculateComponentDepthLevel fuel level r m).isSome) :
    Acc (fun o r => m.References r o) r := by
  induction fuel generalizing level r m with
  | zero => cases h
  | succ fuel ih =>
    refine Acc.intro r fun o ⟨c, hc, hco⟩ => ?_
    unfold calculateComponentDepthLevel at h
    split at h
    · rename_i info cs hd
      obtain ⟨m₂, h₂⟩ := Option.isSome_iff_exists.1 h
      have h₀ : SameComponents m (m.setData r (.componentsObject
          (info.calculateComponentDepthLevel level) cs)) := sameComponents_setData hd rfl
      rw [components_of_data? hd] at hc
      obtain ⟨m₃, m₄, h₃, h₄⟩ := (foldlM_steps (fun m₁ => SameComponents m m₁) h₂ h₀
        fun c _ m₁ m₂ h₁ h₂ r' => (calculateComponentDepthLevel_same h₂ r').trans (h₁ r')).2 c hc
      subst hco
      rw [← h₃.references]
      exact ih (by rw [h₄]; rfl)
    · rename_i info mesh hd
      rw [components_of_data? hd] at hc
      cases hc
    · rename_i hcomp _
      simp only [components] at hc
      cases hd : m.data? r with
      | none => rw [hd] at hc; cases hc
      | some d =>
        rw [hd] at hc
        cases d with
        | componentsObject info cs => exact absurd hd (hcomp info cs)
        | _ => cases hc

/-- **The recursions over components end exactly where descents do.** -/
theorem componentsTerminate_iff : m.ComponentsTerminate ↔ Descends m.References := by
  constructor
  · intro h
    refine ⟨fun r => ?_⟩
    obtain ⟨n, hn⟩ := h r
    exact acc_of_calculateComponentDepthLevel ((hn n le_rfl).2.2 0)
  · exact componentsTerminate_of_descends

/-! ## Sessions -/

theorem descends_new : Descends new.References := by
  refine ⟨fun r => Acc.intro r fun o ⟨c, hc, _⟩ => ?_⟩
  simp [components, data?, new] at hc

/-- A call keeps descents finite exactly when it adds no object that leads back. -/
theorem descends_next_iff (h : Descends m.References) :
    Descends (m.next c).References ↔
      ∀ r o, m.AddsComponent c r o → ¬ Relation.ReflTransGen m.References o r := by
  rcases references_next m c with ⟨he, hno⟩ | ⟨r, o, ha, hu, he⟩
  · rw [he]
    exact ⟨fun _ r o ha => absurd ha (hno r o), fun _ => h⟩
  · rw [he, descends_addEdge_iff h]
    constructor
    · intro hn r' o' h'
      obtain ⟨rfl, rfl⟩ := hu r' o' h'
      exact hn
    · exact fun hn => hn r o ha

/-- **Every state of a session has an acyclic component graph and ending recursions exactly when
no call adds to a components object an object that leads back to it.** -/
theorem components_acyclic_iff (calls : List Call) :
    (∀ m, Reaches next new calls m → Acyclic m.References ∧ m.ComponentsTerminate) ↔
      Guarded next
        (fun m c => ∀ r o, m.AddsComponent c r o → ¬ Relation.ReflTransGen m.References o r)
        new calls := by
  rw [← guarded_iff (fun m => Descends m.References) descends_new
    fun m c h => descends_next_iff h]
  refine forall₂_congr fun m _ => ?_
  rw [componentsTerminate_iff]
  exact ⟨fun h => h.2, fun h => ⟨h.acyclic, h⟩⟩

/-- The session that adds two components objects to each other. -/
def cycleCalls : List Call :=
  [.add .componentsObject, .add .componentsObject, .addComponent 0 2 .identity,
    .addComponent 1 1 .identity]

/-- Both calls are accepted, and each object leads to itself. -/
theorem components_cycle :
    ¬ ∀ calls m, Reaches next new calls m → Acyclic m.References ∧ m.ComponentsTerminate := by
  intro h
  refine (h cycleCalls _ (reaches_run new cycleCalls)).1 0 ?_
  have h₀ : (run next new cycleCalls).components 0 = [⟨1, .identity⟩] := by decide
  have h₁ : (run next new cycleCalls).components 1 = [⟨0, .identity⟩] := by decide
  exact .head ⟨⟨1, .identity⟩, by rw [h₀]; simp, rfl⟩
    (.single ⟨⟨0, .identity⟩, by rw [h₁]; simp, rfl⟩)

end NMR.Model
