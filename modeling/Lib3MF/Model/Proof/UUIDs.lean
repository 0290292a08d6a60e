import Mathlib.Data.Finset.Basic
import Lib3MF.Model.Classes.UUIDs

/-!
# The UUID registry

`InStep`: the registry is the set of the UUIDs that the model's entities hold, which are distinct.
`inStep_next_iff` says of one call exactly when it keeps that and gives the right answer, and
`uuids_inStep_iff` of a session. A component added through the API, a build item removed and a
UUID set again each break it.
-/

namespace NMR

open Lib

namespace UUIDs

variable {s s' : UUIDs} {l l₁ l₂ : List Entity} {e e' : Entity} {u g : UUID} {i : Nat}

/-- The UUIDs of the entities in the model. -/
def heldOf (l : List Entity) : List UUID := (l.filter (·.inModel)).map (·.uuid)

/-- The UUIDs held by the build, the build items, the components and the objects of the model. -/
def held (s : UUIDs) : List UUID := heldOf s.entities

/-- The registry is the set of the UUIDs held, and these are distinct. -/
structure InStep (s : UUIDs) : Prop where
  nodup : s.held.Nodup
  mem : ∀ u, u ∈ s.usedUUIDs ↔ u ∈ s.held

/-- What a setter answers: an entity may be given the UUID it has, with no effect, and one that
nobody holds. -/
def Answers (s : UUIDs) : UUIDCall → Prop
  | .setUUID i text => ∀ e u, s.entities[i]? = some e → UUID.set text = .ok u →
      (u = e.uuid → s.step (.setUUID i text) = (s, none)) ∧
        (u ∉ s.held → (s.step (.setUUID i text)).2 = none)
  | _ => True

/-- The calls that keep the registry in step and are answered right. -/
def Allowed (s : UUIDs) : UUIDCall → Prop
  | .constructObject generated added => generated ∈ s.usedUUIDs ∨ added
  | .constructBuildItem generated added => generated ∈ s.usedUUIDs ∨ added
  | .addComponent _ added => added = false
  | .readComponent generated uuid added => uuid ∈ s.usedUUIDs ∨
      if added then generated ∉ s.usedUUIDs ∧ generated ≠ uuid else generated = uuid
  | .setUUID i text => ∀ e u, s.entities[i]? = some e → UUID.set text = .ok u →
      (u ∈ s.usedUUIDs → u ≠ e.uuid) ∧ (u ∉ s.usedUUIDs → e.inModel ∨ u = e.uuid)
  | .removeBuildItem i => ∀ e, s.entities[i]? = some e → ¬ (e.kind = .buildItem ∧ e.inModel)
  | .clearAll => ∀ e ∈ s.entities, e.inModel → e.kind = .build

/-! ## Lists of entities -/

@[simp] theorem heldOf_append : heldOf (l₁ ++ l₂) = heldOf l₁ ++ heldOf l₂ := by
  simp [heldOf]

@[simp] theorem heldOf_cons :
    heldOf (e :: l) = if e.inModel then e.uuid :: heldOf l else heldOf l := by
  unfold heldOf
  rw [List.filter_cons]
  split_ifs <;> rfl

@[simp] theorem heldOf_nil : heldOf [] = [] := rfl

/-- The list around an item. -/
theorem exists_around (h : l[i]? = some e) :
    ∃ l₁ l₂, l = l₁ ++ e :: l₂ ∧ ∀ e', l.set i e' = l₁ ++ e' :: l₂ := by
  induction l generalizing i with
  | nil => cases h
  | cons a l ih =>
    cases i with
    | zero =>
      simp only [List.getElem?_cons_zero, Option.some.injEq] at h
      subst h
      exact ⟨[], l, rfl, fun _ => rfl⟩
    | succ i =>
      obtain ⟨l₁, l₂, he, hset⟩ := ih h
      refine ⟨a :: l₁, l₂, by rw [he]; rfl, fun e' => ?_⟩
      rw [List.set_cons_succ, hset]
      rfl

/-! ## One call -/

/-- A UUID that gets registered with a new entity. -/
theorem inStep_addEntity (hs : InStep s) (hu : u ∉ s.usedUUIDs) {kind : EntityKind} :
    InStep ⟨insert u s.usedUUIDs, s.entities ++ [⟨kind, u, true⟩]⟩ := by
  have hheld : u ∉ s.held := fun h => hu ((hs.mem u).2 h)
  have he : held ⟨insert u s.usedUUIDs, s.entities ++ [⟨kind, u, true⟩]⟩ = s.held ++ [u] := by
    simp [held]
  refine ⟨?_, fun v => ?_⟩
  · rw [he, List.nodup_append]
    refine ⟨hs.nodup, List.nodup_singleton u, fun a ha b hb => ?_⟩
    rw [List.mem_singleton.1 hb]
    exact fun hab => hheld (hab ▸ ha)
  · rw [he, Finset.mem_insert, List.mem_append, List.mem_singleton, hs.mem v, or_comm]

/-- A UUID in the registry that nobody holds. -/
theorem not_inStep_of_mem (hu : u ∈ s.usedUUIDs) (hh : u ∉ s.held) : ¬ InStep s :=
  fun h => hh ((h.mem u).1 hu)

theorem construct_iff (hs : InStep s) {kind : EntityKind} {added : Bool} :
    InStep (orThrow s (s.construct kind g added)).1 ↔ g ∈ s.usedUUIDs ∨ added := by
  by_cases hg : g ∈ s.usedUUIDs
  · have hc : s.construct kind g added = .error .uuidNotUnique := by
      rw [construct, registerUUID, if_pos hg]
      rfl
    rw [hc]
    exact ⟨fun _ => .inl hg, fun _ => hs⟩
  · have hc : s.construct kind g added =
        .ok (addEntity ⟨insert g s.usedUUIDs, s.entities⟩ kind g added) := by
      rw [construct, registerUUID, if_neg hg]
      rfl
    rw [hc]
    simp only [orThrow, addEntity, hg, false_or]
    cases added with
    | true => exact ⟨fun _ => rfl, fun _ => inStep_addEntity hs hg⟩
    | false =>
      -- the entity is dropped, its UUID stays registered
      refine ⟨fun h => absurd h (not_inStep_of_mem (Finset.mem_insert_self g _) ?_), nofun⟩
      exact fun h => hg ((hs.mem g).2 h)

theorem addComponent_iff (hs : InStep s) {added : Bool} :
    InStep (s.addEntity .component g added) ↔ added = false := by
  cases added with
  | false => exact ⟨fun _ => rfl, fun _ => hs⟩
  | true =>
    refine ⟨fun h => ?_, nofun⟩
    have he : held (s.addEntity .component g true) = s.held ++ [g] := by
      simp [held, addEntity]
    -- the generated UUID is in the registry only if another entity holds it
    have hg : g ∈ s.usedUUIDs := (h.mem g).2 (by rw [he]; simp)
    have hn := h.nodup
    rw [he, List.nodup_append] at hn
    exact absurd rfl (hn.2.2 g ((hs.mem g).1 hg) g (List.mem_singleton_self g))

theorem readComponent_iff (hs : InStep s) {added : Bool} :
    InStep (orThrow s (s.readComponent g u added)).1 ↔ u ∈ s.usedUUIDs ∨
      if added then g ∉ s.usedUUIDs ∧ g ≠ u else g = u := by
  by_cases hu : u ∈ s.usedUUIDs
  · have hc : s.readComponent g u added = .error .uuidNotUnique := by
      rw [readComponent, registerUUID, if_pos hu]
      rfl
    rw [hc]
    exact ⟨fun _ => .inl hu, fun _ => hs⟩
  · have hc : s.readComponent g u added =
        .ok (addEntity ⟨(insert u s.usedUUIDs).erase g, s.entities⟩ .component u added) := by
      rw [readComponent, registerUUID, if_neg hu]
      rfl
    have huh : u ∉ s.held := fun h => hu ((hs.mem u).2 h)
    rw [hc]
    simp only [orThrow, addEntity, hu, false_or]
    cases added with
    | true =>
      simp only [if_true]
      have he : held ⟨(insert u s.usedUUIDs).erase g,
          s.entities ++ [⟨.component, u, true⟩]⟩ = s.held ++ [u] := by
        simp [held]
      constructor
      · intro h
        have hg : g ∉ s.held ++ [u] := fun hm => by
          rw [← he, ← h.mem g] at hm
          exact (Finset.notMem_erase g _) hm
        simp only [List.mem_append, List.mem_singleton, not_or] at hg
        exact ⟨fun hm => hg.1 ((hs.mem g).1 hm), hg.2⟩
      · intro ⟨hg, hne⟩
        have hid : (insert u s.usedUUIDs).erase g = insert u s.usedUUIDs := by
          apply Finset.erase_eq_of_notMem
          simp [hg, hne]
        rw [hid]
        exact inStep_addEntity hs hu
    | false =>
      have he : held ⟨(insert u s.usedUUIDs).erase g, s.entities⟩ = s.held := rfl
      simp only [Bool.false_eq_true, if_false]
      constructor
      · intro h
        by_contra hne
        refine not_inStep_of_mem (s := ⟨(insert u s.usedUUIDs).erase g, s.entities⟩) ?_ huh h
        exact Finset.mem_erase.2 ⟨fun h => hne h.symm, Finset.mem_insert_self u _⟩
      · intro hgu
        subst hgu
        rw [Finset.erase_insert hu]
        exact hs

theorem removeBuildItem_iff (hs : InStep s) :
    InStep (orThrow s (s.removeBuildItem i)).1 ↔
      ∀ e, s.entities[i]? = some e → ¬ (e.kind = .buildItem ∧ e.inModel) := by
  unfold removeBuildItem
  cases hi : s.entities[i]? with
  | none => exact ⟨fun _ => nofun, fun _ => hs⟩
  | some e =>
    simp only [Option.some.injEq, forall_eq']
    split_ifs with hk
    · refine ⟨fun h => ?_, fun h => absurd hk h⟩
      obtain ⟨l₁, l₂, hl, hset⟩ := exists_around hi
      have hheld : s.held = heldOf l₁ ++ e.uuid :: heldOf l₂ := by
        simp [held, hl, hk.2]
      have hheld' : held { s with entities := s.entities.set i { e with inModel := false } } =
          heldOf l₁ ++ heldOf l₂ := by
        simp [held, hset]
      have hn := hs.nodup
      rw [hheld] at hn
      refine absurd h (not_inStep_of_mem (u := e.uuid) ?_ ?_)
      · exact (hs.mem _).2 (by rw [hheld]; simp)
      · change e.uuid ∉ held { s with entities := s.entities.set i { e with inModel := false } }
        rw [hheld']
        exact (List.nodup_cons.1 ((List.perm_middle.nodup_iff).1 hn)).1
    · exact ⟨fun _ => hk, fun _ => hs⟩

theorem clearAll_iff (hs : InStep s) :
    InStep s.clearAll ↔ ∀ e ∈ s.entities, e.inModel → e.kind = .build := by
  have he : s.clearAll.held =
      ((s.entities.filter (·.inModel)).filter fun e => e.kind = .build).map (·.uuid) := by
    simp only [held, heldOf, clearAll]
    rw [List.filter_map, List.map_map, List.filter_filter]
    congr 1
    apply List.filter_congr
    intro e _
    simp [Bool.and_comm]
  constructor
  · intro h
    have hsub : List.Sublist s.clearAll.held s.held := by
      rw [he]
      exact List.filter_sublist.map _
    have hperm : s.clearAll.held.Perm s.held :=
      (List.perm_ext_iff_of_nodup h.nodup hs.nodup).2 fun u => by rw [← h.mem, ← hs.mem]; rfl
    have hlen := hperm.length_eq
    rw [he, List.length_map, held, heldOf, List.length_map] at hlen
    have hall := List.length_filter_eq_length_iff.1 hlen
    intro e hm hin
    exact of_decide_eq_true (hall e (List.mem_filter.2 ⟨hm, hin⟩))
  · intro h
    have hheld : s.clearAll.held = s.held := by
      rw [he, held, heldOf]
      congr 1
      apply List.filter_eq_self.2
      intro e hm
      obtain ⟨hm, hin⟩ := List.mem_filter.1 hm
      exact decide_eq_true (h e hm hin)
    exact ⟨by rw [hheld]; exact hs.nodup, fun u => by rw [hheld]; exact hs.mem u⟩

/-- What setting a UUID does. -/
theorem setUUID_eq (hi : s.entities[i]? = some e) : s.setUUID i u =
    if u ∈ s.usedUUIDs then .error .uuidNotUnique
    else .ok ⟨(insert u s.usedUUIDs).erase e.uuid, s.entities.set i { e with uuid := u }⟩ := by
  unfold setUUID registerUUID
  rw [hi]
  split_ifs <;> rfl

/-- Setting a UUID nobody holds, of an entity in the model. -/
theorem inStep_setUUID (hs : InStep s) (hi : s.entities[i]? = some e) (hin : e.inModel)
    (hu : u ∉ s.usedUUIDs) :
    InStep ⟨(insert u s.usedUUIDs).erase e.uuid, s.entities.set i { e with uuid := u }⟩ := by
  obtain ⟨l₁, l₂, hl, hset⟩ := exists_around hi
  have hheld : s.held = heldOf l₁ ++ e.uuid :: heldOf l₂ := by simp [held, hl, hin]
  have hheld' : held ⟨(insert u s.usedUUIDs).erase e.uuid,
      s.entities.set i { e with uuid := u }⟩ = heldOf l₁ ++ u :: heldOf l₂ := by
    simp [held, hset, hin]
  have huh : u ∉ s.held := fun h => hu ((hs.mem u).2 h)
  have hn := hs.nodup
  rw [hheld, List.perm_middle.nodup_iff, List.nodup_cons] at hn
  rw [hheld] at huh
  simp only [List.mem_append, List.mem_cons, not_or] at huh
  refine ⟨?_, fun v => ?_⟩
  · rw [hheld', List.perm_middle.nodup_iff, List.nodup_cons]
    refine ⟨?_, hn.2⟩
    simp [huh.1, huh.2.2]
  · rw [hheld', Finset.mem_erase, Finset.mem_insert, hs.mem v, hheld]
    have hout := hn.1
    simp only [List.mem_append, List.mem_cons] at hout ⊢
    constructor
    · rintro ⟨hne, rfl | h1 | rfl | h2⟩
      · exact .inr (.inl rfl)
      · exact .inl h1
      · exact absurd rfl hne
      · exact .inr (.inr h2)
    · rintro (h1 | rfl | h2)
      · exact ⟨fun he => hout (.inl (he ▸ h1)), .inr (.inl h1)⟩
      · exact ⟨huh.2.1, .inl rfl⟩
      · exact ⟨fun he => hout (.inr (he ▸ h2)), .inr (.inr (.inr h2))⟩

/-- Setting a UUID nobody holds, of an entity that left the model. -/
theorem inStep_setUUID_left (hs : InStep s) (hi : s.entities[i]? = some e) (hin : ¬ e.inModel)
    (hu : u ∉ s.usedUUIDs) :
    InStep ⟨(insert u s.usedUUIDs).erase e.uuid, s.entities.set i { e with uuid := u }⟩ ↔
      u = e.uuid := by
  obtain ⟨l₁, l₂, hl, hset⟩ := exists_around hi
  have hheld : s.held = heldOf l₁ ++ heldOf l₂ := by simp [held, hl, hin]
  have hheld' : held ⟨(insert u s.usedUUIDs).erase e.uuid,
      s.entities.set i { e with uuid := u }⟩ = s.held := by
    rw [hheld, held]
    simp [hset, hin]
  constructor
  · intro h
    by_contra hne
    refine not_inStep_of_mem (u := u) (Finset.mem_erase.2 ⟨hne, Finset.mem_insert_self u _⟩) ?_ h
    rw [hheld']
    exact fun h => hu ((hs.mem u).2 h)
  · intro he
    refine ⟨by rw [hheld']; exact hs.nodup, fun v => ?_⟩
    rw [hheld', ← hs.mem v, ← he, Finset.erase_insert hu]

theorem step_setUUID {text : String} (ht : UUID.set text = .ok u) :
    s.step (.setUUID i text) = orThrow s (s.setUUID i u) := by
  simp only [step, apiSetUUID, ht]
  rfl

theorem answers_setUUID {text : String} (ht : UUID.set text = .ok u) (hi : s.entities[i]? = some e) :
    Answers s (.setUUID i text) ↔ (u = e.uuid → orThrow s (s.setUUID i u) = (s, none)) ∧
      (u ∉ s.held → (orThrow s (s.setUUID i u)).2 = none) := by
  rw [← step_setUUID ht]
  refine ⟨fun h => h e u hi ht, fun h e' u' hi' ht' => ?_⟩
  cases hi.symm.trans hi'
  cases ht.symm.trans ht'
  exact h

theorem allowed_setUUID {text : String} (ht : UUID.set text = .ok u) (hi : s.entities[i]? = some e) :
    Allowed s (.setUUID i text) ↔
      (u ∈ s.usedUUIDs → u ≠ e.uuid) ∧ (u ∉ s.usedUUIDs → e.inModel ∨ u = e.uuid) := by
  refine ⟨fun h => h e u hi ht, fun h e' u' hi' ht' => ?_⟩
  cases hi.symm.trans hi'
  cases ht.symm.trans ht'
  exact h

theorem setUUID_iff (hs : InStep s) {text : String} :
    InStep (s.next (.setUUID i text)) ∧ Answers s (.setUUID i text) ↔
      Allowed s (.setUUID i text) := by
  cases ht : UUID.set text with
  | error err =>
    have hnext : s.next (.setUUID i text) = s := by
      simp only [next, step, apiSetUUID, ht]
      rfl
    have hno : ∀ u, UUID.set text ≠ .ok u := fun u h => nomatch ht.symm.trans h
    rw [hnext]
    exact ⟨fun _ e u _ h => (hno u h).elim, fun _ => ⟨hs, fun e u _ h => (hno u h).elim⟩⟩
  | ok u =>
    rw [next, step_setUUID ht]
    cases hi : s.entities[i]? with
    | none =>
      have hno : ∀ e, s.entities[i]? ≠ some e := fun e h => nomatch hi.symm.trans h
      have hstep : orThrow s (s.setUUID i u) = (s, some .invalidParam) := by
        unfold setUUID
        rw [hi]
        rfl
      rw [hstep]
      exact ⟨fun _ e u h => (hno e h).elim, fun _ => ⟨hs, fun e u h => (hno e h).elim⟩⟩
    | some e =>
      rw [answers_setUUID ht hi, allowed_setUUID ht hi, setUUID_eq hi]
      by_cases hu : u ∈ s.usedUUIDs
      · have hheld := (hs.mem u).1 hu
        simp [hu, hheld, orThrow, hs]
      · have hheld : u ∉ s.held := fun h => hu ((hs.mem u).2 h)
        simp only [hu, if_false, orThrow, false_implies, true_and, not_false_eq_true,
          forall_const, implies_true, and_true]
        by_cases hin : e.inModel
        · -- no entity of the model holds it, so it is not this one's
          have hne : u ≠ e.uuid := by
            intro he
            obtain ⟨l₁, l₂, hl, -⟩ := exists_around hi
            refine hheld ?_
            simp [held, hl, hin, he]
          have hafter := inStep_setUUID hs hi hin hu
          exact ⟨fun _ => .inl hin, fun _ => ⟨hafter, fun h => absurd h hne⟩⟩
        · rw [inStep_setUUID_left hs hi hin hu]
          refine ⟨fun h => .inr h.1, fun h => ?_⟩
          have he := h.resolve_left hin
          refine ⟨he, fun _ => ?_⟩
          obtain ⟨l₁, l₂, hl, hset⟩ := exists_around hi
          have hent : s.entities.set i { e with uuid := u } = s.entities := by
            rw [hset, hl, he]
          have hused : (insert u s.usedUUIDs).erase e.uuid = s.usedUUIDs := by
            rw [← he, Finset.erase_insert hu]
          rw [hent, hused]

/-- **One call** keeps the registry in step and is answered right exactly when it is allowed. -/
theorem inStep_next_iff (s : UUIDs) (c : UUIDCall) (hs : InStep s) :
    InStep (s.next c) ∧ Answers s c ↔ Allowed s c := by
  cases c with
  | constructObject g added => exact (and_iff_left trivial).trans (construct_iff hs)
  | constructBuildItem g added => exact (and_iff_left trivial).trans (construct_iff hs)
  | addComponent g added => exact (and_iff_left trivial).trans (addComponent_iff hs)
  | readComponent g u added => exact (and_iff_left trivial).trans (readComponent_iff hs)
  | setUUID i text => exact setUUID_iff hs
  | removeBuildItem i => exact (and_iff_left trivial).trans (removeBuildItem_iff hs)
  | clearAll => exact (and_iff_left trivial).trans (clearAll_iff hs)

theorem inStep_new (g : UUID) : InStep (new g) := by
  refine ⟨List.nodup_singleton g, fun u => ?_⟩
  rw [new, Finset.mem_singleton]
  exact List.mem_singleton.symm

/-- **The registry is in step** in every state of a session, and every setter is answered right,
exactly when no call of it is one of those that break it. -/
theorem uuids_inStep_iff (generated : UUID) (calls : List UUIDCall) :
    (∀ s, Reaches next (new generated) calls s → InStep s) ∧
        Guarded next Answers (new generated) calls ↔
      Guarded next Allowed (new generated) calls :=
  guarded_and_iff InStep (inStep_new generated) inStep_next_iff

/-- The build's UUID set again: the registry rejects it as its own. -/
theorem setUUID_same_rejected :
    ¬ ((∀ s, Reaches next (new "01234567-89ab-cdef-0123-456789abcdef")
          [.setUUID 0 "01234567-89AB-CDEF-0123-456789ABCDEF"] s → InStep s) ∧
        Guarded next Answers (new "01234567-89ab-cdef-0123-456789abcdef")
          [.setUUID 0 "01234567-89AB-CDEF-0123-456789ABCDEF"]) := by
  intro ⟨_, h, _⟩
  have hset : UUID.set "01234567-89AB-CDEF-0123-456789ABCDEF" =
      .ok "01234567-89ab-cdef-0123-456789abcdef" := by decide +kernel
  have hstep := (h _ _ rfl hset).1 rfl
  have herr : (step (new "01234567-89ab-cdef-0123-456789abcdef")
      (.setUUID 0 "01234567-89AB-CDEF-0123-456789ABCDEF")).2 = some .uuidNotUnique := by
    decide +kernel
  rw [hstep] at herr
  cases herr

/-- A component added through the API holds a UUID that the registry lacks: another component may
be given the same. -/
example : ((new "u").next (.addComponent "v" true)).usedUUIDs = {"u"} := by decide +kernel

end UUIDs

end NMR
