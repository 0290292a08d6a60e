import Lib3MF.Lib.Except
import Lib3MF.Model.Classes.ToolpathProfiles

/-!
# Finding the profiles of a toolpath

`InStep`: the map holds each profile under its UUID and nothing else, and no two profiles have one
UUID. A profile added keeps this exactly when it is put in the map under its UUID and that is new
(`inStep_pushProfile_iff`). `addExistingProfile` puts a profile in the map under the text it is
given, whatever its spelling, and neither call asks whether the UUID is new; so a run keeps it
exactly when every text is in the normal form and every UUID new (`profiles_inStep_iff`).
-/

namespace NMR.Toolpath

open Lib

variable {t : Toolpath} {key text : String} {uuid : UUID} {d : ProfileData}

/-- The map by UUID and the list hold the same profiles, with different UUIDs. -/
structure InStep (t : Toolpath) : Prop where
  same : ∀ key i, t.profileMap.find? key = some i ↔ (t.profiles[i]?).map (·.uuid) = some key
  distinct : t.profiles.Pairwise fun p q => UUID.set p.uuid ≠ UUID.set q.uuid

/-- Every UUID in the list is in its normal form. -/
def Normal (t : Toolpath) : Prop := ∀ p ∈ t.profiles, UUID.set p.uuid = .ok p.uuid

/-- Every profile is found by its `getUUID`. -/
def Answers (t : Toolpath) : Prop :=
  ∀ i p, t.profiles[i]? = some p → t.getProfileByUUID p.uuid = some i

/-- No profile has the UUID. -/
def Unused (t : Toolpath) (uuid : UUID) : Prop := ∀ p ∈ t.profiles, p.uuid ≠ uuid

/-- What a profile must be added with: a new UUID, in the normal form. -/
def Allowed (t : Toolpath) : ToolpathCall → Prop
  | .addProfile digits _ => ∀ uuid, UUID.set digits = .ok uuid → t.Unused uuid
  | .addExistingProfile text _ => ∀ uuid, UUID.set text = .ok uuid → text = uuid ∧ t.Unused uuid

theorem inStep_new : InStep new ∧ Normal new := by
  refine ⟨⟨fun key i => ?_, List.Pairwise.nil⟩, fun p hp => ?_⟩
  · simp [new]
  · simp [new] at hp

theorem InStep.answers (ht : InStep t) : Answers t := by
  intro i p hp
  apply (ht.same p.uuid i).2
  simp [hp]

/-- The keys of the map are the UUIDs in the list. -/
theorem InStep.mem_keys (ht : InStep t) :
    key ∈ t.profileMap.keys ↔ ∃ p ∈ t.profiles, p.uuid = key := by
  rw [← SortedMap.find?_isSome, Option.isSome_iff_exists]
  simp only [ht.same, Option.map_eq_some_iff]
  constructor
  · intro ⟨i, p, hp, he⟩
    exact ⟨p, List.mem_of_getElem? hp, he⟩
  · intro ⟨p, hp, he⟩
    obtain ⟨i, hi⟩ := List.mem_iff_getElem?.1 hp
    exact ⟨i, p, hi, he⟩

/-- In their normal form, UUIDs are the same only where their texts are. -/
theorem Normal.unused_iff (hn : Normal t) (hu : UUID.set uuid = .ok uuid) :
    t.Unused uuid ↔ ∀ p ∈ t.profiles, UUID.set p.uuid ≠ UUID.set uuid := by
  apply forall₂_congr
  intro p hp
  rw [hn p hp, hu, Ne, Ne, Except.ok.injEq]

/-- **A profile added** keeps the map and the list in step exactly when it is in the map under its
UUID, which is new. -/
theorem inStep_pushProfile_iff (ht : InStep t) (hn : Normal t) (hu : UUID.set uuid = .ok uuid) :
    InStep (t.pushProfile key uuid d) ↔ key = uuid ∧ t.Unused uuid := by
  have hlast : (t.pushProfile key uuid d).profiles[t.profiles.length]? =
      some ⟨uuid, d.name, d.laserPower, d.laserSpeed, d.laserFocus, d.laserIndex⟩ := by
    simp [pushProfile]
  constructor
  · intro h
    have hfind : (t.profileMap.insert key t.profiles.length).find? uuid =
        some t.profiles.length := by
      apply (h.same uuid t.profiles.length).2
      rw [hlast]
      rfl
    have hpair := List.pairwise_append.1 h.distinct
    have hunused : t.Unused uuid := by
      rw [hn.unused_iff hu]
      intro p hp
      have hne := hpair.2.2 p hp _ (List.mem_singleton.2 rfl)
      exact hne
    refine ⟨?_, hunused⟩
    -- a key that is another text leaves the UUID without a profile
    by_contra hne
    have hnew : uuid ∉ t.profileMap.keys := by
      intro hk
      obtain ⟨p, hp, he⟩ := ht.mem_keys.1 hk
      exact hunused p hp he
    rw [SortedMap.find?_insert] at hfind
    rw [if_neg (Ne.symm hne), SortedMap.find?_eq_none.2 hnew] at hfind
    cases hfind
  · rintro ⟨rfl, hunused⟩
    have hnew : key ∉ t.profileMap.keys := by
      intro hk
      obtain ⟨p, hp, he⟩ := ht.mem_keys.1 hk
      exact hunused p hp he
    refine ⟨fun k i => ?_, ?_⟩
    · change (t.profileMap.insert key t.profiles.length).find? k = some i ↔ _
      rw [SortedMap.find?_insert, SortedMap.find?_eq_none.2 hnew, Option.getD_none]
      simp only [pushProfile, List.getElem?_append]
      by_cases hi : i < t.profiles.length
      · rw [if_pos hi, ← ht.same]
        by_cases hk : k = key
        · rw [if_pos hk, hk, SortedMap.find?_eq_none.2 hnew]
          simp only [Option.some.injEq, reduceCtorEq, iff_false]
          omega
        · rw [if_neg hk]
      · rw [if_neg hi]
        by_cases hk : k = key
        · rw [if_pos hk, hk, Option.some.injEq]
          by_cases he : t.profiles.length = i
          · simp [he]
          · have hpos : i - t.profiles.length ≠ 0 := by omega
            simp [he, hpos]
        · rw [if_neg hk, ht.same, List.getElem?_eq_none (not_lt.1 hi)]
          simp only [Option.map_none, reduceCtorEq, false_iff]
          intro hc
          by_cases he : i - t.profiles.length = 0
          · simp [he] at hc
            exact hk hc.symm
          · simp [he] at hc
    · refine List.pairwise_append.2 ⟨ht.distinct, List.pairwise_singleton .., ?_⟩
      intro p hp q hq
      rw [List.mem_singleton.1 hq]
      exact (hn.unused_iff hu).1 hunused p hp

theorem normal_pushProfile (hn : Normal t) (hu : UUID.set uuid = .ok uuid) :
    Normal (t.pushProfile key uuid d) := by
  intro p hp
  rcases List.mem_append.1 hp with hp | hp
  · exact hn p hp
  · rw [List.mem_singleton.1 hp]
    exact hu

/-! ## Runs -/

theorem next_addProfile (t : Toolpath) (digits : String) (d : ProfileData) :
    t.next (.addProfile digits d) = match UUID.set digits with
      | .ok uuid => t.pushProfile uuid uuid d
      | .error _ => t := by
  show (orThrow t (t.addProfile digits d)).1 = _
  unfold addProfile
  cases UUID.set digits <;> rfl

theorem next_addExistingProfile (t : Toolpath) (text : String) (d : ProfileData) :
    t.next (.addExistingProfile text d) = match UUID.set text with
      | .ok uuid => t.pushProfile text uuid d
      | .error _ => t := by
  show (orThrow t (t.addExistingProfile text d)).1 = _
  unfold addExistingProfile
  cases UUID.set text <;> rfl

/-- **A call keeps the map and the list in step** exactly when it is allowed. -/
theorem inStep_next_iff (t : Toolpath) (c : ToolpathCall) (ht : InStep t ∧ Normal t) :
    InStep (t.next c) ∧ Normal (t.next c) ↔ Allowed t c := by
  cases c with
  | addProfile digits d =>
    rw [next_addProfile, Allowed]
    cases h : UUID.set digits with
    | error e => exact iff_of_true ht nofun
    | ok uuid =>
      have hu := UUID.set_set h
      rw [and_iff_left (normal_pushProfile ht.2 hu), inStep_pushProfile_iff ht.1 ht.2 hu]
      simp
  | addExistingProfile text d =>
    rw [next_addExistingProfile, Allowed]
    cases h : UUID.set text with
    | error e => exact iff_of_true ht nofun
    | ok uuid =>
      have hu := UUID.set_set h
      rw [and_iff_left (normal_pushProfile ht.2 hu), inStep_pushProfile_iff ht.1 ht.2 hu]
      simp

/-- A run keeps every UUID in its normal form. -/
theorem normal_next (t : Toolpath) (c : ToolpathCall) (hn : Normal t) : Normal (t.next c) := by
  cases c with
  | addProfile digits d =>
    rw [next_addProfile]
    cases h : UUID.set digits with
    | error e => exact hn
    | ok uuid => exact normal_pushProfile hn (UUID.set_set h)
  | addExistingProfile text d =>
    rw [next_addExistingProfile]
    cases h : UUID.set text with
    | error e => exact hn
    | ok uuid => exact normal_pushProfile hn (UUID.set_set h)

/-- **The list and the map hold the same profiles**, with different UUIDs, and every profile is
found by its UUID, in every state of a run exactly when each profile of it is added under a new
UUID in the normal form. -/
theorem profiles_inStep_iff (calls : List ToolpathCall) :
    (∀ t, Reaches next new calls t → InStep t ∧ Answers t) ↔ Guarded next Allowed new calls := by
  rw [← guarded_iff (fun t => InStep t ∧ Normal t) inStep_new inStep_next_iff]
  apply forall₂_congr
  intro t ht
  have hn : Normal t := @Reaches.inv _ _ _ (fun _ _ => True) _ _ _ Normal ht inStep_new.2
    (fun t c hn _ => normal_next t c hn) (guarded_true _ _ _)
  exact ⟨fun h => ⟨h.1, hn⟩, fun h => ⟨h.1, h.1.answers⟩⟩

/-- A profile read from a file that spells its UUID in upper case: it is not found. -/
theorem upperCase_not_found :
    ¬ ∀ t, Reaches next new
        [.addExistingProfile "01234567-89AB-CDEF-0123-456789ABCDEF" ⟨"", none, none, none, 0⟩] t →
      InStep t ∧ Answers t := by
  intro h
  have hend := (h _ (reaches_run _ _)).2 0 ⟨"01234567-89ab-cdef-0123-456789abcdef", "", none, none,
    none, 0⟩ (by decide +kernel)
  exact absurd hend (by decide +kernel)

end NMR.Toolpath
