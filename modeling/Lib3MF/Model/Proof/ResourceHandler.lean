import Mathlib.Data.Finset.Card
import Mathlib.Data.List.Nodup
import Lib3MF.Lib.Run
import Lib3MF.Model.Classes.PackageResourceID

/-!
# The issued resource IDs

A handler keeps one relation in two maps: the IDs it issued, under their unique IDs and under
their pairs of path and model ID. The unique ID is counted from the size of the first map, in 32
bits: the two maps agree with the IDs issued (`AgreesWith`) as long as there are at most `2^32` of
them.
-/

namespace NMR

open Lib

/-- The part and the number in it that an ID stands for. -/
def PackageResourceID.pathAndId (p : PackageResourceID) : String × Nat := (p.path, p.id)

namespace ResourceHandler

/-- One call of `getNewResourceID`; the list holds the IDs issued so far, the first one first. -/
def issue (s : ResourceHandler × List PackageResourceID) (call : String × Nat) :
    ResourceHandler × List PackageResourceID :=
  match s.1.getNewResourceID call.1 call.2 with
  | .ok (h, p) => (h, s.2 ++ [p])
  | .error _ => s

/-- The handler and the IDs it issued, after the calls. -/
def issueAll (calls : List (String × Nat)) : ResourceHandler × List PackageResourceID :=
  run issue (empty, []) calls

/-- The IDs are distinct in both ways, and each lookup finds them and no others. -/
structure AgreesWith (h : ResourceHandler) (issued : List PackageResourceID) : Prop where
  distinct : (issued.map PackageResourceID.uniqueID).Nodup
  pairs : (issued.map PackageResourceID.pathAndId).Nodup
  byUniqueID : ∀ u p, h.findResourceID u = some p ↔ p ∈ issued ∧ p.uniqueID = u
  byPath : ∀ path id p,
    h.findResourceIDByPath path id = some p ↔ p ∈ issued ∧ p.pathAndId = (path, id)

/-- What holds however many IDs were issued: the first map keeps the first `2^32` of them. -/
structure Numbered (h : ResourceHandler) (issued : List PackageResourceID) : Prop where
  pairs : (issued.map PackageResourceID.pathAndId).Nodup
  byPath : ∀ path id p,
    h.findResourceIDByPath path id = some p ↔ p ∈ issued ∧ p.pathAndId = (path, id)
  size : h.resourceIDs.size = min issued.length (2 ^ 32)
  numbers : ∀ i p, issued[i]? = some p → p.uniqueID = (min i (2 ^ 32) + 1) % 2 ^ 32
  byUniqueID : ∀ u p, h.findResourceID u = some p ↔
    ∃ i < 2 ^ 32, issued[i]? = some p ∧ p.uniqueID = u

variable {h : ResourceHandler} {issued : List PackageResourceID} {call : String × Nat}

theorem numbered_empty : Numbered empty [] where
  pairs := List.nodup_nil
  byPath path id p := by simp [findResourceIDByPath, empty]
  size := rfl
  numbers i p hp := by simp at hp
  byUniqueID u p := by simp [findResourceID, empty]

/-- A pair is registered exactly when an ID was issued for it. -/
theorem Numbered.registered_iff (hn : Numbered h issued) :
    h.Registered call.1 call.2 ↔ call ∈ issued.map PackageResourceID.pathAndId := by
  rw [Registered, Option.isSome_iff_exists, List.mem_map]
  exact exists_congr fun p => hn.byPath call.1 call.2 p

/-- A rejected call changes nothing. -/
theorem issue_of_registered (hr : h.Registered call.1 call.2) :
    issue (h, issued) call = (h, issued) := by
  have hs : (h.findResourceIDByPath call.1 call.2).isSome = true := hr
  simp [issue, getNewResourceID, hs]

theorem issue_of_not_registered (issued : List PackageResourceID) (hr : ¬ h.Registered call.1 call.2) :
    ∃ h' p, h.getNewResourceID call.1 call.2 = .ok (h', p) ∧
      issue (h, issued) call = (h', issued ++ [p]) := by
  obtain ⟨⟨h', p⟩, hn⟩ := getNewResourceID_isOk.2 hr
  refine ⟨h', p, hn, ?_⟩
  simp [issue, hn]

theorem getElem?_append_last {p q : PackageResourceID} {i : Nat} :
    (issued ++ [q])[i]? = some p ↔ issued[i]? = some p ∨ (i = issued.length ∧ p = q) := by
  rw [List.getElem?_append]
  split_ifs with hi
  · constructor
    · exact .inl
    · rintro (hp | ⟨rfl, -⟩)
      · exact hp
      · exact absurd hi (Nat.lt_irrefl _)
  · rw [List.getElem?_eq_none (Nat.le_of_not_lt hi), List.getElem?_singleton]
    split_ifs with h0
    · have hi' : i = issued.length := by omega
      simp [hi', eq_comm]
    · have hi' : i ≠ issued.length := by omega
      simp [hi']

/-- The number the next ID gets is free as long as fewer than `2^32` were issued, and taken by the
first one from then on. -/
theorem Numbered.next_free (hn : Numbered h issued) :
    h.findResourceID ((h.resourceIDs.size + 1) % 2 ^ 32) = none ↔ issued.length < 2 ^ 32 := by
  constructor
  · intro hnone
    by_contra hge
    obtain ⟨p, hp⟩ : ∃ p, issued[0]? = some p :=
      ⟨_, List.getElem?_eq_getElem (by omega)⟩
    have hone : p.uniqueID = (h.resourceIDs.size + 1) % 2 ^ 32 := by
      rw [hn.numbers 0 p hp, hn.size]
      omega
    rw [(hn.byUniqueID _ p).2 ⟨0, by omega, hp, hone⟩] at hnone
    cases hnone
  · intro hlt
    rw [Option.eq_none_iff_forall_ne_some]
    intro p hp
    obtain ⟨i, -, hi, hu⟩ := (hn.byUniqueID _ p).1 hp
    have hlen : i < issued.length := (List.getElem?_eq_some_iff.1 hi).1
    rw [hn.numbers i p hi, hn.size] at hu
    omega

/-- One more ID. -/
theorem Numbered.append {h' : ResourceHandler} {p : PackageResourceID} (hn : Numbered h issued)
    (hp : h.getNewResourceID call.1 call.2 = .ok (h', p)) : Numbered h' (issued ++ [p]) := by
  obtain ⟨hr, hpe, rfl⟩ := getNewResourceID_spec hp
  have hpair : p.pathAndId = call := by rw [hpe]; rfl
  have hnum : p.uniqueID = (min issued.length (2 ^ 32) + 1) % 2 ^ 32 := by rw [hpe, ← hn.size]
  have hnew : call ∉ issued.map PackageResourceID.pathAndId := fun hm => hr (hn.registered_iff.2 hm)
  have hnone : h.findResourceIDByPath call.1 call.2 = none := by
    simpa [Registered] using hr
  have hfree := hn.next_free
  rw [hn.size, ← hnum] at hfree
  -- the first map takes the ID when its number is free, and stays as it is when not
  have hfirst : (h.resourceIDs.insert p.uniqueID p).size = min (issued.length + 1) (2 ^ 32) ∧
      ∀ u q, (h.resourceIDs.insert p.uniqueID p).find? u = some q ↔
        h.findResourceID u = some q ∨ (issued.length < 2 ^ 32 ∧ q = p ∧ p.uniqueID = u) := by
    by_cases hlt : issued.length < 2 ^ 32
    · have hnil : h.resourceIDs.find? p.uniqueID = none := hfree.2 hlt
      refine ⟨?_, fun u q => ?_⟩
      · rw [SortedMap.size_insert (SortedMap.find?_eq_none.1 hnil), hn.size]
        omega
      · rw [SortedMap.find?_insert]
        split_ifs with hu
        · subst hu
          rw [and_iff_right hlt]
          simp [findResourceID, hnil, eq_comm]
        · simp [findResourceID, Ne.symm hu]
    · have hk : p.uniqueID ∈ h.resourceIDs.keys := by
        by_contra hk
        exact hlt (hfree.1 (SortedMap.find?_eq_none.2 hk))
      rw [SortedMap.insert_of_mem hk]
      refine ⟨?_, fun u q => ?_⟩
      · rw [hn.size]
        omega
      · rw [or_iff_left fun hq => hlt hq.1]
        rfl
  refine ⟨?_, fun path id q => ?_, ?_, fun i q hq => ?_, fun u q => ?_⟩
  · rw [List.map_append, List.map_singleton, hpair, List.nodup_append]
    refine ⟨hn.pairs, List.nodup_singleton _, fun a ha b hb => ?_⟩
    rw [List.mem_singleton.1 hb]
    exact fun he => hnew (he ▸ ha)
  · rw [List.mem_append, List.mem_singleton, or_and_right, ← hn.byPath path id q]
    simp only [findResourceIDByPath] at hnone ⊢
    rw [SortedMap.find?_insert]
    split_ifs with he
    · have hc : (id, path) = (call.2, call.1) := toLex.injective he
      simp only [Prod.mk.injEq] at hc
      obtain ⟨rfl, rfl⟩ := hc
      rw [hnone]
      simp only [Option.getD_none, Option.some.injEq, reduceCtorEq, false_or]
      exact ⟨fun hq => ⟨hq.symm, hq ▸ hpair⟩, fun hq => hq.1.symm⟩
    · refine ⟨.inl, fun hq => hq.resolve_right fun hpq => he ?_⟩
      obtain ⟨hq, hq'⟩ := hpq
      rw [hq, hpair] at hq'
      rw [hq']
  · rw [List.length_append, List.length_singleton]
    exact hfirst.1
  · rcases getElem?_append_last.1 hq with hq | ⟨rfl, rfl⟩
    · exact hn.numbers i q hq
    · exact hnum
  · refine (hfirst.2 u q).trans ?_
    rw [hn.byUniqueID u q]
    constructor
    · rintro (⟨i, hi, hq, hu⟩ | ⟨hlt, rfl, hu⟩)
      · exact ⟨i, hi, getElem?_append_last.2 (.inl hq), hu⟩
      · exact ⟨issued.length, hlt, getElem?_append_last.2 (.inr ⟨rfl, rfl⟩), hu⟩
    · rintro ⟨i, hi, hq, hu⟩
      rcases getElem?_append_last.1 hq with hq | ⟨rfl, rfl⟩
      · exact .inl ⟨i, hi, hq, hu⟩
      · exact .inr ⟨hi, rfl, hu⟩

/-- One call, accepted or rejected. -/
theorem Numbered.next (hn : Numbered h issued) (call : String × Nat) :
    Numbered (issue (h, issued) call).1 (issue (h, issued) call).2 ∧
      ∀ c, c ∈ (issue (h, issued) call).2.map PackageResourceID.pathAndId ↔
        c = call ∨ c ∈ issued.map PackageResourceID.pathAndId := by
  by_cases hr : h.Registered call.1 call.2
  · rw [issue_of_registered hr]
    refine ⟨hn, fun c => ?_⟩
    have hc := hn.registered_iff.1 hr
    constructor
    · exact .inr
    · rintro (rfl | hm)
      · exact hc
      · exact hm
  · obtain ⟨h', p, hp, he⟩ := issue_of_not_registered issued hr
    rw [he]
    refine ⟨hn.append hp, fun c => ?_⟩
    obtain ⟨-, hpe, -⟩ := getNewResourceID_spec hp
    have hpair : p.pathAndId = call := by rw [hpe]; rfl
    simp [hpair, or_comm]

theorem numbered_run (calls : List (String × Nat)) (hn : Numbered h issued) :
    Numbered (run issue (h, issued) calls).1 (run issue (h, issued) calls).2 ∧
      ∀ c, c ∈ (run issue (h, issued) calls).2.map PackageResourceID.pathAndId ↔
        c ∈ calls ∨ c ∈ issued.map PackageResourceID.pathAndId := by
  induction calls generalizing h issued with
  | nil => exact ⟨hn, fun c => by simp⟩
  | cons call calls ih =>
    obtain ⟨h1, h2⟩ := hn.next call
    obtain ⟨h3, h4⟩ := ih h1
    refine ⟨h3, fun c => ?_⟩
    rw [run_cons, h4 c, h2 c, List.mem_cons]
    tauto

/-- After any calls, one ID for each pair asked for. -/
theorem numbered_issueAll (calls : List (String × Nat)) :
    Numbered (issueAll calls).1 (issueAll calls).2 ∧
      (issueAll calls).2.length = calls.toFinset.card := by
  obtain ⟨hn, hm⟩ := numbered_run calls numbered_empty
  rw [← issueAll] at hn hm
  refine ⟨hn, ?_⟩
  have hset : ((issueAll calls).2.map PackageResourceID.pathAndId).toFinset = calls.toFinset := by
    ext c
    rw [List.mem_toFinset, List.mem_toFinset]
    simpa using hm c
  rw [← hset, List.toFinset_card_of_nodup hn.pairs, List.length_map]

/-- While the numbers do not come again, the maps agree with the IDs issued. -/
theorem Numbered.agreesWith_iff (hn : Numbered h issued) :
    h.AgreesWith issued ↔ issued.length ≤ 2 ^ 32 := by
  constructor
  · intro ha
    by_contra hlen
    obtain ⟨p, hp⟩ : ∃ p, issued[0]? = some p := ⟨_, List.getElem?_eq_getElem (by omega)⟩
    obtain ⟨q, hq⟩ : ∃ q, issued[2 ^ 32]? = some q := ⟨_, List.getElem?_eq_getElem (by omega)⟩
    have he : p.uniqueID = q.uniqueID := by
      rw [hn.numbers 0 p hp, hn.numbers _ q hq]
      omega
    have hi := List.nodup_iff_getElem?_ne_getElem?.1 ha.distinct 0 (2 ^ 32) (by omega)
      (by rw [List.length_map]; omega)
    rw [List.getElem?_map, List.getElem?_map, hp, hq, Option.map_some, Option.map_some, he] at hi
    exact hi rfl
  · intro hlen
    have hnum : ∀ i p, issued[i]? = some p → i < 2 ^ 32 ∧ p.uniqueID = (i + 1) % 2 ^ 32 := by
      intro i p hp
      have hi := (List.getElem?_eq_some_iff.1 hp).1
      have hpn := hn.numbers i p hp
      exact ⟨by omega, by omega⟩
    refine ⟨?_, hn.pairs, fun u p => ?_, hn.byPath⟩
    · rw [List.nodup_iff_getElem?_ne_getElem?]
      intro i j hij hj
      rw [List.length_map] at hj
      rw [List.getElem?_map, List.getElem?_map, List.getElem?_eq_getElem (hij.trans hj),
        List.getElem?_eq_getElem hj, Option.map_some, Option.map_some, ne_eq, Option.some.injEq]
      have h1 := hnum i _ (List.getElem?_eq_getElem (hij.trans hj))
      have h2 := hnum j _ (List.getElem?_eq_getElem hj)
      omega
    · rw [hn.byUniqueID, List.mem_iff_getElem?]
      constructor
      · rintro ⟨i, -, hi, hu⟩
        exact ⟨⟨i, hi⟩, hu⟩
      · rintro ⟨⟨i, hi⟩, hu⟩
        exact ⟨i, (hnum i p hi).1, hi, hu⟩

/-- **The two maps of the handler**: after any sequence of calls, accepted or rejected, the unique
IDs are distinct and both lookups find each issued ID and nothing else, exactly when the calls
ask for at most `2^32` different pairs. -/
theorem issued_ids_agree (calls : List (String × Nat)) :
    (issueAll calls).1.AgreesWith (issueAll calls).2 ↔ calls.toFinset.card ≤ 2 ^ 32 := by
  obtain ⟨hn, hlen⟩ := numbered_issueAll calls
  rw [hn.agreesWith_iff, hlen]

/-- The model IDs of the root part, all of 32 bits, and one of a second part: the last call gets
the unique ID of the first. -/
theorem unique_id_again :
    ¬ ∀ calls : List (String × Nat), (issueAll calls).1.AgreesWith (issueAll calls).2 := by
  intro h
  obtain ⟨n, hn⟩ : ∃ n, n = 2 ^ 32 := ⟨_, rfl⟩
  have hc := h ((List.range n).map (fun i => ("/3D/3dmodel.model", i)) ++ [("/3D/other.model", 0)])
  obtain ⟨hnum, hlen⟩ := numbered_issueAll
    ((List.range n).map (fun i => ("/3D/3dmodel.model", i)) ++ [("/3D/other.model", 0)])
  rw [hnum.agreesWith_iff, hlen, List.toFinset_card_of_nodup] at hc
  · simp only [List.length_append, List.length_map, List.length_range, List.length_singleton] at hc
    omega
  · rw [List.nodup_append]
    refine ⟨List.nodup_range.map fun i j hij => by simpa using hij, List.nodup_singleton _, ?_⟩
    intro a ha b hb
    obtain ⟨i, -, rfl⟩ := List.mem_map.1 ha
    rw [List.mem_singleton.1 hb]
    simp

end ResourceHandler

end NMR
