import Mathlib.Tactic.Tauto
import Lib3MF.API.Proof.MeshObject
import Lib3MF.Common.MeshInformation.CMesh
import Lib3MF.Common.MeshInformation.Proof.MeshInformation
import Lib3MF.Lib.Run

/-!
# The informations of a mesh over its runs

`CMesh.Good b m`: each registered information has a record for every face of `m`, what is looked up
is registered and, where `b` holds, what is registered can be looked up. All calls keep it, but
that `removeInformationIndexed` needs `Spares` for the part under `b` (`good_next`). The nodes,
faces and beams are those of an `EditedMesh` under the same calls (`SameElements`).
-/

namespace NMR

open Lib

namespace CMeshInformationHandler

variable {b : Prop} {h h' other : CMeshInformationHandler} {count : Nat → Nat} {n a : Nat}
  {o : CMeshInformation} {x : EStateM (Fault Error) CMeshInformation Unit}

/-- Information `a`, where it is registered, has records for `count a` faces. -/
structure Good (b : Prop) (count : Nat → Nat) (h : CMeshInformationHandler) : Prop where
  nodup : h.informations.Nodup
  records : ∀ a ∈ h.informations, ∃ o, h.objects[a]? = some o ∧ o.RecordsOf (count a)
  found : ∀ type a, h.lookup type = some a → a ∈ h.informations ∧ h.typeOf a = some type
  registered : b → ∀ a ∈ h.informations, ∀ type, h.typeOf a = some type → h.lookup type ≠ none

theorem good_new (b : Prop) (count : Nat → Nat) : Good b count new :=
  ⟨List.nodup_nil, nofun, nofun, fun _ => nofun⟩

theorem typeOf_set {objects : List CMeshInformation} {o' : CMeshInformation}
    (ha : objects[a]? = some o) (ht : o'.type = o.type) (c : Nat) :
    ((objects.set a o')[c]?).map (·.type) = (objects[c]?).map (·.type) := by
  rw [List.getElem?_set]
  split_ifs with hac hlt
  · rw [← hac, ha, Option.map_some, Option.map_some, ht]
  · exact absurd (List.getElem?_eq_some_iff.1 ha).1 hlt
  · rfl

/-- An information is changed. -/
theorem Good.set (hg : Good b count h) (ha : h.objects[a]? = some o) {o' : CMeshInformation}
    (ht : o'.type = o.type) (hr : o'.RecordsOf n) :
    Good b (Function.update count a n) { h with objects := h.objects.set a o' } where
  nodup := hg.nodup
  records c hc := by
    by_cases hca : c = a
    · rw [hca, Function.update_self]
      exact ⟨o', List.getElem?_set_self (List.getElem?_eq_some_iff.1 ha).1, hr⟩
    · rw [Function.update_of_ne hca]
      obtain ⟨p, hp, hpr⟩ := hg.records c hc
      exact ⟨p, by rwa [List.getElem?_set_ne (Ne.symm hca)], hpr⟩
  found type c hc := by
    obtain ⟨hm, hty⟩ := hg.found type c hc
    exact ⟨hm, (typeOf_set ha ht c).trans hty⟩
  registered hb c hc type hty := hg.registered hb c hc type ((typeOf_set ha ht c).symm.trans hty)

/-- A function that keeps the records of an information. -/
theorem Good.onInformation (hg : Good b count h) (ha : a ∈ h.informations)
    (hx : ∀ o, o.RecordsOf (count a) → Ends (x o) (o.Kept (count a)) (o.Kept (count a))) :
    Ends (onInformation a x h) (Good b count) (Good b count) := by
  obtain ⟨o, ho, hr⟩ := hg.records a ha
  have hends := hx o hr
  have hset {o' : CMeshInformation} (hk : o.Kept (count a) o') :
      Good b count { h with objects := h.objects.set a o' } := by
    have hgood := hg.set ho hk.2 hk.1
    rwa [Function.update_eq_self] at hgood
  unfold CMeshInformationHandler.onInformation
  rw [ho]
  dsimp only
  cases hxo : x o with
  | ok v o' =>
    rw [hxo] at hends
    exact hset hends
  | error e o' =>
    rw [hxo] at hends
    exact hset hends

/-- A new information. -/
theorem Good.addInformation (hg : Good b (fun _ => n) h) (hr : o.RecordsOf n) :
    Ends (addInformation o h) (Good b fun _ => n) (Good b fun _ => n) := by
  have hlt {c : Nat} (hc : c ∈ h.informations) : c < h.objects.length := by
    obtain ⟨p, hp, -⟩ := hg.records c hc
    exact (List.getElem?_eq_some_iff.1 hp).1
  obtain ⟨o', ho'⟩ : ∃ o', o' = { o with internalID := h.internalIDCounter } := ⟨_, rfl⟩
  have hr' : o'.RecordsOf n := by
    obtain ⟨ptrs, xs, hrec, hlen⟩ := hr
    exact ⟨ptrs, xs, ho' ▸ ⟨hrec.lies, hrec.written⟩, hlen⟩
  have ht' : o'.type = o.type := by rw [ho']
  have hold {c : Nat} (hc : c ∈ h.informations) :
      (h.objects ++ [o'])[c]? = h.objects[c]? := List.getElem?_append_left (hlt hc)
  have hnew : (h.objects ++ [o'])[h.objects.length]? = some o' := List.getElem?_concat_length
  have hgood : Good b (fun _ => n)
      { objects := h.objects ++ [o']
        informations := h.informations ++ [h.objects.length]
        lookup := Function.update h.lookup o.type (some h.objects.length)
        internalIDCounter := h.internalIDCounter + 1 } := by
    refine ⟨?_, fun c hc => ?_, fun type c hc => ?_, fun hb c hc type hty => ?_⟩
    · refine List.nodup_append.2 ⟨hg.nodup, List.nodup_singleton _, fun c hc d hd => ?_⟩
      rw [List.mem_singleton.1 hd]
      exact Nat.ne_of_lt (hlt hc)
    · rcases List.mem_append.1 hc with hc | hc
      · obtain ⟨p, hp, hpr⟩ := hg.records c hc
        exact ⟨p, (hold hc).trans hp, hpr⟩
      · rw [List.mem_singleton.1 hc]
        exact ⟨o', hnew, hr'⟩
    · dsimp only at hc
      rw [Function.update_apply] at hc
      split_ifs at hc with htype
      · subst htype
        obtain rfl := Option.some.inj hc
        refine ⟨List.mem_append_right _ (List.mem_singleton.2 rfl), ?_⟩
        rw [typeOf, hnew, Option.map_some, ht']
      · obtain ⟨hm, hty⟩ := hg.found type c hc
        exact ⟨List.mem_append_left _ hm, (congrArg _ (hold hm)).trans hty⟩
    · dsimp only
      rw [Function.update_apply]
      split_ifs with htype
      · exact Option.some_ne_none _
      · rcases List.mem_append.1 hc with hc | hc
        · exact hg.registered hb c hc type ((congrArg _ (hold hc)).symm.trans hty)
        · rw [List.mem_singleton.1 hc, typeOf, hnew, Option.map_some, ht'] at hty
          exact absurd (Option.some.inj hty).symm htype
  rw [ho'] at hgood
  unfold CMeshInformationHandler.addInformation
  dsimp only
  split_ifs
  · exact hgood
  · exact hgood

/-- One information in `addFace`. -/
theorem Good.addFaceTo (hg : Good b count h) (ha : a ∈ h.informations)
    (hn : count a + 1 < 2 ^ 32) :
    Succeeds (CMeshInformationHandler.onInformation a
      (CMeshInformation.addFace (BitVec.ofNat 32 (count a + 1)))) h
      fun h' => Good b (Function.update count a (count a + 1)) h' ∧
        h'.informations = h.informations := by
  obtain ⟨o, ho, hr⟩ := hg.records a ha
  obtain ⟨o', hadd, hr', ht⟩ := hr.addFace hn
  refine ⟨(), { h with objects := h.objects.set a o' }, ?_, hg.set ho ht hr', rfl⟩
  unfold CMeshInformationHandler.onInformation
  rw [ho]
  dsimp only
  rw [hadd]

/-- The loop in `addFace`, over the informations `l` that have records for `n` faces. -/
theorem Good.addFaceLoop {l : List Nat} (hg : Good b count h) (hn : n + 1 < 2 ^ 32)
    (hnodup : l.Nodup) (hl : ∀ a ∈ l, a ∈ h.informations ∧ count a = n) :
    Succeeds (l.forM fun a => CMeshInformationHandler.onInformation a
      (CMeshInformation.addFace (BitVec.ofNat 32 (n + 1)))) h fun h' =>
        Good b (fun a => if a ∈ l then n + 1 else count a) h' ∧
          h'.informations = h.informations := by
  induction l generalizing h count with
  | nil => exact ⟨_, h, rfl, by simpa using hg, rfl⟩
  | cons a l ih =>
    obtain ⟨hnot, hnodup⟩ := List.nodup_cons.1 hnodup
    obtain ⟨ha, hca⟩ := hl a List.mem_cons_self
    have hone := hg.addFaceTo ha (by rwa [hca])
    rw [hca] at hone
    refine hone.bind fun _ h1 ⟨hg1, hi1⟩ => ?_
    refine (ih hg1 hnodup fun c hc => ?_).mono fun h2 ⟨hg2, hi2⟩ => ⟨?_, hi2.trans hi1⟩
    · obtain ⟨hm, hcc⟩ := hl c (List.mem_cons_of_mem _ hc)
      have hne : c ≠ a := by
        rintro rfl
        exact hnot hc
      exact ⟨hi1 ▸ hm, by rw [Function.update_of_ne hne, hcc]⟩
    · convert hg2 using 2 with c
      by_cases hca' : c = a
      · rw [if_pos (by simp [hca']), hca', if_neg hnot, Function.update_self]
      · simp [hca']

/-- **`addFace`** adds a record to each information. -/
theorem Good.addFace (hg : Good b (fun _ => n) h) (hn : n + 1 < 2 ^ 32) :
    Succeeds (CMeshInformationHandler.addFace (BitVec.ofNat 32 (n + 1))) h
      (Good b fun _ => n + 1) := by
  refine (hg.addFaceLoop hn hg.nodup fun a ha => ⟨ha, rfl⟩).mono fun h' ⟨hg', hi⟩ => ?_
  refine ⟨hg'.nodup, fun c hc => ?_, hg'.found, hg'.registered⟩
  obtain ⟨o, ho, hr⟩ := hg'.records c hc
  rw [if_pos (hi ▸ hc)] at hr
  exact ⟨o, ho, hr⟩

/-- **`addInfoTableFrom`** adds informations for the faces there are. -/
theorem Good.addInfoTableFrom (hg : Good b (fun _ => n) h) (hn : n < 2 ^ 32)
    (other : CMeshInformationHandler) :
    Ends (addInfoTableFrom other n h) (Good b fun _ => n) (Good b fun _ => n) := by
  refine Ends.forM (fun type _ h hg => ?_) hg
  unfold addInfoOfType
  split
  · rename_i c _ _
    cases elementAt other.objects c with
    | error e => exact hg
    | ok p =>
      obtain ⟨o, ho, hr, -⟩ := CMeshInformation.create_records p.type hn
      have hclone : ((.ok p : Checked Error CMeshInformation) >>= fun o => o.cloneInstance n) =
          .ok o := ho
      rw [hclone]
      exact hg.addInformation hr
  · exact hg

/-- **`cloneFaceInfosFrom`** writes records. -/
theorem Good.cloneFaceInfosFrom (hg : Good b count h) (i j : BitVec 32)
    (other : CMeshInformationHandler) :
    Ends (cloneFaceInfosFrom i other j h) (Good b count) (Good b count) := by
  refine Ends.forM (fun type _ h hg => ?_) hg
  unfold cloneFaceInfosOfType
  split
  · rename_i c d _ hd
    cases elementAt other.objects c with
    | error e => exact hg
    | ok p =>
      exact hg.onInformation (hg.found type d hd).1 fun o ho => ho.cloneFaceInfosFrom i j
  · exact hg

theorem Good.setFaceData (hg : Good b count h) (index : Nat) (i : BitVec 32)
    (r : FaceProperties) :
    Ends (setFaceData index i r h) (Good b count) (Good b count) := by
  unfold CMeshInformationHandler.setFaceData
  split
  · exact hg
  · rename_i c hc
    exact hg.onInformation (List.mem_of_getElem? hc) fun o ho => ho.setFaceData i r

theorem update_none_eq_some {lookup : MeshInformationType → Option Nat}
    {type t : MeshInformationType} :
    Function.update lookup type none t = some a ↔ t ≠ type ∧ lookup t = some a := by
  rw [Function.update_apply]
  split_ifs with ht
  · simp [ht]
  · simp [ht]

/-- **`removeInformation`** takes all informations of a type. -/
theorem Good.removeInformation (hg : Good b count h) (type : MeshInformationType) :
    Ends (removeInformation type h) (Good b count) (Good b count) := by
  refine ⟨hg.nodup.filter _, fun c hc => hg.records c (List.mem_filter.1 hc).1,
    fun t c hc => ?_, fun hb c hc t hty => ?_⟩
  · obtain ⟨ht, hc⟩ := update_none_eq_some.1 hc
    obtain ⟨hm, hty⟩ := hg.found t c hc
    refine ⟨List.mem_filter.2 ⟨hm, ?_⟩, hty⟩
    rw [hty]
    simpa using ht
  · obtain ⟨hm, hne⟩ := List.mem_filter.1 hc
    have hty' : h.typeOf c = some t := hty
    rw [hty'] at hne
    have ht : t ≠ type := by simpa using hne
    dsimp only
    rw [Function.update_of_ne ht]
    exact hg.registered hb c hm t hty

/-- Removing information `index` leaves no other of its type behind that is looked up no more. -/
def Spares (h : CMeshInformationHandler) (index : Nat) : Prop :=
  ∀ a type, h.informations[index]? = some a → h.getInformationByType type = some a →
    ∀ c ∈ h.informations, c ≠ a → h.typeOf c ≠ some type

theorem mem_eraseIdx_iff (hnodup : h.informations.Nodup) {index : Nat}
    (ha : h.informations[index]? = some a) (c : Nat) :
    c ∈ h.informations.eraseIdx index ↔ c ∈ h.informations ∧ c ≠ a := by
  obtain ⟨hlt, rfl⟩ := List.getElem?_eq_some_iff.1 ha
  rw [← hnodup.erase_getElem index hlt, hnodup.mem_erase_iff, and_comm]

/-- What `removeInformationIndexed` does. -/
theorem removeInformationIndexed_cases (index : Nat) :
    finalState (removeInformationIndexed index h) = h ∨
      ∃ a type, h.informations[index]? = some a ∧ h.typeOf a = some type ∧
        removeInformationIndexed index h = .ok () { h with
          informations := h.informations.eraseIdx index
          lookup := if h.lookup type = some a then Function.update h.lookup type none
            else h.lookup } := by
  unfold removeInformationIndexed
  cases ha : h.informations[index]? with
  | none => exact .inl rfl
  | some a =>
    cases ht : h.typeOf a with
    | none =>
      dsimp only
      rw [ht]
      exact .inl rfl
    | some type =>
      refine .inr ⟨a, type, rfl, ht, ?_⟩
      dsimp only
      rw [ht]

/-- **`removeInformationIndexed`** takes one information. -/
theorem Good.removeInformationIndexed (hg : Good b count h) (index : Nat)
    (hs : b → h.Spares index) :
    Good b count (finalState (removeInformationIndexed index h)) := by
  rcases @removeInformationIndexed_cases h index with he | ⟨a, type, ha, hta, he⟩
  · rwa [he]
  · rw [he]
    have hmem := mem_eraseIdx_iff hg.nodup ha
    refine ⟨hg.nodup.eraseIdx index, fun c hc => hg.records c ((hmem c).1 hc).1,
      fun t c hc => ?_, fun hb c hc t hty => ?_⟩
    · have hcase : h.lookup t = some c ∧ c ≠ a := by
        change (if h.lookup type = some a then Function.update h.lookup type none
          else h.lookup) t = some c at hc
        split_ifs at hc with hl
        · obtain ⟨htt, hc⟩ := update_none_eq_some.1 hc
          refine ⟨hc, ?_⟩
          rintro rfl
          exact htt (Option.some.inj ((hg.found t c hc).2.symm.trans hta))
        · refine ⟨hc, ?_⟩
          rintro rfl
          obtain rfl : t = type := Option.some.inj ((hg.found t c hc).2.symm.trans hta)
          exact hl hc
      obtain ⟨hm, hty⟩ := hg.found t c hcase.1
      exact ⟨(hmem c).2 ⟨hm, hcase.2⟩, hty⟩
    · obtain ⟨hm, hne⟩ := (hmem c).1 hc
      show (if h.lookup type = some a then Function.update h.lookup type none
        else h.lookup) t ≠ none
      split_ifs with hl
      · have htt : t ≠ type := by
          rintro rfl
          exact hs hb a t ha hl c hm hne hty
        rw [Function.update_of_ne htt]
        exact hg.registered hb c hm t hty
      · exact hg.registered hb c hm t hty

/-- Otherwise an information is left that is looked up no more. -/
theorem spares_of_good {index : Nat} (hg : Good b count h)
    (hg' : Good True count (finalState (removeInformationIndexed index h))) : h.Spares index := by
  intro a t ha hget c hc hne hty
  have hl : h.lookup t = some a := hget
  have hta := (hg.found t a hl).2
  rcases @removeInformationIndexed_cases h index with he | ⟨a', type, ha', hta', he⟩
  · unfold removeInformationIndexed at he
    rw [ha] at he
    dsimp only at he
    rw [hta] at he
    have hlen := congrArg (fun h => h.informations) he
    have hmem := (mem_eraseIdx_iff hg.nodup ha a).1
    have heq : h.informations.eraseIdx index = h.informations := hlen
    rw [heq] at hmem
    exact (hmem (List.mem_of_getElem? ha)).2 rfl
  · obtain rfl := Option.some.inj (ha.symm.trans ha')
    obtain rfl := Option.some.inj (hta.symm.trans hta')
    rw [he] at hg'
    refine hg'.registered trivial c ((mem_eraseIdx_iff hg.nodup ha c).2 ⟨hc, hne⟩) t hty ?_
    show (if h.lookup t = some a then Function.update h.lookup t none else h.lookup) t = none
    rw [if_pos hl, Function.update_self]

end CMeshInformationHandler

namespace CMesh

open CMeshInformationHandler

variable {b : Prop} {m : CMesh} {x : EStateM (Fault Error) CMeshInformationHandler Unit}

/-- The faces are not too many, and the handler is good for their number. -/
structure Good (b : Prop) (m : CMesh) : Prop where
  quota : m.faces.length ≤ meshMaxCount
  handler : ∀ h, m.meshInformationHandler = some h →
    CMeshInformationHandler.Good b (fun _ => m.faces.length) h

theorem good_new (b : Prop) : Good b new := ⟨Nat.zero_le _, nofun⟩

theorem Good.lt (hm : Good b m) : m.faces.length + 1 < 2 ^ 32 := by
  have hq := hm.quota
  unfold meshMaxCount at hq
  omega

/-- A good mesh with the same faces and another handler. -/
theorem Good.withHandler (hm : Good b m) {h : CMeshInformationHandler}
    (hg : CMeshInformationHandler.Good b (fun _ => m.faces.length) h) :
    Good b { m with meshInformationHandler := some h } :=
  ⟨hm.quota, fun _ hh => Option.some.inj hh ▸ hg⟩

/-- A function that keeps the handler good. -/
theorem Good.onHandler (hm : Good b m)
    (hx : ∀ h, CMeshInformationHandler.Good b (fun _ => m.faces.length) h →
      Ends (x h) (CMeshInformationHandler.Good b fun _ => m.faces.length)
        (CMeshInformationHandler.Good b fun _ => m.faces.length)) :
    Ends (CMesh.onHandler x m) (Good b) (Good b) := by
  unfold CMesh.onHandler
  cases hh : m.meshInformationHandler with
  | none => exact hm
  | some h =>
    have hends := hx h (hm.handler h hh)
    dsimp only
    cases hxh : x h with
    | ok u h' =>
      rw [hxh] at hends
      exact hm.withHandler hends
    | error e h' =>
      rw [hxh] at hends
      exact hm.withHandler hends

/-- **A new face** gets a record in each information. -/
theorem Good.allocFace (hm : Good b m) (nodeIndices : Fin 3 → Int) :
    Ends (allocFace nodeIndices m) (Good b) (Good b) := by
  unfold CMesh.allocFace
  split_ifs with hq
  · exact hm
  · have hlen : (m.faces ++ [(⟨nodeIndices⟩ : MeshFace)]).length = m.faces.length + 1 := by simp
    unfold CMesh.onHandler
    dsimp only
    cases hh : m.meshInformationHandler with
    | none =>
      refine ⟨?_, nofun⟩
      rw [hlen]
      omega
    | some h =>
      obtain ⟨u, h', hadd, hg⟩ := (hm.handler h hh).addFace hm.lt
      dsimp only
      rw [hadd]
      refine ⟨?_, fun h'' hh' => ?_⟩
      · show (m.faces ++ [(⟨nodeIndices⟩ : MeshFace)]).length ≤ _
        rw [hlen]
        omega
      · obtain rfl := Option.some.inj hh'
        show CMeshInformationHandler.Good b
          (fun _ => (m.faces ++ [(⟨nodeIndices⟩ : MeshFace)]).length) h'
        rw [hlen]
        exact hg

theorem Good.addFace (hm : Good b m) (nodeIndices : Fin 3 → Int) :
    Ends (addFace nodeIndices m) (Good b) (Good b) := by
  unfold CMesh.addFace
  split_ifs
  · exact hm
  · exact hm.allocFace nodeIndices

theorem Good.addFaceOfNodes (hm : Good b m) (nodes : Fin 3 → Nat) :
    Ends (addFaceOfNodes nodes m) (Good b) (Good b) := by
  unfold CMesh.addFaceOfNodes
  split_ifs
  · exact hm
  · exact hm.allocFace _

theorem Good.addNode (hm : Good b m) (p : Position) :
    Ends (addNode p m) (Good b) (Good b) := by
  unfold CMesh.addNode
  split_ifs
  · exact hm
  · exact hm
  · exact ⟨hm.quota, hm.handler⟩

theorem Good.addBeam (hm : Good b m) (nodes : Fin 2 → Nat) (radius : Fin 2 → Double)
    (capMode : Fin 2 → Int) : Ends (addBeam nodes radius capMode m) (Good b) (Good b) := by
  unfold CMesh.addBeam
  split_ifs
  · exact hm
  · exact hm
  · exact ⟨hm.quota, hm.handler⟩

theorem Good.createMeshInformationHandler (hm : Good b m) :
    Ends (createMeshInformationHandler m) (Good b) (Good b) := by
  refine hm.withHandler ?_
  cases hh : m.meshInformationHandler with
  | none => exact CMeshInformationHandler.good_new b _
  | some h => exact hm.handler h hh

/-! ## Merging -/

theorem ends_require {c : Prop} [Decidable c] {e : Fault Error} (hm : Good b m) :
    Ends (require c e m) (Good b) (Good b) := by
  unfold require
  split_ifs
  · exact hm
  · exact hm

theorem Good.mergeInformations (hm : Good b m) (other : CMesh) :
    Ends (mergeInformations other m) (Good b) (Good b) := by
  unfold CMesh.mergeInformations
  cases other.meshInformationHandler with
  | none => exact hm
  | some h =>
    refine hm.createMeshInformationHandler.bind fun _ m' _ hm' => ?_
    exact hm'.onHandler fun h' hg => hg.addInfoTableFrom (Nat.lt_of_succ_lt hm'.lt) h

theorem Good.cloneFaceInfos (hm : Good b m) (other : CMesh) (j : Nat) :
    Ends (cloneFaceInfos other j m) (Good b) (Good b) := by
  unfold CMesh.cloneFaceInfos
  cases other.meshInformationHandler with
  | none => exact hm
  | some h => exact hm.onHandler fun h' hg => hg.cloneFaceInfosFrom _ _ h

theorem Good.mergeFace (hm : Good b m) (other : CMesh) (first : Nat) (f : MeshFace × Nat) :
    Ends (mergeFace other first f m) (Good b) (Good b) :=
  (ends_require hm).bind fun _ _ _ h1 =>
    (h1.addFaceOfNodes _).bind fun _ _ _ h2 => h2.cloneFaceInfos other f.2

theorem Good.mergeBeam (hm : Good b m) (other : CMesh) (first : Nat) (f : EditedBeam) :
    Ends (mergeBeam other first f m) (Good b) (Good b) :=
  (ends_require hm).bind fun _ _ _ h1 => h1.addBeam _ _ _

/-- **`mergeMesh`**, whatever the other mesh. -/
theorem Good.mergeMesh (hm : Good b m) (apply : Position → Position) (other : CMesh) :
    Ends (mergeMesh apply other m) (Good b) (Good b) := by
  refine (hm.mergeInformations other).bind fun _ m1 _ h1 => ?_
  refine (Ends.forM (fun n _ m hm => hm.addNode (apply n.position)) h1).bind fun _ m2 _ h2 => ?_
  unfold doIf
  split_ifs
  · refine (Ends.forM (fun f _ m hm => hm.mergeFace other _ f) h2).bind fun _ m3 _ h3 => ?_
    exact Ends.forM (fun f _ m hm => hm.mergeBeam other _ f) h3
  · exact h2

theorem Good.addNewInformation (hm : Good b m) (type : MeshInformationType) :
    Ends (addNewInformation type m) (Good b) (Good b) := by
  obtain ⟨o, ho, hr, -⟩ := CMeshInformation.create_records type (Nat.lt_of_succ_lt hm.lt)
  unfold CMesh.addNewInformation
  rw [ho]
  exact hm.onHandler fun h hg => hg.addInformation hr

/-! ## Calls -/

/-- No information is removed by its index that is looked up while another of its type is
registered. -/
def Spares (m : CMesh) : CMeshCall → Prop
  | .removeInformationIndexed index =>
    ∀ h, m.meshInformationHandler = some h → CMeshInformationHandler.Spares h index
  | _ => True

theorem Good.removeInformationIndexed (hm : Good b m) {index : Nat}
    (hs : b → Spares m (.removeInformationIndexed index)) :
    Good b (finalState (CMesh.onHandler (removeInformationIndexed index) m)) := by
  unfold CMesh.onHandler
  cases hh : m.meshInformationHandler with
  | none => exact hm
  | some h =>
    have hg := (hm.handler h hh).removeInformationIndexed index fun hb => hs hb h hh
    dsimp only
    cases hx : CMeshInformationHandler.removeInformationIndexed index h with
    | ok u h' =>
      rw [hx] at hg
      exact hm.withHandler hg
    | error e h' =>
      rw [hx] at hg
      exact hm.withHandler hg

/-- **One call.** -/
theorem good_next (hm : Good b m) {c : CMeshCall} (hs : b → Spares m c) : Good b (next m c) := by
  have hends {x : CMeshM Unit} (hx : Ends (x m) (Good b) (Good b)) : Good b (finalState (x m)) :=
    hx.final (fun _ h => h) fun _ h => h
  cases c with
  | addNode p => exact hends (hm.addNode p)
  | addFace nodeIndices => exact hends (hm.addFace nodeIndices)
  | addFaceOfNodes nodes => exact hends (hm.addFaceOfNodes nodes)
  | mergeMesh apply other => exact hends (hm.mergeMesh apply other)
  | createMeshInformationHandler => exact hends hm.createMeshInformationHandler
  | clearMeshInformationHandler => exact ⟨hm.quota, nofun⟩
  | addInformation type => exact hends (hm.addNewInformation type)
  | removeInformation type => exact hends (hm.onHandler fun h hg => hg.removeInformation type)
  | removeInformationIndexed index => exact hm.removeInformationIndexed hs
  | setFaceData index i r => exact hends (hm.onHandler fun h hg => hg.setFaceData index i r)
  | clear => exact ⟨Nat.zero_le _, nofun⟩

/-- A call that does not meet the condition leaves an information that is not looked up. -/
theorem spares_of_good_next (hm : Good True m) {c : CMeshCall} (hn : Good True (next m c)) :
    Spares m c := by
  cases c with
  | removeInformationIndexed index =>
    intro h hh
    refine CMeshInformationHandler.spares_of_good (hm.handler h hh) ?_
    change Good True (finalState
      (CMesh.onHandler (CMeshInformationHandler.removeInformationIndexed index) m)) at hn
    unfold CMesh.onHandler at hn
    rw [hh] at hn
    dsimp only at hn
    cases hx : CMeshInformationHandler.removeInformationIndexed index h with
    | ok u h' =>
      rw [hx] at hn
      exact hn.handler h' rfl
    | error e h' =>
      rw [hx] at hn
      exact hn.handler h' rfl
  | _ => trivial

/-! ## The elements of an edited mesh -/

section SameElements

variable {e : EditedMesh}

/-- The mesh has the elements of an edited mesh; its handler may have several informations. -/
structure SameElements (m : CMesh) (e : EditedMesh) : Prop where
  nodes : m.nodes = e.nodes
  faces : m.faces = e.faces
  beams : m.beams = e.beams

/-- The handler has no elements. -/
theorem onHandler_elements (x : EStateM (Fault Error) CMeshInformationHandler Unit) (m : CMesh) :
    (finalState (onHandler x m)).nodes = m.nodes ∧ (finalState (onHandler x m)).faces = m.faces ∧
      (finalState (onHandler x m)).beams = m.beams := by
  unfold onHandler
  cases m.meshInformationHandler with
  | none => exact ⟨rfl, rfl, rfl⟩
  | some h =>
    dsimp only
    cases x h <;> exact ⟨rfl, rfl, rfl⟩

theorem SameElements.nodeIndex (h : m.SameElements e) (node : Nat) :
    m.nodeIndex node = e.nodeIndex node := by
  rw [CMesh.nodeIndex, EditedMesh.nodeIndex, h.nodes]

/-- A node is added to both, or to none. -/
theorem SameElements.addNode (h : m.SameElements e) (p : Position) :
    (finalState (CMesh.addNode p m)).SameElements (finalState (EditedMesh.addNode p e)) := by
  unfold CMesh.addNode EditedMesh.addNode
  rw [h.nodes]
  split_ifs
  · exact h
  · exact h
  · exact ⟨rfl, h.faces, h.beams⟩

/-- A face is added to both, or to none, whatever the handlers do. -/
theorem SameElements.allocFace (h : m.SameElements e) (nodeIndices : Fin 3 → Int) :
    (finalState (CMesh.allocFace nodeIndices m)).SameElements
      (finalState (EditedMesh.allocFace nodeIndices e)) := by
  obtain ⟨handler, hfinal⟩ := EditedMesh.allocFace_final e nodeIndices
  rw [hfinal]
  unfold CMesh.allocFace
  rw [h.faces]
  split_ifs
  · exact h
  · obtain ⟨hn, hf, hb⟩ := onHandler_elements
      (CMeshInformationHandler.addFace (BitVec.ofNat 32 (e.faces.length + 1)))
      { m with faces := e.faces ++ [⟨nodeIndices⟩] }
    exact ⟨hn.trans h.nodes, hf, hb.trans h.beams⟩

theorem SameElements.addFace (h : m.SameElements e) (nodeIndices : Fin 3 → Int) :
    (finalState (CMesh.addFace nodeIndices m)).SameElements
      (finalState (EditedMesh.addFace nodeIndices e)) := by
  unfold CMesh.addFace EditedMesh.addFace
  split_ifs
  · exact h
  · exact h.allocFace nodeIndices

theorem SameElements.addFaceOfNodes (h : m.SameElements e) (nodes : Fin 3 → Nat) :
    (finalState (CMesh.addFaceOfNodes nodes m)).SameElements
      (finalState (EditedMesh.addFaceOfNodes nodes e)) := by
  unfold CMesh.addFaceOfNodes EditedMesh.addFaceOfNodes
  simp only [h.nodeIndex]
  split_ifs
  · exact h
  · exact h.allocFace _

theorem SameElements.addBeam (h : m.SameElements e) (nodes : Fin 2 → Nat) (b : BeamInfo) :
    (finalState (CMesh.addBeam nodes b.radii b.capModes m)).SameElements
      (finalState (EditedMesh.addBeam nodes b e)) := by
  unfold CMesh.addBeam EditedMesh.addBeam
  simp only [h.nodeIndex, h.beams]
  split_ifs
  · exact h
  · exact h
  · exact ⟨h.nodes, h.faces, rfl⟩

theorem SameElements.clear (m : CMesh) (e : EditedMesh) :
    (finalState (CMesh.clear m)).SameElements (finalState (EditedMesh.clear e)) :=
  ⟨rfl, rfl, rfl⟩

end SameElements

/-! ## Runs -/

/-- Each registered information has as many records as the mesh has faces, the record of a face is
the one last written for it, and what is looked up is registered with its type. -/
def RecordsAgree (m : CMesh) : Prop :=
  ∀ h, m.meshInformationHandler = some h →
    (∀ a ∈ h.informations, ∃ o, h.objects[a]? = some o ∧
      o.container.faceCount.toNat = m.faces.length ∧
      ∀ i : BitVec 32, i.toNat < m.faces.length → ∃ p r, o.getFaceData i = .ok p ∧
        o.deref p = .ok r ∧ o.written i.toNat = some r) ∧
    ∀ type a, h.getInformationByType type = some a → a ∈ h.informations ∧ h.typeOf a = some type

/-- `getInformationByType` finds an information exactly when one of the type is registered. -/
def LookupAgrees (m : CMesh) : Prop :=
  ∀ h, m.meshInformationHandler = some h → ∀ type,
    (∃ a, h.getInformationByType type = some a) ↔ ∃ a ∈ h.informations, h.typeOf a = some type

theorem RecordsOf.agree {o : CMeshInformation} {n : Nat} (h : o.RecordsOf n) :
    o.container.faceCount.toNat = n ∧
      ∀ i : BitVec 32, i.toNat < n → ∃ p r, o.getFaceData i = .ok p ∧
        o.deref p = .ok r ∧ o.written i.toNat = some r := by
  obtain ⟨ptrs, xs, hr, rfl⟩ := h
  refine ⟨hr.lies.counts, fun i hi => ?_⟩
  obtain ⟨p, hp⟩ : ∃ p, ptrs[i.toNat]? = some p := ⟨_, List.getElem?_eq_getElem hi⟩
  obtain ⟨r, hx, hread⟩ := hr.lies.lists.read hp
  have hget := hr.lies.getFaceData i
  rw [hp] at hget
  refine ⟨p, r, hget, ?_, hr.written _ r hx⟩
  have hread' : o.container.memory.read p = some r := hread
  rw [CMeshInformation.deref, hread']

theorem Good.recordsAgree (hm : Good b m) : RecordsAgree m := by
  intro h hh
  have hg := hm.handler h hh
  refine ⟨fun a ha => ?_, hg.found⟩
  obtain ⟨o, ho, hr⟩ := hg.records a ha
  exact ⟨o, ho, RecordsOf.agree hr⟩

theorem good_iff (hm : Good b m) : Good True m ↔ LookupAgrees m := by
  constructor
  · intro ht h hh type
    have hg := ht.handler h hh
    refine ⟨fun ⟨a, ha⟩ => ⟨a, hg.found type a ha⟩, fun ⟨a, ha, hty⟩ => ?_⟩
    exact Option.ne_none_iff_exists'.1 (hg.registered trivial a ha type hty)
  · intro hl
    refine ⟨hm.quota, fun h hh => ?_⟩
    have hg := hm.handler h hh
    refine ⟨hg.nodup, hg.records, hg.found, fun _ a ha type hty => ?_⟩
    exact Option.ne_none_iff_exists'.2 ((hl h hh type).2 ⟨a, ha, hty⟩)

/-- **The informations of a mesh** have a record for each face, the one last written, in every
state of every run; the lookup finds them in every state of a run exactly when no call removes by
its index the information found while another of its type is registered. -/
theorem informations_agree_iff (calls : List CMeshCall) :
    (∀ m, Reaches next new calls m → RecordsAgree m) ∧
    ((∀ m, Reaches next new calls m → RecordsAgree m ∧ LookupAgrees m) ↔
      Guarded next Spares new calls) := by
  have hall (m : CMesh) (hr : Reaches next new calls m) : Good False m :=
    hr.inv (Good False) (good_new False) (fun m c hm _ => good_next hm nofun)
      (guarded_true new calls next)
  refine ⟨fun m hr => (hall m hr).recordsAgree, ?_⟩
  rw [← guarded_iff (Good True) (good_new True) fun m c hm =>
    ⟨spares_of_good_next hm, fun hs => good_next hm fun _ => hs⟩]
  refine forall₂_congr fun m hr => ?_
  rw [good_iff (hall m hr), and_iff_right (hall m hr).recordsAgree]

/-- Two informations of a type, the second removed by its index: the first is not found. -/
theorem first_not_found : ∃ m, Reaches next new [.createMeshInformationHandler,
      .addInformation .emiProperties, .addInformation .emiProperties,
      .removeInformationIndexed 1] m ∧
    ∃ h, m.meshInformationHandler = some h ∧ h.informations = [0] ∧
      h.typeOf 0 = some .emiProperties ∧ h.getInformationByType .emiProperties = none ∧
      ¬ LookupAgrees m := by
  refine ⟨_, reaches_run _ _, _, rfl, rfl, rfl, rfl, fun hl => ?_⟩
  obtain ⟨a, ha⟩ := (hl _ rfl .emiProperties).2 ⟨0, List.mem_singleton.2 rfl, rfl⟩
  cases ha

end CMesh

end NMR
