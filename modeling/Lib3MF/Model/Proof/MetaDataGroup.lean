import Mathlib.Data.List.Perm.Basic
import Lib3MF.Lib.Run
import Lib3MF.Lib.Except
import Lib3MF.Model.Proof.MetaData

/-!
# The keys of a metadata group

`InStep`: the keys in the map of a group are those of its entries, which are distinct. Adding,
merging and clearing keep it (`inStep_push`, `inStep_mergeEntries`). Removing an entry leaves its
key in the map and renaming one leaves the old key there, so a run keeps it exactly when no call
of it removes an entry or renames one (`keys_inStep_iff`). In such a state `hasMetaData` and
`addMetaData` answer by the entries (`InStep.hasMetaData_iff`, `InStep.addMetaData_iff`).
-/

namespace NMR.ModelMetaDataGroup

open Lib

variable {g g' : ModelMetaDataGroup} {md md' : ModelMetaData} {i : Nat}

/-- The map and the list of a group are in step. -/
structure InStep (g : ModelMetaDataGroup) : Prop where
  keys : ∀ k, k ∈ g.keys ↔ ∃ md ∈ g.metaData, md.key = k
  nodup : (g.metaData.map ModelMetaData.key).Nodup

/-- `hasMetaData` and `addMetaData` answer by the entries of the group. -/
structure Answers (g : ModelMetaDataGroup) : Prop where
  has : ∀ key, g.hasMetaData key = true ↔ ∃ md ∈ g.metaData, md.key = key
  adds : ∀ nameSpace name value type preserve, isValidNamespaceAndName nameSpace name = true →
    type ≠ "" → g.metaData.length < maxMetaDataCount →
      ((∃ g', g.addMetaData nameSpace name value type preserve = .ok g') ↔
        ¬ ∃ md ∈ g.metaData, md.key = calculateKey nameSpace name)

/-- What a call must not do: remove an entry, or give one a new key. -/
def Allowed (g : ModelMetaDataGroup) : MetaDataCall → Prop
  | .removeMetaData index => g.metaData.length ≤ index
  | .setName index name => ∀ md, g.metaData[index]? = some md →
    isValidNamespaceAndName md.nameSpace name = true → calculateKey md.nameSpace name = md.key
  | .setNameSpace index nameSpace => ∀ md, g.metaData[index]? = some md →
    isValidNamespaceAndName nameSpace md.name = true → calculateKey nameSpace md.name = md.key
  | _ => True

/-! ## Answers -/

theorem InStep.hasMetaData_iff (hg : InStep g) (key : String) :
    g.hasMetaData key = true ↔ ∃ md ∈ g.metaData, md.key = key := by
  rw [← hg.keys]
  exact decide_eq_true_iff

theorem InStep.addMetaData_iff (hg : InStep g) {nameSpace name value type : String}
    {preserve : Bool} (hv : isValidNamespaceAndName nameSpace name = true) (ht : type ≠ "")
    (hl : g.metaData.length < maxMetaDataCount) :
    (∃ g', g.addMetaData nameSpace name value type preserve = .ok g') ↔
      ¬ ∃ md ∈ g.metaData, md.key = calculateKey nameSpace name := by
  have hadd (g') := @addMetaData_eq_ok g g' ⟨nameSpace, name, value, type, preserve, hv, ht⟩
  simp only at hadd
  simp only [hadd, ← hg.keys]
  constructor
  · rintro ⟨g', hk, -⟩
    exact hk
  · intro hk
    exact ⟨_, hk, hl, rfl⟩

theorem InStep.answers (hg : InStep g) : Answers g :=
  ⟨hg.hasMetaData_iff, fun _ _ _ _ _ hv ht hl => hg.addMetaData_iff hv ht hl⟩

/-! ## Steps -/

theorem inStep_empty : InStep empty := ⟨by simp [empty], List.nodup_nil⟩

/-- An entry with a new key. -/
theorem inStep_push (hg : InStep g) (hk : md.key ∉ g.keys)
    (hl : g.metaData.length < maxMetaDataCount) : InStep (g.push md hl) := by
  refine ⟨fun k => ?_, ?_⟩
  · simp only [push, List.mem_append, List.mem_singleton, hg.keys, or_and_right, exists_or,
      exists_eq_left]
    simp only [eq_comm]
  · simp only [push, List.map_append, List.map_cons, List.map_nil]
    refine List.nodup_append.2 ⟨hg.nodup, by simp, ?_⟩
    intro k hmem k' hk' he
    rw [List.mem_singleton.1 hk'] at he
    obtain ⟨x, hx, rfl⟩ := List.mem_map.1 hmem
    exact hk ((hg.keys _).2 ⟨x, hx, he⟩)

theorem inStep_addMetaData (hg : InStep g) {nameSpace name value type : String} {preserve : Bool}
    (h : g.addMetaData nameSpace name value type preserve = .ok g') : InStep g' := by
  unfold addMetaData at h
  split_ifs at h with hd hv hl
  obtain ⟨md, hm, h⟩ := bind_eq_ok.1 h
  have hcopy := h
  unfold ModelMetaData.create at hm
  split_ifs at hm with hval ht
  obtain rfl := Except.ok.inj hm
  rw [← Except.ok.inj hcopy]
  apply inStep_push hg _ (not_le.1 hl)
  intro hk
  exact hd (decide_eq_true hk)

/-- Merging, whether it throws or not. -/
theorem inStep_mergeEntries (hg : InStep g) (es : List ModelMetaData) :
    InStep (g.mergeEntries es).1 := by
  induction es generalizing g with
  | nil => exact hg
  | cons md es ih =>
    rw [mergeEntries]
    cases h : g.addMetaData md.nameSpace md.name md.value md.type md.preserve with
    | error e => exact hg
    | ok g' => exact ih (inStep_addMetaData hg h)

/-- The keys, with that of one entry in front. -/
theorem keys_perm (hi : i < g.metaData.length) :
    (g.metaData.map ModelMetaData.key).Perm
      (g.metaData[i].key :: (g.metaData.eraseIdx i).map ModelMetaData.key) :=
  ((List.getElem_cons_eraseIdx_perm hi).map ModelMetaData.key).symm

/-- An entry removed leaves its key in the map. -/
theorem not_inStep_eraseIdx (hg : InStep g) (hi : i < g.metaData.length)
    (hb : (g.metaData.eraseIdx i).length ≤ maxMetaDataCount) :
    ¬ InStep ⟨g.metaData.eraseIdx i, g.keys, hb⟩ := by
  intro h
  have hmem : g.metaData[i].key ∈ g.keys := (hg.keys _).2 ⟨_, List.getElem_mem hi, rfl⟩
  have hnot := (List.nodup_cons.1 ((keys_perm hi).nodup_iff.1 hg.nodup)).1
  apply hnot
  apply List.mem_map.2
  exact (h.keys _).1 hmem

/-- The keys, with an entry replaced. -/
theorem keys_set_perm (hi : i < g.metaData.length) (md : ModelMetaData) :
    ((g.metaData.set i md).map ModelMetaData.key).Perm
      (md.key :: (g.metaData.eraseIdx i).map ModelMetaData.key) :=
  (List.set_perm_cons_eraseIdx hi md).map ModelMetaData.key

/-- An entry renamed leaves its old key in the map. -/
theorem inStep_set_iff (hg : InStep g) (hi : i < g.metaData.length)
    (hb : (g.metaData.set i md).length ≤ maxMetaDataCount) :
    InStep ⟨g.metaData.set i md, g.keys, hb⟩ ↔ md.key = g.metaData[i].key := by
  have hold := keys_perm hi
  have hnew := keys_set_perm hi md
  have hkeys (k : String) : k ∈ g.keys ↔ k ∈ g.metaData.map ModelMetaData.key := by
    rw [hg.keys, List.mem_map]
  have hnot := (List.nodup_cons.1 (hold.nodup_iff.1 hg.nodup)).1
  constructor
  · intro h
    have hmem : g.metaData[i].key ∈ (g.metaData.set i md).map ModelMetaData.key := by
      apply List.mem_map.2
      exact (h.keys _).1 ((hg.keys _).2 ⟨_, List.getElem_mem hi, rfl⟩)
    rw [hnew.mem_iff, List.mem_cons] at hmem
    exact (hmem.resolve_right hnot).symm
  · intro he
    rw [he] at hnew
    have hsame := hnew.trans hold.symm
    refine ⟨fun k => ?_, hsame.nodup_iff.2 hg.nodup⟩
    rw [hkeys, ← hsame.mem_iff, List.mem_map]

/-! ## Runs -/

/-- A setter that is allowed to rename. -/
theorem inStep_updateMetaData_iff (hg : InStep g) (set : ModelMetaData → Except Error ModelMetaData) :
    InStep (orThrow g (g.updateMetaData i set)).1 ↔
      ∀ md, g.metaData[i]? = some md → ∀ md', set md = .ok md' → md'.key = md.key := by
  unfold updateMetaData
  cases hi : g.metaData[i]? with
  | none => simpa [orThrow] using hg
  | some md =>
    obtain ⟨hlt, rfl⟩ := List.getElem?_eq_some_iff.1 hi
    cases hs : set g.metaData[i] with
    | error e => simpa [hs, orThrow, bind, Except.bind] using hg
    | ok md' =>
      simp only [hs, bind, Except.bind, orThrow, Option.some.injEq, forall_eq', Except.ok.injEq]
      exact inStep_set_iff hg hlt _

/-- **A call keeps the map and the list in step** exactly when it is allowed. -/
theorem inStep_next_iff (g : ModelMetaDataGroup) (c : MetaDataCall) (hg : InStep g) :
    InStep (g.next c) ↔ Allowed g c := by
  unfold next step
  cases c with
  | addMetaData nameSpace name value type preserve =>
    refine iff_of_true ?_ trivial
    cases h : g.addMetaData nameSpace name value type preserve with
    | error e => simpa [h, orThrow] using hg
    | ok g' => simpa [h, orThrow] using inStep_addMetaData hg h
  | removeMetaData index =>
    by_cases hi : index < g.metaData.length
    · simp only [removeMetaData, if_pos hi, orThrow, Allowed, not_le.2 hi, iff_false]
      exact not_inStep_eraseIdx hg hi _
    · simp only [removeMetaData, if_neg hi, orThrow, Allowed, not_lt.1 hi, iff_true]
      exact hg
  | mergeMetaData source => exact iff_of_true (inStep_mergeEntries hg _) trivial
  | clear => exact iff_of_true inStep_empty trivial
  | setName index name =>
    apply (inStep_updateMetaData_iff hg _).trans
    apply forall₂_congr
    intro md _
    simp only [ModelMetaData.setName]
    split_ifs with hv
    · simp [hv, ModelMetaData.key]
    · simp [hv]
  | setNameSpace index nameSpace =>
    apply (inStep_updateMetaData_iff hg _).trans
    apply forall₂_congr
    intro md _
    simp only [ModelMetaData.setNameSpace]
    split_ifs with hv
    · simp [hv, ModelMetaData.key]
    · simp [hv]

/-- **The keys in the map are those of the entries**, and the group answers by them, in every state
of a run exactly when the run removes no entry and gives none a new key. -/
theorem keys_inStep_iff (calls : List MetaDataCall) :
    (∀ g, Reaches next empty calls g → InStep g ∧ Answers g) ↔
      Guarded next Allowed empty calls := by
  rw [← guarded_iff InStep inStep_empty inStep_next_iff]
  exact forall₂_congr fun g _ => and_iff_left_of_imp InStep.answers

/-- A title added and removed: its key stays, and no title can be added again. -/
theorem removed_title_stays :
    ¬ ∀ g, Reaches next empty [.addMetaData "" "Title" "" "xs:string" true, .removeMetaData 0] g →
      InStep g ∧ Answers g := by
  intro h
  have hend := (h _ (reaches_run _ _)).2.has "Title"
  exact absurd hend (by decide)

end NMR.ModelMetaDataGroup
