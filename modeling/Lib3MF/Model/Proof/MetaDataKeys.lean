import Mathlib.Data.List.TakeWhile
import Lib3MF.Model.Proof.MetaDataNames

/-!
# Keys of metadata

`calculateKey` joins a name space and a name with a colon, and `decomposeKeyIntoNamespaceAndName`
takes the key apart at its first one. A key gives its entry back, and stands for no other,
exactly when the name space holds no colon and the name none but at its end (`key_identifies`).
-/

namespace NMR

/-! ## Joined lists -/

/-- Two joins at a separator are equal only if they are the same one, when the first part of the
one holds no separator and its second part none but at its end. -/
theorem append_cons_cancel {α : Type*} {c : α} {a b a' b' : List α} (ha : c ∉ a)
    (hb : c ∉ b.dropLast) (hne : b' ≠ []) (h : a' ++ c :: b' = a ++ c :: b) :
    a' = a ∧ b' = b := by
  rcases List.append_eq_append_iff.1 h with ⟨w, rfl, hw⟩ | ⟨w, rfl, hw⟩
  · cases w with
    | nil => simpa using hw
    | cons x w =>
      obtain ⟨rfl, -⟩ := List.cons_eq_cons.1 hw
      simp at ha
  · cases w with
    | nil => simpa [eq_comm] using hw
    | cons x w =>
      obtain ⟨rfl, hbw⟩ := List.cons_eq_cons.1 hw
      rw [show b = w ++ c :: b' from hbw, List.dropLast_append_of_ne_nil (List.cons_ne_nil _ _),
        List.dropLast_cons_of_ne_nil hne] at hb
      simp at hb

/-- A separator before the end of a list parts it in two, the second part not empty. -/
theorem exists_split_of_mem_dropLast {α : Type*} {c : α} {b : List α} (h : c ∈ b.dropLast) :
    ∃ u v, b = u ++ c :: v ∧ v ≠ [] := by
  obtain ⟨u, v, hv⟩ := List.append_of_mem h
  have hne : b ≠ [] := by
    rintro rfl
    simp at h
  refine ⟨u, v ++ [b.getLast hne], ?_, by simp⟩
  rw [← List.cons_append, ← List.append_assoc, ← hv, List.dropLast_append_getLast]

/-! ## Keys -/

theorem toList_calculateKey {nameSpace : String} (name : String) (h : nameSpace ≠ "") :
    (calculateKey nameSpace name).toList = nameSpace.toList ++ ':' :: name.toList := by
  rw [calculateKey, if_neg h, String.toList_append, String.toList_append, List.append_assoc]
  rfl

/-- The first part of a key that is taken apart holds no colon. -/
theorem colon_not_mem_decompose (key : String) :
    ':' ∉ (decomposeKeyIntoNamespaceAndName key).1.toList := by
  unfold decomposeKeyIntoNamespaceAndName
  split
  · simp
  · rw [String.toList_ofList]
    intro hm
    simpa using List.mem_takeWhile_imp hm

namespace ModelMetaData

/-- The name of an entry outside all name spaces is one of the specification's, without a colon. -/
theorem name_mem (md : ModelMetaData) (h : md.nameSpace = "") : md.name ∈ metaDataValues := by
  have hv := md.valid
  rw [isValidNamespaceAndName, if_pos h] at hv
  exact of_decide_eq_true hv

theorem name_ne (md : ModelMetaData) (h : md.nameSpace ≠ "") : md.name ≠ "" := by
  have hv := md.valid
  rw [isValidNamespaceAndName, if_neg h] at hv
  exact of_decide_eq_true hv

theorem colon_not_mem_value {name : String} (h : name ∈ metaDataValues) : ':' ∉ name.toList := by
  revert name
  decide

theorem colon_mem_key_iff (md : ModelMetaData) : ':' ∈ md.key.toList ↔ md.nameSpace ≠ "" := by
  constructor
  · intro hm h
    rw [key, calculateKey, if_pos h] at hm
    exact colon_not_mem_value (md.name_mem h) hm
  · intro h
    rw [key, toList_calculateKey _ h]
    simp

/-- The key is taken apart into what it was made of, exactly when the name space has no colon. -/
theorem decompose_key_iff (md : ModelMetaData) :
    decomposeKeyIntoNamespaceAndName md.key = (md.nameSpace, md.name) ↔
      ':' ∉ md.nameSpace.toList := by
  constructor
  · intro h hm
    have hc := colon_not_mem_decompose md.key
    rw [h] at hc
    exact hc hm
  · intro h
    by_cases hn : md.nameSpace = ""
    · rw [key, calculateKey, if_pos hn, decompose_value (md.name_mem hn), hn]
    · rw [key, calculateKey, if_neg hn, decompose_prefixed _ h]

/-- No other entry has the key of one whose colons are none but those. -/
theorem eq_of_key_eq {md md' : ModelMetaData} (hns : ':' ∉ md.nameSpace.toList)
    (hname : md.nameSpace = "" ∨ ':' ∉ md.name.toList.dropLast) (h : md'.key = md.key) :
    md'.nameSpace = md.nameSpace ∧ md'.name = md.name := by
  have hiff : md'.nameSpace ≠ "" ↔ md.nameSpace ≠ "" := by
    rw [← colon_mem_key_iff, ← colon_mem_key_iff, h]
  by_cases hn : md.nameSpace = ""
  · have hn' : md'.nameSpace = "" := not_not.1 fun hc => hiff.1 hc hn
    rw [key, key, calculateKey, calculateKey, if_pos hn, if_pos hn'] at h
    exact ⟨hn'.trans hn.symm, h⟩
  · have hn' := hiff.2 hn
    have hl := congrArg String.toList h
    rw [key, key, toList_calculateKey _ hn, toList_calculateKey _ hn'] at hl
    have hne : md'.name.toList ≠ [] := fun hc => md'.name_ne hn' (String.toList_eq_nil_iff.1 hc)
    obtain ⟨h1, h2⟩ := append_cons_cancel hns (hname.resolve_left hn) hne hl
    exact ⟨String.toList_injective h1, String.toList_injective h2⟩

/-- A name with a colon before its end can be cut there: the part up to it joins the name space. -/
theorem exists_other (md : ModelMetaData) (hn : md.nameSpace ≠ "")
    (h : ':' ∈ md.name.toList.dropLast) :
    ∃ md' : ModelMetaData, md'.key = md.key ∧ md'.nameSpace ≠ md.nameSpace := by
  obtain ⟨u, v, huv, hv⟩ := exists_split_of_mem_dropLast h
  have hns : String.ofList (md.nameSpace.toList ++ ':' :: u) ≠ "" := by
    intro hc
    simpa using congrArg String.toList hc
  have hname : String.ofList v ≠ "" := by
    intro hc
    exact hv (by simpa using congrArg String.toList hc)
  refine ⟨⟨String.ofList (md.nameSpace.toList ++ ':' :: u), String.ofList v, md.value, md.type,
    md.preserve, ?_, md.typed⟩, ?_, fun hc => ?_⟩
  · rw [isValidNamespaceAndName, if_neg hns]
    exact decide_eq_true hname
  · apply String.toList_injective
    rw [key, key, toList_calculateKey _ hns, toList_calculateKey _ hn, huv]
    simp
  · have hl := congrArg (List.length ∘ String.toList) hc
    simp at hl

/-- **Keys and entries**: a key gives its name space and name back, and no other pair has it,
exactly when its only colons are the one behind the name space and one that ends the name. -/
theorem key_identifies (md : ModelMetaData) :
    (decomposeKeyIntoNamespaceAndName md.key = (md.nameSpace, md.name) ∧
      ∀ md' : ModelMetaData, md'.key = md.key →
        md'.nameSpace = md.nameSpace ∧ md'.name = md.name) ↔
    ':' ∉ md.nameSpace.toList ∧ (md.nameSpace = "" ∨ ':' ∉ md.name.toList.dropLast) := by
  rw [decompose_key_iff]
  refine and_congr_right fun hns => ⟨fun h => ?_, fun h md' hk => eq_of_key_eq hns h hk⟩
  by_contra hc
  rw [not_or, not_not] at hc
  obtain ⟨md', hk, hne⟩ := md.exists_other hc.1 hc.2
  exact hne (h md' hk).1

/-- The name space `http://a` is cut at its own colon, and `a:b` with `c` has the key of `a` with
`b:c`. -/
theorem key_of_uri :
    (¬ ∀ md : ModelMetaData,
      decomposeKeyIntoNamespaceAndName md.key = (md.nameSpace, md.name)) ∧
    ¬ ∀ md md' : ModelMetaData, md'.key = md.key →
      md'.nameSpace = md.nameSpace ∧ md'.name = md.name := by
  refine ⟨fun h => ?_, fun h => ?_⟩
  · have hd := h ⟨"http://a", "b", "", "xs:string", false, by decide, by decide⟩
    revert hd
    decide
  · have hk := h ⟨"a", "b:c", "", "xs:string", false, by decide, by decide⟩
      ⟨"a:b", "c", "", "xs:string", false, by decide, by decide⟩ (by decide)
    revert hk
    decide

end ModelMetaData

end NMR
