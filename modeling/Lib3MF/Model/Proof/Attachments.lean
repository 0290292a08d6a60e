import Mathlib.Data.List.DropRight
import Lib3MF.Model.Classes.Attachments

/-!
# References to attachments

`Consistent` ties the list of attachments to the map; every call keeps it, and
`Contained` says that textures and thumbnails refer to attachments of the list. What breaks it is
to remove an attachment that something refers to, or to rename it (`contained_next_iff`); and a
`SetPath` that fails has removed the attachment already.
-/

namespace NMR

open Lib

namespace Attachments

variable {s s' : Attachments} {a b : AttachmentRef} {path k : String}

/-- The attachments that textures and objects refer to. -/
def references (s : Attachments) : List AttachmentRef := s.textures ++ s.thumbnails.filterMap id

/-- The map leads from the paths of the attachments, which have no leading delimiter, to them. -/
structure Consistent (s : Attachments) : Prop where
  map : ∀ k a, s.attachmentURIMap.find? k = some a ↔ a ∈ s.attachments ∧ s.path? a = some k
  nodup : s.attachments.Nodup
  path : ∀ a ∈ s.attachments, ∃ p, s.path? a = some p ∧ fnRemoveLeadingPathDelimiter p = p

/-- Every texture and every thumbnail refers to an attachment of the list, which is found under
its own path. -/
def Contained (s : Attachments) : Prop :=
  ∀ a ∈ s.references, a ∈ s.attachments ∧ s.findByHandle a = some a

/-- A `SetPath` that throws leaves the attachments as they were. -/
def Answers (s : Attachments) : AttachmentCall → Prop
  | .setPath a path => ∀ e, (s.step (.setPath a path)).2 = some e →
      (s.next (.setPath a path)).attachments = s.attachments ∧
        (s.next (.setPath a path)).attachmentURIMap = s.attachmentURIMap
  | _ => True

/-- The calls that keep the references: an attachment found under the path of the handle is not
referred to when it is removed or renamed, and it is not renamed to the path of another one. -/
def Allowed (s : Attachments) : AttachmentCall → Prop
  | .removeAttachment a => ∀ b, s.findByHandle a = some b → b ∉ s.references
  | .setPath a path => s.packageThumbnail = some a ∨ ∀ b, s.findByHandle a = some b →
      b ∉ s.references ∧ ∀ c, s.findModelAttachment path = some c → c = b
  | _ => True

/-! ## Paths and lookups -/

theorem fnRemoveLeadingPathDelimiter_idem (p : String) :
    fnRemoveLeadingPathDelimiter (fnRemoveLeadingPathDelimiter p) =
      fnRemoveLeadingPathDelimiter p := by
  simp only [fnRemoveLeadingPathDelimiter, String.toList_ofList, List.dropWhile_idempotent]

theorem lt_of_path? (h : s.path? a = some k) : a < s.store.length := by
  by_contra hlt
  rw [path?, List.getElem?_eq_none (not_lt.1 hlt)] at h
  cases h

theorem Consistent.lt (hs : Consistent s) (ha : a ∈ s.attachments) : a < s.store.length := by
  obtain ⟨p, hp, -⟩ := hs.path a ha
  exact lt_of_path? hp

/-- An attachment of the list is found under its path. -/
theorem Consistent.findByHandle (hs : Consistent s) (ha : a ∈ s.attachments) :
    s.findByHandle a = some a := by
  obtain ⟨p, hp, hn⟩ := hs.path a ha
  rw [Attachments.findByHandle, hp, Option.bind_some, findModelAttachment, hn, hs.map]
  exact ⟨ha, hp⟩

theorem Consistent.mem_of_find (hs : Consistent s) (h : s.findModelAttachment path = some a) :
    a ∈ s.attachments ∧ s.path? a = some (fnRemoveLeadingPathDelimiter path) :=
  (hs.map _ _).1 h

theorem Consistent.mem_of_findByHandle (hs : Consistent s) (h : s.findByHandle a = some b) :
    b ∈ s.attachments := by
  obtain ⟨p, -, hf⟩ := Option.bind_eq_some_iff.1 h
  exact (hs.mem_of_find hf).1

theorem contained_iff (hs : Consistent s) : Contained s ↔ ∀ a ∈ s.references, a ∈ s.attachments :=
  ⟨fun h a ha => (h a ha).1, fun h a ha => ⟨h a ha, hs.findByHandle (h a ha)⟩⟩

/-! ## The functions -/

/-- More attachments constructed leave the paths of the others. -/
theorem path?_append {info : AttachmentInfo} (h : s'.store = s.store ++ [info])
    (ha : a < s.store.length) : s'.path? a = s.path? a := by
  rw [path?, h, List.getElem?_append_left ha, path?]

theorem consistent_of_same (hs : Consistent s) (hl : s'.attachments = s.attachments)
    (hm : s'.attachmentURIMap = s.attachmentURIMap)
    (hp : ∀ a, a < s.store.length → s'.path? a = s.path? a) : Consistent s' := by
  refine ⟨fun k a => ?_, hl ▸ hs.nodup, fun a ha => ?_⟩
  · rw [hm, hl, hs.map]
    exact and_congr_right fun ha => by rw [hp a (hs.lt ha)]
  · rw [hl] at ha
    rw [hp a (hs.lt ha)]
    exact hs.path a ha

/-- What adding an attachment does. -/
theorem addAttachment_spec {type : String} (h : s.addAttachment path type = .ok s') :
    s.findModelAttachment path = none ∧ s' = { s with
      store := s.store ++ [⟨fnRemoveLeadingPathDelimiter path, type⟩]
      attachments := s.attachments ++ [s.store.length]
      attachmentURIMap := s.attachmentURIMap.insert (fnRemoveLeadingPathDelimiter path)
        s.store.length } := by
  unfold addAttachment at h
  dsimp only at h
  split_ifs at h with hf
  cases h
  exact ⟨Option.not_isSome_iff_eq_none.1 hf, rfl⟩

theorem addAttachment_error {type : String} {e : Error}
    (h : s.addAttachment path type = .error e) : ∃ c, s.findModelAttachment path = some c := by
  unfold addAttachment at h
  dsimp only at h
  split_ifs at h with hf
  exact Option.isSome_iff_exists.1 hf

theorem consistent_addAttachment (hs : Consistent s) {type : String}
    (h : s.addAttachment path type = .ok s') : Consistent s' := by
  obtain ⟨hfree, rfl⟩ := addAttachment_spec h
  set s' : Attachments := { s with
      store := s.store ++ [⟨fnRemoveLeadingPathDelimiter path, type⟩]
      attachments := s.attachments ++ [s.store.length]
      attachmentURIMap := s.attachmentURIMap.insert (fnRemoveLeadingPathDelimiter path)
        s.store.length }
  have hold : ∀ a, a < s.store.length → s'.path? a = s.path? a := fun a ha => path?_append rfl ha
  have hnew : s'.path? s.store.length = some (fnRemoveLeadingPathDelimiter path) := by
    rw [path?, List.getElem?_append_right (le_refl _), Nat.sub_self]
    rfl
  have hout : s.store.length ∉ s.attachments := fun hm => absurd (hs.lt hm) (lt_irrefl _)
  refine ⟨fun k a => ?_, ?_, fun a ha => ?_⟩
  · change (s.attachmentURIMap.insert _ _).find? k = some a ↔ a ∈ s.attachments ++ _ ∧ _
    rw [SortedMap.find?_insert, List.mem_append, List.mem_singleton]
    split_ifs with hk
    · subst hk
      change s.attachmentURIMap.find? _ = none at hfree
      rw [hfree, Option.getD_none, Option.some.injEq]
      constructor
      · intro ha
        subst ha
        exact ⟨.inr rfl, hnew⟩
      · intro ⟨hm, hp⟩
        rcases hm with hm | hm
        · rw [hold a (hs.lt hm)] at hp
          rw [(hs.map _ _).2 ⟨hm, hp⟩] at hfree
          cases hfree
        · exact hm.symm
    · rw [hs.map]
      constructor
      · intro ⟨hm, hp⟩
        exact ⟨.inl hm, by rw [hold a (hs.lt hm)]; exact hp⟩
      · intro ⟨hm, hp⟩
        rcases hm with hm | hm
        · rw [hold a (hs.lt hm)] at hp
          exact ⟨hm, hp⟩
        · rw [hm, hnew, Option.some.injEq] at hp
          exact absurd hp.symm hk
  · change (s.attachments ++ [s.store.length]).Nodup
    rw [List.nodup_append]
    refine ⟨hs.nodup, List.nodup_singleton _, fun x hx y hy => ?_⟩
    rw [List.mem_singleton.1 hy]
    exact fun he => hout (he ▸ hx)
  · rcases List.mem_append.1 ha with ha | ha
    · rw [hold a (hs.lt ha)]
      exact hs.path a ha
    · rw [List.mem_singleton.1 ha]
      exact ⟨_, hnew, fnRemoveLeadingPathDelimiter_idem path⟩

theorem removeByPath_none (h : s.findModelAttachment path = none) : s.removeByPath path = s := by
  rw [removeByPath, h]

theorem removeByPath_some (h : s.findModelAttachment path = some b) :
    s.removeByPath path = { s with
      attachments := s.attachments.erase b
      attachmentURIMap := s.attachmentURIMap.erase (fnRemoveLeadingPathDelimiter path) } := by
  rw [removeByPath, h]

variable (path) in
theorem consistent_removeByPath (hs : Consistent s) : Consistent (s.removeByPath path) := by
  cases hf : s.findModelAttachment path with
  | none =>
    rw [removeByPath_none hf]
    exact hs
  | some b =>
    rw [removeByPath_some hf]
    obtain ⟨hb, hp⟩ := hs.mem_of_find hf
    refine ⟨fun k a => ?_, hs.nodup.erase b, fun a ha => hs.path a (List.mem_of_mem_erase ha)⟩
    change (s.attachmentURIMap.erase _).find? k = some a ↔ a ∈ s.attachments.erase b ∧
      s.path? a = some k
    rw [SortedMap.find?_erase, hs.nodup.mem_erase_iff]
    split_ifs with hk
    · -- only `b` has this path
      refine ⟨nofun, fun ⟨⟨hne, ha⟩, hpa⟩ => ?_⟩
      rw [hk] at hpa
      have hfa : s.findModelAttachment path = some a := (hs.map _ _).2 ⟨ha, hpa⟩
      rw [hf, Option.some.injEq] at hfa
      exact absurd hfa.symm hne
    · rw [hs.map]
      refine ⟨fun ⟨ha, hpa⟩ => ⟨⟨fun he => hk ?_, ha⟩, hpa⟩, fun ⟨⟨_, ha⟩, hpa⟩ => ⟨ha, hpa⟩⟩
      rw [he, hp, Option.some.injEq] at hpa
      exact hpa.symm

variable (path) in
/-- An attachment removed is not referred to. -/
theorem contained_removeByPath (hs : Consistent s) (hc : Contained s) :
    Contained (s.removeByPath path) ↔
      ∀ b, s.findModelAttachment path = some b → b ∉ s.references := by
  cases hf : s.findModelAttachment path with
  | none =>
    rw [removeByPath_none hf]
    exact ⟨fun _ => nofun, fun _ => hc⟩
  | some b =>
    have hs' := consistent_removeByPath path hs
    rw [contained_iff hs', removeByPath_some hf]
    simp only [Option.some.injEq, forall_eq']
    change (∀ a ∈ s.references, a ∈ s.attachments.erase b) ↔ _
    constructor
    · intro h hb
      exact ((hs.nodup.mem_erase_iff).1 (h b hb)).1 rfl
    · intro hb a ha
      exact (hs.nodup.mem_erase_iff).2 ⟨fun he => hb (he ▸ ha), (hc a ha).1⟩

theorem references_addAttachment {type : String} (h : s.addAttachment path type = .ok s') :
    s'.references = s.references := by
  obtain ⟨-, rfl⟩ := addAttachment_spec h
  rfl

theorem contained_addAttachment (hs : Consistent s) {type : String}
    (h : s.addAttachment path type = .ok s') (hlt : ∀ a ∈ s.references, a ≠ s.store.length) :
    Contained s' ↔ Contained s := by
  rw [contained_iff (consistent_addAttachment hs h), contained_iff hs, references_addAttachment h]
  obtain ⟨-, rfl⟩ := addAttachment_spec h
  refine forall₂_congr fun a ha => ?_
  change a ∈ s.attachments ++ [s.store.length] ↔ _
  rw [List.mem_append, List.mem_singleton, or_iff_left (hlt a ha)]

variable (path) in
theorem consistent_addPackageThumbnail (hs : Consistent s) :
    Consistent (s.addPackageThumbnail path) := by
  unfold addPackageThumbnail
  split_ifs
  · exact hs
  · exact consistent_of_same hs rfl rfl fun a ha => path?_append rfl ha

theorem contained_of_same (hs : Consistent s) (hs' : Consistent s') (hc : Contained s)
    (hl : s'.attachments = s.attachments) (hr : s'.references = s.references) : Contained s' := by
  rw [contained_iff hs', hl, hr]
  exact (contained_iff hs).1 hc

theorem addPackageThumbnail_frame :
    (s.addPackageThumbnail path).attachments = s.attachments ∧
      (s.addPackageThumbnail path).references = s.references := by
  unfold addPackageThumbnail
  split_ifs <;> exact ⟨rfl, rfl⟩

/-! ## One call -/

/-- A new reference, to an attachment found in the list. -/
theorem contained_of_references (hs' : Consistent s') (hc : Contained s)
    (hl : s'.attachments = s.attachments)
    (hr : ∀ a ∈ s'.references, a ∈ s.references ∨ a ∈ s.attachments) : Contained s' := by
  rw [contained_iff hs', hl]
  exact fun a ha => (hr a ha).elim (fun h => (hc a h).1) id

theorem mem_references_set {l : List (Option AttachmentRef)} {i : Nat} {o : Option AttachmentRef}
    (h : a ∈ (l.set i o).filterMap id) : a ∈ l.filterMap id ∨ o = some a := by
  obtain ⟨x, hx, he⟩ := List.mem_filterMap.1 h
  rcases List.mem_or_eq_of_mem_set hx with hx | hx
  · exact .inl (List.mem_filterMap.2 ⟨x, hx, he⟩)
  · exact .inr (hx ▸ he)

theorem addTexture_spec (h : s.addTexture2DFromAttachment a = .ok s') :
    ∃ b, s.findByHandle a = some b ∧ s' = { s with textures := s.textures ++ [b] } := by
  unfold addTexture2DFromAttachment at h
  cases hf : s.findByHandle a with
  | none => rw [hf] at h; cases h
  | some b =>
    rw [hf] at h
    simp only [bind_eq_ok, pure_eq_ok] at h
    obtain ⟨-, -, he⟩ := h
    exact ⟨b, rfl, he.symm⟩

theorem setAttachment_spec {i : Nat} (h : s.setAttachment i a = .ok s') :
    ∃ b, s.findByHandle a = some b ∧ s' = { s with textures := s.textures.set i b } := by
  unfold setAttachment at h
  cases hf : s.findByHandle a with
  | none => rw [hf] at h; cases h
  | some b =>
    rw [hf] at h
    simp only [bind_eq_ok, pure_eq_ok] at h
    obtain ⟨-, -, he⟩ := h
    exact ⟨b, rfl, he.symm⟩

theorem setAttachmentAsThumbnail_spec {i : Nat} (h : s.setAttachmentAsThumbnail i a = .ok s') :
    ∃ b, s.findByHandle a = some b ∧ s' = { s with thumbnails := s.thumbnails.set i (some b) } := by
  unfold setAttachmentAsThumbnail at h
  cases hf : s.findByHandle a with
  | none => rw [hf] at h; cases h
  | some b =>
    rw [hf] at h
    dsimp only at h
    split at h
    · cases h
    · split_ifs at h
      cases h
      exact ⟨b, rfl, rfl⟩

/-- A function that only adds references to attachments of the list, or throws. -/
theorem inv_orThrow (hs : Consistent s ∧ Contained s) {x : Except Error Attachments}
    (hx : ∀ s', x = .ok s' → Consistent s' ∧ Contained s') :
    Consistent (orThrow s x).1 ∧ Contained (orThrow s x).1 := by
  cases x with
  | error e => exact hs
  | ok s' => exact hx s' rfl

theorem setPath_iff (hs : Consistent s) (hc : Contained s) :
    (Consistent (s.next (.setPath a path)) ∧ Contained (s.next (.setPath a path))) ∧
        Answers s (.setPath a path) ↔ Allowed s (.setPath a path) := by
  simp only [Answers, Allowed, next, step, setPath]
  cases hi : s.store[a]? with
  | none =>
    have hno : s.findByHandle a = none := by
      rw [findByHandle, path?, hi]
      rfl
    refine ⟨fun _ => .inr fun b hb => ?_, fun _ => ⟨⟨hs, hc⟩, fun _ _ => ⟨rfl, rfl⟩⟩⟩
    rw [hno] at hb
    cases hb
  | some info =>
    have hfind : s.findByHandle a = s.findModelAttachment info.pathURI := by
      rw [findByHandle, path?, hi]
      rfl
    dsimp only
    by_cases ht : s.packageThumbnail = some a
    · -- the attachments are not touched
      rw [if_pos ht]
      have h₁ : Consistent { s with packageThumbnail := none } :=
        consistent_of_same hs rfl rfl fun _ _ => rfl
      have h₂ := consistent_addPackageThumbnail path h₁
      have hf : (addPackageThumbnail { s with packageThumbnail := none } path).attachments =
            s.attachments ∧ _ := addPackageThumbnail_frame
      exact ⟨fun _ => .inl ht, fun _ => ⟨⟨h₂, contained_of_same hs h₂ hc hf.1 hf.2⟩, nofun⟩⟩
    · rw [if_neg ht, hfind, or_iff_right ht]
      have hs₁ := consistent_removeByPath info.pathURI hs
      have hc₁ := contained_removeByPath info.pathURI hs hc
      cases hb : s.findModelAttachment info.pathURI with
      | none =>
        -- nothing is removed
        rw [removeByPath_none hb]
        refine ⟨fun _ => nofun, fun _ => ?_⟩
        cases hadd : s.addAttachment path info.relationShipType with
        | error e => exact ⟨⟨hs, hc⟩, fun _ _ => ⟨rfl, rfl⟩⟩
        | ok s' =>
          have hlt : ∀ c ∈ s.references, c ≠ s.store.length :=
            fun c hm => ne_of_lt (hs.lt (hc c hm).1)
          exact ⟨⟨consistent_addAttachment hs hadd,
            (contained_addAttachment hs hadd hlt).2 hc⟩, nofun⟩
      | some b =>
        rw [hb] at hc₁
        simp only [Option.some.injEq, forall_eq'] at hc₁ ⊢
        obtain ⟨hbm, hbp⟩ := hs.mem_of_find hb
        have hrem := removeByPath_some hb
        cases hadd : (s.removeByPath info.pathURI).addAttachment path info.relationShipType with
        | error e =>
          -- another attachment has the path; this one is gone
          obtain ⟨c, hcf⟩ := addAttachment_error hadd
          obtain ⟨hcm, hcp⟩ := hs₁.mem_of_find hcf
          rw [hrem] at hcm
          have hcb := (hs.nodup.mem_erase_iff).1 hcm
          have hcp' : s.path? c = some (fnRemoveLeadingPathDelimiter path) := by
            rw [hrem] at hcp
            exact hcp
          have hcs : s.findModelAttachment path = some c := (hs.map _ _).2 ⟨hcb.2, hcp'⟩
          constructor
          · intro ⟨_, h⟩
            have hl := (h e rfl).1
            rw [hrem] at hl
            have hlen := List.length_erase_of_mem hbm
            have hpos := List.length_pos_of_mem hbm
            change s.attachments.erase b = s.attachments at hl
            rw [hl] at hlen
            omega
          · intro ⟨_, h⟩
            exact absurd (h c hcs) hcb.1
        | ok s' =>
          have hlt : ∀ c ∈ (s.removeByPath info.pathURI).references,
              c ≠ (s.removeByPath info.pathURI).store.length := by
            rw [hrem]
            exact fun c hm => ne_of_lt (hs.lt (hc c hm).1)
          have hc₂ := contained_addAttachment hs₁ hadd hlt
          have hown : ∀ c, s.findModelAttachment path = some c → c = b := by
            intro c hcs
            by_contra hne
            obtain ⟨hcm, hcp⟩ := hs.mem_of_find hcs
            have hfree := (addAttachment_spec hadd).1
            have hcs₁ : (s.removeByPath info.pathURI).findModelAttachment path = some c := by
              refine (hs₁.map _ _).2 ?_
              rw [hrem]
              exact ⟨(hs.nodup.mem_erase_iff).2 ⟨hne, hcm⟩, hcp⟩
            rw [hcs₁] at hfree
            cases hfree
          constructor
          · intro ⟨⟨_, h⟩, _⟩
            exact ⟨hc₁.1 (hc₂.1 h), hown⟩
          · intro ⟨hb', _⟩
            exact ⟨⟨consistent_addAttachment hs₁ hadd, hc₂.2 (hc₁.2 hb')⟩, nofun⟩

/-- **One call** keeps the references, and a `SetPath` that throws the attachments, exactly when
it is allowed. -/
theorem contained_next_iff (s : Attachments) (c : AttachmentCall)
    (hs : Consistent s ∧ Contained s) :
    (Consistent (s.next c) ∧ Contained (s.next c)) ∧ Answers s c ↔ Allowed s c := by
  obtain ⟨hs, hc⟩ := hs
  -- the calls that are always allowed
  have fine (h : Consistent (s.next c) ∧ Contained (s.next c)) :
      ((Consistent (s.next c) ∧ Contained (s.next c)) ∧ True ↔ True) :=
    ⟨fun _ => trivial, fun _ => ⟨h, trivial⟩⟩
  cases c with
  | addAttachment uri type =>
    refine fine (inv_orThrow ⟨hs, hc⟩ fun s' h => ?_)
    have hlt : ∀ c ∈ s.references, c ≠ s.store.length :=
      fun c hm => ne_of_lt (hs.lt (hc c hm).1)
    exact ⟨consistent_addAttachment hs h, (contained_addAttachment hs h hlt).2 hc⟩
  | removeAttachment a =>
    simp only [Answers, Allowed, next, step, and_true]
    cases hp : s.path? a with
    | none =>
      have hno : s.findByHandle a = none := by
        rw [findByHandle, hp]
        rfl
      refine ⟨fun _ b hb => ?_, fun _ => ⟨hs, hc⟩⟩
      rw [hno] at hb
      cases hb
    | some path =>
      have hfind : s.findByHandle a = s.findModelAttachment path := by
        rw [findByHandle, hp]
        rfl
      rw [hfind, and_iff_right (consistent_removeByPath _ hs)]
      exact contained_removeByPath _ hs hc
  | setPath a path => exact setPath_iff hs hc
  | createPackageThumbnail =>
    have h := consistent_addPackageThumbnail "/Metadata/thumbnail.png" hs
    exact fine ⟨h, contained_of_same hs h hc addPackageThumbnail_frame.1
      addPackageThumbnail_frame.2⟩
  | removePackageThumbnail =>
    have h : Consistent { s with packageThumbnail := none } :=
      consistent_of_same hs rfl rfl fun _ _ => rfl
    exact fine ⟨h, contained_of_same hs h hc rfl rfl⟩
  | addTexture2DFromAttachment a =>
    refine fine (inv_orThrow ⟨hs, hc⟩ fun s' h => ?_)
    obtain ⟨b, hb, rfl⟩ := addTexture_spec h
    have h' : Consistent { s with textures := s.textures ++ [b] } :=
      consistent_of_same hs rfl rfl fun _ _ => rfl
    refine ⟨h', contained_of_references h' hc rfl fun x hx => ?_⟩
    simp only [references, List.mem_append, List.mem_singleton] at hx ⊢
    rcases hx with (hx | rfl) | hx
    · exact .inl (.inl hx)
    · exact .inr (hs.mem_of_findByHandle hb)
    · exact .inl (.inr hx)
  | setAttachment i a =>
    refine fine (inv_orThrow ⟨hs, hc⟩ fun s' h => ?_)
    obtain ⟨b, hb, rfl⟩ := setAttachment_spec h
    have h' : Consistent { s with textures := s.textures.set i b } :=
      consistent_of_same hs rfl rfl fun _ _ => rfl
    refine ⟨h', contained_of_references h' hc rfl fun x hx => ?_⟩
    simp only [references, List.mem_append] at hx ⊢
    rcases hx with hx | hx
    · rcases List.mem_or_eq_of_mem_set hx with hx | rfl
      · exact .inl (.inl hx)
      · exact .inr (hs.mem_of_findByHandle hb)
    · exact .inl (.inr hx)
  | addObject =>
    have h : Consistent { s with thumbnails := s.thumbnails ++ [none] } :=
      consistent_of_same hs rfl rfl fun _ _ => rfl
    refine fine ⟨h, contained_of_same hs h hc rfl ?_⟩
    change s.textures ++ (s.thumbnails ++ [none]).filterMap id = s.references
    simp [references]
  | setAttachmentAsThumbnail i a =>
    refine fine (inv_orThrow ⟨hs, hc⟩ fun s' h => ?_)
    obtain ⟨b, hb, rfl⟩ := setAttachmentAsThumbnail_spec h
    have h' : Consistent { s with thumbnails := s.thumbnails.set i (some b) } :=
      consistent_of_same hs rfl rfl fun _ _ => rfl
    refine ⟨h', contained_of_references h' hc rfl fun x hx => ?_⟩
    simp only [references, List.mem_append] at hx ⊢
    rcases hx with hx | hx
    · exact .inl (.inl hx)
    · rcases mem_references_set hx with hx | hx
      · exact .inl (.inr hx)
      · cases hx
        exact .inr (hs.mem_of_findByHandle hb)
  | clearThumbnailAttachment i =>
    have h : Consistent { s with thumbnails := s.thumbnails.set i none } :=
      consistent_of_same hs rfl rfl fun _ _ => rfl
    refine fine ⟨h, contained_of_references h hc rfl fun x hx => ?_⟩
    simp only [references, List.mem_append] at hx ⊢
    rcases hx with hx | hx
    · exact .inl (.inl hx)
    · rcases mem_references_set hx with hx | hx
      · exact .inl (.inr hx)
      · cases hx

theorem consistent_new : Consistent new := by
  refine ⟨fun k a => ?_, List.nodup_nil, nofun⟩
  simp [new]

/-- **The references of textures and thumbnails** lead into the attachment list in every state of
a session, and a `SetPath` that throws changes no attachment, exactly when no call removes,
renames or, failing to rename, drops an attachment as `Allowed` excludes. -/
theorem references_contained_iff (calls : List AttachmentCall) :
    (∀ s, Reaches next new calls s → Consistent s ∧ Contained s) ∧
        Guarded next Answers new calls ↔ Guarded next Allowed new calls :=
  guarded_and_iff (fun s => Consistent s ∧ Contained s) ⟨consistent_new, nofun⟩
    contained_next_iff

/-- A texture's attachment renamed: the texture refers to one that is not in the model. -/
theorem rename_loses_texture :
    ¬ ((∀ s, Reaches next new [.addAttachment "/3D/a.png" packageTextureRelationshipType,
          .addTexture2DFromAttachment 0, .setPath 0 "/3D/b.png"] s → Consistent s ∧ Contained s) ∧
        Guarded next Answers new [.addAttachment "/3D/a.png" packageTextureRelationshipType,
          .addTexture2DFromAttachment 0, .setPath 0 "/3D/b.png"]) := by
  intro ⟨h, _⟩
  have hend := (h _ (reaches_run _ _)).2 0 (by decide +kernel)
  exact absurd hend.1 (by decide +kernel)

end Attachments

end NMR
