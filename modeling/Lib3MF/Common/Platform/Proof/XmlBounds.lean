import Lib3MF.Lib.Run
import Lib3MF.Common.Platform.XmlReaderNative

/-!
# The arrays of the XML parser

`Fits`: there are no more entities than characters parsed, and no more zeros to be inserted than
characters before the name that is being parsed. A character adds one entity at most, and a zero
for itself and for the colon of its name (`fits_perform`). Where `parseAttributeName` meets a
second space behind a name with a prefix, it pushes the name again and with it the zero for its
colon, so the zeros can outnumber the characters; `no_write_outOfBounds` excludes that
(`RepeatsPrefix`), and `spaced_prefix_overflows` is a document that does it.
-/

namespace NMR

open Lib

namespace ParseMode

/-- Where the name starts that is being parsed, and otherwise the position. -/
def nameStart (mode : ParseMode) (p : Nat) : Nat :=
  match mode with
  | .element start | .instruction start | .endElement start | .attributeName start false => start
  | _ => p

end ParseMode

namespace XmlBuffer

variable {s s' : XmlBuffer} {mode mode' : ParseMode} {p start delim next : Nat}
  {type : XmlEntityType} {ns finished : Bool} {c : UInt8} {ahead : List UInt8}

/-- A full entity ends no attribute name. -/
def FullEnds (s : XmlBuffer) : Prop :=
  s.fullEntityCount ≤ s.entities.length ∧
    ∀ e, s.entities[s.fullEntityCount - 1]? = some e → 0 < s.fullEntityCount →
      e.type ≠ .attribName

/-- The arrays have room for the characters up to `p`. -/
structure Fits (s : XmlBuffer) (mode : ParseMode) (p : Nat) : Prop where
  entities : s.entities.length ≤ p
  zeroInserts : s.zeroInserts.length ≤ mode.nameStart p
  nameStart : mode.nameStart p ≤ p
  full : s.FullEnds

/-- The attribute name with a colon is followed by a second space. -/
def RepeatsPrefix (s : XmlBuffer) (mode : ParseMode) (p : Nat) (c : UInt8) : Prop :=
  match mode with
  | .attributeName start true => isXmlSpace c ∧ ':'.toUInt8 ∈ slice s.chars start p
  | _ => False

instance (s : XmlBuffer) (mode : ParseMode) (p : Nat) (c : UInt8) :
    Decidable (s.RepeatsPrefix mode p c) := by
  unfold RepeatsPrefix
  split <;> infer_instance

/-- That does not happen while `chars` is parsed. -/
def NamesOnce (mode : ParseMode) (p : Nat) : List UInt8 → XmlBuffer → Prop
  | [], _ => True
  | c :: cs, s => ¬ RepeatsPrefix s mode p c ∧
    match parseChar mode p c cs with
    | .error _ => True
    | .ok (actions, mode) =>
      match actions.foldlM perform s with
      | .error _ => True
      | .ok s => NamesOnce mode (p + 1) cs s

instance decidableNamesOnce : (mode : ParseMode) → (p : Nat) → (cs : List UInt8) →
    (s : XmlBuffer) → Decidable (NamesOnce mode p cs s)
  | _, _, [], _ => isTrue trivial
  | mode, p, c :: cs, s =>
    match h : parseChar mode p c cs with
    | .error _ => decidable_of_iff (¬ RepeatsPrefix s mode p c) (by simp [NamesOnce, h])
    | .ok (actions, mode') =>
      match h' : actions.foldlM perform s with
      | .error _ => decidable_of_iff (¬ RepeatsPrefix s mode p c) (by simp [NamesOnce, h, h'])
      | .ok s' =>
        have := decidableNamesOnce mode' (p + 1) cs s'
        decidable_of_iff (¬ RepeatsPrefix s mode p c ∧ NamesOnce mode' (p + 1) cs s')
          (by simp [NamesOnce, h, h'])

/-! ## What a call pushes -/

theorem mem_of_findColon {colon : Option Nat} {k : Nat} {cs : List UInt8}
    (h : findColon start colon cs = .ok (some k)) : colon.isSome ∨ ':'.toUInt8 ∈ cs := by
  induction cs generalizing start colon with
  | nil =>
    cases h
    exact .inl rfl
  | cons c cs ih =>
    unfold findColon at h
    split_ifs at h with h0 hc hs
    · exact .inr (by rw [hc]; exact List.mem_cons_self)
    · exact (ih h).imp_right (List.mem_cons_of_mem _)

theorem pushZeroInsert_ok (h : s.zeroInserts.length < s.capacity) (p : Nat) :
    s.pushZeroInsert p = .ok { s with zeroInserts := s.zeroInserts ++ [p] } := if_pos h

/-- The colon of a name takes a zero. -/
theorem splitPrefix_spec (h : s.zeroInserts.length < s.capacity) :
    (∃ e, s.splitPrefix start delim type ns = .error (.throws e)) ∨
      ∃ zeros e, s.splitPrefix start delim type ns =
          .ok ({ s with zeroInserts := s.zeroInserts ++ zeros }, e) ∧ e.type = type ∧
        (zeros = [] ∨
          zeros.length = 1 ∧ ns = true ∧ ':'.toUInt8 ∈ slice s.chars start delim) := by
  unfold splitPrefix
  cases ns with
  | false => exact .inr ⟨[], ⟨type, none, start⟩, by simp, rfl, .inl rfl⟩
  | true =>
    cases hf : findColon start none (slice s.chars start delim) with
    | error e => exact .inl ⟨e, rfl⟩
    | ok colon =>
      cases colon with
      | none => exact .inr ⟨[], ⟨type, none, start⟩, by simp, rfl, .inl rfl⟩
      | some k =>
        refine .inr ⟨[k], ⟨type, some start, k + 1⟩, ?_, rfl, .inr ⟨rfl, rfl, ?_⟩⟩
        · simp [pushZeroInsert_ok h]
        · exact (mem_of_findColon hf).resolve_left nofun

/-- What `performEscapeStringDecoding` leaves. -/
theorem finishEntity_spec (s : XmlBuffer) (next : Nat) :
    (∃ e, s.finishEntity next = .error (.throws e)) ∨
      ∃ chars, s.finishEntity next = .ok { s with
        chars := chars, zeroInserts := [], verifiedEntityCount := s.entities.length
        fullEntityCount := s.entities.length, entityPointer := some next } := by
  unfold finishEntity performZeroInserts performEscapeStringDecoding
  dsimp only
  split
  · exact .inl ⟨_, rfl⟩
  · exact .inr ⟨_, rfl⟩

/-- **`pushEntity`** where there is room for an entity and a zero. -/
theorem pushEntity_spec (hz : s.zeroInserts.length < s.capacity)
    (he : s.entities.length < s.capacity) :
    (∃ e, s.pushEntity start delim next type ns finished = .error (.throws e)) ∨
      ∃ s' e, s.pushEntity start delim next type ns finished = .ok s' ∧ e.type = type ∧
        s'.capacity = s.capacity ∧ s'.entities = s.entities ++ [e] ∧
        (s'.fullEntityCount = if finished then s'.entities.length else s.fullEntityCount) ∧
        s'.zeroInserts.length ≤ (if finished then 0 else s.zeroInserts.length) + 1 ∧
        (finished = true → s'.zeroInserts = []) ∧
        (¬ (ns = true ∧ ':'.toUInt8 ∈ slice s.chars start delim) →
          s'.zeroInserts.length ≤ s.zeroInserts.length) := by
  unfold pushEntity
  rcases splitPrefix_spec hz with ⟨e, h⟩ | ⟨zeros, e, h, htype, hzeros⟩
  · rw [h]
    exact .inl ⟨e, rfl⟩
  · rw [h]
    have hw : writeEntity { s with zeroInserts := s.zeroInserts ++ zeros } e =
        .ok { s with zeroInserts := s.zeroInserts ++ zeros, entities := s.entities ++ [e] } :=
      if_pos he
    simp only [bind, Except.bind, hw]
    cases finished with
    | true =>
      rcases finishEntity_spec { s with
        zeroInserts := s.zeroInserts ++ zeros, entities := s.entities ++ [e] } next with
        ⟨e', h'⟩ | ⟨chars, h'⟩
      · exact .inl ⟨e', h'⟩
      · exact .inr ⟨_, e, h', htype, rfl, rfl, rfl, Nat.zero_le _, fun _ => rfl,
          fun _ => Nat.zero_le _⟩
    | false =>
      refine .inr ⟨_, e, rfl, htype, rfl, rfl, rfl, ?_, nofun, fun hc => ?_⟩
      · rcases hzeros with rfl | ⟨hlen, -⟩
        · simp
        · simp [hlen]
      · rcases hzeros with rfl | ⟨-, hm⟩
        · simp
        · exact absurd hm hc

/-! ## What a character leads to -/

/-- The calls a character leads to. -/
inductive Pushes (mode : ParseMode) (p : Nat) (c : UInt8) :
    List ParseAction → ParseMode → Prop where
  | none {mode' : ParseMode} (h : mode.nameStart p ≤ mode'.nameStart (p + 1))
      (hle : mode'.nameStart (p + 1) ≤ p + 1) : Pushes mode p c [] mode'
  | zero {mode' : ParseMode} (h : mode'.nameStart (p + 1) = p + 1) :
      Pushes mode p c [.zeroInsert p] mode'
  /-- A name. -/
  | name {mode' : ParseMode} {start next : Nat} {type : XmlEntityType}
      (hstart : mode.nameStart p = start ∨ mode = .attributeName start true ∧ isXmlSpace c = true)
      (h : mode'.nameStart (p + 1) = p + 1) :
      Pushes mode p c [.entity start p next type true false, .zeroInsert p] mode'
  /-- The end of a full entity. -/
  | full {mode' : ParseMode} {start next : Nat} {type : XmlEntityType} {ns : Bool}
      (ht : type ≠ .attribName) (h : mode'.nameStart (p + 1) = p + 1) :
      Pushes mode p c [.zeroInsert p, .entity start p next type ns true] mode'
  | text {mode' : ParseMode} {start : Nat} (h : mode'.nameStart (p + 1) = p + 1) :
      Pushes mode p c [.entity start p p .text false true, .zeroInsert p] mode'
  | value {mode' : ParseMode} {start : Nat} (h : mode'.nameStart (p + 1) = p + 1) :
      Pushes mode p c [.zeroInsert p, .entity start p (p + 1) .attribValue false false] mode'

theorem pushes_attributeName {hadSpacing : Bool} {actions : List ParseAction}
    (hmode : mode.nameStart p ≤ p) (hstart : (hadSpacing = false → mode.nameStart p = start) ∧
      (hadSpacing = true → mode = .attributeName start true))
    (h : parseAttributeNameChar start hadSpacing p c = .ok (actions, mode')) :
    Pushes mode p c actions mode' := by
  unfold parseAttributeNameChar at h
  cases hadSpacing with
  | false =>
    have hs := hstart.1 rfl
    simp only [Bool.false_eq_true, if_false] at h
    split_ifs at h
    · cases h
      exact .name (.inl hs) rfl
    · cases h
      exact .name (.inl hs) rfl
    · cases h
      exact .none hs.le (by rw [hs] at hmode; exact Nat.le_succ_of_le hmode)
  | true =>
    simp only [if_true] at h
    split_ifs at h with hspace
    · cases h
      exact .name (.inr ⟨hstart.2 rfl, hspace⟩) rfl
    · cases h
      exact .none (Nat.le_succ_of_le hmode) le_rfl

theorem pushes_attributeValue {hadSpacing : Bool} {actions : List ParseAction}
    (hmode : mode.nameStart p ≤ p)
    (h : parseAttributeValueChar hadSpacing p c = .ok (actions, mode')) :
    Pushes mode p c actions mode' := by
  unfold parseAttributeValueChar at h
  split_ifs at h
  all_goals
    cases h
    exact .none (Nat.le_succ_of_le hmode) le_rfl

/-- **What a character leads to**, whatever the mode. -/
theorem parseChar_pushes {actions : List ParseAction} (hmode : mode.nameStart p ≤ p)
    (h : parseChar mode p c ahead = .ok (actions, mode')) : Pushes mode p c actions mode' := by
  have hp : mode.nameStart p ≤ p + 1 := Nat.le_succ_of_le hmode
  unfold parseChar at h
  cases mode with
  | text start =>
    dsimp only at h
    split_ifs at h
    · cases h
      exact .none hp le_rfl
    · cases h
      exact .zero rfl
    · cases h
      exact .text rfl
    · cases h
      exact .none hp le_rfl
  | commentOpen rest =>
    cases h
    split_ifs
    · exact .none hp le_rfl
    · exact .none hp le_rfl
  | comment endPosition =>
    dsimp only at h
    split_ifs at h
    all_goals
      cases h
      exact .none hp le_rfl
  | element start =>
    dsimp only at h
    split_ifs at h
    · cases h
      exact .name (.inl rfl) rfl
    · cases h
      exact .none hp le_rfl
    · cases h
      exact .full nofun rfl
    · cases h
      exact .none hp le_rfl
    · cases h
      exact .name (.inl rfl) rfl
    · cases h
      exact .none le_rfl hp
  | instruction start =>
    dsimp only at h
    split_ifs at h
    · cases h
      exact .name (.inl rfl) rfl
    · cases h
      exact .name (.inl rfl) rfl
    · cases h
      exact .none le_rfl hp
  | closeInstruction =>
    dsimp only at h
    split_ifs at h
    cases h
    exact .full nofun rfl
  | endElement start =>
    dsimp only at h
    split_ifs at h
    · cases h
      exact .none le_rfl hp
    · cases h
      exact .full nofun rfl
    · cases h
      exact .none le_rfl hp
  | closeElement =>
    dsimp only at h
    split_ifs at h
    cases h
    exact .full nofun rfl
  | attributes =>
    dsimp only at h
    split_ifs at h
    · cases h
      exact .none hp le_rfl
    · cases h
      exact .none hp le_rfl
    · cases h
      exact .none hp le_rfl
    · cases h
      exact .none hp le_rfl
    · exact @pushes_attributeName .attributes mode' p p c false actions hmode
        ⟨fun _ => rfl, nofun⟩ h
  | attributeName start hadSpacing =>
    refine pushes_attributeName hmode ⟨?_, ?_⟩ h
    · rintro rfl
      rfl
    · rintro rfl
      rfl
  | attributeValueStart =>
    dsimp only at h
    split_ifs at h
    · cases h
      exact .none hp le_rfl
    · exact pushes_attributeValue hmode h
  | attributeValue hadSpacing => exact pushes_attributeValue hmode h
  | quoted start quote =>
    dsimp only at h
    split_ifs at h
    · cases h
      exact .value rfl
    · cases h
      exact .none hp le_rfl

theorem lt_of_mem_slice {chars : List UInt8} (h : c ∈ slice chars start delim) : start < delim := by
  unfold slice at h
  by_contra hle
  rw [Nat.sub_eq_zero_of_le (not_lt.1 hle), List.take_zero] at h
  cases h

/-- An entity that is not full. -/
theorem FullEnds.append (h : s.FullEnds) {e : NativeEntity} (hents : s'.entities = s.entities ++ [e])
    (hfull : s'.fullEntityCount = s.fullEntityCount) : s'.FullEnds := by
  obtain ⟨hle, hends⟩ := h
  unfold FullEnds
  rw [hents, hfull, List.length_append]
  refine ⟨Nat.le_add_right_of_le hle, fun x hx hpos => hends x ?_ hpos⟩
  rwa [List.getElem?_append_left (by omega)] at hx

/-- A full entity. -/
theorem fullEnds_full {e : NativeEntity} (hents : s'.entities = s.entities ++ [e])
    (hfull : s'.fullEntityCount = s'.entities.length) (he : e.type ≠ .attribName) :
    s'.FullEnds := by
  refine ⟨hfull.le, fun x hx _ => ?_⟩
  rw [hfull, hents, List.length_append, List.length_singleton, Nat.add_sub_cancel,
    List.getElem?_concat_length] at hx
  cases hx
  exact he

/-- **A character keeps the arrays within their bounds**, where no prefix is repeated. -/
theorem fits_perform (hs : Fits s mode p) (hp : p + 1 < s.capacity)
    (hrepeat : ¬ RepeatsPrefix s mode p c) {actions : List ParseAction}
    (h : Pushes mode p c actions mode') :
    (∃ e, actions.foldlM perform s = .error (.throws e)) ∨
      ∃ s', actions.foldlM perform s = .ok s' ∧ Fits s' mode' (p + 1) ∧
        s'.capacity = s.capacity := by
  obtain ⟨hent, hzero, hname, hfull⟩ := hs
  have hz : s.zeroInserts.length < s.capacity := by omega
  have he : s.entities.length < s.capacity := by omega
  -- the state behind the zero for the character
  have hz₁ : (s.zeroInserts ++ [p]).length < s.capacity := by
    rw [List.length_append, List.length_singleton]
    omega
  cases h with
  | none hle hle' => exact .inr ⟨s, rfl, ⟨by omega, by omega, hle', hfull⟩, rfl⟩
  | zero hn =>
    refine .inr ⟨{ s with zeroInserts := s.zeroInserts ++ [p] }, ?_, ⟨?_, ?_, hn.le, hfull⟩, rfl⟩
    · simp only [List.foldlM_cons, List.foldlM_nil, perform, pushZeroInsert_ok hz]
      rfl
    · exact Nat.le_succ_of_le hent
    · rw [hn, List.length_append, List.length_singleton]
      omega
  | @name mode' start next type hstart hn =>
    rcases @pushEntity_spec s start p next type true false hz he with
      ⟨e, h⟩ | ⟨s', e, h, -, hcap, hents, hfull', hlen, -, hcolon⟩
    · refine .inl ⟨e, ?_⟩
      simp only [List.foldlM_cons, perform, h]
      rfl
    · -- a prefix takes a second zero, but the name has begun before it
      have hzeros : s'.zeroInserts.length ≤ p := by
        by_cases hm : ':'.toUInt8 ∈ slice s.chars start p
        · have hlt := lt_of_mem_slice hm
          rcases hstart with hst | ⟨hst, hspace⟩
          · simp only [Bool.false_eq_true, if_false] at hlen
            omega
          · subst hst
            exact absurd ⟨hspace, hm⟩ hrepeat
        · have := hcolon fun h => hm h.2
          omega
      refine .inr ⟨{ s' with zeroInserts := s'.zeroInserts ++ [p] }, ?_,
        ⟨?_, ?_, hn.le, hfull.append hents hfull'⟩, hcap⟩
      · have hz' : s'.zeroInserts.length < s'.capacity := by omega
        simp only [List.foldlM_cons, List.foldlM_nil, perform, h, bind, Except.bind,
          pushZeroInsert_ok hz']
        rfl
      · rw [hents, List.length_append, List.length_singleton]
        omega
      · rw [hn, List.length_append, List.length_singleton]
        omega
  | @full mode' start next type ns ht hn =>
    rcases @pushEntity_spec { s with zeroInserts := s.zeroInserts ++ [p] } start p next type ns true
      hz₁ he with ⟨e, h⟩ | ⟨s', e, h, htype, hcap, hents, hfull', -, hnil, -⟩
    · refine .inl ⟨e, ?_⟩
      simp only [List.foldlM_cons, perform, pushZeroInsert_ok hz, bind, Except.bind, h]
    · refine .inr ⟨s', ?_, ⟨?_, ?_, hn.le, fullEnds_full hents hfull' (by rwa [htype])⟩, hcap⟩
      · simp only [List.foldlM_cons, List.foldlM_nil, perform, pushZeroInsert_ok hz, bind,
          Except.bind, h]
        rfl
      · rw [hents, List.length_append, List.length_singleton]
        exact Nat.succ_le_succ hent
      · rw [hnil rfl]
        exact Nat.zero_le _
  | @text mode' start hn =>
    rcases @pushEntity_spec s start p p .text false true hz he with
      ⟨e, h⟩ | ⟨s', e, h, htype, hcap, hents, hfull', -, hnil, -⟩
    · refine .inl ⟨e, ?_⟩
      simp only [List.foldlM_cons, perform, h]
      rfl
    · have hnil := hnil rfl
      refine .inr ⟨{ s' with zeroInserts := s'.zeroInserts ++ [p] }, ?_,
        ⟨?_, ?_, hn.le, fullEnds_full hents hfull' (by rw [htype]; nofun)⟩, hcap⟩
      · have hz' : s'.zeroInserts.length < s'.capacity := by
          rw [hnil, hcap]
          exact Nat.lt_of_le_of_lt (Nat.zero_le _) he
        simp only [List.foldlM_cons, List.foldlM_nil, perform, h, bind, Except.bind,
          pushZeroInsert_ok hz']
        rfl
      · rw [hents, List.length_append, List.length_singleton]
        omega
      · rw [hn, hnil]
        exact Nat.succ_le_succ (Nat.zero_le _)
  | @value mode' start hn =>
    rcases @pushEntity_spec { s with zeroInserts := s.zeroInserts ++ [p] } start p (p + 1)
      .attribValue false false hz₁ he with ⟨e, h⟩ | ⟨s', e, h, -, hcap, hents, hfull', -, -, hcolon⟩
    · refine .inl ⟨e, ?_⟩
      simp only [List.foldlM_cons, perform, pushZeroInsert_ok hz, bind, Except.bind, h]
    · refine .inr ⟨s', ?_, ⟨?_, ?_, hn.le, hfull.append hents hfull'⟩, hcap⟩
      · simp only [List.foldlM_cons, List.foldlM_nil, perform, pushZeroInsert_ok hz, bind,
          Except.bind, h]
        rfl
      · rw [hents, List.length_append, List.length_singleton]
        exact Nat.succ_le_succ hent
      · have := hcolon nofun
        rw [List.length_append, List.length_singleton] at this
        rw [hn]
        omega

/-- **Parsing a buffer that is smaller than the arrays** writes within them. -/
theorem parseFrom_fits (cs : List UInt8) (hs : Fits s mode p) (hp : p + cs.length < s.capacity)
    (honce : NamesOnce mode p cs s) :
    (∃ e, parseFrom mode p cs s = .error (.throws e)) ∨
      ∃ s', parseFrom mode p cs s = .ok s' ∧ s'.FullEnds ∧ s'.capacity = s.capacity := by
  induction cs generalizing mode p s with
  | nil => exact .inr ⟨s, rfl, hs.full, rfl⟩
  | cons c cs ih =>
    rw [List.length_cons] at hp
    unfold parseFrom
    cases hc : parseChar mode p c cs with
    | error e => exact .inl ⟨e, rfl⟩
    | ok r =>
      obtain ⟨actions, mode'⟩ := r
      rcases fits_perform hs (by omega) honce.1 (parseChar_pushes hs.nameStart hc) with
        ⟨e, h⟩ | ⟨s', h, hs', hcap⟩
      · exact .inl ⟨e, by simp only [h]⟩
      · have honce' := honce.2
        simp only [hc, h] at honce' ⊢
        rw [← hcap]
        exact ih hs' (by omega) honce'

/-! ## Spaces behind a prefixed name -/

theorem findColon_spaces (p k n : Nat) :
    findColon p (some k) (List.replicate n 32) = .ok (some k) := by
  induction n generalizing p with
  | zero => rfl
  | succ n ih => exact ih (p + 1)

/-- **Each space behind a prefixed name** takes two zeros, until they are too many. -/
theorem parseFrom_spaces {s : XmlBuffer} {start k p : Nat} (n : Nat) (rest : List UInt8)
    (hcolon : ∀ i, i < n →
      findColon start none (slice s.chars start (p + i)) = .ok (some k))
    (he : s.entities.length + n ≤ s.capacity) (hz : s.zeroInserts.length ≤ s.capacity)
    (hn : s.capacity < s.zeroInserts.length + 2 * n) :
    parseFrom (.attributeName start true) p (List.replicate n 32 ++ rest) s =
      .error .outOfBounds := by
  induction n generalizing p s with
  | zero => omega
  | succ n ih =>
    have hchar : parseChar (.attributeName start true) p 32 (List.replicate n 32 ++ rest) =
        .ok ([.entity start p (p + 1) .attribName true false, .zeroInsert p],
          .attributeName start true) := rfl
    have hslice : findColon start none (slice s.chars start p) = .ok (some k) :=
      hcolon 0 (Nat.succ_pos n)
    rw [List.replicate_succ, List.cons_append, parseFrom, hchar]
    simp only [List.foldlM_cons, List.foldlM_nil, perform, pushEntity, splitPrefix, if_true, hslice]
    by_cases h0 : s.zeroInserts.length < s.capacity
    · have hw : s.entities.length < s.capacity := by omega
      simp only [pushZeroInsert_ok h0, bind, Except.bind, writeEntity, if_pos hw,
        Bool.false_eq_true, if_false]
      by_cases h1 : s.zeroInserts.length + 1 < s.capacity
      · have h1' : (s.zeroInserts ++ [k]).length < s.capacity := by
          rw [List.length_append, List.length_singleton]
          exact h1
        simp only [pushZeroInsert, if_pos h1', pure, Except.pure]
        apply ih
        · intro i hi
          have := hcolon (i + 1) (by omega)
          rwa [← Nat.add_assoc, Nat.add_right_comm] at this
        · rw [List.length_append, List.length_singleton]
          show s.entities.length + 1 + n ≤ s.capacity
          omega
        · simp only [List.length_append, List.length_singleton]
          omega
        · simp only [List.length_append, List.length_singleton]
          omega
      · have h1' : ¬ (s.zeroInserts ++ [k]).length < s.capacity := by
          rw [List.length_append, List.length_singleton]
          exact h1
        simp only [pushZeroInsert, if_neg h1']
    · simp only [pushZeroInsert, if_neg h0, bind, Except.bind]

/-- A start tag whose attribute has a prefix, with spaces behind its name. -/
def spacedPrefix (n : Nat) : List UInt8 :=
  xmlBytes ['<', 'e', ' ', 'a', ':', 'b', ' '] ++ (List.replicate n 32 ++ xmlBytes ['=', '"', '"', '>'])

theorem slice_spacedPrefix {n i : Nat} (h : i ≤ n) :
    slice (spacedPrefix n) 3 (7 + i) = xmlBytes ['a', ':', 'b', ' '] ++ List.replicate i 32 := by
  have hdrop : (spacedPrefix n).drop 3 = xmlBytes ['a', ':', 'b', ' '] ++
      (List.replicate n 32 ++ xmlBytes ['=', '"', '"', '>']) := rfl
  unfold slice
  rw [hdrop, show 7 + i - 3 = (xmlBytes ['a', ':', 'b', ' ']).length + i by
    show 7 + i - 3 = 4 + i
    omega, List.take_length_add_append, List.take_append_of_le_length (by simpa using h),
    List.take_replicate, min_eq_left h]

/-- **The zeros of such a tag** outgrow an array for 1024 characters. -/
theorem parseUnknown_spacedPrefix (n : Nat) (hn : 1020 < 2 * n) (he : n ≤ 1022) :
    parseUnknown 1024 (spacedPrefix n) = .error .outOfBounds := by
  have htag : parseUnknown 1024 (spacedPrefix n) =
      parseFrom (.attributeName 3 true) 7 (List.replicate n 32 ++ xmlBytes ['=', '"', '"', '>'])
        ⟨1024, spacedPrefix n, [⟨.element, none, 1⟩, ⟨.attribName, some 3, 5⟩], [0, 2, 4, 6], 0, 0,
          none⟩ := rfl
  rw [htag]
  apply parseFrom_spaces n
  · intro i hi
    rw [slice_spacedPrefix hi.le]
    exact findColon_spaces _ 4 _
  · show 2 + n ≤ 1024
    omega
  · show 4 ≤ 1024
    omega
  · show 1024 < 4 + 2 * n
    omega

end XmlBuffer

namespace NativeReader

variable {r r' : NativeReader}

/-- The buffer that `readNextBufferFromStream` fills. -/
def nextChars (r : NativeReader) : List UInt8 :=
  r.buffer.chars.drop (r.buffer.chars.length - r.overflowSize) ++
    (r.stream.readBuffer (r.buffer.capacity - bufferMargin - r.overflowSize)).1

/-- The calls. -/
inductive XmlCall where
  | read
  | moveToNextAttribute
  deriving DecidableEq

/-- One call. -/
def call (r : NativeReader) : XmlCall → Except XmlFault NativeReader
  | .read => r.read.map Prod.fst
  | .moveToNextAttribute => r.moveToNextAttribute.map Prod.fst

/-- The state a call leaves; a reader that has thrown is not called again. -/
def next (s : Except XmlFault NativeReader) (c : XmlCall) : Except XmlFault NativeReader :=
  match s with
  | .ok r => r.call c
  | .error e => .error e

/-- The buffer a call fills, if it does, has no attribute name with a prefix that two spaces
follow. -/
def Allowed (s : Except XmlFault NativeReader) (_ : XmlCall) : Prop :=
  ∀ r, s = .ok r → r.buffer.fullEntityCount ≤ r.entityIndex → XmlBuffer.NamesOnce (.text 0) 0
    r.nextChars ⟨r.buffer.capacity, r.nextChars, [], [], 0, 0, none⟩

/-- What the reader has between two calls. -/
structure Ready (r : NativeReader) : Prop where
  capacity : bufferMargin < r.buffer.capacity
  full : r.buffer.FullEnds

/-- It has written within the arrays. -/
def Safe (s : Except XmlFault NativeReader) : Prop :=
  match s with
  | .ok r => r.Ready
  | .error e => e ≠ .outOfBounds

theorem length_nextChars (r : NativeReader) (h : r.overflowSize ≤ r.buffer.capacity - bufferMargin) :
    r.nextChars.length ≤ r.buffer.capacity - bufferMargin := by
  unfold nextChars NativeStream.readBuffer
  dsimp only
  rw [List.length_append, List.length_drop, List.length_take]
  omega

/-- What filling the buffer comes to. -/
theorem readNextBufferFromStream_eq (r : NativeReader) :
    r.readNextBufferFromStream = if r.buffer.capacity - bufferMargin < r.overflowSize ∨
        r.buffer.chars.length < r.overflowSize then .error (.throws .invalidBufferSize)
      else
        match XmlBuffer.parseUnknown r.buffer.capacity r.nextChars with
        | .error e => .error e
        | .ok b => .ok { r with
          stream :=
            (r.stream.readBuffer (r.buffer.capacity - bufferMargin - r.overflowSize)).2
          buffer := b
          overflowSize := (b.entityPointer.map fun p => b.chars.length - p).getD 0
          entityIndex := 0 } := rfl

theorem readNextBufferFromStream_safe (hr : r.Ready)
    (honce : XmlBuffer.NamesOnce (.text 0) 0 r.nextChars
      ⟨r.buffer.capacity, r.nextChars, [], [], 0, 0, none⟩) :
    (∃ e, r.readNextBufferFromStream = .error (.throws e)) ∨
      ∃ r', r.readNextBufferFromStream = .ok r' ∧ r'.Ready ∧ r'.entityIndex = 0 := by
  rw [readNextBufferFromStream_eq]
  split_ifs with hc
  · exact .inl ⟨_, rfl⟩
  · rw [not_or] at hc
    have hlen := r.length_nextChars (not_lt.1 hc.1)
    have hcap := hr.capacity
    have hfits : XmlBuffer.Fits ⟨r.buffer.capacity, r.nextChars, [], [], 0, 0, none⟩ (.text 0) 0 :=
      ⟨le_rfl, le_rfl, le_rfl, le_rfl, fun _ _ h => absurd h (lt_irrefl _)⟩
    have hmargin : bufferMargin = 8 := rfl
    have hroom : 0 + r.nextChars.length < r.buffer.capacity := by omega
    rcases XmlBuffer.parseFrom_fits r.nextChars hfits hroom honce with ⟨e, h⟩ | ⟨b, h, hfull, hb⟩
    · have h : XmlBuffer.parseUnknown r.buffer.capacity r.nextChars = _ := h
      exact .inl ⟨e, by rw [h]⟩
    · have h : XmlBuffer.parseUnknown r.buffer.capacity r.nextChars = _ := h
      rw [h]
      exact .inr ⟨_, rfl, ⟨by rw [hb]; exact hcap, hfull⟩, rfl⟩

/-- `ensureFilledBuffer` leaves an entity to read, or is at the end of the file. -/
theorem ensureFilledBuffer_safe (hr : r.Ready)
    (honce : r.buffer.fullEntityCount ≤ r.entityIndex → XmlBuffer.NamesOnce (.text 0) 0 r.nextChars
      ⟨r.buffer.capacity, r.nextChars, [], [], 0, 0, none⟩) :
    (∃ e, r.ensureFilledBuffer = .error (.throws e)) ∨
      ∃ r' b, r.ensureFilledBuffer = .ok (r', b) ∧ r'.Ready ∧
        (b = true → r'.entityIndex < r'.buffer.fullEntityCount) := by
  unfold ensureFilledBuffer
  split_ifs with hc
  · rcases readNextBufferFromStream_safe hr (honce hc) with ⟨e, h⟩ | ⟨r', h, hr', hindex⟩
    · rw [h]
      exact .inl ⟨e, rfl⟩
    · rw [h]
      dsimp only
      split_ifs with hz
      · exact .inr ⟨_, false, rfl, ⟨hr'.capacity, hr'.full⟩, nofun⟩
      · exact .inr ⟨r', true, rfl, hr', fun _ => by rw [hindex]; omega⟩
  · exact .inr ⟨r, true, rfl, hr, fun _ => not_le.1 hc⟩

theorem readEntity_safe (hr : r.Ready) (e : NativeEntity) :
    (∃ e', r.readEntity e = .error (.throws e')) ∨
      ∃ r' t, r.readEntity e = .ok (r', t) ∧ r'.Ready := by
  unfold readEntity
  cases e.type with
  | text =>
    dsimp only
    split
    · exact .inl ⟨_, rfl⟩
    · exact .inr ⟨_, _, rfl, ⟨hr.capacity, hr.full⟩⟩
  | _ => exact .inr ⟨_, _, rfl, ⟨hr.capacity, hr.full⟩⟩

theorem read_safe (hr : r.Ready)
    (honce : r.buffer.fullEntityCount ≤ r.entityIndex → XmlBuffer.NamesOnce (.text 0) 0 r.nextChars
      ⟨r.buffer.capacity, r.nextChars, [], [], 0, 0, none⟩) : Safe (r.call .read) := by
  unfold call read
  rcases ensureFilledBuffer_safe hr honce with ⟨e, h⟩ | ⟨r', b, h, hr', hindex⟩
  · rw [h]
    nofun
  · rw [h]
    cases b with
    | false => exact hr'
    | true =>
      have hlt := (hindex rfl).trans_le hr'.full.1
      dsimp only
      rw [List.getElem?_eq_getElem hlt]
      dsimp only
      rcases readEntity_safe hr' r'.buffer.entities[r'.entityIndex] with ⟨e, h⟩ | ⟨r'', t, h, hr''⟩
      · rw [h]
        nofun
      · rw [h]
        exact ⟨hr''.capacity, hr''.full⟩

theorem moveToNextAttribute_safe (hr : r.Ready)
    (honce : r.buffer.fullEntityCount ≤ r.entityIndex → XmlBuffer.NamesOnce (.text 0) 0 r.nextChars
      ⟨r.buffer.capacity, r.nextChars, [], [], 0, 0, none⟩) :
    Safe (r.call .moveToNextAttribute) := by
  unfold call moveToNextAttribute
  rcases ensureFilledBuffer_safe hr honce with ⟨e, h⟩ | ⟨r', b, h, hr', hindex⟩
  · rw [h]
    nofun
  · rw [h]
    cases b with
    | false => exact hr'
    | true =>
      have hlt := hindex rfl
      have hlt' := hlt.trans_le hr'.full.1
      dsimp only
      rw [List.getElem?_eq_getElem hlt']
      dsimp only
      split_ifs with hname
      · -- a name is not the last of the full entities, so the buffer stays
        have hnot : r'.entityIndex ≠ r'.buffer.fullEntityCount - 1 := by
          intro he
          apply hr'.full.2 _ _ (by omega) hname
          rw [← he]
          exact List.getElem?_eq_getElem hlt'
        have hnext : r'.entityIndex + 1 < r'.buffer.fullEntityCount := by omega
        have hfull := hr'.full.1
        unfold ensureFilledBuffer
        dsimp only
        rw [if_neg (not_le.2 hnext)]
        dsimp only
        rw [List.getElem?_eq_getElem (hnext.trans_le hfull)]
        dsimp only
        split_ifs
        · exact ⟨hr'.capacity, hr'.full⟩
        · nofun
      · exact hr'

/-- **A call writes within the arrays** where it is allowed. -/
theorem safe_next (s : Except XmlFault NativeReader) (c : XmlCall) (hs : Safe s)
    (h : Allowed s c) : Safe (next s c) := by
  cases s with
  | error e => exact hs
  | ok r =>
    cases c with
    | read => exact read_safe hs (h r rfl)
    | moveToNextAttribute => exact moveToNextAttribute_safe hs (h r rfl)

theorem safe_create (stream : NativeStream) (capacity : Nat) : Safe (create stream capacity) := by
  unfold create
  split_ifs with hc
  · nofun
  · rw [not_or, not_lt] at hc
    refine ⟨?_, le_rfl, fun _ _ h => absurd h (lt_irrefl _)⟩
    have hmargin : bufferMargin = 8 := rfl
    have hmin : minBufferCapacity = 1024 := rfl
    show bufferMargin < capacity
    omega

/-- **The parser never writes outside of its arrays**, whatever the stream delivers and whatever
the capacity, in a run whose buffers have no attribute name with a prefix that two spaces follow. -/
theorem no_write_outOfBounds (stream : NativeStream) (capacity : Nat) (calls : List XmlCall)
    (h : Guarded next Allowed (create stream capacity) calls) :
    ∀ s, Reaches next (create stream capacity) calls s → s ≠ .error .outOfBounds := by
  intro s hs he
  have hsafe : Safe s := hs.inv Safe (safe_create stream capacity) safe_next h
  rw [he] at hsafe
  exact hsafe rfl

theorem read_spacedPrefix (n : Nat) (hn : 1020 < 2 * n) (he : n ≤ 1005) :
    run next (create ⟨XmlBuffer.spacedPrefix n, []⟩ 1024) [.read] = .error .outOfBounds := by
  have hlen : (XmlBuffer.spacedPrefix n).length ≤ 1016 := by
    rw [XmlBuffer.spacedPrefix, List.length_append, List.length_append, List.length_replicate]
    show 7 + (n + 4) ≤ 1016
    omega
  have hfill : readNextBufferFromStream ⟨⟨XmlBuffer.spacedPrefix n, []⟩,
      ⟨1024, [], [], [], 0, 0, none⟩, 0, 0, false, [], [], [], [], []⟩ = .error .outOfBounds := by
    have hchars : nextChars ⟨⟨XmlBuffer.spacedPrefix n, []⟩, ⟨1024, [], [], [], 0, 0, none⟩, 0, 0,
        false, [], [], [], [], []⟩ = XmlBuffer.spacedPrefix n := List.take_of_length_le hlen
    rw [readNextBufferFromStream_eq, hchars, if_neg (by show ¬ (1016 < 0 ∨ 0 < 0); omega)]
    show (match XmlBuffer.parseUnknown 1024 (XmlBuffer.spacedPrefix n) with
      | Except.error e => Except.error e
      | Except.ok b => _) = _
    rw [XmlBuffer.parseUnknown_spacedPrefix n hn (by omega)]
  show Except.map Prod.fst (read ⟨⟨XmlBuffer.spacedPrefix n, []⟩,
    ⟨1024, [], [], [], 0, 0, none⟩, 0, 0, false, [], [], [], [], []⟩) = _
  unfold read ensureFilledBuffer
  rw [if_pos le_rfl, hfill]
  rfl

/-- `<a b=""></a>`. -/
def shortDocument : NativeStream :=
  ⟨xmlBytes ['<', 'a', ' ', 'b', '=', '"', '"', '>', '<', '/', 'a', '>'], []⟩

/-- Its first tag is read within the arrays. -/
theorem no_write_outOfBounds_short :
    run next (create shortDocument 1024) [.read, .moveToNextAttribute] ≠ .error .outOfBounds := by
  refine no_write_outOfBounds shortDocument 1024 [.read, .moveToNextAttribute]
    ⟨fun r hr _ => ?_, fun r hr hfull => ?_, trivial⟩ _ (reaches_run _ _)
  · cases hr
    decide +kernel
  · -- the buffer has been filled by `Read`
    have hread : (match next (create shortDocument 1024) .read with
      | .ok r => decide (r.buffer.fullEntityCount ≤ r.entityIndex)
      | .error _ => false) = false := by decide +kernel
    rw [hr] at hread
    exact absurd hfull (of_decide_eq_false hread)

/-- Six hundred spaces make more zeros than a buffer of 1024 characters has room for. -/
theorem spaced_prefix_overflows :
    ¬ ∀ s, Reaches next (create ⟨XmlBuffer.spacedPrefix 600, []⟩ 1024) [.read] s →
      s ≠ .error .outOfBounds := by
  intro h
  exact h _ (reaches_run _ _) (read_spacedPrefix 600 (by omega) (by omega))

end NativeReader

end NMR
