import Lib3MF.Common.Platform.EscapeDecoding

/-!
# What decoding accepts

`decodeXMLEscapeXMLStrings` remembers the last `&` only: one that is followed by another before a
`;` is dropped, with what stands between them (`dropAbandoned`). What is left is decoded as the
escape sequences say (`decode_iff`), so:

* `decodeInPlace_eq`: decoding in place comes to `decodeAt`, and in every round the write position
  is not behind the read position (`passes_write_le`);
* `decodesInPlace_iff`: what is accepted is what is well escaped, decoded, unless something abandoned
  is dropped and the rest accepted.
-/

namespace NMR

open Lib

/-- The escape sequences, without their `&` and `;`, and what they stand for. -/
def escapeSequences : List (List UInt8 × UInt8) :=
  [(xmlBytes ['q', 'u', 'o', 't'], '"'.toUInt8), (xmlBytes ['a', 'p', 'o', 's'], '\''.toUInt8),
    (xmlBytes ['l', 't'], '<'.toUInt8), (xmlBytes ['g', 't'], '>'.toUInt8),
    (xmlBytes ['a', 'm', 'p'], '&'.toUInt8)]

/-- Every `&` starts an escape sequence. -/
def WellEscaped (s : List UInt8) : Prop :=
  ∀ before behind, s = before ++ '&'.toUInt8 :: behind →
    ∃ e ∈ escapeSequences, (e.1 ++ [';'.toUInt8]) <+: behind

/-- `d` is `s` with each escape sequence replaced by its character. -/
inductive Decodes : List UInt8 → List UInt8 → Prop where
  | nil : Decodes [] []
  | char {c : UInt8} {s d : List UInt8} (hc : c ≠ '&'.toUInt8) (h : Decodes s d) :
      Decodes (c :: s) (c :: d)
  | escape {e : List UInt8 × UInt8} {s d : List UInt8} (he : e ∈ escapeSequences)
      (h : Decodes s d) : Decodes ('&'.toUInt8 :: (e.1 ++ ';'.toUInt8 :: s)) (e.2 :: d)

/-- What follows an `&` has another one before its first `;`. -/
def Abandoned (behind : List UInt8) : Prop :=
  behind.find? (fun c => c = '&'.toUInt8 ∨ c = ';'.toUInt8) = some '&'.toUInt8

instance (behind : List UInt8) : Decidable (Abandoned behind) :=
  inferInstanceAs (Decidable (_ = _))

/-- A string has an `&` that is followed by another one before a `;`. -/
def Abandons (s : List UInt8) : Prop :=
  ∃ before behind, s = before ++ '&'.toUInt8 :: behind ∧ Abandoned behind

/-- A string without these and what follows them up to the next `&`. -/
def dropAbandoned : List UInt8 → List UInt8
  | [] => []
  | c :: cs =>
    if c = '&'.toUInt8 ∧ Abandoned cs then dropAbandoned (cs.dropWhile (· ≠ '&'.toUInt8))
    else c :: dropAbandoned cs
termination_by s => s.length
decreasing_by
  · have := (List.dropWhile_sublist (fun c => decide (c ≠ '&'.toUInt8)) (l := cs)).length_le
    simp only [List.length_cons]
    omega
  · simp

/-! ## One sequence -/

theorem matchesEscape_iff {escape seq : List UInt8} :
    matchesEscape escape seq = true ↔ escape <+: seq ∨ seq <+: escape := by
  unfold matchesEscape
  rw [decide_eq_true_iff]
  rcases Nat.le_total escape.length seq.length with hle | hle
  · rw [Nat.min_eq_left hle, List.take_of_length_le (Nat.le_refl escape.length)]
    refine ⟨fun h => .inl (h ▸ List.take_prefix _ _), ?_⟩
    rintro (h | h)
    · exact (List.prefix_iff_eq_take.1 h).symm
    · rw [h.eq_of_length (Nat.le_antisymm h.length_le hle), List.take_of_length_le (Nat.le_refl _)]
  · rw [Nat.min_eq_right hle, List.take_of_length_le (Nat.le_refl seq.length)]
    refine ⟨fun h => .inr (h ▸ List.take_prefix _ _), ?_⟩
    rintro (h | h)
    · rw [h.eq_of_length (Nat.le_antisymm h.length_le hle), List.take_of_length_le (Nat.le_refl _)]
    · exact List.prefix_iff_eq_take.1 h

/-- Up to its `;`, a text is determined by its part before it. -/
theorem eq_of_append_semicolon {a b s t : List UInt8} (ha : ';'.toUInt8 ∉ a) (hb : ';'.toUInt8 ∉ b)
    (h : a ++ ';'.toUInt8 :: s = b ++ ';'.toUInt8 :: t) : a = b ∧ s = t := by
  induction a generalizing b with
  | nil =>
    cases b with
    | nil => exact ⟨rfl, (List.cons.inj h).2⟩
    | cons c b => exact absurd (List.cons.inj h).1 fun hc => hb (hc ▸ List.mem_cons_self)
  | cons c a ih =>
    cases b with
    | nil => exact absurd (List.cons.inj h).1 fun hc => ha (hc ▸ List.mem_cons_self)
    | cons c' b =>
      obtain ⟨rfl, htail⟩ := List.cons.inj h
      obtain ⟨rfl, rfl⟩ := ih (fun h => ha (List.mem_cons_of_mem _ h))
        (fun h => hb (List.mem_cons_of_mem _ h)) htail
      exact ⟨rfl, rfl⟩

/-- The comparison of truncated length is one of the whole, as a sequence ends at its first `;`. -/
theorem matchesEscape_sequence {name body : List UInt8} (hn : ';'.toUInt8 ∉ name)
    (hb : ';'.toUInt8 ∉ body) :
    matchesEscape ('&'.toUInt8 :: (name ++ [';'.toUInt8]))
      ('&'.toUInt8 :: (body ++ [';'.toUInt8])) = true ↔ body = name := by
  rw [matchesEscape_iff]
  refine ⟨?_, by rintro rfl; exact .inl (List.prefix_refl _)⟩
  rintro (⟨t, h⟩ | ⟨t, h⟩)
  · have h' : name ++ ';'.toUInt8 :: t = body ++ ';'.toUInt8 :: [] := by simpa using h
    exact (eq_of_append_semicolon hn hb h').1.symm
  · have h' : body ++ ';'.toUInt8 :: t = name ++ ';'.toUInt8 :: [] := by simpa using h
    exact (eq_of_append_semicolon hb hn h').1

theorem semicolon_notMem_sequence {e : List UInt8 × UInt8} (he : e ∈ escapeSequences) :
    ';'.toUInt8 ∉ e.1 ∧ '&'.toUInt8 ∉ e.1 ∧ e.2 ≠ 0 := by
  revert e
  decide

/-- A sequence stands for one character. -/
theorem escapeSequences_unique {body : List UInt8} {c d : UInt8}
    (hc : (body, c) ∈ escapeSequences) : (body, d) ∈ escapeSequences ↔ c = d := by
  have huniq : ∀ e ∈ escapeSequences, ∀ e' ∈ escapeSequences, e.1 = e'.1 → e.2 = e'.2 := by decide
  exact ⟨fun hd => huniq _ hc _ hd rfl, fun h => h ▸ hc⟩

/-- A sequence is decoded exactly when it is one of the five. -/
theorem decodeEscape_eq_ok {body : List UInt8} (hb : ';'.toUInt8 ∉ body) {d : UInt8} :
    decodeEscape ('&'.toUInt8 :: (body ++ [';'.toUInt8])) = .ok d ↔
      (body, d) ∈ escapeSequences := by
  have hquot := @matchesEscape_sequence (xmlBytes ['q', 'u', 'o', 't']) body (by decide) hb
  have hapos := @matchesEscape_sequence (xmlBytes ['a', 'p', 'o', 's']) body (by decide) hb
  have hlt := @matchesEscape_sequence (xmlBytes ['l', 't']) body (by decide) hb
  have hgt := @matchesEscape_sequence (xmlBytes ['g', 't']) body (by decide) hb
  have hamp := @matchesEscape_sequence (xmlBytes ['a', 'm', 'p']) body (by decide) hb
  show (if matchesEscape ('&'.toUInt8 :: (xmlBytes ['q', 'u', 'o', 't'] ++ [';'.toUInt8])) _ then _
    else if matchesEscape ('&'.toUInt8 :: (xmlBytes ['a', 'p', 'o', 's'] ++ [';'.toUInt8])) _ then _
    else if matchesEscape ('&'.toUInt8 :: (xmlBytes ['l', 't'] ++ [';'.toUInt8])) _ then _
    else if matchesEscape ('&'.toUInt8 :: (xmlBytes ['g', 't'] ++ [';'.toUInt8])) _ then _
    else if matchesEscape ('&'.toUInt8 :: (xmlBytes ['a', 'm', 'p'] ++ [';'.toUInt8])) _ then _
    else _) = _ ↔ _
  simp only [hquot, hapos, hlt, hgt, hamp]
  split_ifs with h1 h2 h3 h4 h5
  · subst h1
    rw [Except.ok.injEq, escapeSequences_unique (c := '"'.toUInt8) (by decide)]
  · subst h2
    rw [Except.ok.injEq, escapeSequences_unique (c := '\''.toUInt8) (by decide)]
  · subst h3
    rw [Except.ok.injEq, escapeSequences_unique (c := '<'.toUInt8) (by decide)]
  · subst h4
    rw [Except.ok.injEq, escapeSequences_unique (c := '>'.toUInt8) (by decide)]
  · subst h5
    rw [Except.ok.injEq, escapeSequences_unique (c := '&'.toUInt8) (by decide)]
  · simp [escapeSequences, h1, h2, h3, h4, h5]

/-! ## The loop -/

theorem Decodes.nil_iff {d : List UInt8} : Decodes [] d ↔ d = [] := by
  refine ⟨fun h => by cases h; rfl, ?_⟩
  rintro rfl
  exact .nil

theorem Decodes.cons_iff {c : UInt8} {s d : List UInt8} (hc : c ≠ '&'.toUInt8) :
    Decodes (c :: s) d ↔ ∃ t, Decodes s t ∧ d = c :: t := by
  refine ⟨fun h => ?_, ?_⟩
  · cases h with
    | char _ h => exact ⟨_, h, rfl⟩
    | escape he h => exact absurd rfl hc
  · rintro ⟨t, h, rfl⟩
    exact .char hc h

/-- An `&` starts the sequence up to the first `;`. -/
theorem Decodes.amp_iff {body s d : List UInt8} (hb : ';'.toUInt8 ∉ body) :
    Decodes ('&'.toUInt8 :: (body ++ ';'.toUInt8 :: s)) d ↔
      ∃ c t, (body, c) ∈ escapeSequences ∧ Decodes s t ∧ d = c :: t := by
  refine ⟨fun h => ?_, ?_⟩
  · generalize hs : '&'.toUInt8 :: (body ++ ';'.toUInt8 :: s) = u at h
    cases h with
    | nil => cases hs
    | char hc _ => exact absurd (List.cons.inj hs).1.symm hc
    | escape he h =>
      obtain ⟨rfl, rfl⟩ := eq_of_append_semicolon hb (semicolon_notMem_sequence he).1
        (List.cons.inj hs).2
      exact ⟨_, _, he, h, rfl⟩
  · rintro ⟨c, t, he, h, rfl⟩
    exact .escape he h

/-- Without a `;` behind it, an `&` starts nothing. -/
theorem Decodes.not_amp {body d : List UInt8} (hb : ';'.toUInt8 ∉ body) :
    ¬ Decodes ('&'.toUInt8 :: body) d := by
  intro h
  generalize hs : '&'.toUInt8 :: body = u at h
  cases h with
  | nil => cases hs
  | char hc _ => exact hc (List.cons.inj hs).1.symm
  | escape he h =>
    apply hb
    rw [(List.cons.inj hs).2]
    exact List.mem_append_right _ List.mem_cons_self

/-- Nothing special stands in a text. -/
def Plain (body : List UInt8) : Prop := '&'.toUInt8 ∉ body ∧ ';'.toUInt8 ∉ body

theorem Plain.find?_append {body s : List UInt8} (hb : Plain body) :
    (body ++ s).find? (fun c => c = '&'.toUInt8 ∨ c = ';'.toUInt8) =
      s.find? (fun c => c = '&'.toUInt8 ∨ c = ';'.toUInt8) := by
  rw [List.find?_append, List.find?_eq_none.2, Option.none_or]
  intro c hc
  have h1 : c ≠ '&'.toUInt8 := fun h => hb.1 (h ▸ hc)
  have h2 : c ≠ ';'.toUInt8 := fun h => hb.2 (h ▸ hc)
  simp [h1, h2]

theorem dropAbandoned_cons {c : UInt8} {s : List UInt8} (hc : c ≠ '&'.toUInt8) :
    dropAbandoned (c :: s) = c :: dropAbandoned s := by
  rw [dropAbandoned, if_neg fun h => hc h.1]

theorem dropAbandoned_append {body s : List UInt8} (hb : '&'.toUInt8 ∉ body) :
    dropAbandoned (body ++ s) = body ++ dropAbandoned s := by
  induction body with
  | nil => rfl
  | cons c body ih =>
    have hc : c ≠ '&'.toUInt8 := fun h => hb (h ▸ List.mem_cons_self)
    rw [List.cons_append, dropAbandoned_cons hc, ih fun h => hb (List.mem_cons_of_mem _ h)]
    rfl

/-- An `&` behind a plain text drops the one before it. -/
theorem dropAbandoned_amp {body s : List UInt8} (hb : Plain body) :
    dropAbandoned ('&'.toUInt8 :: (body ++ '&'.toUInt8 :: s)) =
      dropAbandoned ('&'.toUInt8 :: s) := by
  have habandoned : Abandoned (body ++ '&'.toUInt8 :: s) := by
    rw [Abandoned, hb.find?_append]
    simp
  have hdrop : (body ++ '&'.toUInt8 :: s).dropWhile (· ≠ '&'.toUInt8) = '&'.toUInt8 :: s := by
    rw [List.dropWhile_append_of_pos, List.dropWhile_cons_of_neg (by simp)]
    intro c hc
    have hne : c ≠ '&'.toUInt8 := fun h => hb.1 (h ▸ hc)
    simpa using hne
  rw [dropAbandoned, if_pos ⟨rfl, habandoned⟩, hdrop]

/-- A `;` behind a plain text keeps it. -/
theorem dropAbandoned_semicolon {body s : List UInt8} (hb : Plain body) :
    dropAbandoned ('&'.toUInt8 :: (body ++ ';'.toUInt8 :: s)) =
      '&'.toUInt8 :: (body ++ ';'.toUInt8 :: dropAbandoned s) := by
  have habandoned : ¬ Abandoned (body ++ ';'.toUInt8 :: s) := by
    rw [Abandoned, hb.find?_append]
    simp
    decide
  rw [dropAbandoned, if_neg fun h => habandoned h.2, dropAbandoned_append hb.1,
    dropAbandoned_cons (by decide)]

theorem dropAbandoned_end {body : List UInt8} (hb : Plain body) :
    dropAbandoned ('&'.toUInt8 :: body) = '&'.toUInt8 :: body := by
  have habandoned : ¬ Abandoned body := by
    have h := @Plain.find?_append body [] hb
    rw [List.append_nil] at h
    rw [Abandoned, h]
    nofun
  have happend := @dropAbandoned_append body [] hb.1
  rw [List.append_nil, dropAbandoned, List.append_nil] at happend
  rw [dropAbandoned, if_neg fun h => habandoned h.2, happend]

/-- **What the loop writes**: what the string decodes to without what is abandoned. -/
theorem decodeLoop_iff {cs written r : List UInt8} {amp : Option (List UInt8)}
    (hamp : ∀ seq, amp = some seq → ∃ body, seq = '&'.toUInt8 :: body ∧ Plain body) :
    decodeLoop written amp cs = .ok r ↔
      ∃ d, Decodes (dropAbandoned (amp.getD [] ++ cs)) d ∧ r = written ++ d := by
  induction cs generalizing written amp with
  | nil =>
    cases amp with
    | none => simp [decodeLoop, dropAbandoned, Decodes.nil_iff, eq_comm]
    | some seq =>
      obtain ⟨body, rfl, hb⟩ := hamp seq rfl
      have hnone : ∀ d, ¬ Decodes ('&'.toUInt8 :: body) d := fun d => Decodes.not_amp hb.2
      simp [decodeLoop, dropAbandoned_end hb, hnone]
  | cons c cs ih =>
    by_cases hc : c = '&'.toUInt8
    · subst hc
      have hih := @ih written (some ['&'.toUInt8]) fun seq h =>
        ⟨[], (Option.some.inj h).symm, List.not_mem_nil, List.not_mem_nil⟩
      rw [decodeLoop.eq_def]
      simp only [if_true]
      rw [hih]
      cases amp with
      | none => rfl
      | some seq =>
        obtain ⟨body, rfl, hb⟩ := hamp seq rfl
        have hdrop := @dropAbandoned_amp body cs hb
        simp only [Option.getD_some, List.cons_append, List.nil_append] at hdrop ⊢
        rw [hdrop]
    · rw [decodeLoop.eq_def]
      simp only [if_neg hc]
      cases amp with
      | none =>
        have hih := @ih (written ++ [c]) none nofun
        show decodeLoop (written ++ [c]) none cs = .ok r ↔ _
        rw [hih]
        simp only [Option.getD_none, List.nil_append, dropAbandoned_cons hc, Decodes.cons_iff hc]
        refine ⟨?_, ?_⟩
        · rintro ⟨d, hd, rfl⟩
          exact ⟨c :: d, ⟨d, hd, rfl⟩, by simp⟩
        · rintro ⟨-, ⟨d, hd, rfl⟩, rfl⟩
          exact ⟨d, hd, by simp⟩
      | some seq =>
        obtain ⟨body, rfl, hb⟩ := hamp seq rfl
        by_cases hsemi : c = ';'.toUInt8
        · subst hsemi
          have hseq := fun d => @decodeEscape_eq_ok body hb.2 d
          simp only [Option.getD_some, List.cons_append, dropAbandoned_semicolon hb,
            Decodes.amp_iff hb.2, if_true]
          cases hd : decodeEscape ('&'.toUInt8 :: (body ++ [';'.toUInt8])) with
          | error e =>
            refine ⟨nofun, ?_⟩
            rintro ⟨-, ⟨d, t, he, -, rfl⟩, -⟩
            rw [(hseq d).2 he] at hd
            cases hd
          | ok d =>
            have hih := @ih (written ++ [d]) none nofun
            show decodeLoop (written ++ [d]) none cs = .ok r ↔ _
            rw [hih]
            have he := (hseq d).1 hd
            refine ⟨?_, ?_⟩
            · rintro ⟨t, ht, rfl⟩
              exact ⟨d :: t, ⟨d, t, he, ht, rfl⟩, by simp⟩
            · rintro ⟨-, ⟨d', t, he', ht, rfl⟩, rfl⟩
              obtain rfl := (escapeSequences_unique he).1 he'
              exact ⟨t, ht, by simp⟩
        · have hb' : Plain (body ++ [c]) := by
            refine ⟨?_, ?_⟩
            · simpa using ⟨hb.1, fun h => hc h.symm⟩
            · simpa using ⟨hb.2, fun h => hsemi h.symm⟩
          have hih := @ih written (some ('&'.toUInt8 :: (body ++ [c]))) fun seq h =>
            ⟨body ++ [c], (Option.some.inj h).symm, hb'⟩
          simp only [if_neg hsemi, List.cons_append]
          rw [hih]
          simp

theorem dropAbandoned_of_notMem {s : List UInt8} (h : '&'.toUInt8 ∉ s) : dropAbandoned s = s := by
  have happend := @dropAbandoned_append s [] h
  rwa [List.append_nil, dropAbandoned, List.append_nil] at happend

theorem decodes_of_notMem {s d : List UInt8} (h : '&'.toUInt8 ∉ s) : Decodes s d ↔ d = s := by
  induction s generalizing d with
  | nil => exact Decodes.nil_iff
  | cons c s ih =>
    have hc : c ≠ '&'.toUInt8 := fun hc => h (hc ▸ List.mem_cons_self)
    have ih' := fun d => @ih d fun hs => h (List.mem_cons_of_mem _ hs)
    simp [Decodes.cons_iff hc, ih']

/-- **What `decodeXMLEscapeXMLStrings` accepts, and returns.** -/
theorem decode_iff {s r : List UInt8} :
    decodeXMLEscapeXMLStrings s = .ok r ↔ Decodes (dropAbandoned s) r := by
  unfold decodeXMLEscapeXMLStrings
  by_cases h : '&'.toUInt8 ∈ s
  · rw [if_pos h, @decodeLoop_iff s [] r none nofun]
    simp
  · rw [if_neg h, dropAbandoned_of_notMem h, decodes_of_notMem h, Except.ok.injEq, eq_comm]

/-! ## In place -/

namespace DecodeState

/-- A round in terms of what is written and what follows the last `&`. -/
def pushChar (written : List UInt8) (amp : Option (List UInt8)) (c : UInt8) :
    Except Error (List UInt8 × Option (List UInt8)) :=
  if c = '&'.toUInt8 then .ok (written, some [c])
  else
    match amp with
    | none => .ok (written ++ [c], none)
    | some seq =>
      if c = ';'.toUInt8 then (decodeEscape (seq ++ [c])).map fun d => (written ++ [d], none)
      else .ok (written, some (seq ++ [c]))

theorem decodeLoop_cons (written : List UInt8) (amp : Option (List UInt8)) (c : UInt8)
    (cs : List UInt8) :
    decodeLoop written amp (c :: cs) =
      match pushChar written amp c with
      | .error e => .error e
      | .ok (written, amp) => decodeLoop written amp cs := by
  rw [decodeLoop.eq_def]
  unfold pushChar
  by_cases hc : c = '&'.toUInt8
  · simp only [if_pos hc]
  · cases amp with
    | none => simp only [if_neg hc]
    | some seq =>
      by_cases hsemi : c = ';'.toUInt8
      · simp only [if_neg hc, if_pos hsemi]
        cases decodeEscape (seq ++ [c]) <;> rfl
      · simp only [if_neg hc, if_neg hsemi]

/-- The state after `n` characters of the string at `p`: behind the write position the buffer is
what it was. -/
def after (chars : List UInt8) (p n : Nat) (written : List UInt8) (amp : Option (List UInt8)) :
    DecodeState :=
  ⟨chars.take p ++ written ++ chars.drop (p + written.length), p + n, p + written.length,
    amp.map fun seq => p + n - seq.length⟩

/-- What is written and pending are no more than the characters taken, and what is pending are the
last of them. -/
structure Follows (chars : List UInt8) (p n : Nat) (written : List UInt8)
    (amp : Option (List UInt8)) : Prop where
  room : written.length + (amp.getD []).length ≤ n
  seq : ∀ seq, amp = some seq → XmlBuffer.slice chars (p + n - seq.length) (p + n) = seq

variable {chars written : List UInt8} {amp : Option (List UInt8)} {p n : Nat} {c : UInt8}

theorem after_drop (hp : p ≤ chars.length) {k : Nat} (hk : p + written.length ≤ k) :
    (after chars p n written amp).chars.drop k = chars.drop k := by
  have hlen : (chars.take p ++ written).length = p + written.length := by
    rw [List.length_append, List.length_take, Nat.min_eq_left hp]
  show (chars.take p ++ written ++ chars.drop (p + written.length)).drop k = _
  rw [List.drop_append, List.drop_of_length_le (by omega), List.drop_drop, hlen, List.nil_append]
  congr 1
  omega

/-- What is written is written behind what was. -/
theorem after_put (hp : p ≤ chars.length) (hk : p + written.length < chars.length) (d : UInt8) :
    { (after chars p n written amp).put d with iterChar := p + n + 1, amp := none } =
      after chars p (n + 1) (written ++ [d]) none := by
  have hlen : (chars.take p ++ written).length = p + written.length := by
    rw [List.length_append, List.length_take, Nat.min_eq_left hp]
  have hset : (chars.take p ++ written ++ chars.drop (p + written.length)).set
      (p + written.length) d =
        chars.take p ++ (written ++ [d]) ++ chars.drop (p + (written ++ [d]).length) := by
    rw [List.set_append_right _ _ (by omega), hlen, Nat.sub_self, List.drop_eq_getElem_cons hk]
    simp [Nat.add_assoc]
  unfold after put
  rw [hset, List.length_append]
  rfl

theorem after_current (hp : p ≤ chars.length) (hn : written.length ≤ n)
    (hc : chars[p + n]? = some c) : (after chars p n written amp).current = c := by
  have hdrop := @after_drop chars written amp p n hp (p + n) (by omega)
  have hget : (after chars p n written amp).chars[p + n]? = some c := by
    rw [← hc, ← List.head?_drop, ← List.head?_drop, hdrop]
  show (after chars p n written amp).chars.getD (p + n) 0 = c
  rw [List.getD_eq_getElem?_getD, hget]
  rfl

theorem slice_succ {a : Nat} (ha : a ≤ p + n) (hc : chars[p + n]? = some c) :
    XmlBuffer.slice chars a (p + n + 1) = XmlBuffer.slice chars a (p + n) ++ [c] := by
  have hget : (chars.drop a)[p + n - a]? = some c := by
    rw [List.getElem?_drop, Nat.add_sub_cancel' ha, hc]
  unfold XmlBuffer.slice
  rw [show p + n + 1 - a = p + n - a + 1 by omega, List.take_add_one, hget]
  rfl

/-- A round does to the buffer what it does to what is written. -/
theorem round_after (hp : p ≤ chars.length) (h : Follows chars p n written amp)
    (hc : chars[p + n]? = some c) :
    (after chars p n written amp).round =
      (pushChar written amp c).map fun r => after chars p (n + 1) r.1 r.2 := by
  have hlt : p + n < chars.length := (List.getElem?_eq_some_iff.1 hc).1
  have hroom := h.room
  unfold round pushChar
  rw [after_current hp (by omega) hc]
  by_cases hamp : c = '&'.toUInt8
  · rw [if_pos hamp, if_pos hamp]
    rfl
  · rw [if_neg hamp, if_neg hamp]
    cases amp with
    | none => exact congrArg Except.ok (after_put hp (by omega) c)
    | some seq =>
      have hseq := h.seq seq rfl
      have hstart : (after chars p n written (some seq)).amp = some (p + n - seq.length) := rfl
      have hiter : (after chars p n written (some seq)).iterChar = p + n := rfl
      simp only [Option.getD_some] at hroom
      rw [hstart, hiter]
      by_cases hsemi : c = ';'.toUInt8
      · have hslice : XmlBuffer.slice (after chars p n written (some seq)).chars
            (p + n - seq.length) (p + n + 1) = seq ++ [c] := by
          rw [XmlBuffer.slice, after_drop hp (by omega)]
          show XmlBuffer.slice chars _ _ = _
          rw [slice_succ (by omega) hc, hseq]
        simp only [if_pos hsemi, hslice]
        cases decodeEscape (seq ++ [c]) with
        | error e => rfl
        | ok d => exact congrArg Except.ok (after_put hp (by omega) d)
      · simp only [if_neg hsemi, Except.map]
        unfold after
        simp only [Except.ok.injEq, DecodeState.mk.injEq, Option.map_some, Option.some.injEq,
          List.length_append, List.length_singleton, true_and]
        omega

theorem Follows.push {written' : List UInt8} {amp' : Option (List UInt8)}
    (h : Follows chars p n written amp) (hc : chars[p + n]? = some c)
    (hr : pushChar written amp c = .ok (written', amp')) : Follows chars p (n + 1) written' amp' := by
  have hroom := h.room
  unfold pushChar at hr
  by_cases hamp : c = '&'.toUInt8
  · rw [if_pos hamp] at hr
    obtain ⟨rfl, rfl⟩ := Prod.mk.inj (Except.ok.inj hr)
    refine ⟨by simp only [Option.getD_some, List.length_singleton]; omega, ?_⟩
    rintro _ ⟨⟩
    have hslice := slice_succ (Nat.le_refl (p + n)) hc
    rw [List.length_singleton, show p + (n + 1) - 1 = p + n by omega, ← Nat.add_assoc, hslice]
    simp [XmlBuffer.slice]
  · rw [if_neg hamp] at hr
    cases amp with
    | none =>
      obtain ⟨rfl, rfl⟩ := Prod.mk.inj (Except.ok.inj hr)
      refine ⟨?_, nofun⟩
      simp only [Option.getD_none, List.length_nil, List.length_append, List.length_singleton]
        at hroom ⊢
      omega
    | some seq =>
      simp only [Option.getD_some] at hroom
      by_cases hsemi : c = ';'.toUInt8
      · simp only [if_pos hsemi] at hr
        cases hd : decodeEscape (seq ++ [c]) with
        | error e => simp [hd, Except.map] at hr
        | ok d =>
          rw [hd] at hr
          obtain ⟨rfl, rfl⟩ := Prod.mk.inj (Except.ok.inj hr)
          refine ⟨?_, nofun⟩
          simp only [Option.getD_none, List.length_nil, List.length_append, List.length_singleton]
          omega
      · simp only [if_neg hsemi] at hr
        obtain ⟨rfl, rfl⟩ := Prod.mk.inj (Except.ok.inj hr)
        refine ⟨?_, ?_⟩
        · simp only [Option.getD_some, List.length_append, List.length_singleton]
          omega
        · rintro _ ⟨⟩
          have hslice := @slice_succ chars p n c (p + n - seq.length) (by omega) hc
          rw [h.seq seq rfl] at hslice
          rw [List.length_append, List.length_singleton, ← Nat.add_assoc,
            show p + n + 1 - (seq.length + 1) = p + n - seq.length by omega, hslice]

/-- The states at the head of the loop. -/
inductive Passes : DecodeState → DecodeState → Prop where
  | refl (s : DecodeState) : Passes s s
  | round {s t u : DecodeState} (hs : s.current ≠ 0) (hr : s.round = .ok t) (h : Passes t u) :
      Passes s u

theorem getElem?_of_drop {cs behind : List UInt8} (hrest : chars.drop (p + n) = c :: cs ++ behind) :
    chars[p + n]? = some c ∧ chars.drop (p + (n + 1)) = cs ++ behind := by
  refine ⟨?_, ?_⟩
  · rw [← List.head?_drop, hrest]
    rfl
  · rw [← Nat.add_assoc, ← List.drop_drop, hrest]
    rfl

/-- The write position is never ahead of the read position. -/
theorem passes_write_le {cs behind : List UInt8} {t : DecodeState} (hp : p ≤ chars.length)
    (h : Follows chars p n written amp) (hrest : chars.drop (p + n) = cs ++ 0 :: behind)
    (hpass : Passes (after chars p n written amp) t) : t.writeChar ≤ t.iterChar := by
  have hroom := h.room
  have hstart : (after chars p n written amp).writeChar ≤
      (after chars p n written amp).iterChar := by
    show p + written.length ≤ p + n
    omega
  induction cs generalizing n written amp with
  | nil =>
    cases hpass with
    | refl => exact hstart
    | round hs _ _ =>
      have hget := (@getElem?_of_drop chars p n 0 [] behind hrest).1
      exact absurd (after_current hp (by omega) hget) hs
  | cons c cs ih =>
    cases hpass with
    | refl => exact hstart
    | round hs hr hpass =>
      obtain ⟨hget, hrest⟩ := getElem?_of_drop hrest
      rw [round_after hp h hget] at hr
      cases hpush : pushChar written amp c with
      | error e => simp [hpush, Except.map] at hr
      | ok r =>
        rw [hpush] at hr
        obtain rfl := Except.ok.inj hr
        have hnext := h.push hget hpush
        have hroom := hnext.room
        refine ih hnext hrest hpass hroom ?_
        show p + r.1.length ≤ p + (n + 1)
        omega

/-- The loop in place writes what `decodeLoop` does. -/
theorem loop_after {cs behind : List UInt8} (hp : p ≤ chars.length)
    (h : Follows chars p n written amp) (hrest : chars.drop (p + n) = cs ++ 0 :: behind)
    (hcs : 0 ∉ cs) :
    (after chars p n written amp).loop.bind finish =
      (decodeLoop written amp cs).map fun d =>
        chars.take p ++ (d ++ [0]) ++ chars.drop (p + (d.length + 1)) := by
  have hroom := h.room
  induction cs generalizing n written amp with
  | nil =>
    have hget := (@getElem?_of_drop chars p n 0 [] behind hrest).1
    have hlt : p + n < chars.length := (List.getElem?_eq_some_iff.1 hget).1
    rw [loop, dif_pos (after_current hp (by omega) hget)]
    cases amp with
    | some seq => rfl
    | none =>
      have hput := @after_put chars written none p n hp (by omega) 0
      have hchars := congrArg DecodeState.chars hput
      show Except.ok _ = Except.ok _
      refine congrArg Except.ok (hchars.trans ?_)
      show chars.take p ++ (written ++ [0]) ++ chars.drop (p + (written ++ [0]).length) = _
      rw [List.length_append, List.length_singleton]
  | cons c cs ih =>
    obtain ⟨hget, hrest⟩ := getElem?_of_drop hrest
    have hc : c ≠ 0 := fun hc => hcs (hc ▸ List.mem_cons_self)
    have hcur : (after chars p n written amp).current ≠ 0 := by
      rwa [after_current hp (by omega) hget]
    have hround := round_after hp h hget
    rw [loop, dif_neg hcur, decodeLoop_cons]
    cases hpush : pushChar written amp c with
    | error e =>
      rw [hpush] at hround
      split
      · rename_i e' he
        rw [hround] at he
        obtain rfl := Except.error.inj he
        rfl
      · rename_i t ht
        rw [hround] at ht
        cases ht
    | ok r =>
      rw [hpush] at hround
      split
      · rename_i e' he
        rw [hround] at he
        cases he
      · rename_i t ht
        rw [hround] at ht
        obtain rfl := Except.ok.inj ht
        have hnext := h.push hget hpush
        exact ih hnext hrest (fun h => hcs (List.mem_cons_of_mem _ h)) hnext.room

end DecodeState

section

variable {chars : List UInt8} {p : Nat}

theorem takeWhile_zero {s : List UInt8} (h : 0 ∈ s) :
    0 ∉ s.takeWhile (· ≠ 0) ∧ ∃ behind, s = s.takeWhile (· ≠ 0) ++ 0 :: behind := by
  induction s with
  | nil => cases h
  | cons c s ih =>
    by_cases hc : c = 0
    · subst hc
      rw [List.takeWhile_cons_of_neg (by simp)]
      exact ⟨List.not_mem_nil, s, rfl⟩
    · obtain ⟨hzero, behind, hs⟩ := ih ((List.mem_cons.1 h).resolve_left fun h => hc h.symm)
      rw [List.takeWhile_cons_of_pos (by simpa using hc)]
      refine ⟨?_, behind, congrArg (List.cons c) hs⟩
      intro h
      exact (List.mem_cons.1 h).elim (fun h => hc h.symm) hzero

/-- The string at `p`, its zero and what is behind it. -/
theorem cString_split (h : 0 ∈ chars.drop p) :
    p ≤ chars.length ∧ 0 ∉ cString chars p ∧
      ∃ behind, chars.drop p = cString chars p ++ 0 :: behind := by
  refine ⟨?_, takeWhile_zero h⟩
  by_contra hn
  rw [List.drop_of_length_le (by omega)] at h
  cases h

theorem follows_start (chars : List UInt8) (p : Nat) : DecodeState.Follows chars p 0 [] none :=
  ⟨Nat.le_refl 0, nofun⟩

theorem after_start (chars : List UInt8) (p : Nat) :
    DecodeState.after chars p 0 [] none = ⟨chars, p, p, none⟩ := by
  simp [DecodeState.after]

/-- **Decoding in place is `decodeAt`.** -/
theorem decodeInPlace_eq (h : 0 ∈ chars.drop p) : decodeInPlace chars p = decodeAt chars p := by
  obtain ⟨hp, hzero, behind, hrest⟩ := cString_split h
  have hloop := DecodeState.loop_after hp (follows_start chars p) hrest hzero
  rw [after_start] at hloop
  unfold decodeInPlace decodeAt decodeXMLEscapeXMLStrings
  by_cases hamp : '&'.toUInt8 ∈ cString chars p
  · rw [if_pos hamp, if_pos hamp, if_pos hamp]
    refine Eq.trans ?_ (hloop.trans ?_)
    · cases DecodeState.loop ⟨chars, p, p, none⟩ <;> rfl
    · cases decodeLoop [] none (cString chars p) <;> rfl
  · rw [if_neg hamp, if_neg hamp]

/-- What is decoded has no zero. -/
theorem Decodes.zero_notMem {s d : List UInt8} (h : Decodes s d) (hs : 0 ∉ s) : 0 ∉ d := by
  induction h with
  | nil => exact hs
  | char hc h ih =>
    simp only [List.mem_cons, not_or] at hs ⊢
    exact ⟨hs.1, ih hs.2⟩
  | escape he h ih =>
    simp only [List.mem_cons, List.mem_append, not_or] at hs ⊢
    exact ⟨(semicolon_notMem_sequence he).2.2.symm, ih hs.2.2.2⟩

theorem zero_mem_dropAbandoned {s : List UInt8} : 0 ∈ dropAbandoned s → 0 ∈ s := by
  induction s using dropAbandoned.induct with
  | case1 => simp [dropAbandoned]
  | case2 c cs hc ih =>
    rw [dropAbandoned, if_pos hc]
    intro h
    exact List.mem_cons_of_mem _ ((List.dropWhile_sublist _).mem (ih h))
  | case3 c cs hc ih =>
    rw [dropAbandoned, if_neg hc]
    intro h
    exact List.mem_cons.2 ((List.mem_cons.1 h).imp_right ih)

/-- What the decoder leaves at `p`. -/
theorem decodeInPlace_string {r : List UInt8} (h : 0 ∈ chars.drop p) :
    (∃ chars', decodeInPlace chars p = .ok chars' ∧ cString chars' p = r) ↔
      Decodes (dropAbandoned (cString chars p)) r := by
  obtain ⟨hp, hzero, -⟩ := cString_split h
  rw [decodeInPlace_eq h, ← decode_iff]
  unfold decodeAt
  by_cases hamp : '&'.toUInt8 ∈ cString chars p
  · rw [if_pos hamp]
    cases hd : decodeXMLEscapeXMLStrings (cString chars p) with
    | error e => simp
    | ok d =>
      have hnz : 0 ∉ d :=
        (decode_iff.1 hd).zero_notMem fun h => hzero (zero_mem_dropAbandoned h)
      have hstring : cString (chars.take p ++ (d ++ [0]) ++ chars.drop (p + (d.length + 1))) p =
          d := by
        have hlen : (chars.take p).length = p := by rw [List.length_take, Nat.min_eq_left hp]
        unfold cString
        rw [List.append_assoc, List.drop_append_of_le_length (by omega),
          List.drop_of_length_le (by omega), List.nil_append, List.append_assoc,
          List.takeWhile_append_of_pos, List.singleton_append, List.takeWhile_cons_of_neg (by simp),
          List.append_nil]
        intro c hc
        have hne : c ≠ 0 := fun h0 => hnz (h0 ▸ hc)
        simpa using hne
      simp only [Except.ok.injEq]
      refine ⟨?_, fun h => ⟨_, rfl, hstring.trans h⟩⟩
      rintro ⟨chars', rfl, rfl⟩
      exact hstring.symm
  · rw [if_neg hamp, decodeXMLEscapeXMLStrings, if_neg hamp]
    simp

end

/-! ## What the decoder accepts -/

theorem WellEscaped.of_append {a b : List UInt8} (h : WellEscaped (a ++ b)) : WellEscaped b := by
  intro before behind hb
  exact h (a ++ before) behind (by rw [hb, List.append_assoc])

theorem wellEscaped_iff {s : List UInt8} : WellEscaped s ↔ ∃ d, Decodes s d := by
  refine ⟨fun h => ?_, ?_⟩
  · induction hn : s.length using Nat.strongRecOn generalizing s with
    | ind n ih =>
      subst hn
      cases s with
      | nil => exact ⟨[], .nil⟩
      | cons c cs =>
        by_cases hc : c = '&'.toUInt8
        · subst hc
          obtain ⟨e, he, t, ht⟩ := h [] cs rfl
          have hcs : cs = e.1 ++ ';'.toUInt8 :: t := by simpa using ht.symm
          subst hcs
          have hwell : WellEscaped t := by
            apply WellEscaped.of_append (a := '&'.toUInt8 :: (e.1 ++ [';'.toUInt8]))
            simpa using h
          have hlen : t.length < ('&'.toUInt8 :: (e.1 ++ ';'.toUInt8 :: t)).length := by
            simp only [List.length_cons, List.length_append]
            omega
          obtain ⟨d, hd⟩ := ih _ hlen hwell rfl
          exact ⟨_, .escape he hd⟩
        · have hwell : WellEscaped cs := WellEscaped.of_append (a := [c]) h
          obtain ⟨d, hd⟩ := ih _ (Nat.lt_succ_self _) hwell rfl
          exact ⟨_, .char hc hd⟩
  · rintro ⟨d, h⟩
    induction h with
    | nil =>
      intro before behind hs
      simp at hs
    | @char c s d hc h ih =>
      intro before behind hs
      cases before with
      | nil => exact absurd (List.cons.inj hs).1 hc
      | cons b before => exact ih before behind (List.cons.inj hs).2
    | @escape e s d he h ih =>
      intro before behind hs
      cases before with
      | nil =>
        refine ⟨e, he, s, ?_⟩
        simpa using (List.cons.inj hs).2
      | cons b before =>
        obtain ⟨-, hamp, -⟩ := semicolon_notMem_sequence he
        have hs' : (e.1 ++ [';'.toUInt8]) ++ s = before ++ '&'.toUInt8 :: behind := by
          simpa using (List.cons.inj hs).2
        obtain ⟨t, -, ht⟩ | ⟨t, ht, hs⟩ := List.append_eq_append_iff.1 hs'
        · exact ih t behind ht
        · cases t with
          | nil => exact ih [] behind hs.symm
          | cons c t =>
            -- the sequence has no `&` behind its first
            obtain ⟨rfl, -⟩ := List.cons.inj hs
            have hmem : '&'.toUInt8 ∈ e.1 ++ [';'.toUInt8] := by simp [ht]
            obtain h | h := List.mem_append.1 hmem
            · exact absurd h hamp
            · exact absurd h (by decide)

theorem Abandons.not_wellEscaped {s : List UInt8} (h : Abandons s) : ¬ WellEscaped s := by
  rintro hwell
  obtain ⟨before, behind, hs, habandoned⟩ := h
  obtain ⟨e, he, t, rfl⟩ := hwell before behind hs
  obtain ⟨hsemi, hamp, -⟩ := semicolon_notMem_sequence he
  rw [Abandoned, List.append_assoc, Plain.find?_append ⟨hamp, hsemi⟩] at habandoned
  simp at habandoned
  revert habandoned
  decide

theorem not_abandons_nil : ¬ Abandons [] := by
  rintro ⟨before, behind, h, -⟩
  simp at h

theorem abandons_cons {c : UInt8} {cs : List UInt8} :
    Abandons (c :: cs) ↔ (c = '&'.toUInt8 ∧ Abandoned cs) ∨ Abandons cs := by
  refine ⟨?_, ?_⟩
  · rintro ⟨before, behind, hs, h⟩
    cases before with
    | nil =>
      obtain ⟨rfl, rfl⟩ := List.cons.inj hs
      exact .inl ⟨rfl, h⟩
    | cons b before => exact .inr ⟨before, behind, (List.cons.inj hs).2, h⟩
  · rintro (⟨rfl, h⟩ | ⟨before, behind, rfl, h⟩)
    · exact ⟨[], cs, rfl, h⟩
    · exact ⟨c :: before, behind, rfl, h⟩

instance decidableAbandons : (s : List UInt8) → Decidable (Abandons s)
  | [] => isFalse not_abandons_nil
  | c :: cs =>
    have := decidableAbandons cs
    decidable_of_iff ((c = '&'.toUInt8 ∧ Abandoned cs) ∨ Abandons cs) abandons_cons.symm

theorem dropAbandoned_of_not {s : List UInt8} (h : ¬ Abandons s) : dropAbandoned s = s := by
  induction s with
  | nil => rw [dropAbandoned]
  | cons c cs ih =>
    rw [dropAbandoned, if_neg fun hc => h (abandons_cons.2 (.inl hc)),
      ih fun hcs => h (abandons_cons.2 (.inr hcs))]

/-- What is claimed of the decoder on the string at `p`: it accepts what is well escaped, leaves
what that decodes to, and writes only what it has read. -/
structure DecodesInPlace (chars : List UInt8) (p : Nat) : Prop where
  accepts : (∃ chars', decodeInPlace chars p = .ok chars') ↔ WellEscaped (cString chars p)
  result : ∀ chars', decodeInPlace chars p = .ok chars' →
    Decodes (cString chars p) (cString chars' p)
  write_le : ∀ s, DecodeState.Passes ⟨chars, p, p, none⟩ s → s.writeChar ≤ s.iterChar

/-- **The decoder does so exactly when it does not accept a string with something abandoned.** -/
theorem decodesInPlace_iff {chars : List UInt8} {p : Nat} (h : 0 ∈ chars.drop p) :
    DecodesInPlace chars p ↔
      (Abandons (cString chars p) → ¬ WellEscaped (dropAbandoned (cString chars p))) := by
  have hstring := fun r => @decodeInPlace_string chars p r h
  have hok : (∃ chars', decodeInPlace chars p = .ok chars') ↔
      WellEscaped (dropAbandoned (cString chars p)) := by
    rw [wellEscaped_iff]
    refine ⟨?_, ?_⟩
    · rintro ⟨chars', hd⟩
      exact ⟨_, (hstring _).1 ⟨chars', hd, rfl⟩⟩
    · rintro ⟨d, hd⟩
      obtain ⟨chars', hd, -⟩ := (hstring d).2 hd
      exact ⟨chars', hd⟩
  refine ⟨fun hdecodes habandons hwell => ?_, fun hcond => ?_⟩
  · exact habandons.not_wellEscaped (hdecodes.accepts.1 (hok.2 hwell))
  · obtain ⟨hp, -, behind, hrest⟩ := cString_split h
    have hwrite : ∀ s, DecodeState.Passes ⟨chars, p, p, none⟩ s → s.writeChar ≤ s.iterChar := by
      intro s hs
      rw [← after_start] at hs
      exact DecodeState.passes_write_le hp (follows_start chars p) hrest hs
    by_cases habandons : Abandons (cString chars p)
    · have hno := hcond habandons
      refine ⟨⟨fun hd => absurd (hok.1 hd) hno, fun hw => absurd hw habandons.not_wellEscaped⟩,
        fun chars' hd => absurd (hok.1 ⟨chars', hd⟩) hno, hwrite⟩
    · rw [dropAbandoned_of_not habandons] at hok hstring
      exact ⟨hok, fun chars' hd => (hstring _).1 ⟨chars', hd, rfl⟩, hwrite⟩

/-- `a&lt;b` is decoded. -/
theorem decodesInPlace_lt :
    DecodesInPlace (xmlBytes ['a', '&', 'l', 't', ';', 'b', '\x00']) 0 :=
  (decodesInPlace_iff (by decide)).2 fun h => absurd h (by decide)

/-- `&x&lt;` is accepted, as `<`. -/
theorem decoder_drops_ampersand :
    ¬ ∀ (chars : List UInt8) (p : Nat), 0 ∈ chars.drop p → DecodesInPlace chars p := by
  intro h
  have hzero : 0 ∈ (xmlBytes ['&', 'x', '&', 'l', 't', ';', '\x00']).drop 0 := by decide
  have habandons : Abandons (cString (xmlBytes ['&', 'x', '&', 'l', 't', ';', '\x00']) 0) := by
    decide
  have hok : decodeInPlace (xmlBytes ['&', 'x', '&', 'l', 't', ';', '\x00']) 0 =
      .ok (xmlBytes ['<', '\x00', '&', 'l', 't', ';', '\x00']) := by
    rw [decodeInPlace_eq hzero]
    decide
  exact habandons.not_wellEscaped ((h _ 0 hzero).accepts.1 ⟨_, hok⟩)

end NMR
