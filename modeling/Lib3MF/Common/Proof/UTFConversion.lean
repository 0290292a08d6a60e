import Lib3MF.Common.Proof.UTF8Sequences

/-!
# What is converted

`fnUTF8toUTF16` converts the strings of characters in whatever number of bytes
(`utf8Loop_forms`, `utf8Loop_ok`), `fnUTF16toUTF8` those of characters whose surrogates stand in
whatever order (`utf16Loop_coded`, `utf16Loop_ok`). Neither loop reads behind the end byte
(`utf8Loop_ne_outOfRange`, `utf16Loop_ne_outOfRange`).
-/

namespace NMR

open Lib

/-! ## From UTF-8 -/

theorem lead_ne_zero {f : Form} (h : ∀ b ∈ f.bytes, b ≠ 0) : f.lead ≠ 0 :=
  h _ (by rw [Form.bytes_eq]; exact List.mem_cons_self)

theorem zero_notMem_others (f : Form) : 0 ∉ f.others := fun h => by
  have := ge_of_mem_continuation h
  have h0 : (0 : UInt8).toNat = 0 := rfl
  omega

theorem sequenceLength_lead_ne (f : Form) : sequenceLength f.lead ≠ 0 := by
  rw [(sequenceLength_lead f).1]
  have := f.n_bounds
  omega

/-- One turn of the loop. -/
theorem utf8Loop_cons {b : UInt8} (hb : b ≠ 0) (hlen : sequenceLength b ≠ 0) (turns : Nat)
    (s : List UInt8) : utf8Loop (turns + 1) (b :: s) = (do
      let (units, s) ← decodeSequence b (sequenceLength b) s
      let rest ← utf8Loop turns s
      return units ++ rest) := by
  rw [utf8Loop]
  simp only [elementAt, List.getElem?_cons_zero, bind, Except.bind, if_neg hb, if_neg hlen,
    List.tail_cons]

/-- The characters in front of the end byte are decoded. -/
theorem utf8Loop_forms {fs : List Form} {turns : Nat} (w : List UInt8)
    (hz : ∀ b ∈ fs.flatMap Form.bytes, b ≠ 0) (hturns : fs.length < turns) :
    utf8Loop turns (fs.flatMap Form.bytes ++ 0 :: w) = .ok (fs.flatMap decodedUnits) := by
  induction fs generalizing turns with
  | nil =>
    cases turns with
    | zero => omega
    | succ turns => rfl
  | cons f fs ih =>
    cases turns with
    | zero => omega
    | succ turns =>
      rw [List.flatMap_cons, List.forall_mem_append] at hz
      have hlead := lead_ne_zero hz.1
      have hrest := ih hz.2 (Nat.lt_of_succ_lt_succ hturns)
      rw [List.flatMap_cons, Form.bytes_eq, List.append_assoc, List.cons_append,
        utf8Loop_cons hlead (sequenceLength_lead_ne f), decodeSequence_form]
      simp only [bind, Except.bind, hrest, List.flatMap_cons]
      rfl

/-- Nothing else is. -/
theorem utf8Loop_ok {turns : Nat} {z w : List UInt8} {us : List UInt16} (hz : ∀ b ∈ z, b ≠ 0)
    (h : utf8Loop turns (z ++ 0 :: w) = .ok us) :
    ∃ fs : List Form, z = fs.flatMap Form.bytes ∧ us = fs.flatMap decodedUnits := by
  induction turns generalizing z us with
  | zero => cases h
  | succ turns ih =>
    cases z with
    | nil =>
      obtain rfl : [] = us := Except.ok.inj h
      exact ⟨[], rfl, rfl⟩
    | cons b z =>
      have hb : b ≠ 0 := hz b List.mem_cons_self
      by_cases hlen : sequenceLength b = 0
      · rw [List.cons_append, utf8Loop] at h
        simp [elementAt, bind, Except.bind, hb, hlen, throw, throwThe, MonadExceptOf.throw] at h
      · rw [List.cons_append, utf8Loop_cons hb hlen] at h
        obtain ⟨⟨units, s⟩, hdec, h⟩ := bind_eq_ok.1 h
        obtain ⟨rest, hrest, h⟩ := bind_eq_ok.1 h
        obtain rfl : units ++ rest = us := Except.ok.inj h
        obtain ⟨f, rfl, hs, rfl⟩ := decodeSequence_ok hlen hdec
        obtain ⟨z', rfl, rfl⟩ := prefix_of_end (zero_notMem_others f) hs.symm
        obtain ⟨fs, rfl, rfl⟩ := ih
          (fun x hx => hz x (List.mem_cons_of_mem _ (List.mem_append_right _ hx))) hrest
        exact ⟨f :: fs, by rw [List.flatMap_cons, Form.bytes_eq]; rfl, by rw [List.flatMap_cons]⟩

/-- The loop ends at the end byte. -/
theorem utf8Loop_ne_outOfRange {turns : Nat} {z w : List UInt8} (hz : ∀ b ∈ z, b ≠ 0)
    (hturns : z.length < turns) : utf8Loop turns (z ++ 0 :: w) ≠ .error .outOfRange := by
  induction turns generalizing z with
  | zero => omega
  | succ turns ih =>
    intro h
    cases z with
    | nil => cases h
    | cons b z =>
      have hb : b ≠ 0 := hz b List.mem_cons_self
      by_cases hlen : sequenceLength b = 0
      · rw [List.cons_append, utf8Loop] at h
        simp [elementAt, bind, Except.bind, hb, hlen, throw, throwThe, MonadExceptOf.throw] at h
      · rw [List.cons_append, utf8Loop_cons hb hlen] at h
        rcases bind_eq_error.1 h with h | ⟨⟨units, s⟩, hdec, h⟩
        · -- a sequence that is cut off would have the end byte in it
          have hzero := (decodeSequence_outOfRange h).2 0
            (List.mem_append_right _ List.mem_cons_self)
          exact absurd hzero (by decide)
        · obtain ⟨f, rfl, hs, rfl⟩ := decodeSequence_ok hlen hdec
          obtain ⟨z', rfl, rfl⟩ := prefix_of_end (zero_notMem_others f) hs.symm
          have hlt : z'.length < turns := by
            rw [List.length_cons, List.length_append] at hturns
            omega
          rcases bind_eq_error.1 h with h | ⟨rest, -, h⟩
          · exact ih (fun x hx => hz x (List.mem_cons_of_mem _ (List.mem_append_right _ hx))) hlt h
          · cases h

/-! ## Surrogates -/

/-- The bits that mark a surrogate. -/
theorem and_fc00 {n : Nat} (h : n < 2 ^ 16) : n &&& 0xfc00 = 1024 * (n / 1024) := by
  apply Nat.eq_of_testBit_eq
  intro j
  rw [Nat.testBit_and, show 0xfc00 = (2 ^ 6 - 1) * 2 ^ 10 by decide, Nat.testBit_mul_two_pow,
    Nat.mul_comm, show 1024 = 2 ^ 10 by rfl, Nat.testBit_mul_two_pow, Nat.testBit_two_pow_sub_one,
    Nat.testBit_div_two_pow]
  by_cases hj : 10 ≤ j
  · rw [Nat.sub_add_cancel hj]
    by_cases hj' : j < 16
    · simp [hj]
      omega
    · rw [Nat.testBit_lt_two_pow
        (Nat.lt_of_lt_of_le h (Nat.pow_le_pow_right (by decide) (by omega)))]
      simp
  · simp [hj]

theorem isHighSurrogate_iff (u : UInt16) :
    fnUTF16CharIsHighSurrogate u = true ↔ 0xd800 ≤ u.toNat ∧ u.toNat < 0xdc00 := by
  unfold fnUTF16CharIsHighSurrogate
  rw [decide_eq_true_iff, and_fc00 u.toNat_lt]
  omega

theorem isLowSurrogate_iff (u : UInt16) :
    fnUTF16CharIsLowSurrogate u = true ↔ 0xdc00 ≤ u.toNat ∧ u.toNat < 0xe000 := by
  unfold fnUTF16CharIsLowSurrogate
  rw [decide_eq_true_iff, and_fc00 u.toNat_lt]
  omega

theorem isSurrogate_iff (u : UInt16) :
    fnUTF16CharIsSurrogate u = true ↔ 0xd800 ≤ u.toNat ∧ u.toNat < 0xe000 := by
  unfold fnUTF16CharIsSurrogate
  rw [decide_eq_true_iff, and_fc00 u.toNat_lt]
  omega

/-- The code of a pair of surrogates. -/
theorem surrogateCode_eq (hi lo : UInt16) :
    surrogateCode hi lo = hi.toNat % 1024 * 1024 + lo.toNat % 1024 + 0x10000 := by
  have hhi : hi.toNat &&& 0x3ff = hi.toNat % 1024 := Nat.and_two_pow_sub_one_eq_mod _ 10
  have hlo : lo.toNat &&& 0x3ff = lo.toNat % 1024 := Nat.and_two_pow_sub_one_eq_mod _ 10
  unfold surrogateCode
  rw [hhi, hlo, ← Nat.shiftLeft_add_eq_or_of_lt (Nat.mod_lt _ (by decide)), Nat.shiftLeft_eq]

/-- The surrogates of a character give its code. -/
theorem surrogates_code {c : Char} {hi lo : UInt16} (h : utf16 c = [hi, lo]) :
    fnUTF16CharIsHighSurrogate hi ∧ fnUTF16CharIsLowSurrogate lo ∧
      surrogateCode hi lo = c.toNat := by
  have hc := toNat_le c
  have hge : 0x10000 ≤ c.toNat := by
    by_contra hlt
    rw [utf16_of_lt (by omega)] at h
    simp at h
  rw [utf16_of_ge hge] at h
  simp only [List.cons.injEq, and_true] at h
  obtain ⟨rfl, rfl⟩ := h
  rw [isHighSurrogate_iff, isLowSurrogate_iff, surrogateCode_eq]
  simp only [UInt16.toNat_ofNat']
  omega

/-- A high and a low surrogate are those of a character. -/
theorem exists_char_of_surrogates {hi lo : UInt16} (hhi : fnUTF16CharIsHighSurrogate hi)
    (hlo : fnUTF16CharIsLowSurrogate lo) :
    ∃ c : Char, c.toNat = surrogateCode hi lo ∧ utf16 c = [hi, lo] := by
  rw [isHighSurrogate_iff] at hhi
  rw [isLowSurrogate_iff] at hlo
  have hcode := surrogateCode_eq hi lo
  obtain ⟨c, hc⟩ := exists_char_of_valid (n := surrogateCode hi lo) (by
    unfold Nat.isValidChar
    omega)
  refine ⟨c, hc, ?_⟩
  rw [utf16_of_ge (by omega), hc]
  have hlo16 := lo.toNat_lt
  have hhigh : UInt16.ofNat (0xD800 + (surrogateCode hi lo - 0x10000) / 0x400) = hi := by
    apply UInt16.toNat.inj
    rw [UInt16.toNat_ofNat']
    omega
  have hlow : UInt16.ofNat (0xDC00 + (surrogateCode hi lo - 0x10000) % 0x400) = lo := by
    apply UInt16.toNat.inj
    rw [UInt16.toNat_ofNat']
    omega
  rw [hhigh, hlow]

/-- The surrogates may stand in either order. -/
theorem toCharacterID_ok {u v : UInt16} {n : Nat} (h : fnUTF16toCharacterID u v = .ok n) :
    ∃ p : Coded, p.c.toNat = n ∧ p.units = [u, v] := by
  unfold fnUTF16toCharacterID at h
  by_cases hswap : (fnUTF16CharIsHighSurrogate v && fnUTF16CharIsLowSurrogate u) = true
  · obtain ⟨hv, hu⟩ := Bool.and_eq_true_iff.1 hswap
    obtain ⟨c, hc, hunits⟩ := exists_char_of_surrogates hv hu
    simp only [hv, hu, Bool.and_self, if_true] at h
    obtain rfl := Except.ok.inj h
    refine ⟨⟨c, true⟩, hc, ?_⟩
    simp [Coded.units, hunits]
  · rw [if_neg hswap] at h
    dsimp only at h
    by_cases hok : fnUTF16CharIsHighSurrogate u = true ∧ fnUTF16CharIsLowSurrogate v = true
    · obtain ⟨c, hc, hunits⟩ := exists_char_of_surrogates hok.1 hok.2
      simp only [hok.1, hok.2, Bool.not_true, Bool.or_self] at h
      obtain rfl := Except.ok.inj h
      exact ⟨⟨c, false⟩, hc, by simpa [Coded.units] using hunits⟩
    · have hbad : (!fnUTF16CharIsHighSurrogate u || !fnUTF16CharIsLowSurrogate v) = true := by
        simpa [imp_iff_not_or] using hok
      simp [hbad] at h

theorem toCharacterID_units {p : Coded} {u v : UInt16} (h : p.units = [u, v]) :
    fnUTF16toCharacterID u v = .ok p.c.toNat := by
  unfold fnUTF16toCharacterID
  cases hr : p.reversed with
  | true =>
    have hunits : utf16 p.c = [v, u] := by
      rw [Coded.units, hr, if_pos rfl] at h
      rw [← List.reverse_reverse (utf16 p.c), h]
      rfl
    obtain ⟨hv, hu, hcode⟩ := surrogates_code hunits
    simp [hv, hu, hcode]
  | false =>
    have hunits : utf16 p.c = [u, v] := by
      rw [Coded.units, hr] at h
      exact h
    obtain ⟨hu, hv, hcode⟩ := surrogates_code hunits
    have hno : fnUTF16CharIsHighSurrogate v = false := by
      rw [Bool.eq_false_iff, Ne, isHighSurrogate_iff]
      rw [isLowSurrogate_iff] at hv
      omega
    simp [hu, hv, hno, hcode]

/-! ## From UTF-16 -/

theorem continuation_bits (n i : Nat) : ((n >>> (6 * i)) &&& 0x3f) ||| 0x80 = 0x80 + n / 64 ^ i % 64 := by
  have hmod : (n >>> (6 * i)) &&& 0x3f = n / 64 ^ i % 2 ^ 6 := by
    rw [Nat.shiftRight_eq_div_pow, pow_mul]
    exact Nat.and_two_pow_sub_one_eq_mod _ 6
  rw [hmod]
  exact @or_mark (n / 64 ^ i % 2 ^ 6) 2 6 (Nat.mod_lt _ (by decide))

theorem lead_bits {n i mark k : Nat} (h : n / 64 ^ i < 2 ^ k) :
    (n >>> (6 * i)) ||| mark <<< k = mark * 2 ^ k + n / 64 ^ i := by
  have hshift : n >>> (6 * i) = n / 64 ^ i := by
    rw [Nat.shiftRight_eq_div_pow, pow_mul]
    rfl
  rw [hshift, or_mark h]

/-- A character is encoded. -/
theorem encodeCharacter_char (c : Char) : encodeCharacter c.toNat = String.utf8EncodeChar c := by
  have hc := toNat_le c
  have h0 := continuation_bits c.toNat 0
  have h1 := continuation_bits c.toNat 1
  have h2 := continuation_bits c.toNat 2
  rw [(utf8EncodeChar_eq c).1, utf8Size_eq]
  unfold encodeCharacter
  dsimp only [Nat.mul_zero, Nat.reduceMul] at h0 h1 h2 ⊢
  rw [h0, h1, h2]
  split_ifs
  · simp [encodeIn, continuation, leadMark]
  all_goals try omega
  · have hlead := @lead_bits c.toNat 1 3 6 (by omega)
    exact congrArg₂ _ (congrArg _ hlead) rfl
  · have hlead := @lead_bits c.toNat 2 7 5 (by omega)
    exact congrArg₂ _ (congrArg _ hlead) rfl
  · have hlead := @lead_bits c.toNat 3 15 4 (by omega)
    exact congrArg₂ _ (congrArg _ hlead) rfl

theorem toNat_ne_zero {u : UInt16} : u.toNat ≠ 0 ↔ u ≠ 0 :=
  not_congr (by
    rw [← UInt16.toNat_inj]
    rfl)

/-- A character is read, with its surrogates in either order. -/
theorem readCharacter_units {p : Coded} (hp : p.c.toNat ≠ 0) : ∃ u rest, p.units = u :: rest ∧
    u ≠ 0 ∧ ∀ s, readCharacter u (rest ++ s) = .ok (p.c.toNat, s) := by
  have hc := toNat_le p.c
  rcases p.units_cases with ⟨hsmall, hunits⟩ | ⟨u, v, hunits, hu, hv⟩
  · have hu : (UInt16.ofNat p.c.toNat).toNat = p.c.toNat := by
      rw [UInt16.toNat_ofNat']
      omega
    have hno : fnUTF16CharIsSurrogate (UInt16.ofNat p.c.toNat) = false := by
      rw [Bool.eq_false_iff, Ne, isSurrogate_iff, hu]
      omega
    refine ⟨_, [], hunits, toNat_ne_zero.1 (by omega), fun s => ?_⟩
    simp only [readCharacter, hno, hu]
    rfl
  · have hv0 : v ≠ 0 := toNat_ne_zero.1 (by omega)
    refine ⟨u, [v], hunits, toNat_ne_zero.1 (by omega), fun s => ?_⟩
    unfold readCharacter
    rw [if_pos ((isSurrogate_iff u).2 hu)]
    simp only [List.cons_append, List.nil_append, elementAt, List.getElem?_cons_zero, bind,
      Except.bind, if_neg hv0, toCharacterID_units hunits]
    rfl

/-- Nothing else is read. -/
theorem readCharacter_ok {u : UInt16} {s rest : List UInt16} {n : Nat}
    (h : readCharacter u s = .ok (n, rest)) :
    ∃ p : Coded, p.c.toNat = n ∧ u :: s = p.units ++ rest := by
  unfold readCharacter at h
  by_cases hu : fnUTF16CharIsSurrogate u = true
  · rw [if_pos hu] at h
    obtain ⟨v, hv, h⟩ := bind_eq_ok.1 h
    by_cases hv0 : v = 0
    · simp [hv0, bind, Except.bind, throw, throwThe, MonadExceptOf.throw] at h
    · rw [if_neg hv0] at h
      obtain ⟨code, hcode, h⟩ := bind_eq_ok.1 h
      obtain ⟨rfl, rfl⟩ := Prod.mk.inj (Except.ok.inj h)
      obtain ⟨p, hp, hunits⟩ := toCharacterID_ok (Checked.lift_eq_ok.1 hcode)
      cases s with
      | nil => cases hv
      | cons x s =>
        obtain rfl : x = v := Except.ok.inj hv
        exact ⟨p, hp, by rw [hunits]; rfl⟩
  · rw [if_neg hu] at h
    obtain ⟨rfl, rfl⟩ := Prod.mk.inj (Except.ok.inj h)
    rw [isSurrogate_iff] at hu
    have hu16 := u.toNat_lt
    obtain ⟨c, hc⟩ := exists_char_of_valid (n := u.toNat) (by
      unfold Nat.isValidChar
      omega)
    refine ⟨⟨c, false⟩, hc, ?_⟩
    have hself : UInt16.ofNat c.toNat = u := by
      rw [hc, UInt16.ofNat_toNat]
    have hunits : utf16 c = [u] := by
      rw [utf16_of_lt (by omega), hself]
    simp [Coded.units, hunits]

theorem readCharacter_outOfRange {u : UInt16} {s : List UInt16}
    (h : readCharacter u s = .error .outOfRange) : s = [] := by
  unfold readCharacter at h
  split_ifs at h with hu
  · rcases bind_eq_error.1 h with h | ⟨v, -, h⟩
    · exact List.length_eq_zero_iff.1 (Nat.le_zero.1 (elementAt_outOfRange h))
    · split_ifs at h
      · cases h
      · rcases bind_eq_error.1 h with h | ⟨code, -, h⟩
        · exact absurd h (Checked.lift_ne_outOfRange _)
        · cases h
  · cases h

/-- One turn of the loop. -/
theorem utf16Loop_cons {u : UInt16} (hu : u ≠ 0) (turns : Nat) (s : List UInt16) :
    utf16Loop (turns + 1) (u :: s) = (do
      let (nCharacter, s) ← readCharacter u s
      let bytes ← utf16Loop turns s
      return encodeCharacter nCharacter ++ bytes) := by
  rw [utf16Loop]
  simp only [elementAt, List.getElem?_cons_zero, bind, Except.bind, if_neg hu, List.tail_cons]

/-- The characters in front of the end character are encoded. -/
theorem utf16Loop_coded {ps : List Coded} {turns : Nat} (w : List UInt16)
    (hps : ∀ p ∈ ps, p.c.toNat ≠ 0) (hturns : ps.length < turns) :
    utf16Loop turns (ps.flatMap Coded.units ++ 0 :: w) =
      .ok (ps.flatMap fun p => String.utf8EncodeChar p.c) := by
  induction ps generalizing turns with
  | nil =>
    cases turns with
    | zero => omega
    | succ turns => rfl
  | cons p ps ih =>
    cases turns with
    | zero => omega
    | succ turns =>
      rw [List.forall_mem_cons] at hps
      obtain ⟨u, rest, hunits, hu, hread⟩ := readCharacter_units hps.1
      have hrest := ih hps.2 (Nat.lt_of_succ_lt_succ hturns)
      rw [List.flatMap_cons, hunits, List.append_assoc, List.cons_append, utf16Loop_cons hu, hread]
      simp only [bind, Except.bind, hrest, List.flatMap_cons, encodeCharacter_char]
      rfl

/-- A unit 0 is no part of a pair. -/
theorem units_of_ne {p : Coded} {u : UInt16} {s rest : List UInt16} (hu : u ≠ 0)
    (h : u :: s = p.units ++ rest) :
    p.c.toNat ≠ 0 ∧ ∃ others, p.units = u :: others ∧ s = others ++ rest ∧ 0 ∉ others := by
  rcases p.units_cases with ⟨hsmall, hunits⟩ | ⟨x, v, hunits, hx, hv⟩
  · rw [hunits] at h ⊢
    obtain ⟨rfl, rfl⟩ := List.cons.inj h
    refine ⟨fun h0 => hu (by rw [h0]; rfl), [], rfl, rfl, List.not_mem_nil⟩
  · rw [hunits] at h
    obtain ⟨rfl, rfl⟩ := List.cons.inj h
    refine ⟨fun h0 => ?_, [v], hunits, rfl, ?_⟩
    · rw [Coded.units_of_lt (by omega)] at hunits
      simp at hunits
    · rw [List.mem_singleton]
      exact (toNat_ne_zero.1 (by omega)).symm

/-- Nothing else is. -/
theorem utf16Loop_ok {turns : Nat} {z w : List UInt16} {bs : List UInt8} (hz : ∀ u ∈ z, u ≠ 0)
    (h : utf16Loop turns (z ++ 0 :: w) = .ok bs) :
    ∃ ps : List Coded, (∀ p ∈ ps, p.c.toNat ≠ 0) ∧ z = ps.flatMap Coded.units ∧
      bs = ps.flatMap fun p => String.utf8EncodeChar p.c := by
  induction turns generalizing z bs with
  | zero => cases h
  | succ turns ih =>
    cases z with
    | nil =>
      obtain rfl : [] = bs := Except.ok.inj h
      exact ⟨[], by simp, rfl, rfl⟩
    | cons u z =>
      have hu : u ≠ 0 := hz u List.mem_cons_self
      rw [List.cons_append, utf16Loop_cons hu] at h
      obtain ⟨⟨n, s⟩, hread, h⟩ := bind_eq_ok.1 h
      obtain ⟨rest, hrest, h⟩ := bind_eq_ok.1 h
      obtain rfl : encodeCharacter n ++ rest = bs := Except.ok.inj h
      obtain ⟨p, rfl, hs⟩ := readCharacter_ok hread
      obtain ⟨hp, others, hunits, hs, hothers⟩ := units_of_ne hu hs
      obtain ⟨z', rfl, rfl⟩ := prefix_of_end hothers hs.symm
      obtain ⟨ps, hps, rfl, rfl⟩ := ih
        (fun x hx => hz x (List.mem_cons_of_mem _ (List.mem_append_right _ hx))) hrest
      refine ⟨p :: ps, List.forall_mem_cons.2 ⟨hp, hps⟩, ?_, ?_⟩
      · rw [List.flatMap_cons, hunits]
        rfl
      · rw [List.flatMap_cons, encodeCharacter_char]

/-- The loop ends at the end character. -/
theorem utf16Loop_ne_outOfRange {turns : Nat} {z w : List UInt16} (hz : ∀ u ∈ z, u ≠ 0)
    (hturns : z.length < turns) : utf16Loop turns (z ++ 0 :: w) ≠ .error .outOfRange := by
  induction turns generalizing z with
  | zero => omega
  | succ turns ih =>
    intro h
    cases z with
    | nil => cases h
    | cons u z =>
      have hu : u ≠ 0 := hz u List.mem_cons_self
      rw [List.cons_append, utf16Loop_cons hu] at h
      rcases bind_eq_error.1 h with h | ⟨⟨n, s⟩, hread, h⟩
      · exact absurd (readCharacter_outOfRange h) (by simp)
      · obtain ⟨p, rfl, hs⟩ := readCharacter_ok hread
        obtain ⟨-, others, -, hs, hothers⟩ := units_of_ne hu hs
        obtain ⟨z', rfl, rfl⟩ := prefix_of_end hothers hs.symm
        have hlt : z'.length < turns := by
          rw [List.length_cons, List.length_append] at hturns
          omega
        rcases bind_eq_error.1 h with h | ⟨rest, -, h⟩
        · exact ih (fun x hx => hz x (List.mem_cons_of_mem _ (List.mem_append_right _ hx))) hlt h
        · cases h

/-! ## Whole strings -/

theorem fnUTF8toUTF16_eq (b : List UInt8) : fnUTF8toUTF16 b =
    if maxStringBufferSize < b.length then .error (.throws .invalidBufferSize)
    else do
      let units ← utf8Loop (b.length + 1) (b ++ [0])
      return zeroTerminated units := by
  unfold fnUTF8toUTF16
  by_cases h : b.length = 0
  · obtain rfl := List.length_eq_zero_iff.1 h
    rfl
  · rw [if_neg h]

theorem fnUTF16toUTF8_eq (u : List UInt16) : fnUTF16toUTF8 u =
    if maxStringBufferSize < u.length then .error (.throws .invalidBufferSize)
    else do
      let bytes ← utf16Loop (u.length + 1) (u ++ [0])
      return zeroTerminated bytes := by
  unfold fnUTF16toUTF8
  by_cases h : u.length = 0
  · obtain rfl := List.length_eq_zero_iff.1 h
    rfl
  · rw [if_neg h]

theorem length_zeroTerminated_lt {α : Type} [DecidableEq α] [OfNat α 0] (s : List α) :
    (zeroTerminated s).length < s.length + 1 := by
  unfold zeroTerminated
  have := (List.takeWhile_sublist (fun a : α => decide (a ≠ 0)) (l := s)).length_le
  omega

theorem length_forms_le (fs : List Form) : fs.length ≤ (fs.flatMap Form.bytes).length := by
  induction fs with
  | nil => exact Nat.le_refl 0
  | cons f fs ih =>
    have := f.n_bounds
    rw [List.flatMap_cons, List.length_cons, List.length_append, f.length_bytes]
    omega

theorem length_coded_le (ps : List Coded) : ps.length ≤ (ps.flatMap Coded.units).length := by
  induction ps with
  | nil => exact Nat.le_refl 0
  | cons p ps ih =>
    rw [List.flatMap_cons, List.length_cons, List.length_append]
    rcases p.units_cases with ⟨-, h⟩ | ⟨u, v, h, -⟩
    · rw [h, List.length_singleton]
      omega
    · rw [h]
      simp only [List.length_cons]
      omega

/-- The forms in front of the first end byte are decoded. -/
theorem fnUTF8toUTF16_forms {b : List UInt8} {fs : List Form} (h : b.length ≤ maxStringBufferSize)
    (hb : zeroTerminated b = fs.flatMap Form.bytes) :
    fnUTF8toUTF16 b = .ok (zeroTerminated (fs.flatMap decodedUnits)) := by
  obtain ⟨w, hw⟩ := exists_zeroTerminated b
  have hz : ∀ x ∈ fs.flatMap Form.bytes, x ≠ 0 := by
    rw [← hb]
    exact fun x hx => ne_of_mem_zeroTerminated hx
  have hlt : fs.length < b.length + 1 := by
    have h1 := length_forms_le fs
    have h2 := length_zeroTerminated_lt b
    rw [hb] at h2
    omega
  rw [fnUTF8toUTF16_eq, if_neg (Nat.not_lt.2 h), hw, hb, utf8Loop_forms w hz hlt]
  rfl

theorem fnUTF8toUTF16_ok {b : List UInt8} {us : List UInt16} (h : fnUTF8toUTF16 b = .ok us) :
    b.length ≤ maxStringBufferSize ∧ LooseUTF8 (zeroTerminated b) := by
  obtain ⟨w, hw⟩ := exists_zeroTerminated b
  rw [fnUTF8toUTF16_eq, hw] at h
  split_ifs at h with hlen
  obtain ⟨units, hloop, -⟩ := bind_eq_ok.1 h
  obtain ⟨fs, hfs, -⟩ := utf8Loop_ok (fun x hx => ne_of_mem_zeroTerminated hx) hloop
  exact ⟨Nat.not_lt.1 hlen, fs, hfs⟩

theorem fnUTF8toUTF16_ne_outOfRange (b : List UInt8) : fnUTF8toUTF16 b ≠ .error .outOfRange := by
  obtain ⟨w, hw⟩ := exists_zeroTerminated b
  intro h
  rw [fnUTF8toUTF16_eq, hw] at h
  split_ifs at h
  · cases h
  · rcases bind_eq_error.1 h with h | ⟨units, -, h⟩
    · exact utf8Loop_ne_outOfRange (fun x hx => ne_of_mem_zeroTerminated hx)
        (length_zeroTerminated_lt b) h
    · cases h

/-- The characters in front of the first end character are encoded. -/
theorem fnUTF16toUTF8_coded {u : List UInt16} {ps : List Coded} (h : u.length ≤ maxStringBufferSize)
    (hu : zeroTerminated u = ps.flatMap Coded.units) :
    fnUTF16toUTF8 u = .ok (zeroTerminated (ps.flatMap fun p => String.utf8EncodeChar p.c)) := by
  obtain ⟨w, hw⟩ := exists_zeroTerminated u
  have hps : ∀ p ∈ ps, p.c.toNat ≠ 0 := by
    intro p hp h0
    have hone : p.units = [0] := by
      rw [Coded.units_of_lt (by omega), h0]
      rfl
    have hmem : (0 : UInt16) ∈ zeroTerminated u := by
      rw [hu]
      exact List.mem_flatMap.2 ⟨p, hp, by rw [hone]; exact List.mem_cons_self⟩
    exact ne_of_mem_zeroTerminated hmem rfl
  have hlt : ps.length < u.length + 1 := by
    have h1 := length_coded_le ps
    have h2 := length_zeroTerminated_lt u
    rw [hu] at h2
    omega
  rw [fnUTF16toUTF8_eq, if_neg (Nat.not_lt.2 h), hw, hu, utf16Loop_coded w hps hlt]
  rfl

theorem fnUTF16toUTF8_ok {u : List UInt16} {bs : List UInt8} (h : fnUTF16toUTF8 u = .ok bs) :
    u.length ≤ maxStringBufferSize ∧ LooseUTF16 (zeroTerminated u) := by
  obtain ⟨w, hw⟩ := exists_zeroTerminated u
  rw [fnUTF16toUTF8_eq, hw] at h
  split_ifs at h with hlen
  obtain ⟨bytes, hloop, -⟩ := bind_eq_ok.1 h
  obtain ⟨ps, -, hps, -⟩ := utf16Loop_ok (fun x hx => ne_of_mem_zeroTerminated hx) hloop
  exact ⟨Nat.not_lt.1 hlen, ps, hps⟩

theorem fnUTF16toUTF8_ne_outOfRange (u : List UInt16) : fnUTF16toUTF8 u ≠ .error .outOfRange := by
  obtain ⟨w, hw⟩ := exists_zeroTerminated u
  intro h
  rw [fnUTF16toUTF8_eq, hw] at h
  split_ifs at h
  · cases h
  · rcases bind_eq_error.1 h with h | ⟨bytes, -, h⟩
    · exact utf16Loop_ne_outOfRange (fun x hx => ne_of_mem_zeroTerminated hx)
        (length_zeroTerminated_lt u) h
    · cases h

/-! ## There and back -/

/-- A computation ends with an exception. -/
def Rejected {α : Type} (x : Checked Error α) : Prop := ∃ e, x = .error (.throws e)

theorem rejected_iff {α : Type} {x : Checked Error α} (h : x ≠ .error .outOfRange) :
    Rejected x ↔ ∀ a, x ≠ .ok a := by
  rcases x with (e | -) | a
  · simp [Rejected]
  · exact absurd rfl h
  · simp [Rejected]

theorem decodedUnits_shortest (c : Char) :
    decodedUnits (Form.shortest c) = if c.toNat = 0xFEFF then [] else utf16 c := by
  have hbom : (Form.shortest c).IsBOM ↔ c.toNat = 0xFEFF := by
    show c.toNat = 0xFEFF ∧ c.utf8Size = 3 ↔ c.toNat = 0xFEFF
    refine ⟨fun h => h.1, fun h => ⟨h, ?_⟩⟩
    rw [utf8Size_eq, h]
    decide
  unfold decodedUnits
  by_cases h : c.toNat = 0xFEFF
  · rw [if_pos h, if_pos (hbom.2 h)]
  · rw [if_neg h, if_neg fun hb => h (hbom.1 hb)]
    rfl

theorem decodedUnits_forms (t : Text) : t.forms.flatMap decodedUnits = t.withoutBOM.utf16 := by
  show (t.chars.map Form.shortest).flatMap decodedUnits =
    (t.chars.filter (·.toNat ≠ 0xFEFF)).flatMap utf16
  induction t.chars with
  | nil => rfl
  | cons c cs ih =>
    rw [List.map_cons, List.flatMap_cons, ih, decodedUnits_shortest]
    by_cases h : c.toNat = 0xFEFF
    · simp [h]
    · simp [h]

/-- A text is decoded but for its byte order marks. -/
theorem fnUTF8toUTF16_text {t : Text} (h : t.utf8.length ≤ maxStringBufferSize) :
    fnUTF8toUTF16 t.utf8 = .ok t.withoutBOM.utf16 := by
  have hcut : zeroTerminated t.utf8 = t.forms.flatMap Form.bytes := by
    rw [zeroTerminated_of_ne fun _ hb => Text.ne_of_mem_utf8 hb, t.utf8_eq]
  have hforms := fnUTF8toUTF16_forms h hcut
  rw [hforms, decodedUnits_forms, zeroTerminated_of_ne fun _ hu => Text.ne_of_mem_utf16 hu]

/-- A text is encoded. -/
theorem fnUTF16toUTF8_text {t : Text} (h : t.utf16.length ≤ maxStringBufferSize) :
    fnUTF16toUTF8 t.utf16 = .ok t.utf8 := by
  have hbytes : ((t.chars.map fun c => (⟨c, false⟩ : Coded)).flatMap fun p =>
      String.utf8EncodeChar p.c) = t.utf8 := List.flatMap_map ..
  have hcut : zeroTerminated t.utf16 =
      (t.chars.map fun c => (⟨c, false⟩ : Coded)).flatMap Coded.units := by
    rw [zeroTerminated_of_ne fun _ hu => Text.ne_of_mem_utf16 hu, List.flatMap_map]
    rfl
  have hcoded := fnUTF16toUTF8_coded h hcut
  rw [hcoded, hbytes, zeroTerminated_of_ne fun _ hb => Text.ne_of_mem_utf8 hb]

/-- The text is no longer in UTF-16 than in UTF-8. -/
theorem length_utf16_le (t : Text) : t.utf16.length ≤ t.utf8.length := by
  show (t.chars.flatMap utf16).length ≤ (t.chars.flatMap String.utf8EncodeChar).length
  induction t.chars with
  | nil => exact Nat.le_refl 0
  | cons c cs ih =>
    have hsize : (String.utf8EncodeChar c).length = c.utf8Size := String.length_utf8EncodeChar c
    have hunits : (utf16 c).length ≤ c.utf8Size := by
      rw [utf8Size_eq]
      by_cases h : c.toNat < 0x10000
      · rw [utf16_of_lt h, List.length_singleton]
        split_ifs <;> omega
      · rw [utf16_of_ge (by omega)]
        simp only [List.length_cons, List.length_nil]
        split_ifs <;> omega
    rw [List.flatMap_cons, List.flatMap_cons, List.length_append, List.length_append]
    omega

/-- The two functions are inverse to each other on texts without U+FEFF, which is skipped. What is
rejected is what is no UTF-8 or UTF-16, but for sequences that are longer than they need to be and
exchanged surrogates, and what is too long. No string is read behind its end byte. -/
theorem utf_conversions {t : Text} (h : t.utf8.length ≤ maxStringBufferSize) (b : List UInt8)
    (u : List UInt16) :
    (fnUTF8toUTF16 t.utf8 = .ok t.withoutBOM.utf16 ∧ fnUTF16toUTF8 t.utf16 = .ok t.utf8) ∧
    (Rejected (fnUTF8toUTF16 b) ↔ maxStringBufferSize < b.length ∨ ¬ LooseUTF8 (zeroTerminated b)) ∧
    (Rejected (fnUTF16toUTF8 u) ↔
      maxStringBufferSize < u.length ∨ ¬ LooseUTF16 (zeroTerminated u)) ∧
    fnUTF8toUTF16 b ≠ .error .outOfRange ∧ fnUTF16toUTF8 u ≠ .error .outOfRange := by
  have hdec : (∀ us, fnUTF8toUTF16 b ≠ .ok us) ↔
      maxStringBufferSize < b.length ∨ ¬ LooseUTF8 (zeroTerminated b) := by
    refine ⟨fun hno => ?_, fun hbad us hus => ?_⟩
    · by_contra hok
      obtain ⟨hlen, fs, hfs⟩ := not_or.1 hok |>.imp Nat.not_lt.1 not_not.1
      exact hno _ (fnUTF8toUTF16_forms hlen hfs)
    · obtain ⟨hlen, hloose⟩ := fnUTF8toUTF16_ok hus
      exact hbad.elim (Nat.not_lt.2 hlen) fun hn => hn hloose
  have henc : (∀ bs, fnUTF16toUTF8 u ≠ .ok bs) ↔
      maxStringBufferSize < u.length ∨ ¬ LooseUTF16 (zeroTerminated u) := by
    refine ⟨fun hno => ?_, fun hbad bs hbs => ?_⟩
    · by_contra hok
      obtain ⟨hlen, ps, hps⟩ := not_or.1 hok |>.imp Nat.not_lt.1 not_not.1
      exact hno _ (fnUTF16toUTF8_coded hlen hps)
    · obtain ⟨hlen, hloose⟩ := fnUTF16toUTF8_ok hbs
      exact hbad.elim (Nat.not_lt.2 hlen) fun hn => hn hloose
  refine ⟨⟨fnUTF8toUTF16_text h, fnUTF16toUTF8_text (Nat.le_trans (length_utf16_le t) h)⟩, ?_, ?_,
    fnUTF8toUTF16_ne_outOfRange b, fnUTF16toUTF8_ne_outOfRange u⟩
  · rw [rejected_iff (fnUTF8toUTF16_ne_outOfRange b), hdec]
  · rw [rejected_iff (fnUTF16toUTF8_ne_outOfRange u), henc]

/-- The text `a`. -/
theorem utf_conversions_a :
    fnUTF8toUTF16 [0x61] = .ok [0x61] ∧ fnUTF16toUTF8 [0x61] = .ok [0x61] := by
  have h := (@utf_conversions ⟨['a'], by simp⟩ (by decide) [] []).1
  have hwithout : (Text.withoutBOM ⟨['a'], by simp⟩).utf16 = [0x61] := by decide
  rw [hwithout] at h
  exact h

/-! ## What is accepted besides -/

/-- A lead byte 0xC1 begins no encoding of a character. -/
theorem not_validUTF8_of_C1 (s : List UInt8) : ¬ ValidUTF8 (0xC1 :: s) := by
  rintro ⟨cs, hcs⟩
  cases cs with
  | nil => cases hcs
  | cons c cs =>
    obtain ⟨hn, -, hlead⟩ := sequenceLength_lead (Form.shortest c)
    rw [List.flatMap_cons, ← Form.bytes_shortest, Form.bytes_eq, List.cons_append] at hcs
    obtain ⟨hC1, -⟩ := List.cons.inj hcs
    rw [← hC1] at hn hlead
    have h2 : (Form.shortest c).n = 2 := hn.symm
    have hsize : c.utf8Size = 2 := h2
    rw [h2] at hlead
    have hbits : 0xC1 = 0xC0 + c.toNat / 64 ^ 1 := hlead
    rw [utf8Size_eq] at hsize
    split_ifs at hsize <;> omega

/-- A low surrogate begins no encoding of a character. -/
theorem not_validUTF16_of_low {u : UInt16} (hu : fnUTF16CharIsLowSurrogate u) (s : List UInt16) :
    ¬ ValidUTF16 (u :: s) := by
  rintro ⟨cs, hcs⟩
  rw [isLowSurrogate_iff] at hu
  cases cs with
  | nil => cases hcs
  | cons c cs =>
    have hc := toNat_le c
    rw [List.flatMap_cons] at hcs
    by_cases h : c.toNat < 0x10000
    · rw [utf16_of_lt h] at hcs
      rw [(List.cons.inj hcs).1, UInt16.toNat_ofNat'] at hu
      omega
    · rw [utf16_of_ge (by omega)] at hcs
      rw [(List.cons.inj hcs).1, UInt16.toNat_ofNat'] at hu
      omega

/-- An overlong form of `a` is decoded, exchanged surrogates are encoded, and U+FEFF behind `a` is
dropped. -/
theorem utf_conversions_loose :
    (fnUTF8toUTF16 [0xC1, 0xA1] = .ok [0x61] ∧ ¬ ValidUTF8 [0xC1, 0xA1]) ∧
    (fnUTF16toUTF8 [0xDC00, 0xD800] = .ok [0xF0, 0x90, 0x80, 0x80] ∧
      ¬ ValidUTF16 [0xDC00, 0xD800]) ∧
    fnUTF8toUTF16 (['a', '\uFEFF'].flatMap String.utf8EncodeChar) = .ok [0x61] :=
  ⟨⟨by decide, not_validUTF8_of_C1 _⟩, ⟨by decide, not_validUTF16_of_low (by decide) _⟩, by decide⟩

end NMR
