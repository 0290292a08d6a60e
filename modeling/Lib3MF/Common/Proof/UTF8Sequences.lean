import Lib3MF.Common.UTFConversion

/-!
# One sequence of UTF-8

`decodeSequence` accepts the sequences that stand for a character, in whatever number of bytes
(`Form`): it decodes each of these (`decodeSequence_form`) and nothing else
(`decodeSequence_ok`). It looks at no byte behind the sequence, and where the sequence is cut off,
only if all bytes that are there could belong to it (`decodeSequence_outOfRange`).
-/

namespace NMR

open Lib

/-! ## Bytes -/

/-- A first byte is a mark and some bits, as the tables have it. -/
theorem lead_of_table : ∀ b < 256, UTF8DecodeTable.getD b 0 ≠ 0 →
    b = leadMark (UTF8DecodeTable.getD b 0) +
        (b &&& UTF8DecodeMask.getD (UTF8DecodeTable.getD b 0) 0) ∧
      b &&& UTF8DecodeMask.getD (UTF8DecodeTable.getD b 0) 0 <
        leadValues (UTF8DecodeTable.getD b 0) := by
  decide +kernel

theorem table_of_lead : ∀ n < 7, ∀ d < leadValues n, leadMark n + d < 256 ∧
    UTF8DecodeTable.getD (leadMark n + d) 0 = n ∧
    (leadMark n + d) &&& UTF8DecodeMask.getD n 0 = d := by
  decide +kernel

theorem continuation_byte : ∀ b < 256, (b &&& 0xc0 = 0x80 ↔ 0x80 ≤ b ∧ b < 0xc0) ∧
    b &&& 0x3f = b % 64 := by
  decide +kernel

theorem shiftLeft_or {code d : Nat} (hd : d < 64) : code <<< 6 ||| d = code * 64 + d := by
  rw [← Nat.shiftLeft_add_eq_or_of_lt hd, Nat.shiftLeft_eq]

/-- Reading appends six bits. -/
theorem readSequence_succ (k code : Nat) (b : UInt8) (s : List UInt8) :
    readSequence (k + 1) code (b :: s) =
      if 0x80 ≤ b.toNat ∧ b.toNat < 0xc0 then readSequence k (code * 64 + b.toNat % 64) s
      else .error (.throws .couldNotConvertToUTF16) := by
  obtain ⟨hmark, hbits⟩ := continuation_byte b.toNat b.toNat_lt
  rw [readSequence, hbits, shiftLeft_or (Nat.mod_lt _ (by decide))]
  by_cases h : b.toNat &&& 0xc0 = 0x80
  · rw [if_neg (not_not.2 h), if_pos (hmark.1 h)]
  · rw [if_pos h, if_neg fun hb => h (hmark.2 hb)]

/-- The other bytes of a number are read. -/
theorem readSequence_continuation (k code v : Nat) (rest : List UInt8) :
    readSequence k code (continuation k v ++ rest) = .ok (code * 64 ^ k + v % 64 ^ k, rest) := by
  induction k generalizing code with
  | zero => simp [readSequence, continuation, Nat.mod_one]
  | succ k ih =>
    have hsplit : v % 64 ^ (k + 1) = v % 64 ^ k + 64 ^ k * (v / 64 ^ k % 64) := Nat.mod_pow_succ
    have hb : (0x80 + v / 64 ^ k % 64) % 64 = v / 64 ^ k % 64 := by omega
    rw [continuation, List.cons_append, readSequence_succ, toNat_continuation, if_pos (by omega),
      hb, ih, hsplit]
    congr 2
    ring

/-- What is read is a number in this many bytes. -/
theorem readSequence_ok {k code code' : Nat} {s rest : List UInt8}
    (h : readSequence k code s = .ok (code', rest)) :
    code' / 64 ^ k = code ∧ s = continuation k code' ++ rest := by
  induction k generalizing code s with
  | zero =>
    obtain ⟨rfl, rfl⟩ := Prod.mk.inj (Except.ok.inj h)
    exact ⟨by rw [pow_zero, Nat.div_one], rfl⟩
  | succ k ih =>
    cases s with
    | nil => cases h
    | cons b s =>
      rw [readSequence_succ] at h
      split_ifs at h with hb
      obtain ⟨hdiv, rfl⟩ := ih h
      have hcode : code' / 64 ^ (k + 1) = code := by
        rw [pow_succ, ← Nat.div_div_eq_div_mul, hdiv]
        omega
      have hbyte : UInt8.ofNat (0x80 + code' / 64 ^ k % 64) = b := by
        apply UInt8.toNat.inj
        rw [toNat_continuation, hdiv]
        omega
      refine ⟨hcode, ?_⟩
      rw [continuation, hbyte]
      rfl

/-- A sequence that is cut off. -/
theorem readSequence_outOfRange {k code : Nat} {s : List UInt8}
    (h : readSequence k code s = .error .outOfRange) :
    s.length < k ∧ ∀ b ∈ s, 0x80 ≤ b.toNat := by
  induction k generalizing code s with
  | zero => cases h
  | succ k ih =>
    cases s with
    | nil => exact ⟨Nat.succ_pos k, by simp⟩
    | cons b s =>
      rw [readSequence_succ] at h
      split_ifs at h with hb
      · obtain ⟨hlen, hall⟩ := ih h
        refine ⟨Nat.succ_lt_succ hlen, fun x hx => ?_⟩
        rcases List.mem_cons.1 hx with rfl | hx
        · exact hb.1
        · exact hall x hx
      · cases h

/-! ## Codes -/

theorem or_mark {n mark i : Nat} (hn : n < 2 ^ i) : n ||| mark <<< i = mark * 2 ^ i + n := by
  rw [Nat.or_comm, ← Nat.shiftLeft_add_eq_or_of_lt hn, Nat.shiftLeft_eq]

/-- The code of a character is mapped to its encoding. -/
theorem mapCode_char (c : Char) : mapCode c.toNat = .ok (utf16 c) := by
  have hc := toNat_le c
  unfold mapCode
  by_cases hsmall : c.toNat < 0x10000
  · rw [if_pos (by omega), utf16_of_lt hsmall]
  · have hhigh : ((c.toNat - 0x10000) >>> 10) ||| 0xd800 = 0xD800 + (c.toNat - 0x10000) / 0x400 := by
      rw [Nat.shiftRight_eq_div_pow, show 0xd800 = 54 <<< 10 from rfl, or_mark (by omega)]
      omega
    have hlow : ((c.toNat - 0x10000) &&& 0x3ff) ||| 0xdc00 = 0xDC00 + (c.toNat - 0x10000) % 0x400 := by
      have hmod : (c.toNat - 0x10000) &&& 0x3ff = (c.toNat - 0x10000) % 2 ^ 10 :=
        Nat.and_two_pow_sub_one_eq_mod _ 10
      have hmark := @or_mark ((c.toNat - 0x10000) % 2 ^ 10) 55 10 (Nat.mod_lt _ (by decide))
      rw [hmod]
      exact hmark
    rw [if_neg (by omega), utf16_of_ge (by omega)]
    unfold fnCharacterIDToUTF16
    rw [if_neg (by omega)]
    dsimp only
    rw [hhigh, hlow]
    rfl

/-- Only codes of characters are mapped. -/
theorem mapCode_ok {n : Nat} {units : List UInt16} (h : mapCode n = .ok units) :
    ∃ c : Char, c.toNat = n ∧ units = utf16 c := by
  have hvalid : n.isValidChar := by
    unfold mapCode at h
    split_ifs at h with hn
    · unfold Nat.isValidChar
      omega
    · obtain ⟨x, hx, -⟩ := bind_eq_ok.1 h
      unfold fnCharacterIDToUTF16 at hx
      split_ifs at hx with hr
      unfold Nat.isValidChar
      omega
  obtain ⟨c, rfl⟩ := exists_char_of_valid hvalid
  rw [mapCode_char] at h
  exact ⟨c, rfl, (Except.ok.inj h).symm⟩

/-! ## Sequences -/

/-- What is decoded: nothing for a byte order mark. -/
def decodedUnits (f : Form) : List UInt16 := if f.IsBOM then [] else utf16 f.c

/-- The first byte tells the length and its bits. -/
theorem sequenceLength_lead (f : Form) : sequenceLength f.lead = f.n ∧
    f.lead.toNat &&& UTF8DecodeMask.getD f.n 0 = f.c.toNat / 64 ^ (f.n - 1) ∧
    f.lead.toNat = leadMark f.n + f.c.toNat / 64 ^ (f.n - 1) := by
  obtain ⟨hlt, htable, hmask⟩ := table_of_lead f.n (by have := f.n_bounds; omega) _ f.lead_lt
  have hlead : f.lead.toNat = leadMark f.n + f.c.toNat / 64 ^ (f.n - 1) := by
    rw [Form.lead, UInt8.toNat_ofNat']
    omega
  unfold sequenceLength
  rw [hlead]
  exact ⟨htable, hmask, rfl⟩

/-- The byte order mark is found. -/
theorem checkBOM_form (f : Form) (s : List UInt8) :
    checkBOM f.lead (f.others ++ s) = .ok (decide f.IsBOM) := by
  obtain ⟨hn, -, hlead⟩ := sequenceLength_lead f
  have hef : (0xef : UInt8).toNat = 0xef := rfl
  unfold checkBOM
  by_cases h : f.lead = 0xef
  · have h3 : f.n = 3 := by
      rw [← hn, h]
      rfl
    have hothers : f.others = [UInt8.ofNat (0x80 + f.c.toNat / 64 ^ 1 % 64),
        UInt8.ofNat (0x80 + f.c.toNat / 64 ^ 0 % 64)] := by
      rw [Form.others, h3]
      rfl
    have h15 : f.c.toNat / 64 ^ 2 = 15 := by
      rw [h, h3, hef] at hlead
      simp only [leadMark] at hlead
      omega
    have hsecond : UInt8.ofNat (0x80 + f.c.toNat / 64 ^ 1 % 64) = 0xbb ↔
        f.c.toNat / 64 % 64 = 59 := by
      rw [← UInt8.toNat_inj, toNat_continuation, show (0xbb : UInt8).toNat = 0xbb from rfl]
      omega
    have hthird : UInt8.ofNat (0x80 + f.c.toNat / 64 ^ 0 % 64) = 0xbf ↔ f.c.toNat % 64 = 63 := by
      rw [← UInt8.toNat_inj, toNat_continuation, show (0xbf : UInt8).toNat = 0xbf from rfl]
      omega
    rw [if_pos h, hothers]
    simp only [List.cons_append, List.nil_append, elementAt, List.getElem?_cons_zero,
      List.getElem?_cons_succ, bind, Except.bind, hsecond, hthird]
    split_ifs with h59
    · have hbom : f.c.toNat % 64 = 63 ↔ f.IsBOM := by
        unfold Form.IsBOM
        omega
      show Except.ok _ = Except.ok _
      rw [decide_eq_decide.2 hbom]
    · have hno : ¬ f.IsBOM := by
        unfold Form.IsBOM
        omega
      rw [decide_eq_false hno]
      rfl
  · have hno : ¬ f.IsBOM := by
      rintro ⟨hc, h3⟩
      apply h
      apply UInt8.toNat.inj
      rw [hlead, h3, hc]
      rfl
    rw [if_neg h, decide_eq_false hno]
    rfl

/-- The byte order mark. -/
def byteOrderMark : Form := ⟨'\uFEFF', 3, by decide⟩

/-- Nothing else is found. -/
theorem checkBOM_true {b : UInt8} {s : List UInt8} (h : checkBOM b s = .ok true) :
    b = 0xef ∧ ∃ t, s = 0xbb :: 0xbf :: t := by
  unfold checkBOM at h
  split_ifs at h with hb
  · obtain ⟨second, h2, h⟩ := bind_eq_ok.1 h
    split_ifs at h with hbb
    · obtain ⟨third, h3, h⟩ := bind_eq_ok.1 h
      have hbf : third = 0xbf := of_decide_eq_true (Except.ok.inj h)
      rcases s with _ | ⟨x, _ | ⟨y, t⟩⟩
      · cases h2
      · cases h3
      · obtain rfl : x = second := Except.ok.inj h2
        obtain rfl : y = third := Except.ok.inj h3
        exact ⟨hb, t, by rw [hbb, hbf]⟩
    · cases h
  · cases h

/-- Every form of a character is decoded. -/
theorem decodeSequence_form (f : Form) (s : List UInt8) :
    decodeSequence f.lead (sequenceLength f.lead) (f.others ++ s) = .ok (decodedUnits f, s) := by
  obtain ⟨hn, hmask, -⟩ := sequenceLength_lead f
  rw [hn]
  unfold decodeSequence decodedUnits
  rw [checkBOM_form]
  by_cases hbom : f.IsBOM
  · have hdrop : (f.others ++ s).drop 2 = s := by
      have hlen : f.others.length = 2 := by
        rw [Form.others, length_continuation, hbom.2]
      rw [← hlen, List.drop_left]
    simp only [bind, Except.bind, decide_eq_true hbom, if_true, hdrop, if_pos hbom]
    rfl
  · have hcode : f.c.toNat / 64 ^ (f.n - 1) * 64 ^ (f.n - 1) + f.c.toNat % 64 ^ (f.n - 1) =
        f.c.toNat := Nat.div_add_mod' ..
    simp only [bind, Except.bind, decide_eq_false hbom, if_neg hbom, hmask, Form.others,
      readSequence_continuation, hcode, mapCode_char]
    rfl

/-- Nothing else is decoded. -/
theorem decodeSequence_ok {b : UInt8} {s rest : List UInt8} {units : List UInt16}
    (hb : sequenceLength b ≠ 0)
    (h : decodeSequence b (sequenceLength b) s = .ok (units, rest)) :
    ∃ f : Form, f.lead = b ∧ s = f.others ++ rest ∧ units = decodedUnits f := by
  obtain ⟨hlead, hbits⟩ := lead_of_table b.toNat b.toNat_lt hb
  -- a form with the first byte `b` in front of `rest` is what is decoded
  have hform : ∀ f : Form, f.lead = b → s = f.others ++ rest →
      ∃ f : Form, f.lead = b ∧ s = f.others ++ rest ∧ units = decodedUnits f := by
    rintro f rfl rfl
    rw [decodeSequence_form] at h
    exact ⟨f, rfl, rfl, (Prod.mk.inj (Except.ok.inj h)).1.symm⟩
  have h' := h
  unfold decodeSequence at h'
  obtain ⟨bom, hbom, h'⟩ := bind_eq_ok.1 h'
  cases bom with
  | true =>
    obtain ⟨rfl, t, rfl⟩ := checkBOM_true hbom
    obtain ⟨-, rfl⟩ := Prod.mk.inj (Except.ok.inj h')
    exact hform byteOrderMark rfl rfl
  | false =>
    obtain ⟨⟨code, s'⟩, hread, h'⟩ := bind_eq_ok.1 h'
    obtain ⟨us, hmap, h'⟩ := bind_eq_ok.1 h'
    obtain ⟨rfl, rfl⟩ := Prod.mk.inj (Except.ok.inj h')
    obtain ⟨c, rfl, -⟩ := mapCode_ok (Checked.lift_eq_ok.1 hmap)
    obtain ⟨hdiv, hs⟩ := readSequence_ok hread
    have hpos : 0 < 64 ^ (sequenceLength b - 1) := Nat.pow_pos (by decide)
    have hlead : b.toNat = leadMark (sequenceLength b) + c.toNat / 64 ^ (sequenceLength b - 1) := by
      rw [hdiv]
      exact hlead
    have hfits : c.toNat < leadValues (sequenceLength b) * 64 ^ (sequenceLength b - 1) := by
      apply (Nat.div_lt_iff_lt_mul hpos).1
      rw [hdiv]
      exact hbits
    refine hform ⟨c, sequenceLength b, hfits⟩ ?_ hs
    apply UInt8.toNat.inj
    rw [Form.lead, UInt8.toNat_ofNat', ← hlead]
    exact Nat.mod_eq_of_lt b.toNat_lt

/-- The look for a byte order mark ends behind the bytes that are there only if these begin one. -/
theorem checkBOM_outOfRange {b : UInt8} {s : List UInt8}
    (h : checkBOM b s = .error .outOfRange) :
    b = 0xef ∧ s.length < 2 ∧ ∀ x ∈ s, 0x80 ≤ x.toNat := by
  unfold checkBOM at h
  split_ifs at h with hb
  · rcases bind_eq_error.1 h with h | ⟨second, hsecond, h⟩
    · have hlen : s.length ≤ 0 := elementAt_outOfRange h
      obtain rfl : s = [] := List.length_eq_zero_iff.1 (Nat.le_zero.1 hlen)
      exact ⟨hb, by decide, by simp⟩
    · split_ifs at h with hbb
      · rcases bind_eq_error.1 h with h | ⟨third, -, h⟩
        · have hlen : s.length ≤ 1 := elementAt_outOfRange h
          rcases s with _ | ⟨x, _ | ⟨y, t⟩⟩
          · cases hsecond
          · obtain rfl : x = second := Except.ok.inj hsecond
            refine ⟨hb, Nat.lt_succ_self 1, fun y hy => ?_⟩
            rw [List.mem_singleton.1 hy, hbb]
            decide
          · simp at hlen
        · cases h
      · cases h
  · cases h

/-- A sequence is read behind the bytes that are there only where it is cut off. -/
theorem decodeSequence_outOfRange {b : UInt8} {s : List UInt8}
    (h : decodeSequence b (sequenceLength b) s = .error .outOfRange) :
    s.length < sequenceLength b - 1 ∧ ∀ x ∈ s, 0x80 ≤ x.toNat := by
  unfold decodeSequence at h
  rcases bind_eq_error.1 h with h | ⟨bom, -, h⟩
  · obtain ⟨rfl, hlen, hall⟩ := checkBOM_outOfRange h
    exact ⟨hlen, hall⟩
  · cases bom with
    | true => cases h
    | false =>
      rcases bind_eq_error.1 h with h | ⟨⟨code, t⟩, -, h⟩
      · exact readSequence_outOfRange h
      · rcases bind_eq_error.1 h with h | ⟨us, -, h⟩
        · exact absurd h (Checked.lift_ne_outOfRange _)
        · cases h

end NMR
