import Lib3MF.Common.Proof.UTFConversion

/-!
# Decoding in buffers

A text is cut into pieces anywhere and fed to `fnBufferedUTF8toUTF16`, each piece with what the
call before it left (`feed`). One call decodes the characters that are complete
(`bufferedLoop_cut`), so what is left is the beginning of one character (`Cut`), which the next
piece goes on with (`feed_cut`).
-/

namespace NMR

open Lib

/-- The pieces are decoded, each behind the bytes that the call before it did not consume. -/
def feed : List UInt8 → List (List UInt8) → Checked Error (List BufferedResult)
  | _, [] => .ok []
  | left, piece :: pieces => do
    let r ← fnBufferedUTF8toUTF16 (left ++ piece)
    let rs ← feed ((left ++ piece).drop r.lastChar) pieces
    return r :: rs

/-- The bytes that are missing of the character that a cut behind `k` bytes goes through. -/
def missingBytes : List Char → Nat → Nat
  | [], _ => 0
  | c :: cs, k =>
    if k = 0 then 0 else if k < c.utf8Size then c.utf8Size - k
    else missingBytes cs (k - c.utf8Size)

/-- The first `m` bytes are no whole character. -/
def Cut (cs : List Char) (m : Nat) : Prop := m = 0 ∨ ∃ c cs', cs = c :: cs' ∧ m < c.utf8Size

/-! ## Cuts -/

theorem length_encode (c : Char) : (String.utf8EncodeChar c).length = c.utf8Size :=
  String.length_utf8EncodeChar c

theorem utf8Size_pos (c : Char) : 0 < c.utf8Size := (Form.shortest c).n_bounds.1

theorem Cut.le {cs : List Char} {m : Nat} (h : Cut cs m) : m ≤ 3 := by
  rcases h with rfl | ⟨c, -, -, hm⟩
  · omega
  · rw [utf8Size_eq] at hm
    split_ifs at hm <;> omega

/-- Behind whole characters the count begins anew. -/
theorem missingBytes_append (cs cs' : List Char) (m : Nat) :
    missingBytes (cs ++ cs') ((cs.flatMap String.utf8EncodeChar).length + m) =
      missingBytes cs' m := by
  induction cs with
  | nil =>
    rw [List.flatMap_nil, List.length_nil, Nat.zero_add]
    rfl
  | cons c cs ih =>
    have hpos := utf8Size_pos c
    rw [List.cons_append, List.flatMap_cons, List.length_append, length_encode, missingBytes,
      if_neg (by omega), if_neg (by omega), ← ih]
    congr 1
    omega

/-- Every cut is behind some characters and in at most one. -/
theorem exists_cut (cs : List Char) {k : Nat}
    (hk : k ≤ (cs.flatMap String.utf8EncodeChar).length) :
    ∃ cs₁ cs₂ m, cs = cs₁ ++ cs₂ ∧ k = (cs₁.flatMap String.utf8EncodeChar).length + m ∧
      Cut cs₂ m := by
  induction cs generalizing k with
  | nil =>
    obtain rfl : k = 0 := Nat.le_zero.1 hk
    exact ⟨[], [], 0, rfl, rfl, Or.inl rfl⟩
  | cons c cs ih =>
    rw [List.flatMap_cons, List.length_append, length_encode] at hk
    by_cases hc : k < c.utf8Size
    · exact ⟨[], c :: cs, k, rfl, (Nat.zero_add k).symm, Or.inr ⟨c, cs, rfl, hc⟩⟩
    · obtain ⟨cs₁, cs₂, m, rfl, hm, hcut⟩ := @ih (k - c.utf8Size) (by omega)
      refine ⟨c :: cs₁, cs₂, m, rfl, ?_, hcut⟩
      rw [List.flatMap_cons, List.length_append, length_encode]
      omega

/-! ## One call -/

/-- One turn of the loop. -/
theorem bufferedLoop_cons {b : UInt8} (hb : sequenceLength b ≠ 0) (turns : Nat) (s : List UInt8) :
    bufferedLoop (turns + 1) (b :: s) =
      if (b :: s).length < sequenceLength b then
        .ok ⟨[], 0, sequenceLength b - (b :: s).length⟩
      else do
        let (units, s) ← decodeSequence b (sequenceLength b) s
        let rest ← bufferedLoop turns s
        return ⟨units ++ rest.units, sequenceLength b + rest.lastChar, rest.neededCharacters⟩ := by
  rw [bufferedLoop, if_neg (show ¬ (b :: s).length = 0 by simp)]
  simp only [elementAt, List.getElem?_cons_zero, bind, Except.bind, if_neg hb, List.tail_cons]
  rfl

/-- A whole sequence is decoded. -/
theorem bufferedLoop_form (f : Form) (turns : Nat) (s : List UInt8) :
    bufferedLoop (turns + 1) (f.bytes ++ s) = (do
      let rest ← bufferedLoop turns s
      return ⟨decodedUnits f ++ rest.units, f.n + rest.lastChar, rest.neededCharacters⟩) := by
  have hlead := (sequenceLength_lead f).1
  have hlen : ¬ (f.bytes ++ s).length < sequenceLength f.lead := by
    rw [List.length_append, f.length_bytes, hlead]
    omega
  rw [Form.bytes_eq, List.cons_append] at hlen ⊢
  rw [bufferedLoop_cons (sequenceLength_lead_ne f), if_neg hlen, decodeSequence_form, hlead]
  rfl

/-- A sequence that is not whole is left. -/
theorem bufferedLoop_part (f : Form) {m : Nat} (hm : 0 < m) (hlt : m < f.n) (turns : Nat) :
    bufferedLoop (turns + 1) (f.bytes.take m) = .ok ⟨[], 0, f.n - m⟩ := by
  have hlead := (sequenceLength_lead f).1
  have hlen : (f.bytes.take m).length = m := by
    rw [List.length_take, f.length_bytes, Nat.min_eq_left (Nat.le_of_lt hlt)]
  obtain ⟨k, rfl⟩ := Nat.exists_eq_succ_of_ne_zero (Nat.pos_iff_ne_zero.1 hm)
  rw [Form.bytes_eq, List.take_succ_cons] at hlen ⊢
  rw [bufferedLoop_cons (sequenceLength_lead_ne f), hlen, hlead, if_pos hlt]

/-- The complete characters are decoded, and the bytes behind them counted. -/
theorem bufferedLoop_cut {cs₁ cs₂ : List Char} {m turns : Nat} (hcut : Cut cs₂ m)
    (hturns : cs₁.length < turns) :
    bufferedLoop turns (cs₁.flatMap String.utf8EncodeChar ++
        (cs₂.flatMap String.utf8EncodeChar).take m) =
      .ok ⟨(cs₁.map Form.shortest).flatMap decodedUnits,
        (cs₁.flatMap String.utf8EncodeChar).length, missingBytes cs₂ m⟩ := by
  induction cs₁ generalizing turns with
  | nil =>
    obtain ⟨turns, rfl⟩ := Nat.exists_eq_succ_of_ne_zero (Nat.ne_of_gt hturns)
    by_cases hm : m = 0
    · obtain rfl := hm
      cases cs₂ <;> rfl
    · obtain ⟨c, cs, rfl, hlt⟩ := hcut.resolve_left hm
      have htake : ((c :: cs).flatMap String.utf8EncodeChar).take m =
          (Form.shortest c).bytes.take m := by
        rw [List.flatMap_cons, List.take_append_of_le_length (by rw [length_encode]; omega),
          Form.bytes_shortest]
      have hpart := bufferedLoop_part (Form.shortest c) (Nat.pos_of_ne_zero hm) hlt turns
      rw [List.flatMap_nil, List.nil_append, htake, missingBytes, if_neg hm, if_pos hlt]
      exact hpart
  | cons c cs ih =>
    obtain ⟨turns, rfl⟩ := Nat.exists_eq_succ_of_ne_zero (Nat.ne_of_gt (Nat.zero_lt_of_lt hturns))
    have hrest := ih (Nat.lt_of_succ_lt_succ hturns)
    rw [List.flatMap_cons, ← Form.bytes_shortest, List.append_assoc, bufferedLoop_form, hrest,
      List.length_append, Form.length_bytes]
    rfl

/-- No byte behind the buffer is examined. -/
theorem bufferedLoop_ne_outOfRange {turns : Nat} {s : List UInt8} (hturns : s.length < turns) :
    bufferedLoop turns s ≠ .error .outOfRange := by
  induction turns generalizing s with
  | zero => omega
  | succ turns ih =>
    intro h
    cases s with
    | nil => cases h
    | cons b s =>
      by_cases hb : sequenceLength b = 0
      · rw [bufferedLoop, if_neg (show ¬ (b :: s).length = 0 by simp)] at h
        simp [elementAt, bind, Except.bind, hb, throw, throwThe, MonadExceptOf.throw] at h
      · rw [bufferedLoop_cons hb] at h
        split_ifs at h with hlen
        rcases bind_eq_error.1 h with h | ⟨⟨units, rest⟩, hdec, hrest⟩
        · -- the whole sequence is in the buffer
          have hshort := (decodeSequence_outOfRange h).1
          rw [List.length_cons] at hlen
          omega
        · obtain ⟨f, -, rfl, -⟩ := decodeSequence_ok hb hdec
          rcases bind_eq_error.1 hrest with hrest | ⟨r, -, hrest⟩
          · refine ih ?_ hrest
            rw [List.length_cons, List.length_append] at hturns
            omega
          · cases hrest

theorem fnBufferedUTF8toUTF16_ne_outOfRange (inBuffer : List UInt8) :
    fnBufferedUTF8toUTF16 inBuffer ≠ .error .outOfRange := by
  intro h
  unfold fnBufferedUTF8toUTF16 at h
  split_ifs at h
  · cases h
  · exact bufferedLoop_ne_outOfRange (Nat.lt_succ_self _) h

/-! ## All calls -/

/-- One call on a buffer that ends at a cut. -/
theorem fnBufferedUTF8toUTF16_cut {cs₁ cs₂ : List Char} {m : Nat} (hcut : Cut cs₂ m)
    (hlen : (cs₁.flatMap String.utf8EncodeChar ++
      (cs₂.flatMap String.utf8EncodeChar).take m).length ≤ maxStringBufferSize) :
    fnBufferedUTF8toUTF16 (cs₁.flatMap String.utf8EncodeChar ++
        (cs₂.flatMap String.utf8EncodeChar).take m) =
      .ok ⟨(cs₁.map Form.shortest).flatMap decodedUnits,
        (cs₁.flatMap String.utf8EncodeChar).length, missingBytes cs₂ m⟩ := by
  have hturns : cs₁.length ≤ (cs₁.flatMap String.utf8EncodeChar).length := by
    have := length_forms_le (cs₁.map Form.shortest)
    rwa [List.length_map, List.flatMap_map, show (fun c => (Form.shortest c).bytes) =
      String.utf8EncodeChar from funext Form.bytes_shortest] at this
  unfold fnBufferedUTF8toUTF16
  rw [if_neg (Nat.not_lt.2 hlen), bufferedLoop_cut hcut]
  rw [List.length_append]
  omega

/-- The pieces of a text are decoded, from a cut on: all its units, and the missing bytes at each
cut. -/
theorem feed_cut {cs : List Char} {m : Nat} {pieces : List (List UInt8)} (hcut : Cut cs m)
    (hpieces : pieces.flatten = (cs.flatMap String.utf8EncodeChar).drop m)
    (hlen : (∀ piece ∈ pieces, piece.length + 3 ≤ maxStringBufferSize) ∨
      (cs.flatMap String.utf8EncodeChar).length ≤ maxStringBufferSize) :
    ∃ rs, feed ((cs.flatMap String.utf8EncodeChar).take m) pieces = .ok rs ∧
      rs.flatMap (·.units) = (cs.map Form.shortest).flatMap decodedUnits ∧
      ∀ i r, rs[i]? = some r →
        r.neededCharacters = missingBytes cs (m + (pieces.take (i + 1)).flatten.length) := by
  induction pieces generalizing cs m with
  | nil =>
    have hnil : cs = [] := by
      have hdrop := congrArg List.length hpieces
      rw [List.length_drop, List.flatten_nil, List.length_nil] at hdrop
      rcases hcut with rfl | ⟨c, cs', rfl, hm⟩
      · cases cs with
        | nil => rfl
        | cons c cs =>
          have := utf8Size_pos c
          rw [List.flatMap_cons, List.length_append, length_encode] at hdrop
          omega
      · rw [List.flatMap_cons, List.length_append, length_encode] at hdrop
        omega
    obtain rfl := hnil
    exact ⟨[], rfl, rfl, by simp⟩
  | cons piece pieces ih =>
    obtain ⟨whole, hwhole⟩ : ∃ whole, whole = cs.flatMap String.utf8EncodeChar := ⟨_, rfl⟩
    rw [← hwhole] at hpieces hlen ⊢
    rw [List.flatten_cons] at hpieces
    have hm : m ≤ whole.length := by
      rcases hcut with rfl | ⟨c, cs', rfl, hm⟩
      · omega
      · rw [hwhole, List.flatMap_cons, List.length_append, length_encode]
        omega
    -- the buffer is what stands in front of the next cut
    have hall : whole.take m ++ piece ++ pieces.flatten = whole := by
      rw [List.append_assoc, hpieces, List.take_append_drop]
    have hk : m + piece.length ≤ whole.length := by
      have := congrArg List.length hall
      simp only [List.length_append, List.length_take] at this
      omega
    have hlenBuffer : (whole.take m ++ piece).length = m + piece.length := by
      rw [List.length_append, List.length_take, Nat.min_eq_left hm]
    have hbuffer : whole.take m ++ piece = whole.take (m + piece.length) := by
      have htake : (whole.take m ++ piece ++ pieces.flatten).take (whole.take m ++ piece).length =
          whole.take m ++ piece := List.take_left
      rw [hall, hlenBuffer] at htake
      exact htake.symm
    obtain ⟨cs₁, cs₂, m', rfl, hk', hcut'⟩ := exists_cut cs (k := m + piece.length)
      (by rw [← hwhole]; exact hk)
    rw [List.flatMap_append] at hwhole
    have hsplit : whole.take m ++ piece = cs₁.flatMap String.utf8EncodeChar ++
        (cs₂.flatMap String.utf8EncodeChar).take m' := by
      rw [hbuffer, hwhole, hk', List.take_length_add_append]
    have hrest : pieces.flatten = (cs₂.flatMap String.utf8EncodeChar).drop m' := by
      have hdrop : (whole.take m ++ piece ++ pieces.flatten).drop (whole.take m ++ piece).length =
          pieces.flatten := List.drop_left
      rw [hall, hlenBuffer] at hdrop
      rw [← hdrop, hwhole, hk', List.drop_length_add_append]
    have hsmall : (whole.take m ++ piece).length ≤ maxStringBufferSize := by
      have := hcut.le
      rw [hlenBuffer]
      rcases hlen with hlen | hlen
      · have := hlen piece List.mem_cons_self
        omega
      · omega
    have hlen' : (∀ piece ∈ pieces, piece.length + 3 ≤ maxStringBufferSize) ∨
        (cs₂.flatMap String.utf8EncodeChar).length ≤ maxStringBufferSize := by
      refine hlen.imp (fun hall p hp => hall p (List.mem_cons_of_mem _ hp)) fun hle => ?_
      rw [hwhole, List.length_append] at hle
      omega
    have hcall := fnBufferedUTF8toUTF16_cut hcut' (hsplit ▸ hsmall)
    obtain ⟨rs, hfeed, hunits, hneeded⟩ := ih hcut' hrest hlen'
    refine ⟨⟨(cs₁.map Form.shortest).flatMap decodedUnits,
      (cs₁.flatMap String.utf8EncodeChar).length, missingBytes cs₂ m'⟩ :: rs, ?_, ?_, ?_⟩
    · rw [feed, hsplit, hcall]
      simp only [bind, Except.bind, List.drop_left, hfeed]
      rfl
    · rw [List.flatMap_cons, hunits, List.map_append, List.flatMap_append]
    · intro i r hr
      cases i with
      | zero =>
        obtain rfl := Option.some.inj hr
        rw [List.take_succ_cons, List.flatten_cons, List.take_zero, List.flatten_nil,
          List.append_nil, hk', missingBytes_append]
      | succ i =>
        have h := hneeded i r hr
        rw [h, List.take_succ_cons, List.flatten_cons, List.length_append, ← Nat.add_assoc, hk',
          Nat.add_assoc, missingBytes_append]

/-- A text that is fed in pieces is decoded as a whole, each call tells the missing bytes of the
character that is cut, and no byte behind a buffer is examined. -/
theorem buffered_decoding {t : Text} {pieces : List (List UInt8)}
    (h : t.utf8.length ≤ maxStringBufferSize) (hpieces : pieces.flatten = t.utf8)
    (inBuffer : List UInt8) :
    (∃ rs, feed [] pieces = .ok rs ∧ fnUTF8toUTF16 t.utf8 = .ok (rs.flatMap (·.units)) ∧
      ∀ i r, rs[i]? = some r →
        r.neededCharacters = missingBytes t.chars (pieces.take (i + 1)).flatten.length) ∧
    fnBufferedUTF8toUTF16 inBuffer ≠ .error .outOfRange := by
  obtain ⟨rs, hfeed, hunits, hneeded⟩ := feed_cut (Or.inl rfl) hpieces (Or.inr h)
  refine ⟨⟨rs, hfeed, ?_, fun i r hr => ?_⟩, fnBufferedUTF8toUTF16_ne_outOfRange inBuffer⟩
  · rw [fnUTF8toUTF16_text h, hunits, ← decodedUnits_forms]
    rfl
  · rw [hneeded i r hr, Nat.zero_add]

/-- The text `é` in two pieces. -/
theorem buffered_decoding_two : ∃ rs, feed [] [[0xC3], [0xA9]] = .ok rs ∧
    fnUTF8toUTF16 [0xC3, 0xA9] = .ok (rs.flatMap (·.units)) ∧
    ∀ i r, rs[i]? = some r → r.neededCharacters =
      missingBytes ['é'] (([[0xC3], [0xA9]] : List (List UInt8)).take (i + 1)).flatten.length :=
  (@buffered_decoding ⟨['é'], by simp⟩ [[0xC3], [0xA9]] (by decide) (by decide) []).1

/-! ## Long texts -/

/-- `n` times `a`. -/
def repeated (n : Nat) : Text := ⟨List.replicate n 'a', fun c hc => by
  rw [List.eq_of_mem_replicate hc]
  decide⟩

theorem repeated_utf8 (n : Nat) : (repeated n).utf8 = List.replicate n 0x61 := by
  show (List.replicate n 'a').flatMap String.utf8EncodeChar = _
  induction n with
  | zero => rfl
  | succ n ih =>
    rw [List.replicate_succ, List.flatMap_cons, ih]
    rfl

/-- A text that is too long is decoded in pieces, though not as a whole. -/
theorem long_text_decoded {n : Nat} (hshort : n + 3 ≤ maxStringBufferSize)
    (hlong : maxStringBufferSize < n + n) :
    (∃ rs, feed [] [List.replicate n 0x61, List.replicate n 0x61] = .ok rs) ∧
    [List.replicate n 0x61, List.replicate n 0x61].flatten = (repeated (n + n)).utf8 ∧
    fnUTF8toUTF16 (repeated (n + n)).utf8 = .error (.throws .invalidBufferSize) := by
  have hflat : [List.replicate n 0x61, List.replicate n 0x61].flatten = (repeated (n + n)).utf8 := by
    rw [repeated_utf8, List.flatten_cons, List.flatten_cons, List.flatten_nil, List.append_nil,
      List.replicate_append_replicate]
  refine ⟨?_, hflat, ?_⟩
  · obtain ⟨rs, hfeed, -⟩ := feed_cut (Or.inl rfl) hflat (Or.inl fun piece hp => by
      simp only [List.mem_cons, List.not_mem_nil, or_false, or_self] at hp
      rw [hp, List.length_replicate]
      exact hshort)
    exact ⟨rs, hfeed⟩
  · rw [fnUTF8toUTF16_eq, repeated_utf8, List.length_replicate, if_pos hlong]

/-- One byte more than the limit, in two halves. -/
theorem long_text_split :
    (∃ rs, feed [] [List.replicate 536870912 0x61, List.replicate 536870912 0x61] = .ok rs) ∧
    [List.replicate 536870912 0x61, List.replicate 536870912 0x61].flatten =
      (repeated (536870912 + 536870912)).utf8 ∧
    fnUTF8toUTF16 (repeated (536870912 + 536870912)).utf8 =
      .error (.throws .invalidBufferSize) :=
  long_text_decoded (by decide) (by decide)

end NMR
