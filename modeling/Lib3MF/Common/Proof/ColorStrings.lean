import Lib3MF.Common.ColorStrings
import Lib3MF.Lib.Except
import Lib3MF.Common.Proof.StringToInt

/-!
# Colours read back, and what else is read

`fnStringToSRGBColor` gives back every colour that `fnColorToString` writes
(`fnStringToSRGBColor_fnColorToString`). A piece of two hexadecimal digits is the number they denote
(`fnHexStringToUint32_pair`); `strtoul` also converts a blank or a sign before one digit
(`fnHexStringToUint32_signed`), and nothing else of two characters (`fnHexStringToUint32_other`). So
the parser accepts what denotes a colour, and texts with such a piece besides (`colors_iff`).
-/

namespace NMR

open Lib

/-! ## Digits -/

theorem hexDigitValue_fnColorDigitToHex :
    ∀ d < 16, hexDigitValue (fnColorDigitToHex d) = some d := by decide

theorem hexDigitValue_lt {c : Char} {d : Nat} (h : hexDigitValue c = some d) : d < 16 := by
  unfold hexDigitValue at h
  split_ifs at h <;> cases h <;> omega

/-- What a hexadecimal digit is not. -/
theorem isHexDigit_not {c : Char} (h : isHexDigit c = true) :
    isSpace c = false ∧ c ≠ '-' ∧ c ≠ '+' := by
  have hc : 48 ≤ c.toNat := by
    unfold isHexDigit hexDigitValue at h
    split_ifs at h with h1 h2 h3
    · omega
    · omega
    · omega
    · cases h
  refine ⟨decide_eq_false (by omega), ?_, ?_⟩
  · rintro rfl
    exact absurd hc (by decide)
  · rintro rfl
    exact absurd hc (by decide)

/-- A blank or a sign. -/
def IsLead (c : Char) : Prop := isSpace c = true ∨ c = '-' ∨ c = '+'

instance (c : Char) : Decidable (IsLead c) := inferInstanceAs (Decidable (_ ∨ _))

theorem not_isHexDigit_of_isLead {c : Char} (h : IsLead c) : isHexDigit c = false := by
  by_contra hc
  obtain ⟨h1, h2, h3⟩ := isHexDigit_not (Bool.not_eq_false _ ▸ hc)
  rcases h with h | h | h
  · rw [h1] at h; cases h
  · exact h2 h
  · exact h3 h

/-! ## Pieces of two characters -/

/-- Two hexadecimal digits. -/
def HexPair (p : Char × Char) : Prop := isHexDigit p.1 = true ∧ isHexDigit p.2 = true

/-- A blank or a sign, and a digit: `strtoul` converts it, `-1` to its error value. -/
def SignedDigit (p : Char × Char) : Prop :=
  IsLead p.1 ∧ isHexDigit p.2 = true ∧ ¬ (p.1 = '-' ∧ hexDigitValue p.2 = some 1)

instance (p : Char × Char) : Decidable (HexPair p) := inferInstanceAs (Decidable (_ ∧ _))

instance (p : Char × Char) : Decidable (SignedDigit p) := inferInstanceAs (Decidable (_ ∧ _))

/-- The number that two hexadecimal digits denote. -/
def hexPairValue (p : Char × Char) : Nat :=
  16 * (hexDigitValue p.1).getD 0 + (hexDigitValue p.2).getD 0

theorem not_signedDigit {p : Char × Char} (h : HexPair p) : ¬ SignedDigit p := fun hs => by
  have := not_isHexDigit_of_isLead hs.1
  rw [h.1] at this
  cases this

theorem getD_hexDigitValue_lt (c : Char) : (hexDigitValue c).getD 0 < 16 := by
  cases h : hexDigitValue c with
  | none => decide
  | some d => exact hexDigitValue_lt h

theorem hexPairValue_lt (p : Char × Char) : hexPairValue p < 256 := by
  have h1 := getD_hexDigitValue_lt p.1
  have h2 := getD_hexDigitValue_lt p.2
  unfold hexPairValue
  omega

/-- Two characters are too short for the mark of a hexadecimal numeral. -/
theorem skipHexMark_pair (x y : Char) : skipHexMark [x, y] = [x, y] := by
  unfold skipHexMark
  split
  · rename_i h
    simp at h
  · rfl

theorem skipHexMark_single (x : Char) : skipHexMark [x] = [x] := by
  unfold skipHexMark
  split
  · rename_i h
    simp at h
  · rfl

theorem splitSign_of_ne {x : Char} {text : List Char} (h1 : x ≠ '-') (h2 : x ≠ '+') :
    splitSign (x :: text) = (false, x :: text) := by
  unfold splitSign
  split
  · rename_i h
    exact absurd (List.cons.inj h).1 h1
  · rename_i h
    exact absurd (List.cons.inj h).1 h2
  · rfl

theorem splitSign_suffix (text : List Char) : (splitSign text).2 <:+ text := by
  unfold splitSign
  split
  · exact List.suffix_cons _ _
  · exact List.suffix_cons _ _
  · exact List.suffix_rfl

theorem skipHexMark_suffix (text : List Char) : skipHexMark text <:+ text := by
  unfold skipHexMark
  split
  · split_ifs
    · exact (List.suffix_cons _ _).trans (List.suffix_cons _ _)
    · exact List.suffix_rfl
  · exact List.suffix_rfl

/-- A numeral that fills the text ends with a digit. -/
theorem getLast?_of_numeral {text : List Char} {n : Int}
    (h : leadingHexNumeral text = some (n, [])) : ∃ c, text.getLast? = some c ∧ isHexDigit c := by
  unfold leadingHexNumeral at h
  dsimp only at h
  have hsuffix : skipHexMark (splitSign (text.dropWhile isSpace)).2 <:+ text :=
    (skipHexMark_suffix _).trans ((splitSign_suffix _).trans (List.dropWhile_suffix _))
  generalize skipHexMark (splitSign (text.dropWhile isSpace)).2 = t at h hsuffix
  by_cases hdigits : t.takeWhile isHexDigit = []
  · rw [if_pos hdigits] at h
    cases h
  rw [if_neg hdigits] at h
  have hall : ∀ c ∈ t, isHexDigit c := by
    simp only [Option.some.injEq, Prod.mk.injEq, List.dropWhile_eq_nil_iff] at h
    exact h.2
  obtain ⟨before, rfl⟩ := hsuffix
  have hne : t ≠ [] := fun he => hdigits (by rw [he]; rfl)
  refine ⟨t.getLast hne, ?_, hall _ (List.getLast_mem hne)⟩
  rw [List.getLast?_append_of_ne_nil _ hne, List.getLast?_eq_some_getLast hne]

namespace LongWidth

variable {w : LongWidth} {x y : Char}

/-- A small number is converted to itself. -/
theorem wrap_of_lt {n : Nat} (h : n < 256) : w.wrap n = n ∧ w.wrap n < w.ulongMax := by
  have hwrap : w.wrap n = n := by
    unfold wrap
    rcases w.ulongMax_cases with ⟨hmax, hpow⟩ | ⟨hmax, hpow⟩
    · rw [if_neg (by omega), hpow]
      omega
    · rw [if_neg (by omega), hpow]
      omega
  have hw := w.ulongMax_cases
  exact ⟨hwrap, by omega⟩

/-- What is converted of a text that a numeral fills. -/
theorem fnHexStringToUint32_of_numeral {text : List Char} {n : Int}
    (h : leadingHexNumeral text = some (n, [])) :
    w.fnHexStringToUint32 text =
      if w.ulongMax ≤ w.wrap n then .error .rangeError else .ok (BitVec.ofInt 32 (w.wrap n)) := by
  simp only [fnHexStringToUint32, strtoulHex, h, ne_eq, not_true_eq_false, if_false]

/-- A text with something behind its numeral, or without one. -/
theorem fnHexStringToUint32_of_rest {text : List Char} (htext : text ≠ [])
    (h : ∀ n, leadingHexNumeral text ≠ some (n, [])) :
    w.fnHexStringToUint32 text = .error .invalidHexValue := by
  unfold fnHexStringToUint32 strtoulHex
  cases hl : leadingHexNumeral text with
  | none => exact if_pos htext
  | some p =>
    obtain ⟨n, rest⟩ := p
    exact if_pos fun hrest : rest = [] => h n (hrest ▸ hl)

theorem fnHexStringToUint32_pair (h : HexPair (x, y)) :
    w.fnHexStringToUint32 [x, y] = .ok (BitVec.ofNat 32 (hexPairValue (x, y))) := by
  obtain ⟨hx, hy⟩ := h
  obtain ⟨hspace, hminus, hplus⟩ := isHexDigit_not hx
  have hnum : leadingHexNumeral [x, y] = some ((hexPairValue (x, y) : Int), []) := by
    have hx' : isHexDigit x = true := hx
    have hy' : isHexDigit y = true := hy
    have hdrop : [x, y].dropWhile isSpace = [x, y] := by simp [hspace]
    simp only [leadingHexNumeral, hdrop, splitSign_of_ne hminus hplus, skipHexMark_pair]
    simp [hx', hy', ofHexDigits, hexPairValue]
  obtain ⟨hwrap, hlt⟩ := wrap_of_lt (w := w) (hexPairValue_lt (x, y))
  rw [fnHexStringToUint32_of_numeral hnum, if_neg (by omega), hwrap, BitVec.ofInt_natCast]

/-- Behind a blank or a sign stands what is left to convert. -/
theorem leadingHexNumeral_lead (hx : IsLead x) (hy : isHexDigit y = true) :
    leadingHexNumeral [x, y] =
      some (if x = '-' then -((hexDigitValue y).getD 0 : Int) else (hexDigitValue y).getD 0, []) := by
  obtain ⟨hspace, hminus, hplus⟩ := isHexDigit_not hy
  rcases hx with hx | rfl | rfl
  · have hne : x ≠ '-' := fun he => by
      rw [he] at hx
      exact absurd hx (by decide)
    have hdrop : [x, y].dropWhile isSpace = [y] := by simp [hx, hspace]
    simp only [leadingHexNumeral, hdrop, splitSign_of_ne hminus hplus, skipHexMark_single, if_neg hne]
    simp [hy, ofHexDigits]
  · have hdrop : ['-', y].dropWhile isSpace = ['-', y] := by simp [show isSpace '-' = false by decide]
    simp only [leadingHexNumeral, hdrop, splitSign, skipHexMark_single]
    simp [hy, ofHexDigits]
  · have hdrop : ['+', y].dropWhile isSpace = ['+', y] := by simp [show isSpace '+' = false by decide]
    simp only [leadingHexNumeral, hdrop, splitSign, skipHexMark_single]
    simp [hy, ofHexDigits]

/-- A blank or a sign before a digit is converted, but for `-1`. -/
theorem fnHexStringToUint32_signed (h : SignedDigit (x, y)) :
    ∃ v, w.fnHexStringToUint32 [x, y] = .ok v := by
  obtain ⟨hx, (hy : isHexDigit y = true), hne⟩ := h
  rw [fnHexStringToUint32_of_numeral (leadingHexNumeral_lead hx hy)]
  have hd := getD_hexDigitValue_lt y
  refine ⟨_, if_neg fun hle => ?_⟩
  rw [wrap_limit] at hle
  have hw := w.ulongMax_cases
  unfold UlongRejects at hle
  have hone : ¬ (x = '-' ∧ (hexDigitValue y).getD 0 = 1) := by
    intro ⟨hminus, hd⟩
    refine hne ⟨hminus, show hexDigitValue y = some 1 from ?_⟩
    cases hv : hexDigitValue y with
    | none => rw [hv] at hd; cases hd
    | some d => rw [hv] at hd; exact congrArg some hd
  split_ifs at hle with hminus
  · have : (hexDigitValue y).getD 0 ≠ 1 := fun h1 => hone ⟨hminus, h1⟩
    rcases hw with ⟨hmax, hpow⟩ | ⟨hmax, hpow⟩
    · rw [hmax, hpow] at hle; omega
    · rw [hmax, hpow] at hle; omega
  · rcases hw with ⟨hmax, hpow⟩ | ⟨hmax, hpow⟩
    · rw [hmax, hpow] at hle; omega
    · rw [hmax, hpow] at hle; omega

/-- Nothing else of two characters is. -/
theorem fnHexStringToUint32_other (hpair : ¬ HexPair (x, y)) (hsigned : ¬ SignedDigit (x, y)) :
    ∃ e, w.fnHexStringToUint32 [x, y] = .error e := by
  by_cases hy : isHexDigit y = true
  · by_cases hx : IsLead x
    · -- `-1` is `ULONG_MAX`
      have hone : x = '-' ∧ hexDigitValue y = some 1 := by
        by_contra hne
        exact hsigned ⟨hx, hy, hne⟩
      obtain ⟨rfl, hv⟩ := hone
      rw [fnHexStringToUint32_of_numeral (leadingHexNumeral_lead hx hy), hv, if_pos rfl]
      refine ⟨_, if_pos ?_⟩
      rw [wrap_limit]
      have hw := w.ulongMax_cases
      refine .inr ?_
      rcases hw with ⟨hmax, hpow⟩ | ⟨hmax, hpow⟩
      · rw [hmax, hpow]; rfl
      · rw [hmax, hpow]; rfl
    · refine ⟨_, fnHexStringToUint32_of_rest (List.cons_ne_nil _ _) fun n hn => ?_⟩
      have hxd : isHexDigit x = false := by
        by_contra hxd
        exact hpair ⟨Bool.not_eq_false _ ▸ hxd, hy⟩
      unfold IsLead at hx
      push Not at hx
      obtain ⟨hspace, hminus, hplus⟩ := hx
      have hdrop : [x, y].dropWhile isSpace = [x, y] := by simp [hspace]
      simp only [leadingHexNumeral, hdrop, splitSign_of_ne hminus hplus, skipHexMark_pair] at hn
      simp [hxd] at hn
  · refine ⟨_, fnHexStringToUint32_of_rest (List.cons_ne_nil _ _) fun n hn => ?_⟩
    obtain ⟨c, hc, hd⟩ := getLast?_of_numeral hn
    cases hc
    exact hy hd

/-! ## Whole texts -/

end LongWidth

/-- The characters of the pieces. -/
def pieceChars (ps : List (Char × Char)) : List Char := ps.flatMap fun p => [p.1, p.2]

/-- The colour with the components given. -/
def srgbColor (r g b a : Nat) : BitVec 32 := BitVec.ofNat 32 (r + 2 ^ 8 * g + 2 ^ 16 * b + 2 ^ 24 * a)

/-- `#` and six or eight hexadecimal digits, which denote the colour. -/
def DenotesColor (text : List Char) (c : BitVec 32) : Prop :=
  ∃ r g b, HexPair r ∧ HexPair g ∧ HexPair b ∧
    (text = '#' :: pieceChars [r, g, b] ∧
        c = srgbColor (hexPairValue r) (hexPairValue g) (hexPairValue b) 255 ∨
      ∃ a, HexPair a ∧ text = '#' :: pieceChars [r, g, b, a] ∧
        c = srgbColor (hexPairValue r) (hexPairValue g) (hexPairValue b) (hexPairValue a))

/-- Three or four pieces that `strtoul` converts, one of them with a blank or a sign. -/
def HasSignedDigit (text : List Char) : Prop :=
  ∃ ps, text = '#' :: pieceChars ps ∧ (ps.length = 3 ∨ ps.length = 4) ∧
    (∀ p ∈ ps, HexPair p ∨ SignedDigit p) ∧ ∃ p ∈ ps, SignedDigit p

theorem pieceChars_injective {ps qs : List (Char × Char)} (h : pieceChars ps = pieceChars qs) :
    ps = qs := by
  induction ps generalizing qs with
  | nil =>
    cases qs with
    | nil => rfl
    | cons q qs => cases h
  | cons p ps ih =>
    cases qs with
    | nil => cases h
    | cons q qs =>
      simp only [pieceChars, List.flatMap_cons, List.cons_append, List.nil_append,
        List.cons.injEq] at h
      obtain ⟨h1, h2, h3⟩ := h
      rw [Prod.ext h1 h2, ih h3]

/-- The components put together do not overlap. -/
theorem or_shifts {r g b a : Nat} (hr : r < 256) (hg : g < 256) (hb : b < 256) (ha : a < 256) :
    BitVec.ofNat 32 r ||| (BitVec.ofNat 32 g <<< 8) ||| (BitVec.ofNat 32 b <<< 16) |||
      (BitVec.ofNat 32 a <<< 24) = srgbColor r g b a := by
  apply BitVec.eq_of_toNat_eq
  have h8 : g * 2 ^ 8 ||| r = g * 2 ^ 8 + r := by
    rw [Nat.mul_comm, Nat.two_pow_add_eq_or_of_lt (by omega)]
  have h16 : b * 2 ^ 16 ||| (g * 2 ^ 8 + r) = b * 2 ^ 16 + (g * 2 ^ 8 + r) := by
    rw [Nat.mul_comm b, Nat.two_pow_add_eq_or_of_lt (by omega)]
  have h24 : a * 2 ^ 24 ||| (b * 2 ^ 16 + (g * 2 ^ 8 + r)) =
      a * 2 ^ 24 + (b * 2 ^ 16 + (g * 2 ^ 8 + r)) := by
    rw [Nat.mul_comm a, Nat.two_pow_add_eq_or_of_lt (by omega)]
  simp only [srgbColor, BitVec.toNat_or, BitVec.toNat_shiftLeft, BitVec.toNat_ofNat,
    Nat.shiftLeft_eq]
  rw [Nat.mod_eq_of_lt (show r < 2 ^ 32 by omega), Nat.mod_eq_of_lt (show g < 2 ^ 32 by omega),
    Nat.mod_eq_of_lt (show b < 2 ^ 32 by omega), Nat.mod_eq_of_lt (show a < 2 ^ 32 by omega),
    Nat.mod_eq_of_lt (show g * 2 ^ 8 < 2 ^ 32 by omega),
    Nat.mod_eq_of_lt (show b * 2 ^ 16 < 2 ^ 32 by omega),
    Nat.mod_eq_of_lt (show a * 2 ^ 24 < 2 ^ 32 by omega),
    Nat.or_comm, Nat.or_comm _ (b * 2 ^ 16), Nat.or_comm r, h8, h16, h24]
  omega

/-- The components of a short or long text put together. -/
def composeColor : List (BitVec 32) → BitVec 32
  | [r, g, b] => r ||| (g <<< 8) ||| (b <<< 16) ||| (255#32 <<< 24)
  | [r, g, b, a] => r ||| (g <<< 8) ||| (b <<< 16) ||| (a <<< 24)
  | _ => 0

/-- An even number of characters are pieces. -/
theorem exists_pieces (n : Nat) (text : List Char) (h : text.length = 2 * n) :
    ∃ ps, pieceChars ps = text ∧ ps.length = n := by
  induction n generalizing text with
  | zero => exact ⟨[], (List.length_eq_zero_iff.1 h).symm, rfl⟩
  | succ n ih =>
    rcases text with _ | ⟨x, _ | ⟨y, text⟩⟩
    · simp at h
    · simp at h
      omega
    · obtain ⟨ps, rfl, hlen⟩ := ih text (by simp only [List.length_cons] at h; omega)
      exact ⟨(x, y) :: ps, rfl, by rw [List.length_cons, hlen]⟩

namespace LongWidth

variable {w : LongWidth} {ps : List (Char × Char)} {text : List Char}

/-- A piece is converted exactly when it is one of the two kinds. -/
theorem piece_ok_iff (w : LongWidth) (p : Char × Char) :
    (∃ v, w.fnHexStringToUint32 [p.1, p.2] = .ok v) ↔ HexPair p ∨ SignedDigit p := by
  refine ⟨fun ⟨v, hv⟩ => ?_, fun h => ?_⟩
  · by_contra hno
    rw [not_or] at hno
    obtain ⟨e, he⟩ := fnHexStringToUint32_other (w := w) hno.1 hno.2
    rw [hv] at he
    cases he
  · rcases h with h | h
    · exact ⟨_, fnHexStringToUint32_pair h⟩
    · exact fnHexStringToUint32_signed h

/-- A text of pieces is the colour of what they are converted to. -/
theorem fnStringToSRGBColor_pieces (w : LongWidth) (h : ps.length = 3 ∨ ps.length = 4) :
    w.fnStringToSRGBColor ('#' :: pieceChars ps) =
      (ps.mapM fun p => w.fnHexStringToUint32 [p.1, p.2]).map fun vs => some (composeColor vs) := by
  rcases h with h | h
  · obtain ⟨r, g, b, rfl⟩ := List.length_eq_three.1 h
    have hcode : w.fnStringToSRGBColor ('#' :: pieceChars [r, g, b]) = (do
        let nRed ← w.fnHexStringToUint32 [r.1, r.2]
        let nGreen ← w.fnHexStringToUint32 [g.1, g.2]
        let nBlue ← w.fnHexStringToUint32 [b.1, b.2]
        return some (composeColor [nRed, nGreen, nBlue])) := rfl
    rw [hcode]
    simp only [List.mapM_cons, List.mapM_nil]
    cases w.fnHexStringToUint32 [r.1, r.2] with
    | error e => rfl
    | ok vr =>
      cases w.fnHexStringToUint32 [g.1, g.2] with
      | error e => rfl
      | ok vg => cases w.fnHexStringToUint32 [b.1, b.2] <;> rfl
  · obtain ⟨r, g, b, a, rfl⟩ := List.length_eq_four.1 h
    have hcode : w.fnStringToSRGBColor ('#' :: pieceChars [r, g, b, a]) = (do
        let nRed ← w.fnHexStringToUint32 [r.1, r.2]
        let nGreen ← w.fnHexStringToUint32 [g.1, g.2]
        let nBlue ← w.fnHexStringToUint32 [b.1, b.2]
        let nAlpha ← w.fnHexStringToUint32 [a.1, a.2]
        return some (composeColor [nRed, nGreen, nBlue, nAlpha])) := rfl
    rw [hcode]
    simp only [List.mapM_cons, List.mapM_nil]
    cases w.fnHexStringToUint32 [r.1, r.2] with
    | error e => rfl
    | ok vr =>
      cases w.fnHexStringToUint32 [g.1, g.2] with
      | error e => rfl
      | ok vg =>
        cases w.fnHexStringToUint32 [b.1, b.2] with
        | error e => rfl
        | ok vb => cases w.fnHexStringToUint32 [a.1, a.2] <;> rfl

/-- Any other text is no colour. -/
theorem fnStringToSRGBColor_other (w : LongWidth)
    (h : ∀ ps, (ps.length = 3 ∨ ps.length = 4) → text ≠ '#' :: pieceChars ps) :
    w.fnStringToSRGBColor text = .ok none := by
  have hmark {n : Nat} (hn : n = 3 ∨ n = 4) (hlen : text.length = 2 * n + 1) :
      text.head? ≠ some '#' := by
    rcases text with _ | ⟨x, text⟩
    · cases hlen
    · intro hx
      cases hx
      obtain ⟨ps, rfl, hps⟩ := exists_pieces n text (by simpa using hlen)
      exact h ps (hps ▸ hn) rfl
  unfold fnStringToSRGBColor
  split_ifs with h7 hm h9 hm
  · rfl
  · exact absurd (hmark (.inl rfl) h7) hm
  · rfl
  · exact absurd (hmark (.inr rfl) h9) hm
  · rfl

/-- The colour of pieces that are pairs of digits. -/
theorem fnStringToSRGBColor_pairs (w : LongWidth) (h : ps.length = 3 ∨ ps.length = 4)
    (hps : ∀ p ∈ ps, HexPair p) :
    w.fnStringToSRGBColor ('#' :: pieceChars ps) =
      .ok (some (composeColor (ps.map fun p => BitVec.ofNat 32 (hexPairValue p)))) := by
  rw [fnStringToSRGBColor_pieces w h, mapM_ok fun p hp => fnHexStringToUint32_pair (hps p hp)]
  rfl

end LongWidth

theorem composeColor_long (r g b a : Char × Char) :
    composeColor ([r, g, b, a].map fun p => BitVec.ofNat 32 (hexPairValue p)) =
      srgbColor (hexPairValue r) (hexPairValue g) (hexPairValue b) (hexPairValue a) :=
  or_shifts (hexPairValue_lt r) (hexPairValue_lt g) (hexPairValue_lt b) (hexPairValue_lt a)

theorem composeColor_short (r g b : Char × Char) :
    composeColor ([r, g, b].map fun p => BitVec.ofNat 32 (hexPairValue p)) =
      srgbColor (hexPairValue r) (hexPairValue g) (hexPairValue b) 255 :=
  or_shifts (hexPairValue_lt r) (hexPairValue_lt g) (hexPairValue_lt b) (by decide)

/-- What a text of pieces denotes. -/
theorem denotesColor_pieces {ps : List (Char × Char)} (h : ps.length = 3 ∨ ps.length = 4)
    (c : BitVec 32) : DenotesColor ('#' :: pieceChars ps) c ↔ (∀ p ∈ ps, HexPair p) ∧
      c = composeColor (ps.map fun p => BitVec.ofNat 32 (hexPairValue p)) := by
  constructor
  · rintro ⟨r, g, b, hr, hg, hb, ⟨he, rfl⟩ | ⟨a, ha, he, rfl⟩⟩
    · rw [pieceChars_injective (List.cons.inj he).2]
      exact ⟨by simp [hr, hg, hb], (composeColor_short r g b).symm⟩
    · rw [pieceChars_injective (List.cons.inj he).2]
      exact ⟨by simp [hr, hg, hb, ha], (composeColor_long r g b a).symm⟩
  · intro ⟨hps, hc⟩
    rcases h with h | h
    · obtain ⟨r, g, b, rfl⟩ := List.length_eq_three.1 h
      exact ⟨r, g, b, hps r (by simp), hps g (by simp), hps b (by simp),
        .inl ⟨rfl, hc.trans (composeColor_short r g b)⟩⟩
    · obtain ⟨r, g, b, a, rfl⟩ := List.length_eq_four.1 h
      exact ⟨r, g, b, hps r (by simp), hps g (by simp), hps b (by simp),
        .inr ⟨a, hps a (by simp), rfl, hc.trans (composeColor_long r g b a)⟩⟩

/-! ## What is written is read -/

theorem colorDigit_eq (c : BitVec 32) (shift : Nat) :
    colorDigit c shift = c.toNat / 2 ^ shift % 16 := by
  unfold colorDigit
  rw [BitVec.toNat_and, BitVec.toNat_ushiftRight, Nat.shiftRight_eq_div_pow]
  exact Nat.and_two_pow_sub_one_eq_mod _ 4

/-- The two digits of a component. -/
def digitPair (c : BitVec 32) (shift : Nat) : Char × Char :=
  (fnColorDigitToHex (colorDigit c (shift + 4)), fnColorDigitToHex (colorDigit c shift))

theorem fnColorToString_eq (c : BitVec 32) : fnColorToString c =
    '#' :: pieceChars [digitPair c 0, digitPair c 8, digitPair c 16, digitPair c 24] := rfl

theorem hexDigitValue_digit (c : BitVec 32) (shift : Nat) :
    hexDigitValue (fnColorDigitToHex (colorDigit c shift)) = some (colorDigit c shift) := by
  refine hexDigitValue_fnColorDigitToHex _ ?_
  rw [colorDigit_eq]
  omega

theorem hexPair_digitPair (c : BitVec 32) (shift : Nat) : HexPair (digitPair c shift) := by
  unfold HexPair digitPair isHexDigit
  simp only [hexDigitValue_digit, Option.isSome_some, and_self]

theorem hexPairValue_digitPair (c : BitVec 32) (shift : Nat) :
    hexPairValue (digitPair c shift) = c.toNat / 2 ^ shift % 256 := by
  unfold hexPairValue digitPair
  simp only [hexDigitValue_digit, Option.getD_some]
  rw [colorDigit_eq, colorDigit_eq, Nat.pow_add, ← Nat.div_div_eq_div_mul]
  omega

/-- **The parser gives back every colour that is written.** -/
theorem fnStringToSRGBColor_fnColorToString (w : LongWidth) (c : BitVec 32) :
    w.fnStringToSRGBColor (fnColorToString c) = .ok (some c) := by
  rw [fnColorToString_eq, LongWidth.fnStringToSRGBColor_pairs w (.inr rfl)
    (by simp only [List.forall_mem_cons, hexPair_digitPair, List.not_mem_nil, false_imp_iff,
      implies_true, and_self]), composeColor_long]
  simp only [hexPairValue_digitPair]
  congr 2
  apply BitVec.eq_of_toNat_eq
  have hc := c.isLt
  rw [srgbColor, BitVec.toNat_ofNat]
  omega

/-- **The parser gives back what was written, and reads exactly what denotes a colour**, but for a
text with a signed or blank piece. -/
theorem colors_iff (w : LongWidth) (c : BitVec 32) (text : List Char) :
    w.fnStringToSRGBColor (fnColorToString c) = .ok (some c) ∧
      ((∀ v, w.fnStringToSRGBColor text = .ok (some v) ↔ DenotesColor text v) ↔
        ¬ HasSignedDigit text) := by
  refine ⟨fnStringToSRGBColor_fnColorToString w c, ?_⟩
  by_cases hshape : ∃ ps : List (Char × Char), (ps.length = 3 ∨ ps.length = 4) ∧
      text = '#' :: pieceChars ps
  · obtain ⟨ps, hlen, rfl⟩ := hshape
    have hsigned : HasSignedDigit ('#' :: pieceChars ps) ↔
        (∀ p ∈ ps, HexPair p ∨ SignedDigit p) ∧ ∃ p ∈ ps, SignedDigit p := by
      refine ⟨fun ⟨qs, he, _, hall, hex⟩ => ?_, fun h => ⟨ps, rfl, hlen, h.1, h.2⟩⟩
      rw [pieceChars_injective (List.cons.inj he).2]
      exact ⟨hall, hex⟩
    by_cases hpairs : ∀ p ∈ ps, HexPair p
    · refine iff_of_true (fun v => ?_) fun h => ?_
      · rw [LongWidth.fnStringToSRGBColor_pairs w hlen hpairs, denotesColor_pieces hlen]
        simp only [Except.ok.injEq, Option.some.injEq]
        exact ⟨fun he => ⟨hpairs, he.symm⟩, fun he => he.2.symm⟩
      · obtain ⟨p, hp, hs⟩ := (hsigned.1 h).2
        exact not_signedDigit (hpairs p hp) hs
    · have hno (v : BitVec 32) : ¬ DenotesColor ('#' :: pieceChars ps) v :=
        fun hd => hpairs ((denotesColor_pieces hlen v).1 hd).1
      by_cases hall : ∀ p ∈ ps, HexPair p ∨ SignedDigit p
      · -- every piece is converted, so the parser succeeds
        refine iff_of_false (fun h => ?_) (not_not.2 (hsigned.2 ⟨hall, ?_⟩))
        · choose! f hf using fun p hp => (LongWidth.piece_ok_iff w p).2 (hall p hp)
          have hread : w.fnStringToSRGBColor ('#' :: pieceChars ps) =
              .ok (some (composeColor (ps.map f))) := by
            rw [LongWidth.fnStringToSRGBColor_pieces w hlen, mapM_ok hf]
            rfl
          exact hno _ ((h _).1 hread)
        · by_contra hnone
          push Not at hnone
          exact hpairs fun p hp => (hall p hp).resolve_right (hnone p hp)
      · refine iff_of_true (fun v => iff_of_false (fun hread => hall fun p hp => ?_) (hno v))
          fun h => hall (hsigned.1 h).1
        rw [LongWidth.fnStringToSRGBColor_pieces w hlen] at hread
        cases hm : ps.mapM fun p => w.fnHexStringToUint32 [p.1, p.2] with
        | error e => rw [hm] at hread; cases hread
        | ok vs =>
          obtain ⟨v, hv⟩ := forall₂_mem (mapM_eq_ok.1 hm) hp
          exact (LongWidth.piece_ok_iff w p).1 ⟨v, hv.2⟩
  · have hother : ∀ ps : List (Char × Char), (ps.length = 3 ∨ ps.length = 4) →
        text ≠ '#' :: pieceChars ps := fun ps hlen he => hshape ⟨ps, hlen, he⟩
    refine iff_of_true (fun v => iff_of_false (fun hread => ?_) ?_) ?_
    · rw [LongWidth.fnStringToSRGBColor_other w hother] at hread
      cases hread
    · rintro ⟨r, g, b, -, -, -, ⟨he, -⟩ | ⟨a, -, he, -⟩⟩
      · exact hother [r, g, b] (.inl rfl) he
      · exact hother [r, g, b, a] (.inr rfl) he
    · intro ⟨ps, he, hlen, _⟩
      exact hother ps hlen he

/-- A minus sign in the red component is read, and sets all bits above it. -/
theorem signed_color_read :
    ¬ ∀ v, LongWidth.bits64.fnStringToSRGBColor ['#', '-', '5', '0', '0', '0', '0'] = .ok (some v) ↔
      DenotesColor ['#', '-', '5', '0', '0', '0', '0'] v := by
  intro h
  have hread : LongWidth.bits64.fnStringToSRGBColor ['#', '-', '5', '0', '0', '0', '0'] =
      .ok (some 0xfffffffb#32) := by decide
  have hpieces := (@denotesColor_pieces [('-', '5'), ('0', '0'), ('0', '0')] (.inl rfl) _).1
    ((h _).1 hread)
  exact absurd (hpieces.1 ('-', '5') (by simp)) (by decide)

end NMR
