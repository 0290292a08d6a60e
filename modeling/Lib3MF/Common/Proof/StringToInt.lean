import Lib3MF.Common.StringToInt

/-!
# What the conversions of texts return

The range checks compare with the limits of `long`, not with those of the result. Where a numeral
that passes them does not fit the result (`IntegerFits`), the narrowing cast changes it:

* `conversions_faithful_iff`: each conversion throws or returns the integer its text denotes exactly
  where the integers that pass its checks fit;
* `fnStringToInt32_bits32`: with a `long` of 32 bits the signed ones always do;
* `fnStringToUint32_bits64`: with one of 64 bits, the conversion is the one the readers are modelled
  with.
-/

namespace NMR

namespace LongWidth

/-- What a conversion may do: throw, or return the integer that its text denotes, which its result
type holds. -/
def Faithful (text : List Char) (fits : Int → Prop) (result : Except Error Int) : Prop :=
  ∀ v, result = .ok v → (∃ rest, leadingNumeral text = some (v, rest)) ∧ fits v

/-- A `nfInt32` holds it. -/
def FitsInt32 (n : Int) : Prop := -2 ^ 31 ≤ n ∧ n < 2 ^ 31

/-- A `nfUint32` holds it. -/
def FitsUint32 (n : Int) : Prop := 0 ≤ n ∧ n < 2 ^ 32

/-- The numeral of a text, where it ends at the end of the text or at one of `stops`, fits unless
its conversion is rejected. -/
def IntegerFits (text stops : List Char) (rejected fits : Int → Prop) : Prop :=
  ∀ n rest, leadingNumeral text = some (n, rest) → (∀ c, rest.head? = some c → c ∈ stops) →
    ¬ rejected n → fits n

/-- What `strtol` cuts to a limit of `long`, or is one. -/
def LongRejects (w : LongWidth) (n : Int) : Prop := w.longMax ≤ n ∨ n ≤ w.longMin

/-- What `strtoul` makes `ULONG_MAX`: what is too large in magnitude, and what is it modulo its
width. -/
def UlongRejects (w : LongWidth) (n : Int) : Prop :=
  w.ulongMax < n.natAbs ∨ n % 2 ^ w.bits = w.ulongMax

/-! ## The values of `strtol` and `strtoul` -/

theorem longMin_lt_longMax (w : LongWidth) : w.longMin < w.longMax := by
  cases w <;> decide

/-- The range check of `strtol`'s value rejects what it says. -/
theorem saturate_limit (w : LongWidth) (n : Int) :
    (w.longMax ≤ w.saturate n ∨ w.saturate n ≤ w.longMin) ↔ w.LongRejects n := by
  have := w.longMin_lt_longMax
  unfold saturate LongRejects
  omega

theorem saturate_of_not_rejects {w : LongWidth} {n : Int} (h : ¬ w.LongRejects n) :
    w.saturate n = n := by
  unfold saturate
  unfold LongRejects at h
  omega

theorem ulongMax_cases (w : LongWidth) :
    w.ulongMax = 2 ^ 32 - 1 ∧ (2 : Int) ^ w.bits = 2 ^ 32 ∨
      w.ulongMax = 2 ^ 64 - 1 ∧ (2 : Int) ^ w.bits = 2 ^ 64 := by
  cases w
  · exact .inl ⟨rfl, rfl⟩
  · exact .inr ⟨rfl, rfl⟩

/-- The range check of `strtoul`'s value rejects what it says. -/
theorem wrap_limit (w : LongWidth) (n : Int) : w.ulongMax ≤ w.wrap n ↔ w.UlongRejects n := by
  have hw := w.ulongMax_cases
  unfold wrap UlongRejects
  split <;> omega

/-- A value that passes is the integer modulo `2 ^ 32`, after the cast. -/
theorem wrap_emod {w : LongWidth} {n : Int} (h : ¬ w.UlongRejects n) :
    w.wrap n % 2 ^ 32 = n % 2 ^ 32 := by
  have hw := w.ulongMax_cases
  have hn : ¬ w.ulongMax < n.natAbs := fun hn => h (.inl hn)
  unfold wrap
  rw [if_neg hn]
  obtain ⟨-, hbits⟩ | ⟨-, hbits⟩ := hw <;> rw [hbits] <;> omega

/-! ## The conversions -/

/-- A conversion returns what its text's numeral becomes, where the checks pass. -/
theorem checkConversion_eq_ok {stops : List Char} {isLimit : Int → Bool} {value cast : Int → Int}
    {text : List Char} {v : Int} :
    (checkConversion stops isLimit
      ((leadingNumeral text).map fun (n, rest) => (value n, rest))).map cast = .ok v ↔
      ∃ n rest, leadingNumeral text = some (n, rest) ∧ (∀ c, rest.head? = some c → c ∈ stops) ∧
        isLimit (value n) = false ∧ cast (value n) = v := by
  cases hl : leadingNumeral text with
  | none => simp [checkConversion, Except.map]
  | some p =>
    obtain ⟨n, rest⟩ := p
    have hstops : (rest.head?.all fun c => c ∈ stops) = true ↔
        ∀ c, rest.head? = some c → c ∈ stops := by
      cases rest.head? <;> simp
    simp only [Option.map_some, checkConversion, Option.some.injEq, Prod.mk.injEq]
    by_cases hs : (rest.head?.all fun c => c ∈ stops) = true
    · have hs' := hstops.1 hs
      rw [if_neg (by simp [hs])]
      cases hlim : isLimit (value n) with
      | false =>
        simp only [Except.map, Bool.false_eq_true, if_false, Except.ok.injEq]
        refine ⟨fun h => ⟨n, rest, ⟨rfl, rfl⟩, hs', hlim, h⟩, ?_⟩
        rintro ⟨n', rest', ⟨rfl, rfl⟩, -, -, h⟩
        exact h
      | true =>
        simp only [Except.map, if_true]
        refine ⟨nofun, ?_⟩
        rintro ⟨n', rest', ⟨rfl, rfl⟩, -, h, -⟩
        exact absurd h (by simp [hlim])
    · rw [if_pos (by simpa using hs)]
      refine ⟨nofun, ?_⟩
      rintro ⟨n', rest', ⟨rfl, rfl⟩, h, -, -⟩
      exact absurd (hstops.2 h) hs

/-- A conversion is faithful exactly where the integers that pass fit, when the checks reject
`rejected` and the cast changes exactly what does not fit. -/
theorem faithful_iff {stops text : List Char} {isLimit : Int → Bool} {value cast : Int → Int}
    {rejected fits : Int → Prop} (hlimit : ∀ n, isLimit (value n) = true ↔ rejected n)
    (hcast : ∀ n, ¬ rejected n → (fits n ↔ cast (value n) = n)) :
    Faithful text fits ((checkConversion stops isLimit
      ((leadingNumeral text).map fun (n, rest) => (value n, rest))).map cast) ↔
      IntegerFits text stops rejected fits := by
  unfold Faithful IntegerFits
  refine ⟨fun h n rest hl hs hr => ?_, fun h v hv => ?_⟩
  · have hlim : isLimit (value n) = false := Bool.eq_false_iff.2 fun hlim => hr ((hlimit n).1 hlim)
    obtain ⟨⟨rest', hl'⟩, -⟩ :=
      h (cast (value n)) (checkConversion_eq_ok.2 ⟨n, rest, hl, hs, hlim, rfl⟩)
    have hn : n = cast (value n) := congrArg Prod.fst (Option.some.inj (hl.symm.trans hl'))
    exact (hcast n hr).2 hn.symm
  · obtain ⟨n, rest, hl, hs, hlim, rfl⟩ := checkConversion_eq_ok.1 hv
    have hr : ¬ rejected n := fun hr => by simp [(hlimit n).2 hr] at hlim
    have hfits := h n rest hl hs hr
    rw [(hcast n hr).1 hfits]
    exact ⟨⟨rest, hl⟩, hfits⟩

theorem fitsInt32_iff_bmod (n : Int) : FitsInt32 n ↔ n.bmod (2 ^ 32) = n := by
  unfold FitsInt32
  simp only [Int.bmod_def]
  omega

theorem bmod_emod (n : Int) : (n % 2 ^ 32).bmod (2 ^ 32) = n.bmod (2 ^ 32) := by
  simp only [Int.bmod_def]
  omega

/-- **What the conversions return.** -/
theorem conversions_faithful_iff (w : LongWidth) (text : List Char) :
    (Faithful text FitsInt32 (w.fnStringToInt32 text) ↔
      IntegerFits text [' '] w.LongRejects FitsInt32) ∧
    (Faithful text FitsUint32 (w.fnStringToUint32 text) ↔
      IntegerFits text [' '] w.UlongRejects FitsUint32) ∧
    (Faithful text FitsInt32 (w.fnStringToInt32Comma text) ↔
      IntegerFits text [' ', ','] w.LongRejects FitsInt32) := by
  refine ⟨faithful_iff (fun n => ?_) fun n hn => ?_, faithful_iff (fun n => ?_) fun n hn => ?_,
    faithful_iff (fun n => ?_) fun n hn => ?_⟩
  · simpa using w.saturate_limit n
  · rw [saturate_of_not_rejects hn]
    exact fitsInt32_iff_bmod n
  · simpa using w.wrap_limit n
  · rw [wrap_emod hn]
    unfold FitsUint32
    omega
  · simpa using w.saturate_limit n
  · rw [saturate_of_not_rejects hn, bmod_emod]
    exact fitsInt32_iff_bmod n

/-- With a `long` of 64 bits an index of more than 32 bits is cut, and a negative one wraps. -/
theorem conversions_truncate :
    ¬ ∀ (w : LongWidth) (text : List Char),
      Faithful text FitsInt32 (w.fnStringToInt32 text) ∧
        Faithful text FitsUint32 (w.fnStringToUint32 text) ∧
        Faithful text FitsInt32 (w.fnStringToInt32Comma text) := by
  intro h
  have hok : bits64.fnStringToInt32 ['4', '2', '9', '4', '9', '6', '7', '2', '9', '7'] = .ok 1 := by
    decide
  obtain ⟨⟨rest, hl⟩, -⟩ := (h _ _).1 _ hok
  have hn : leadingNumeral ['4', '2', '9', '4', '9', '6', '7', '2', '9', '7'] =
    some (4294967297, []) := by decide
  rw [hn] at hl
  simp at hl

/-- With a `long` of 32 bits every integer that passes fits a `nfInt32`. -/
theorem fnStringToInt32_bits32 (text : List Char) :
    Faithful text FitsInt32 (bits32.fnStringToInt32 text) := by
  apply (conversions_faithful_iff bits32 text).1.2
  intro n rest _ _ hn
  have hmax : bits32.longMax = 2 ^ 31 - 1 := rfl
  have hmin : bits32.longMin = -2 ^ 31 := rfl
  unfold LongRejects at hn
  unfold FitsInt32
  omega

theorem parseInteger_splitSign (text : List Char) :
    parseInteger text =
      parseDigits (splitSign (text.dropWhile isSpace)).1 (splitSign (text.dropWhile isSpace)).2 := by
  unfold parseInteger
  generalize text.dropWhile isSpace = t
  split
  · rfl
  · rfl
  · rename_i hminus hplus
    unfold splitSign
    split
    · exact absurd rfl (hminus _)
    · exact absurd rfl (hplus _)
    · rfl

/-- What `parseInteger` makes of a text is its numeral, where it ends at the end or at a space. -/
theorem parseInteger_eq (text : List Char) :
    parseInteger text = checkConversion [' '] (fun _ => false) (leadingNumeral text) := by
  rw [parseInteger_splitSign]
  unfold leadingNumeral parseDigits
  obtain ⟨negative, rest⟩ := splitSign (text.dropWhile isSpace)
  by_cases hd : rest.takeWhile Char.isDigit = []
  · simp only [hd, if_true, checkConversion]
  · simp only [hd, if_false, checkConversion]
    rcases rest.dropWhile Char.isDigit with _ | ⟨c, cs⟩
    · simp
    · by_cases hc : c = ' '
      · simp [hc]
      · simp [hc]

/-- With a `long` of 64 bits, `fnStringToUint32` is `textToUint32`. -/
theorem fnStringToUint32_bits64 (text : List Char) :
    bits64.fnStringToUint32 text = (textToUint32 text).map Int.ofNat := by
  unfold fnStringToUint32 textToUint32 strtoul
  rw [parseInteger_eq]
  cases leadingNumeral text with
  | none => rfl
  | some p =>
    obtain ⟨n, rest⟩ := p
    have hlimit := bits64.wrap_limit n
    have hrejects : bits64.UlongRejects n ↔ 2 ^ 64 ≤ n.natAbs ∨ n % 2 ^ 64 = 2 ^ 64 - 1 := by
      show (2 ^ 64 - 1 : Int) < n.natAbs ∨ n % 2 ^ 64 = 2 ^ 64 - 1 ↔ _
      omega
    simp only [Option.map_some, checkConversion]
    by_cases hs : (rest.head?.all fun c => c ∈ [' ']) = false
    · rw [if_pos hs, if_pos hs]
      rfl
    · rw [if_neg hs, if_neg hs]
      show Except.map _ _ = Except.map _ (NMR.fnStringToUint32 n)
      unfold NMR.fnStringToUint32
      by_cases hr : bits64.UlongRejects n
      · rw [if_pos (by simpa using hlimit.2 hr), if_pos (hrejects.1 hr)]
        rfl
      · rw [if_neg (by simpa using fun h => hr (hlimit.1 h)), if_neg fun h => hr (hrejects.2 h)]
        have hcast := wrap_emod hr
        simp only [Except.map, Except.ok.injEq, Int.ofNat_eq_natCast]
        omega

end LongWidth

end NMR
