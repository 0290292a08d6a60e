import Mathlib.Algebra.Order.Floor.Ring
import Mathlib.Data.List.GetD
import Mathlib.Data.List.Induction
import Mathlib.Data.Rat.Floor
import Mathlib.Tactic.FieldSimp
import Mathlib.Tactic.Linarith
import Mathlib.Tactic.NormNum
import Mathlib.Tactic.Positivity
import Lib3MF.Model.Writer.MeshLines

/-!
# The lines of a mesh: numbers and room

* `putDigits_eq`: the digits that the first loop writes, in closed form.
* `putDouble_eq`: the text of a number, `decimalText` of the integer that the product is cut to.
* `decimalValue_decimalText`: what the text denotes.
* `decimal_texts_iff`: the text denotes the number cut to the decimal precision for a precision up
  to nine, and for a number that is cut to zero; the power of ten of a higher precision is beyond
  an `int`. A line is never longer than its buffer.
-/

namespace NMR.Writer.Lines

/-! ## Decimal texts -/

/-- The number that a decimal text denotes: a sign or none, digits, and a point with digits behind
it or none. -/
def decimalValue (text : List Char) : Option ℚ :=
  let (negative, digits) := splitSign text
  let whole := digits.takeWhile Char.isDigit
  let fraction := (digits.dropWhile Char.isDigit).tail
  let value : ℚ := Nat.ofDigitChars 10 (whole ++ fraction) 0 / 10 ^ fraction.length
  if whole = [] then none
  else if digits.dropWhile Char.isDigit = [] ∨
      (digits.dropWhile Char.isDigit).head? = some '.' ∧ fraction ≠ [] ∧ fraction.all Char.isDigit
    then some (if negative then -value else value)
  else none

/-- The last `k` digits of `n`. -/
def fractionDigits : Nat → Nat → List Char
  | 0, _ => []
  | k + 1, n => fractionDigits k (n / 10) ++ [(n % 10).digitChar]

/-- `n` with its last `k` digits behind the point. -/
def decimalText (negative : Bool) (k n : Nat) : List Char :=
  if n = 0 then ['0']
  else (if negative then ['-'] else []) ++
    (Nat.toDigits 10 (n / 10 ^ k) ++ '.' :: fractionDigits k n)

example : decimalText true 3 12034 = "-12.034".toList := by decide

@[simp] theorem length_fractionDigits (k n : Nat) : (fractionDigits k n).length = k := by
  induction k generalizing n with
  | zero => rfl
  | succ k ih => rw [fractionDigits, List.length_append, ih, List.length_singleton]

theorem isDigit_of_mem_fractionDigits {k n : Nat} {c : Char} (h : c ∈ fractionDigits k n) :
    c.isDigit = true := by
  induction k generalizing n with
  | zero => exact absurd h (by simp [fractionDigits])
  | succ k ih =>
    rw [fractionDigits, List.mem_append, List.mem_singleton] at h
    obtain h | rfl := h
    · exact ih h
    · have hd : (n % 10).digitChar ∈ Nat.toDigits 10 (n % 10) := by
        rw [Nat.toDigits_of_lt_base (Nat.mod_lt n (by decide))]
        exact List.mem_singleton.2 rfl
      exact Nat.isDigit_of_mem_toDigits (by decide) (by decide) hd

theorem ofDigitChars_fractionDigits (k n : Nat) :
    Nat.ofDigitChars 10 (fractionDigits k n) 0 = n % 10 ^ k := by
  induction k generalizing n with
  | zero => rw [fractionDigits, Nat.ofDigitChars_nil, Nat.pow_zero, Nat.mod_one]
  | succ k ih =>
    rw [fractionDigits, Nat.ofDigitChars_append, ih,
      Nat.ofDigitChars_cons_digitChar_of_lt_ten (Nat.mod_lt n (by decide)), Nat.ofDigitChars_nil,
      Nat.pow_succ', Nat.mod_mul, Nat.add_comm]

/-- The digits before the point and those behind it are the digits of the whole. -/
theorem ofDigitChars_whole_fraction (k n : Nat) :
    Nat.ofDigitChars 10 (Nat.toDigits 10 (n / 10 ^ k) ++ fractionDigits k n) 0 = n := by
  rw [Nat.ofDigitChars_append, Nat.ofDigitChars_ten_toDigits, Nat.ofDigitChars_eq_ofDigitChars_zero,
    length_fractionDigits, ofDigitChars_fractionDigits, Nat.div_add_mod]

/-- The value of digits with a point. -/
theorem decimalValue_digits {whole fraction : List Char} (negative : Bool) (hw : whole ≠ [])
    (hwd : ∀ c ∈ whole, c.isDigit = true) (hf : fraction ≠ [])
    (hfd : ∀ c ∈ fraction, c.isDigit = true) :
    decimalValue ((if negative then ['-'] else []) ++ (whole ++ '.' :: fraction)) =
      some (if negative then -(Nat.ofDigitChars 10 (whole ++ fraction) 0 / 10 ^ fraction.length : ℚ)
        else Nat.ofDigitChars 10 (whole ++ fraction) 0 / 10 ^ fraction.length) := by
  have hsplit : splitSign ((if negative then ['-'] else []) ++ (whole ++ '.' :: fraction)) =
      (negative, whole ++ '.' :: fraction) := by
    cases negative with
    | true => rfl
    | false =>
      cases whole with
      | nil => exact absurd rfl hw
      | cons c whole =>
        have hc := hwd c List.mem_cons_self
        show splitSign (c :: (whole ++ '.' :: fraction)) = _
        unfold splitSign
        split
        · next heq => exact absurd ((List.cons.inj heq).1 ▸ hc) (by decide)
        · next heq => exact absurd ((List.cons.inj heq).1 ▸ hc) (by decide)
        · rfl
  have htake : (whole ++ '.' :: fraction).takeWhile Char.isDigit = whole := by
    rw [List.takeWhile_append_of_pos hwd, List.takeWhile_cons_of_neg (by decide), List.append_nil]
  have hdrop : (whole ++ '.' :: fraction).dropWhile Char.isDigit = '.' :: fraction := by
    rw [List.dropWhile_append_of_pos hwd, List.dropWhile_cons_of_neg (by decide)]
  have hall : fraction.all Char.isDigit = true := List.all_eq_true.2 hfd
  unfold decimalValue
  simp only [hsplit, htake, hdrop, List.tail_cons, List.head?_cons]
  rw [if_neg hw, if_pos (Or.inr ⟨trivial, hf, hall⟩)]

/-- The number that the text of an integer denotes. -/
theorem decimalValue_decimalText (negative : Bool) {k : Nat} (n : Nat) (hk : 0 < k) :
    decimalValue (decimalText negative k n) =
      some (if negative then -(n / 10 ^ k : ℚ) else n / 10 ^ k) := by
  unfold decimalText
  by_cases hn : n = 0
  · subst hn
    rw [if_pos rfl, show decimalValue ['0'] = some (0 / 10 ^ 0) from rfl]
    simp
  · have hf : fractionDigits k n ≠ [] := by
      intro h
      have hl := length_fractionDigits k n
      rw [h, List.length_nil] at hl
      omega
    rw [if_neg hn, decimalValue_digits negative Nat.toDigits_ne_nil
      (fun c hc => Nat.isDigit_of_mem_toDigits (by decide) (by decide) hc) hf
      (fun c hc => isDigit_of_mem_fractionDigits hc), ofDigitChars_whole_fraction,
      length_fractionDigits]

/-- The text of an integer of at most nineteen digits. -/
theorem length_decimalText_le (negative : Bool) {k n : Nat} (hk : k ≤ 16) (hn : n < 10 ^ 19) :
    (decimalText negative k n).length ≤ 21 := by
  unfold decimalText
  by_cases h0 : n = 0
  · rw [if_pos h0]
    show 1 ≤ 21
    decide
  · have hdiv : n / 10 ^ k < 10 ^ (19 - k) := by
      rw [Nat.div_lt_iff_lt_mul (by positivity), ← Nat.pow_add, Nat.sub_add_cancel (by omega)]
      exact hn
    have hwhole : (Nat.toDigits 10 (n / 10 ^ k)).length ≤ 19 - k :=
      (Nat.length_toDigits_le_iff (by decide) (by omega)).2 hdiv
    have hsign : (if negative then ['-'] else [] : List Char).length ≤ 1 := by
      cases negative <;> decide
    rw [if_neg h0, List.length_append, List.length_append, List.length_cons, length_fractionDigits]
    omega

/-! ## What is put into a line -/

/-- Characters that the buffer has room for are put behind the line. -/
theorem foldlM_putChar {line text : List Char} (h : line.length + text.length ≤ lineBufferSize) :
    text.foldlM putChar line = some (line ++ text) := by
  induction text generalizing line with
  | nil =>
    rw [List.append_nil]
    rfl
  | cons c text ih =>
    rw [List.length_cons] at h
    have hput : putChar line c = some (line ++ [c]) := if_pos (by omega)
    have hlen : (line ++ [c]).length = line.length + 1 := by
      rw [List.length_append, List.length_singleton]
    rw [List.foldlM_cons, hput]
    show text.foldlM putChar (line ++ [c]) = _
    rw [ih (by omega), List.append_assoc, List.singleton_append]

/-- The digits before the point. -/
theorem putDigits_whole {posAfterDecPoint count : Nat} (line : List Char) (n : Nat)
    (hc : posAfterDecPoint < count) :
    putDigits posAfterDecPoint line n count =
      (if n = 0 then [] else (Nat.toDigits 10 n).reverse).foldlM putChar line := by
  induction n using Nat.strong_induction_on generalizing line count with
  | h n ih =>
    rw [putDigits]
    by_cases hn : n = 0
    · rw [if_neg (by omega), if_pos hn]
      rfl
    · have hne : count + 1 ≠ posAfterDecPoint := by omega
      have hdigits : (Nat.toDigits 10 n).reverse = (n % 10).digitChar ::
          (if n / 10 = 0 then [] else (Nat.toDigits 10 (n / 10)).reverse) := by
        by_cases h10 : n < 10
        · rw [if_pos (Nat.div_eq_of_lt h10), Nat.toDigits_of_lt_base h10, Nat.mod_eq_of_lt h10]
          rfl
        · rw [if_neg (by omega), Nat.toDigits_of_base_le (by decide) (by omega),
            List.reverse_append]
          rfl
      rw [if_pos (by omega), if_neg hn, hdigits, List.foldlM_cons]
      simp only [if_neg hne]
      congr 1
      funext line
      exact ih (n / 10) (by omega) line (by omega)

/-- The digits behind the point, the point and the digits before it. -/
theorem putDigits_eq {posAfterDecPoint count k : Nat} (line : List Char) (n : Nat)
    (hk : posAfterDecPoint = count + (k + 1)) :
    putDigits posAfterDecPoint line n count =
      ((fractionDigits (k + 1) n).reverse ++
        '.' :: (Nat.toDigits 10 (n / 10 ^ (k + 1))).reverse).foldlM putChar line := by
  have hreverse (k n : Nat) : (fractionDigits (k + 1) n).reverse =
      (n % 10).digitChar :: (fractionDigits k (n / 10)).reverse := by
    rw [fractionDigits, List.reverse_append]
    rfl
  induction k generalizing line n count with
  | zero =>
    rw [putDigits, if_pos (by omega), hreverse]
    simp only [if_pos hk.symm, Nat.zero_add, Nat.pow_one]
    show putChar line (n % 10).digitChar >>= _ = _
    rw [List.cons_append, List.foldlM_cons]
    congr 1
    funext line
    show putChar line '.' >>= _ = _
    rw [show (fractionDigits 0 (n / 10)).reverse = [] from rfl, List.nil_append, List.foldlM_cons]
    congr 1
    funext line
    by_cases h0 : n / 10 = 0
    · rw [if_pos h0, h0, Nat.toDigits_zero, List.reverse_singleton, List.foldlM_cons]
      congr 1
      funext line
      rw [putDigits_whole line 0 (by omega), if_pos rfl]
    · rw [if_neg h0, putDigits_whole line (n / 10) (by omega), if_neg h0]
  | succ k ih =>
    have hne : count + 1 ≠ posAfterDecPoint := by omega
    rw [putDigits, if_pos (by omega), hreverse, List.cons_append, List.foldlM_cons]
    simp only [if_neg hne]
    congr 1
    funext line
    rw [ih line (n / 10) (by omega), Nat.div_div_eq_div_mul, ← Nat.pow_succ']

/-- The second loop turns what stands between its bounds around. -/
theorem reverseBetween_append (head middle tail : List Char) :
    reverseBetween (head ++ (middle ++ tail)) head.length (head.length + middle.length - 1) =
      head ++ (middle.reverse ++ tail) := by
  induction middle using List.bidirectionalRec generalizing head tail with
  | nil =>
    rw [reverseBetween, if_neg (by simp)]
    rfl
  | singleton c =>
    rw [reverseBetween, if_neg (by simp)]
    rfl
  | cons_append a middle b ih =>
    have hlast : head.length + (a :: (middle ++ [b])).length - 1 =
        head.length + 1 + middle.length := by
      simp only [List.length_cons, List.length_append, List.length_nil]
      omega
    have hspell : head ++ (a :: (middle ++ [b]) ++ tail) = head ++ a :: (middle ++ b :: tail) := by
      simp only [List.cons_append, List.append_assoc, List.nil_append]
    have hb : (head ++ a :: (middle ++ b :: tail)).getD (head.length + 1 + middle.length) '0' = b := by
      rw [List.getD_append_right _ _ _ _ (by omega),
        show head.length + 1 + middle.length - head.length = middle.length + 1 by omega,
        List.getD_cons_succ, List.getD_append_right _ _ _ _ (Nat.le_refl _), Nat.sub_self,
        List.getD_cons_zero]
    have ha : (head ++ a :: (middle ++ b :: tail)).getD head.length '0' = a := by
      rw [List.getD_append_right _ _ _ _ (Nat.le_refl _), Nat.sub_self, List.getD_cons_zero]
    have hset : ((head ++ a :: (middle ++ b :: tail)).set head.length b).set
        (head.length + 1 + middle.length) a = head ++ b :: (middle ++ a :: tail) := by
      rw [List.set_append_right _ _ (Nat.le_refl _), Nat.sub_self, List.set_cons_zero,
        List.set_append_right _ _ (by omega),
        show head.length + 1 + middle.length - head.length = middle.length + 1 by omega,
        List.set_cons_succ, List.set_append_right _ _ (Nat.le_refl _), Nat.sub_self,
        List.set_cons_zero]
    have hinner := ih (head ++ [b]) (a :: tail)
    rw [hlast, hspell, reverseBetween, if_pos (by omega)]
    simp only [ha, hb, hset]
    rw [List.length_append, List.length_singleton, List.append_assoc, List.append_assoc] at hinner
    simp only [List.singleton_append] at hinner
    rw [hinner]
    simp only [List.reverse_cons, List.reverse_append, List.reverse_nil, List.nil_append,
      List.cons_append, List.append_assoc]

/-- The text of a number, where the line has room for it. -/
theorem putDouble_eq {factor : Int} {posAfterDecPoint : Nat} {line : List Char} {value : ℚ}
    (hP : 0 < posAfterDecPoint)
    (h : line.length + (decimalText (decide (value < 0)) posAfterDecPoint
      (truncate (value * factor)).natAbs).length ≤ lineBufferSize) :
    putDouble factor posAfterDecPoint line value =
      some (line ++ decimalText (decide (value < 0)) posAfterDecPoint
        (truncate (value * factor)).natAbs) := by
  have hreverse (text : List Char) (hne : text ≠ []) :
      reverseBetween (line ++ text) line.length ((line ++ text).length - 1) =
        line ++ text.reverse := by
    have h := reverseBetween_append line text []
    rw [List.append_nil, List.append_nil] at h
    rw [List.length_append]
    exact h
  have habs : (max (truncate (value * factor)) (-truncate (value * factor))).toNat =
      (truncate (value * factor)).natAbs := by omega
  unfold putDouble
  simp only [habs]
  generalize (truncate (value * factor)).natAbs = n at h ⊢
  obtain ⟨k, rfl⟩ : ∃ k, posAfterDecPoint = k + 1 := ⟨posAfterDecPoint - 1, by omega⟩
  unfold decimalText at h ⊢
  by_cases hn : n = 0
  · rw [if_pos hn] at h ⊢
    rw [if_pos hn]
    have hput : putChar line '0' = some (line ++ ['0']) := if_pos h
    rw [hput]
    show some (reverseBetween _ _ _) = _
    rw [hreverse _ (by simp)]
    rfl
  · rw [if_neg hn] at h ⊢
    rw [if_neg hn, @putDigits_eq (k + 1) 0 k line n (Nat.zero_add (k + 1)).symm]
    generalize hbody : Nat.toDigits 10 (n / 10 ^ (k + 1)) ++ '.' :: fractionDigits (k + 1) n = body
      at h ⊢
    have hdigits : (fractionDigits (k + 1) n).reverse ++
        '.' :: (Nat.toDigits 10 (n / 10 ^ (k + 1))).reverse = body.reverse := by
      rw [← hbody, List.reverse_append, List.reverse_cons, List.append_assoc,
        List.singleton_append]
    have hne : body ≠ [] := by
      rw [← hbody]
      exact List.append_ne_nil_of_left_ne_nil Nat.toDigits_ne_nil _
    rw [List.length_append] at h
    rw [hdigits, foldlM_putChar (by rw [List.length_reverse]; omega)]
    by_cases hv : value < 0
    · have hput : putChar (line ++ body.reverse) '-' = some (line ++ ('-' :: body).reverse) := by
        simp only [decide_eq_true hv, if_true, List.length_singleton] at h
        unfold putChar
        rw [if_pos (by rw [List.length_append, List.length_reverse]; omega), List.reverse_cons,
          List.append_assoc]
      simp only [decide_eq_true hv, if_true, if_pos hv]
      show ((putChar (line ++ body.reverse) '-').bind _) = _
      rw [hput]
      show some (reverseBetween _ _ _) = _
      rw [hreverse _ (by simp), List.reverse_reverse]
      rfl
    · simp only [decide_eq_false hv, if_neg hv]
      show some (reverseBetween _ _ _) = _
      rw [hreverse _ (by rwa [Ne, List.reverse_eq_nil_iff]), List.reverse_reverse]
      rfl

/-! ## Numbers cut to integers -/

/-- What a number is cut to, by what it reaches. -/
theorem le_natAbs_truncate {q : ℚ} {k : Nat} : k ≤ (truncate q).natAbs ↔ (k : ℚ) ≤ |q| := by
  have hq : |q| = (q.num.natAbs : ℚ) / q.den := by
    rw [Rat.abs_def, Rat.divInt_eq_div]
    rfl
  have hden : (0 : ℚ) < q.den := by exact_mod_cast q.den_pos
  unfold truncate
  rw [Int.natAbs_tdiv, Int.natAbs_natCast]
  show k ≤ q.num.natAbs / q.den ↔ _
  rw [Nat.le_div_iff_mul_le q.den_pos, hq, le_div_iff₀ hden]
  exact_mod_cast Iff.rfl

theorem natAbs_truncate_eq_zero {q : ℚ} : (truncate q).natAbs = 0 ↔ |q| < 1 := by
  have h := le_natAbs_truncate (q := q) (k := 1)
  rw [Nat.cast_one] at h
  rw [← not_le, ← h]
  omega

/-- The sign of what a number is cut to. -/
theorem truncate_eq (q : ℚ) :
    truncate q = if q < 0 then -((truncate q).natAbs : Int) else (truncate q).natAbs := by
  by_cases hq : q < 0
  · have hnum : q.num < 0 := Rat.num_neg.2 hq
    have h : 0 ≤ (-q.num).tdiv q.den := Int.tdiv_nonneg (by omega) (Int.natCast_nonneg _)
    rw [Int.neg_tdiv] at h
    rw [if_pos hq]
    unfold truncate
    omega
  · have hnum : 0 ≤ q.num := Rat.num_nonneg.2 (not_lt.1 hq)
    have h : 0 ≤ truncate q := Int.tdiv_nonneg hnum (Int.natCast_nonneg _)
    rw [if_neg hq]
    omega

/-! ## The precisions -/

theorem setDecimalPrecision_eq_ok {n posAfterDecPoint : Nat}
    (h : setDecimalPrecision n = .ok posAfterDecPoint) :
    1 ≤ posAfterDecPoint ∧ posAfterDecPoint ≤ 16 := by
  unfold setDecimalPrecision at h
  by_cases hn : n < 1 ∨ 16 < n
  · rw [if_pos hn] at h
    cases h
  · rw [if_neg hn] at h
    cases h
    omega

/-- Up to nine decimals the power of ten is an `int`. -/
theorem putDoubleFactor_of_le {overflow : Int} {posAfterDecPoint : Nat} (h : posAfterDecPoint ≤ 9) :
    putDoubleFactor overflow posAfterDecPoint = 10 ^ posAfterDecPoint := by
  have hle : 10 ^ posAfterDecPoint ≤ 10 ^ 9 := Nat.pow_le_pow_right (by decide) h
  exact if_pos (by omega)

theorem putDoubleFactor_of_lt {overflow : Int} {posAfterDecPoint : Nat} (h : 9 < posAfterDecPoint) :
    putDoubleFactor overflow posAfterDecPoint = overflow := by
  have hle : 10 ^ 10 ≤ 10 ^ posAfterDecPoint := Nat.pow_le_pow_right (by decide) h
  exact if_neg (by omega)

/-- What a platform may make of a conversion to `int`. -/
def IsInt (overflow : Int) : Prop := -2 ^ 31 ≤ overflow ∧ overflow < 2 ^ 31

theorem abs_putDoubleFactor_le {overflow : Int} {posAfterDecPoint : Nat} (h : IsInt overflow) :
    |(putDoubleFactor overflow posAfterDecPoint : ℚ)| ≤ 2 ^ 31 := by
  have hint : |putDoubleFactor overflow posAfterDecPoint| ≤ 2 ^ 31 := by
    obtain ⟨hl, hu⟩ := h
    unfold putDoubleFactor
    split
    · next hlt =>
      rw [abs_of_pos (by positivity)]
      exact_mod_cast hlt.le
    · exact abs_le.2 ⟨hl, hu.le⟩
  exact_mod_cast hint

/-- The product is a number of 64 bits, of at most nineteen digits. -/
theorem natAbs_product_lt {overflow : Int} {posAfterDecPoint : Nat} {value : ℚ}
    (h : IsInt overflow) (hv : |value| ≤ meshMaxCoordinate) :
    (truncate (value * putDoubleFactor overflow posAfterDecPoint)).natAbs < 2 ^ 63 := by
  have hf := @abs_putDoubleFactor_le overflow posAfterDecPoint h
  have hprod : |value * putDoubleFactor overflow posAfterDecPoint| ≤ meshMaxCoordinate * 2 ^ 31 := by
    rw [abs_mul]
    exact mul_le_mul hv hf (abs_nonneg _) (by norm_num [meshMaxCoordinate])
  by_contra hge
  have hle := le_natAbs_truncate.1 (not_lt.1 hge)
  have hlt : (meshMaxCoordinate * 2 ^ 31 : ℚ) < ((2 ^ 63 : Nat) : ℚ) := by
    norm_num [meshMaxCoordinate]
  linarith

/-- Beyond nine decimals the product is cut to what the exact one is cut to only at zero. -/
theorem natAbs_product_eq_iff {overflow : Int} {posAfterDecPoint : Nat} {value : ℚ}
    (h : IsInt overflow) (hP : 9 < posAfterDecPoint) :
    (truncate (value * overflow)).natAbs = (truncate (value * 10 ^ posAfterDecPoint)).natAbs ↔
      |value| < 1 / 10 ^ posAfterDecPoint := by
  have hten : (10 : ℚ) ^ 10 ≤ 10 ^ posAfterDecPoint := pow_le_pow_right₀ (by norm_num) hP
  have hpos : (0 : ℚ) < 10 ^ posAfterDecPoint := by positivity
  have hoverflow : |(overflow : ℚ)| ≤ 2 ^ 31 := by
    have hf := @abs_putDoubleFactor_le overflow posAfterDecPoint h
    rwa [putDoubleFactor_of_lt hP] at hf
  have hexact : |value * 10 ^ posAfterDecPoint| = |value| * 10 ^ posAfterDecPoint := by
    rw [abs_mul, abs_of_pos hpos]
  -- the product is less than half of the exact one
  have hhalf : 2 * |value * overflow| ≤ |value| * 10 ^ posAfterDecPoint := by
    rw [abs_mul]
    have hle : |value| * (2 * |(overflow : ℚ)|) ≤ |value| * 10 ^ posAfterDecPoint :=
      mul_le_mul_of_nonneg_left (by linarith) (abs_nonneg _)
    linarith
  rw [lt_div_iff₀ hpos]
  refine ⟨fun heq => ?_, fun hlt => ?_⟩
  · by_contra hge
    have hge := not_lt.1 hge
    generalize hm : (truncate (value * 10 ^ posAfterDecPoint)).natAbs = m at heq
    have hone : 1 ≤ m := by
      rw [← hm, le_natAbs_truncate, hexact, Nat.cast_one]
      exact hge
    have hnext : |value| * 10 ^ posAfterDecPoint < (m : ℚ) + 1 := by
      by_contra hle
      have hreach : ((m + 1 : Nat) : ℚ) ≤ |value * 10 ^ posAfterDecPoint| := by
        rw [hexact]
        push_cast
        exact not_lt.1 hle
      have := le_natAbs_truncate.2 hreach
      omega
    have hreach : (m : ℚ) ≤ |value * overflow| := le_natAbs_truncate.1 heq.ge
    have hcast : (1 : ℚ) ≤ m := by exact_mod_cast hone
    linarith
  · have hzero : (truncate (value * overflow)).natAbs = 0 := by
      rw [natAbs_truncate_eq_zero]
      have := abs_nonneg (value * overflow)
      linarith
    have hzero' : (truncate (value * 10 ^ posAfterDecPoint)).natAbs = 0 := by
      rw [natAbs_truncate_eq_zero, hexact]
      exact hlt
    rw [hzero, hzero']

/-- A number is put as a decimal text of what it is cut to at the decimal precision. -/
def PutsTruncated (factor : Int) (posAfterDecPoint : Nat) (value : ℚ) : Prop :=
  ∃ text, decimalValue text =
      some ((truncate (value * 10 ^ posAfterDecPoint) : ℚ) / 10 ^ posAfterDecPoint) ∧
    ∀ line, line.length + 21 ≤ lineBufferSize →
      putFloat factor posAfterDecPoint line value = some (line ++ text) ∧
        putDouble factor posAfterDecPoint line value = some (line ++ text)

/-- Every number is put, in at most 21 characters. -/
theorem putDouble_some {overflow : Int} {posAfterDecPoint : Nat} {value : ℚ} {line : List Char}
    (h : IsInt overflow) (hP : 1 ≤ posAfterDecPoint ∧ posAfterDecPoint ≤ 16)
    (hv : |value| ≤ meshMaxCoordinate) (hline : line.length + 21 ≤ lineBufferSize) :
    ∃ text, text = decimalText (decide (value < 0)) posAfterDecPoint
        (truncate (value * putDoubleFactor overflow posAfterDecPoint)).natAbs ∧
      text.length ≤ 21 ∧
      putDouble (putDoubleFactor overflow posAfterDecPoint) posAfterDecPoint line value =
        some (line ++ text) := by
  have hn := @natAbs_product_lt overflow posAfterDecPoint value h hv
  have hlen := length_decimalText_le (decide (value < 0)) hP.2
    (Nat.lt_of_lt_of_le hn (by decide))
  exact ⟨_, rfl, hlen, putDouble_eq hP.1 (by omega)⟩

/-- The text is right where the product is cut to what the exact one is cut to. -/
theorem putsTruncated_iff_natAbs {overflow : Int} {posAfterDecPoint : Nat} {value : ℚ}
    (h : IsInt overflow) (hP : 1 ≤ posAfterDecPoint ∧ posAfterDecPoint ≤ 16)
    (hv : |value| ≤ meshMaxCoordinate) :
    PutsTruncated (putDoubleFactor overflow posAfterDecPoint) posAfterDecPoint value ↔
      (truncate (value * putDoubleFactor overflow posAfterDecPoint)).natAbs =
        (truncate (value * 10 ^ posAfterDecPoint)).natAbs := by
  have hpos : (0 : ℚ) < 10 ^ posAfterDecPoint := by positivity
  have hvalue := decimalValue_decimalText (decide (value < 0))
    (truncate (value * putDoubleFactor overflow posAfterDecPoint)).natAbs hP.1
  have hsign : value * 10 ^ posAfterDecPoint < 0 ↔ value < 0 :=
    ⟨fun hneg => not_le.1 fun hle => absurd hneg (not_lt.2 (mul_nonneg hle hpos.le)),
      fun hneg => mul_neg_of_neg_of_pos hneg hpos⟩
  have hexact : (truncate (value * 10 ^ posAfterDecPoint) : ℚ) =
      if value < 0 then -((truncate (value * 10 ^ posAfterDecPoint)).natAbs : ℚ)
      else (truncate (value * 10 ^ posAfterDecPoint)).natAbs := by
    have heq := truncate_eq (value * 10 ^ posAfterDecPoint)
    by_cases hneg : value < 0
    · rw [if_pos (hsign.2 hneg)] at heq
      rw [if_pos hneg, heq, Int.natAbs_neg, Int.natAbs_natCast, Int.cast_neg, Int.cast_natCast]
    · rw [if_neg (fun h => hneg (hsign.1 h))] at heq
      rw [if_neg hneg, heq, Int.natAbs_natCast, Int.cast_natCast]
  -- both values have the sign of the number
  have hright : decimalValue (decimalText (decide (value < 0)) posAfterDecPoint
        (truncate (value * putDoubleFactor overflow posAfterDecPoint)).natAbs) =
      some ((truncate (value * 10 ^ posAfterDecPoint) : ℚ) / 10 ^ posAfterDecPoint) ↔
      (truncate (value * putDoubleFactor overflow posAfterDecPoint)).natAbs =
        (truncate (value * 10 ^ posAfterDecPoint)).natAbs := by
    rw [hvalue, hexact, Option.some_inj]
    generalize (truncate (value * putDoubleFactor overflow posAfterDecPoint)).natAbs = n
    generalize (truncate (value * 10 ^ posAfterDecPoint)).natAbs = m
    by_cases hneg : value < 0
    · rw [if_pos hneg, if_pos (decide_eq_true hneg), ← neg_div, div_left_inj' hpos.ne', neg_inj]
      exact Nat.cast_inj
    · rw [if_neg hneg, if_neg (by simpa using hneg), div_left_inj' hpos.ne']
      exact Nat.cast_inj
  rw [← hright]
  refine ⟨fun ⟨text, htext, hputs⟩ => ?_, fun htext => ⟨_, htext, fun line hline => ?_⟩⟩
  · have hroom : ([] : List Char).length + 21 ≤ lineBufferSize := by decide
    obtain ⟨text', rfl, -, hput⟩ := putDouble_some h hP hv hroom
    have heq := hput.symm.trans (hputs [] hroom).2
    rw [List.nil_append, List.nil_append, Option.some_inj] at heq
    rw [heq]
    exact htext
  · obtain ⟨text', rfl, -, hput⟩ := putDouble_some h hP hv hline
    exact ⟨hput, hput⟩

/-- The numbers whose text is right. -/
theorem putsTruncated_iff {overflow : Int} {posAfterDecPoint : Nat} {value : ℚ}
    (h : IsInt overflow) (hP : 1 ≤ posAfterDecPoint ∧ posAfterDecPoint ≤ 16)
    (hv : |value| ≤ meshMaxCoordinate) :
    PutsTruncated (putDoubleFactor overflow posAfterDecPoint) posAfterDecPoint value ↔
      posAfterDecPoint ≤ 9 ∨ |value| < 1 / 10 ^ posAfterDecPoint := by
  rw [putsTruncated_iff_natAbs h hP hv]
  by_cases h9 : posAfterDecPoint ≤ 9
  · refine iff_of_true ?_ (Or.inl h9)
    rw [putDoubleFactor_of_le h9]
    push_cast
    rfl
  · rw [putDoubleFactor_of_lt (not_le.1 h9), natAbs_product_eq_iff h (not_le.1 h9)]
    exact (or_iff_right h9).symm

/-! ## Room for the lines -/

/-- A part of a line takes at most `k` characters. -/
def Puts (put : List Char → Option (List Char)) (k : Nat) : Prop :=
  ∀ line : List Char, line.length + k ≤ lineBufferSize →
    ∃ text : List Char, text.length ≤ k ∧ put line = some (line ++ text)

theorem puts_string (s : String) : Puts (putString · s) s.toList.length :=
  fun _ h => ⟨s.toList, Nat.le_refl _, foldlM_putChar h⟩

theorem Puts.mono {put : List Char → Option (List Char)} {k l : Nat} (h : Puts put k)
    (hkl : k ≤ l) : Puts put l := by
  intro line hline
  obtain ⟨text, hlen, hput⟩ := h line (by omega)
  exact ⟨text, by omega, hput⟩

theorem Puts.bind {p q : List Char → Option (List Char)} {k l : Nat} (hp : Puts p k)
    (hq : Puts q l) : Puts (fun line => p line >>= q) (k + l) := by
  intro line hline
  obtain ⟨text, hlen, hput⟩ := hp line (by omega)
  obtain ⟨text', hlen', hput'⟩ := hq (line ++ text) (by rw [List.length_append]; omega)
  refine ⟨text ++ text', by rw [List.length_append]; omega, ?_⟩
  show p line >>= q = _
  rw [hput, ← List.append_assoc]
  exact hput'

theorem Puts.unlessDefault (differs : Prop) [Decidable differs]
    {put : List Char → Option (List Char)} {k : Nat} (h : Puts put k) :
    Puts (putUnlessDefault differs put) k := by
  intro line hline
  unfold putUnlessDefault
  split
  · exact h line hline
  · exact ⟨[], Nat.zero_le _, by rw [List.append_nil]⟩

theorem puts_uint32 (value : Int) : Puts (putUInt32 · value) 11 := by
  have hb : -4294967296 ≤ value.bmod (2 ^ 32) ∧ value.bmod (2 ^ 32) < 4294967296 := by
    rw [Int.bmod_def]
    omega
  exact (puts_string _).mono (length_toString_le hb.1 hb.2)

theorem length_capModeToString_le (capMode : Int) : (capModeToString capMode).toList.length ≤ 10 := by
  unfold capModeToString
  split_ifs <;> decide

theorem puts_capMode (name : String) (capMode : Int) :
    Puts (putString · (name ++ capModeToString capMode)) (name.toList.length + 10) := by
  apply (puts_string _).mono
  rw [String.toList_append, List.length_append]
  exact Nat.add_le_add_left (length_capModeToString_le capMode) _

section

variable {overflow : Int} {posAfterDecPoint : Nat} (h : IsInt overflow)
  (hP : 1 ≤ posAfterDecPoint ∧ posAfterDecPoint ≤ 16)

include h hP

theorem puts_double {value : ℚ} (hv : |value| ≤ meshMaxCoordinate) :
    Puts (putDouble (putDoubleFactor overflow posAfterDecPoint) posAfterDecPoint · value) 21 := by
  intro line hline
  obtain ⟨text, -, hlen, hput⟩ := putDouble_some h hP hv hline
  exact ⟨text, hlen, hput⟩

/-- A vertex line fits its buffer. -/
theorem writeVertexData_isSome {position : Vec3} (hx : |position.x| ≤ meshMaxCoordinate)
    (hy : |position.y| ≤ meshMaxCoordinate) (hz : |position.z| ≤ meshMaxCoordinate) :
    (writeVertexData (putDoubleFactor overflow posAfterDecPoint) posAfterDecPoint position).isSome := by
  have hputs := (puts_string "<vertex x=\"").bind <| (puts_double h hP hx).bind <|
    (puts_string "\" y=\"").bind <| (puts_double h hP hy).bind <|
    (puts_string "\" z=\"").bind <| (puts_double h hP hz).bind <| puts_string "\" />"
  obtain ⟨text, -, htext⟩ := hputs [] (by decide)
  exact Option.isSome_of_eq_some htext

/-- A beam line fits its buffer. -/
theorem writeBeamData_isSome {beam : MeshBeam} (h0 : |beam.radius 0| ≤ meshMaxCoordinate)
    (h1 : |beam.radius 1| ≤ meshMaxCoordinate) (radius : ℚ) (defaultCapMode : Int) :
    (writeBeamData (putDoubleFactor overflow posAfterDecPoint) posAfterDecPoint beam radius
      defaultCapMode).isSome := by
  let differ (a b : ℚ) : Prop :=
    stringRepresentationsDiffer a b (putDoubleFactor overflow posAfterDecPoint)
  have hr1 := ((puts_string "\" r1=\"").bind (puts_double h hP h0)).unlessDefault
    (differ (beam.radius 0) (beam.radius 1) ∨ differ (beam.radius 0) radius)
  have hr2 := ((puts_string "\" r2=\"").bind (puts_double h hP h1)).unlessDefault
    (differ (beam.radius 0) (beam.radius 1))
  have hcap1 := (puts_capMode "\" cap1=\"" (beam.capMode 0)).unlessDefault
    (defaultCapMode ≠ beam.capMode 0)
  have hcap2 := (puts_capMode "\" cap2=\"" (beam.capMode 1)).unlessDefault
    (defaultCapMode ≠ beam.capMode 1)
  have hputs := (puts_string "<b:beam v1=\"").bind <| (puts_uint32 (beam.nodeIndices 0)).bind <|
    (puts_string "\" v2=\"").bind <| (puts_uint32 (beam.nodeIndices 1)).bind <|
    hr1.bind <| hr2.bind <| hcap1.bind <| hcap2.bind <| puts_string "\"/>"
  obtain ⟨text, -, htext⟩ := hputs [] (by decide)
  exact Option.isSome_of_eq_some htext

end

/-- For every decimal precision that is accepted: the text of a number within the limits is a
decimal text of the number cut to the precision exactly when the precision is at most nine or the
number is cut to zero, and the lines of vertices and beams fit their buffers. -/
theorem decimal_texts_iff {overflow : Int} {decimalPrecision posAfterDecPoint : Nat}
    (h : IsInt overflow) (hP : setDecimalPrecision decimalPrecision = .ok posAfterDecPoint) :
    (∀ value : ℚ, |value| ≤ meshMaxCoordinate →
      (PutsTruncated (putDoubleFactor overflow posAfterDecPoint) posAfterDecPoint value ↔
        posAfterDecPoint ≤ 9 ∨ |value| < 1 / 10 ^ posAfterDecPoint)) ∧
    (∀ position : Vec3, |position.x| ≤ meshMaxCoordinate → |position.y| ≤ meshMaxCoordinate →
      |position.z| ≤ meshMaxCoordinate →
      (writeVertexData (putDoubleFactor overflow posAfterDecPoint) posAfterDecPoint
        position).isSome) ∧
    ∀ (beam : MeshBeam) (radius : ℚ) (defaultCapMode : Int), |beam.radius 0| ≤ meshMaxCoordinate →
      |beam.radius 1| ≤ meshMaxCoordinate →
      (writeBeamData (putDoubleFactor overflow posAfterDecPoint) posAfterDecPoint beam radius
        defaultCapMode).isSome := by
  have hP := setDecimalPrecision_eq_ok hP
  refine ⟨fun value hv => putsTruncated_iff h hP hv, fun position hx hy hz => ?_,
    fun beam radius defaultCapMode h0 h1 => ?_⟩
  · exact writeVertexData_isSome h hP hx hy hz
  · exact writeBeamData_isSome h hP h0 h1 radius defaultCapMode

/-- At the default precision, where the number `-1.0000005` is cut to `-1`. -/
theorem decimal_texts_six :
    PutsTruncated (putDoubleFactor (-2 ^ 31) 6) 6 (-10000005 / 10000000) :=
  ((decimal_texts_iff (show IsInt (-2 ^ 31) by unfold IsInt; decide)
    (show setDecimalPrecision 6 = .ok 6 from rfl)).1 (-10000005 / 10000000) (by norm_num [abs_div, meshMaxCoordinate])).2
    (Or.inl (by decide))

/-- With ten decimals the number one has another text, whatever the conversion makes of the power
of ten. -/
theorem ten_decimals_wrong :
    setDecimalPrecision 10 = .ok 10 ∧ |(1 : ℚ)| ≤ meshMaxCoordinate ∧
      ∀ overflow : Int, IsInt overflow → ¬ PutsTruncated (putDoubleFactor overflow 10) 10 1 := by
  have hv : |(1 : ℚ)| ≤ meshMaxCoordinate := by norm_num [meshMaxCoordinate]
  refine ⟨rfl, hv, fun overflow h hputs => ?_⟩
  obtain hle | hlt := (putsTruncated_iff h (by decide) hv).1 hputs
  · exact absurd hle (by decide)
  · norm_num at hlt

end NMR.Writer.Lines
