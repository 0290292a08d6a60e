import Mathlib.Data.List.TakeWhile
import Lib3MF.Common.StringUtils
import Lib3MF.Lib.Except
import Mathlib.Data.String.Basic

/-!
# Numbers and lists of them as texts

The texts of integers, as `std::to_string` prints them and `strtoul` reads them, and lists of
texts with spaces between them: what `fnVectorToSpaceDelimitedString` puts together,
`fnVctType_fromString` takes apart (`tokens_intercalate`, `fnVctUint32_fromString_print`).
-/

namespace NMR

open Lib

/-- `isspace`. -/
def isSpace (c : Char) : Bool := decide (c.toNat = 32 ∨ 9 ≤ c.toNat ∧ c.toNat ≤ 13)

/-- The digits that `strtoul` and `strtol` read, and the checks that their callers make of what
stands behind them. -/
def parseDigits (negative : Bool) (text : List Char) : Except Error Int :=
  let digits := text.takeWhile Char.isDigit
  if digits = [] then .error .emptyStringToIntConversion
  else match text.dropWhile Char.isDigit with
    | [] | ' ' :: _ =>
      let n : Int := Nat.ofDigitChars 10 digits 0
      .ok (if negative then -n else n)
    | _ => .error .invalidStringToIntConversion

/-- The integer a text stands for: blanks, a sign and digits. -/
def parseInteger (text : List Char) : Except Error Int :=
  match text.dropWhile isSpace with
  | '-' :: text => parseDigits true text
  | '+' :: text => parseDigits false text
  | text => parseDigits false text

/-- `fnStringToUint32`, of a text. -/
def textToUint32 (text : List Char) : Except Error Nat := do
  let value ← parseInteger text
  fnStringToUint32 value

/-- The parts of a text between its spaces, in `fnVctType_fromString`. -/
def tokens (text : String) : List (List Char) := (text.toList.splitOn ' ').filter (· ≠ [])

/-- `fnVctType_fromString<nfUint32>`. -/
def fnVctUint32_fromString (text : String) : Except Error (List Nat) :=
  (tokens text).mapM textToUint32

/-- `fnVctType_fromString<std::string>`. -/
def fnVctString_fromString (text : String) : List String := (tokens text).map String.ofList

/-- `fnVectorToSpaceDelimitedString`. -/
def fnVectorToSpaceDelimitedString (v : List String) : String := " ".intercalate v

/-! ## Integers -/

theorem isDigit_of_mem_repr {n : Nat} {c : Char} (h : c ∈ n.repr.toList) : c.isDigit = true := by
  rw [Nat.toList_repr] at h
  exact Nat.isDigit_of_mem_toDigits (b := 10) (by decide) (by decide) h

theorem not_isSpace_of_isDigit {c : Char} (h : c.isDigit = true) : isSpace c = false := by
  have hl : 48 ≤ c.toNat := by
    simp only [Char.isDigit, Bool.and_eq_true, decide_eq_true_eq] at h
    exact UInt32.le_iff_toNat_le.1 h.1
  apply decide_eq_false
  omega

/-- Digits are read. -/
theorem parseDigits_repr (negative : Bool) (n : Nat) :
    parseDigits negative n.repr.toList = .ok (if negative then -(n : Int) else n) := by
  have hall : ∀ c ∈ n.repr.toList, c.isDigit = true := fun c => isDigit_of_mem_repr
  have hne : n.repr.toList ≠ [] := by
    rw [Nat.toList_repr]
    exact Nat.toDigits_ne_nil
  have hn : Nat.ofDigitChars 10 n.repr.toList 0 = n := by
    rw [Nat.toList_repr]
    exact Nat.ofDigitChars_ten_toDigits
  have htake : n.repr.toList.takeWhile Char.isDigit = n.repr.toList :=
    List.takeWhile_eq_self_iff.2 hall
  have hdrop : n.repr.toList.dropWhile Char.isDigit = [] :=
    List.dropWhile_eq_nil_iff.2 hall
  unfold parseDigits
  simp only [htake, hdrop, if_neg hne, hn]

/-- A natural number is read as it was printed. -/
theorem parseInteger_repr (n : Nat) : parseInteger n.repr.toList = .ok n := by
  have h := parseDigits_repr false n
  have hall : ∀ c ∈ n.repr.toList, c.isDigit = true := fun c => isDigit_of_mem_repr
  generalize n.repr.toList = l at h hall
  cases l with
  | nil => exact absurd h (by simp [parseDigits])
  | cons c l =>
    have hc := hall c List.mem_cons_self
    have hminus : c ≠ '-' := by
      rintro rfl
      exact absurd hc (by decide)
    have hplus : c ≠ '+' := by
      rintro rfl
      exact absurd hc (by decide)
    unfold parseInteger
    rw [List.dropWhile_cons_of_neg (by simp [not_isSpace_of_isDigit hc])]
    split
    · simp_all
    · simp_all
    · exact h

/-- An integer is read as it was printed. -/
theorem parseInteger_toString (i : Int) : parseInteger (toString i).toList = .ok i := by
  cases i with
  | ofNat n => exact parseInteger_repr n
  | negSucc n =>
    have hs : (toString (Int.negSucc n)).toList = '-' :: (n + 1).repr.toList := by
      show (String.append "-" (n + 1).repr).toList = _
      exact String.toList_append
    rw [hs, parseInteger, List.dropWhile_cons_of_neg (by decide)]
    exact parseDigits_repr true (n + 1)

/-- A number of 32 bits is read as it was printed. -/
theorem textToUint32_repr {n : Nat} (hn : n < 2 ^ 32) : textToUint32 n.repr.toList = .ok n := by
  unfold textToUint32
  rw [parseInteger_repr]
  show fnStringToUint32 n = .ok n
  rw [fnStringToUint32, if_neg (by omega)]
  congr 1
  omega

/-- The text of an integer is read as the integer is. -/
theorem textToUint32_toString (i : Int) :
    textToUint32 (toString i).toList = fnStringToUint32 i := by
  unfold textToUint32
  rw [parseInteger_toString]
  simp only [bind, Except.bind]

theorem utf8ByteSize_ofList_le (l : List Char) : (String.ofList l).utf8ByteSize ≤ 4 * l.length := by
  induction l with
  | nil => simp
  | cons c l ih =>
    have hc : c.utf8Size ≤ 4 := Char.utf8Size_le_four c
    rw [show c :: l = [c] ++ l from rfl, String.ofList_append, String.utf8ByteSize_append,
      ← String.singleton_eq_ofList, String.utf8ByteSize_singleton, List.length_append,
      List.length_singleton]
    omega

theorem length_toString_le {i : Int} (hl : -4294967296 ≤ i) (hu : i < 4294967296) :
    (toString i).toList.length ≤ 11 := by
  cases i with
  | ofNat k =>
    have hk : k < 4294967296 := Int.ofNat_lt.1 hu
    show k.repr.toList.length ≤ 11
    rw [Nat.toList_repr, Nat.length_toDigits_le_iff (by decide) (by decide)]
    omega
  | negSucc k =>
    have hk : (k + 1).repr.toList.length ≤ 10 := by
      rw [Nat.toList_repr, Nat.length_toDigits_le_iff (by decide) (by decide)]
      omega
    show (String.append "-" (k + 1).repr).toList.length ≤ 11
    rw [show String.append "-" (k + 1).repr = "-" ++ (k + 1).repr from rfl, String.toList_append,
      List.length_append, show "-".toList.length = 1 from rfl]
    omega

/-- The text of an integer of 32 bits is short. -/
theorem utf8ByteSize_toString {i : Int} (hl : -4294967296 ≤ i) (hu : i < 4294967296) :
    (toString i).utf8ByteSize ≤ 44 := by
  have hlen := length_toString_le hl hu
  have h := utf8ByteSize_ofList_le (toString i).toList
  rw [String.ofList_toList] at h
  omega

/-- A printed number is of 32 bits. -/
theorem writeIntAttribute_bounds (n : Nat) :
    -4294967296 ≤ writeIntAttribute n ∧ writeIntAttribute n < 4294967296 := by
  unfold writeIntAttribute
  rw [Int.bmod_def]
  omega

/-! ## Lists -/

/-- The parts that were put together are taken apart again. -/
theorem tokens_intercalate {v : List String} (h : ∀ s ∈ v, s ≠ "" ∧ ' ' ∉ s.toList) :
    tokens (fnVectorToSpaceDelimitedString v) = v.map String.toList := by
  unfold tokens fnVectorToSpaceDelimitedString
  rw [String.toList_intercalate]
  by_cases hv : v = []
  · rw [hv]
    rfl
  · rw [show " ".toList = [' '] from rfl, List.splitOn_intercalate _ _ (by simpa using hv)]
    · rw [List.filter_eq_self]
      intro l hl
      obtain ⟨s, hs, rfl⟩ := List.mem_map.1 hl
      simpa using (h s hs).1
    · intro l hl
      obtain ⟨s, hs, rfl⟩ := List.mem_map.1 hl
      exact (h s hs).2

theorem fnVctString_fromString_print {v : List String} (h : ∀ s ∈ v, s ≠ "" ∧ ' ' ∉ s.toList) :
    fnVctString_fromString (fnVectorToSpaceDelimitedString v) = v := by
  unfold fnVctString_fromString
  rw [tokens_intercalate h, List.map_map]
  simp

/-- A list of numbers of 32 bits is read as it was printed. -/
theorem fnVctUint32_fromString_print {v : List Nat} (h : ∀ n ∈ v, n < 2 ^ 32) :
    fnVctUint32_fromString (fnVectorToSpaceDelimitedString (v.map Nat.repr)) = .ok v := by
  unfold fnVctUint32_fromString
  rw [tokens_intercalate, List.map_map, mapM_eq_ok, List.forall₂_map_left_iff, List.forall₂_same]
  · intro n hn
    exact textToUint32_repr (h n hn)
  · intro s hs
    obtain ⟨n, -, rfl⟩ := List.mem_map.1 hs
    refine ⟨fun he => ?_, fun hm => ?_⟩
    · have hl := congrArg String.toList he
      rw [Nat.toList_repr] at hl
      exact Nat.toDigits_ne_nil hl
    · exact absurd (isDigit_of_mem_repr hm) (by decide)

/-- The text of a list is no shorter than the list. -/
theorem length_le_utf8ByteSize {v : List String} (h : ∀ s ∈ v, s ≠ "") :
    v.length ≤ (fnVectorToSpaceDelimitedString v).utf8ByteSize := by
  unfold fnVectorToSpaceDelimitedString
  induction v with
  | nil => exact Nat.zero_le _
  | cons s v ih =>
    have hs : s.utf8ByteSize ≠ 0 := fun h0 =>
      h s List.mem_cons_self (String.utf8ByteSize_eq_zero_iff.1 h0)
    by_cases hv : v = []
    · rw [hv, String.intercalate_singleton, List.length_singleton]
      omega
    · have hrest := ih fun t ht => h t (List.mem_cons_of_mem _ ht)
      rw [String.intercalate_cons_of_ne_nil hv, String.utf8ByteSize_append,
        String.utf8ByteSize_append, List.length_cons]
      omega

end NMR
