import Mathlib.Data.List.TakeWhile
import Mathlib.Data.Nat.ModEq
import Mathlib.Tactic.Ring

/-!
# Encodings of characters

A character is a Unicode scalar value (`Char`), and `String.utf8EncodeChar` its UTF-8 encoding.
`encodeIn n v` writes the number `v` in `n` bytes by the scheme of UTF-8, also in more bytes than
it needs (`Form`): the encoding of a character is the form in `Char.utf8Size` bytes
(`utf8EncodeChar_eq`). `utf16` is the UTF-16 encoding. `zeroTerminated` is a string up to its end
character.
-/

namespace Lib

/-! ## C strings -/

section CString

variable {α : Type} [OfNat α 0]

/-- What has no end character is found in front of it. -/
theorem prefix_of_end {s t z w : List α} (hs : 0 ∉ s) (h : s ++ t = z ++ 0 :: w) :
    ∃ z', z = s ++ z' ∧ t = z' ++ 0 :: w := by
  rcases List.append_eq_append_iff.1 h with ⟨z', hz, ht⟩ | ⟨s', rfl, hw⟩
  · exact ⟨z', hz, ht⟩
  · cases s' with
    | nil => exact ⟨[], by simp, by simpa using hw.symm⟩
    | cons a s' =>
      obtain ⟨rfl, -⟩ := List.cons.inj hw
      exact absurd (List.mem_append_right z List.mem_cons_self) hs

variable [DecidableEq α]

/-- The string in front of the end character. -/
def zeroTerminated (s : List α) : List α := s.takeWhile (· ≠ 0)

theorem ne_of_mem_zeroTerminated {s : List α} {a : α} (h : a ∈ zeroTerminated s) : a ≠ 0 := by
  simpa using List.mem_takeWhile_imp h

theorem zeroTerminated_of_ne {s : List α} (h : ∀ a ∈ s, a ≠ 0) : zeroTerminated s = s :=
  List.takeWhile_eq_self_iff.2 fun a ha => decide_eq_true (h a ha)

/-- With an end character behind it, a string is a C string and something behind that. -/
theorem exists_zeroTerminated (s : List α) : ∃ w, s ++ [0] = zeroTerminated s ++ 0 :: w := by
  induction s with
  | nil => exact ⟨[], rfl⟩
  | cons a s ih =>
    obtain ⟨w, hw⟩ := ih
    by_cases h : a = 0
    · exact ⟨s ++ [0], by simp [zeroTerminated, h]⟩
    · have hcons : zeroTerminated (a :: s) = a :: zeroTerminated s := by simp [zeroTerminated, h]
      exact ⟨w, by rw [hcons, List.cons_append, List.cons_append, hw]⟩

end CString

/-! ## Sequences of bytes -/

/-- The last `k` bytes of a sequence, with six bits of `v` each. -/
def continuation : Nat → Nat → List UInt8
  | 0, _ => []
  | k + 1, v => UInt8.ofNat (0x80 + v / 64 ^ k % 64) :: continuation k v

/-- The bits that mark the first byte of a sequence of `n` bytes. -/
def leadMark : Nat → Nat
  | 2 => 0xC0
  | 3 => 0xE0
  | 4 => 0xF0
  | 5 => 0xF8
  | 6 => 0xFC
  | _ => 0

/-- The number of values of the other bits. -/
def leadValues : Nat → Nat
  | 1 => 0x80
  | 2 => 0x20
  | 3 => 0x10
  | 4 => 0x08
  | 5 => 0x04
  | 6 => 0x02
  | _ => 0

/-- `v` in `n` bytes. -/
def encodeIn (n v : Nat) : List UInt8 :=
  UInt8.ofNat (leadMark n + v / 64 ^ (n - 1)) :: continuation (n - 1) v

theorem length_continuation (k v : Nat) : (continuation k v).length = k := by
  induction k with
  | zero => rfl
  | succ k ih => rw [continuation, List.length_cons, ih]

theorem toNat_continuation {v k : Nat} :
    (UInt8.ofNat (0x80 + v / 64 ^ k % 64)).toNat = 0x80 + v / 64 ^ k % 64 := by
  rw [UInt8.toNat_ofNat']
  omega

theorem ge_of_mem_continuation {k v : Nat} {b : UInt8} (h : b ∈ continuation k v) :
    0x80 ≤ b.toNat := by
  induction k with
  | zero => cases h
  | succ k ih =>
    rcases List.mem_cons.1 h with rfl | h
    · rw [toNat_continuation]
      omega
    · exact ih h

/-- A character in `n` bytes, which may be more than it needs. -/
structure Form where
  c : Char
  n : Nat
  fits : c.toNat < leadValues n * 64 ^ (n - 1)

namespace Form

/-- The bytes. -/
def bytes (f : Form) : List UInt8 := encodeIn f.n f.c.toNat

/-- The first byte. -/
def lead (f : Form) : UInt8 := UInt8.ofNat (leadMark f.n + f.c.toNat / 64 ^ (f.n - 1))

/-- The bytes behind it. -/
def others (f : Form) : List UInt8 := continuation (f.n - 1) f.c.toNat

/-- The byte order mark, in its three bytes. -/
def IsBOM (f : Form) : Prop := f.c.toNat = 0xFEFF ∧ f.n = 3

instance (f : Form) : Decidable f.IsBOM := inferInstanceAs (Decidable (_ ∧ _))

theorem bytes_eq (f : Form) : f.bytes = f.lead :: f.others := rfl

theorem n_bounds (f : Form) : 1 ≤ f.n ∧ f.n ≤ 6 := by
  by_contra h
  have h0 : leadValues f.n = 0 := by
    unfold leadValues
    split <;> omega
  have := f.fits
  rw [h0, Nat.zero_mul] at this
  omega

theorem lead_lt (f : Form) : f.c.toNat / 64 ^ (f.n - 1) < leadValues f.n :=
  Nat.div_lt_of_lt_mul (by rw [Nat.mul_comm]; exact f.fits)

theorem leadMark_add_lt (f : Form) : leadMark f.n + f.c.toNat / 64 ^ (f.n - 1) < 256 := by
  have h := f.lead_lt
  have hmark : ∀ n < 7, leadMark n + leadValues n ≤ 256 := by decide
  have := hmark f.n (by have := f.n_bounds; omega)
  omega

/-- Only the character 0 has a byte 0. -/
theorem zero_of_mem_bytes {f : Form} (h : 0 ∈ f.bytes) : f.c.toNat = 0 := by
  have h0 : (0 : UInt8).toNat = 0 := rfl
  rw [bytes_eq, List.mem_cons] at h
  rcases h with h | h
  · have hlead := congrArg UInt8.toNat h
    have hlt := f.leadMark_add_lt
    rw [lead, UInt8.toNat_ofNat', Nat.mod_eq_of_lt hlt, h0] at hlead
    have hone : ∀ n < 7, 1 ≤ n → leadMark n = 0 → n = 1 := by decide
    have hn : f.n = 1 := hone f.n (by have := f.n_bounds; omega) f.n_bounds.1
      (Nat.add_eq_zero_iff.1 hlead.symm).1
    rw [hn] at hlead
    simpa [leadMark] using hlead.symm
  · have := ge_of_mem_continuation h
    omega

theorem length_bytes (f : Form) : f.bytes.length = f.n := by
  have := f.n_bounds
  rw [bytes, encodeIn, List.length_cons, length_continuation]
  omega

end Form

theorem toNat_le (c : Char) : c.toNat < 0xD800 ∨ 0xE000 ≤ c.toNat ∧ c.toNat < 0x110000 := by
  have h := c.valid
  unfold UInt32.isValidChar Nat.isValidChar at h
  unfold Char.toNat
  omega

theorem exists_char_of_valid {n : Nat} (h : n.isValidChar) : ∃ c : Char, c.toNat = n :=
  ⟨Char.ofNat n, by
    rw [Char.ofNat, dif_pos h]
    rfl⟩

/-- The number of bytes of a character. -/
theorem utf8Size_eq (c : Char) : c.utf8Size = if c.toNat ≤ 0x7f then 1
    else if c.toNat ≤ 0x7ff then 2 else if c.toNat ≤ 0xffff then 3 else 4 := by
  unfold Char.utf8Size Char.toNat
  simp only [UInt32.le_iff_toNat_le]
  rfl

/-- The encoding of a character is its shortest form. -/
theorem utf8EncodeChar_eq (c : Char) :
    String.utf8EncodeChar c = encodeIn c.utf8Size c.toNat ∧
      c.toNat < leadValues c.utf8Size * 64 ^ (c.utf8Size - 1) := by
  have hc := toNat_le c
  have hval : c.val.toNat = c.toNat := rfl
  unfold String.utf8EncodeChar
  rw [utf8Size_eq, hval]
  dsimp only
  split_ifs with h1 h2 h3
  · refine ⟨?_, ?_⟩
    · simp [encodeIn, continuation, leadMark]
    · simp only [leadValues]
      omega
  · refine ⟨?_, ?_⟩
    · simp only [encodeIn, continuation, leadMark, List.cons.injEq, and_true]
      refine ⟨congrArg _ ?_, congrArg _ ?_⟩ <;> omega
    · simp only [leadValues]
      omega
  · refine ⟨?_, ?_⟩
    · simp only [encodeIn, continuation, leadMark, List.cons.injEq, and_true]
      refine ⟨congrArg _ ?_, congrArg _ ?_, congrArg _ ?_⟩ <;> omega
    · simp only [leadValues]
      omega
  · refine ⟨?_, ?_⟩
    · simp only [encodeIn, continuation, leadMark, List.cons.injEq, and_true]
      refine ⟨congrArg _ ?_, congrArg _ ?_, congrArg _ ?_, congrArg _ ?_⟩ <;> omega
    · simp only [leadValues]
      omega

/-- The shortest form. -/
def Form.shortest (c : Char) : Form := ⟨c, c.utf8Size, (utf8EncodeChar_eq c).2⟩

theorem Form.bytes_shortest (c : Char) : (Form.shortest c).bytes = String.utf8EncodeChar c :=
  (utf8EncodeChar_eq c).1.symm

/-! ## UTF-16 -/

/-- The UTF-16 encoding of a character: a unit, or two surrogates. -/
def utf16 (c : Char) : List UInt16 :=
  if c.toNat < 0x10000 then [UInt16.ofNat c.toNat]
  else [UInt16.ofNat (0xD800 + (c.toNat - 0x10000) / 0x400),
    UInt16.ofNat (0xDC00 + (c.toNat - 0x10000) % 0x400)]

theorem utf16_of_lt {c : Char} (h : c.toNat < 0x10000) : utf16 c = [UInt16.ofNat c.toNat] :=
  if_pos h

theorem utf16_of_ge {c : Char} (h : 0x10000 ≤ c.toNat) :
    utf16 c = [UInt16.ofNat (0xD800 + (c.toNat - 0x10000) / 0x400),
      UInt16.ofNat (0xDC00 + (c.toNat - 0x10000) % 0x400)] := if_neg (by omega)

/-- A character, or its surrogates in the other order. -/
structure Coded where
  c : Char
  reversed : Bool

/-- The units. -/
def Coded.units (p : Coded) : List UInt16 :=
  if p.reversed then (utf16 p.c).reverse else utf16 p.c

theorem Coded.units_of_lt {p : Coded} (h : p.c.toNat < 0x10000) :
    p.units = [UInt16.ofNat p.c.toNat] := by
  simp [units, utf16_of_lt h]

/-- One unit, or two surrogates. -/
theorem Coded.units_cases (p : Coded) :
    (p.c.toNat < 0x10000 ∧ p.units = [UInt16.ofNat p.c.toNat]) ∨
      ∃ u v, p.units = [u, v] ∧ (0xd800 ≤ u.toNat ∧ u.toNat < 0xe000) ∧
        0xd800 ≤ v.toNat ∧ v.toNat < 0xe000 := by
  have hc := toNat_le p.c
  by_cases hsmall : p.c.toNat < 0x10000
  · exact Or.inl ⟨hsmall, units_of_lt hsmall⟩
  · have hhigh : (UInt16.ofNat (0xD800 + (p.c.toNat - 0x10000) / 0x400)).toNat =
        0xD800 + (p.c.toNat - 0x10000) / 0x400 := by
      rw [UInt16.toNat_ofNat']
      omega
    have hlow : (UInt16.ofNat (0xDC00 + (p.c.toNat - 0x10000) % 0x400)).toNat =
        0xDC00 + (p.c.toNat - 0x10000) % 0x400 := by
      rw [UInt16.toNat_ofNat']
      omega
    unfold units
    rw [utf16_of_ge (by omega)]
    cases p.reversed with
    | true => exact Or.inr ⟨_, _, rfl, by omega, by omega⟩
    | false => exact Or.inr ⟨_, _, rfl, by omega, by omega⟩

/-- UTF-16 has no unit 0 but for the character. -/
theorem zero_mem_utf16 {c : Char} (h : 0 ∈ utf16 c) : c.toNat = 0 := by
  have hc := toNat_le c
  by_cases hsmall : c.toNat < 0x10000
  · rw [utf16_of_lt hsmall, List.mem_singleton] at h
    have := congrArg UInt16.toNat h
    rw [UInt16.toNat_ofNat'] at this
    have h0 : (0 : UInt16).toNat = 0 := rfl
    omega
  · rw [utf16_of_ge (by omega), List.mem_cons, List.mem_singleton] at h
    have h0 : (0 : UInt16).toNat = 0 := rfl
    rcases h with h | h
    all_goals
      have := congrArg UInt16.toNat h
      rw [UInt16.toNat_ofNat'] at this
      omega

/-! ## Strings -/

/-- A string of bytes is UTF-8. -/
def ValidUTF8 (bytes : List UInt8) : Prop :=
  ∃ cs : List Char, bytes = cs.flatMap String.utf8EncodeChar

/-- A string of bytes is UTF-8, but for sequences that are longer than they need to be. -/
def LooseUTF8 (bytes : List UInt8) : Prop := ∃ fs : List Form, bytes = fs.flatMap Form.bytes

/-- A string of units is UTF-16. -/
def ValidUTF16 (units : List UInt16) : Prop := ∃ cs : List Char, units = cs.flatMap utf16

/-- A string of units is UTF-16, but for pairs that are exchanged. -/
def LooseUTF16 (units : List UInt16) : Prop := ∃ ps : List Coded, units = ps.flatMap Coded.units

/-- Characters without NUL. -/
structure Text where
  chars : List Char
  noNul : ∀ c ∈ chars, c.toNat ≠ 0

namespace Text

def utf8 (t : Text) : List UInt8 := t.chars.flatMap String.utf8EncodeChar

def utf16 (t : Text) : List UInt16 := t.chars.flatMap Lib.utf16

/-- The text without U+FEFF, the byte order mark. -/
def withoutBOM (t : Text) : Text where
  chars := t.chars.filter (·.toNat ≠ 0xFEFF)
  noNul c hc := t.noNul c (List.mem_filter.1 hc).1

/-- The shortest forms of the characters. -/
def forms (t : Text) : List Form := t.chars.map Form.shortest

theorem utf8_eq (t : Text) : t.utf8 = t.forms.flatMap Form.bytes := by
  rw [utf8, forms, List.flatMap_map]
  exact congrArg (List.flatMap · t.chars) (funext fun c => (Form.bytes_shortest c).symm)

/-- No byte is an end byte. -/
theorem ne_of_mem_utf8 {t : Text} {b : UInt8} (h : b ∈ t.utf8) : b ≠ 0 := by
  obtain ⟨c, hc, hb⟩ := List.mem_flatMap.1 h
  rw [← Form.bytes_shortest] at hb
  rintro rfl
  exact t.noNul c hc (Form.zero_of_mem_bytes hb)

theorem ne_of_mem_utf16 {t : Text} {u : UInt16} (h : u ∈ t.utf16) : u ≠ 0 := by
  obtain ⟨c, hc, hu⟩ := List.mem_flatMap.1 h
  rintro rfl
  exact t.noNul c hc (zero_mem_utf16 hu)

end Text

end Lib
