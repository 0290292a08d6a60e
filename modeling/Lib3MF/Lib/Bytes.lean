import Mathlib.Data.List.Basic
import Mathlib.Tactic.Ring

/-!
# Records of a fixed size in a file of bytes

A `Codec` writes the values of a type as a fixed number of bytes and reads them back; codecs of
words (little endian), padding, pairs and renamed values build those of packed records.
`encodeAll` and `decodeAll` are arrays of records. `At file pos bs` says that the bytes `bs`
stand in a file from position `pos` on, which later appends keep (`At.append`).
-/

namespace Lib

/-! ## Little-endian words -/

/-- The `k` low bytes of `n`, the lowest first. -/
def leBytes : Nat → Nat → List UInt8
  | 0, _ => []
  | k + 1, n => UInt8.ofNat n :: leBytes k (n / 256)

/-- The number with these bytes, the lowest first. -/
def ofLEBytes : List UInt8 → Nat
  | [] => 0
  | b :: bs => b.toNat + 256 * ofLEBytes bs

theorem length_leBytes (k n : Nat) : (leBytes k n).length = k := by
  induction k generalizing n with
  | zero => rfl
  | succ k ih => rw [leBytes, List.length_cons, ih]

theorem ofLEBytes_leBytes (k n : Nat) : ofLEBytes (leBytes k n) = n % 256 ^ k := by
  induction k generalizing n with
  | zero => rw [leBytes, ofLEBytes, pow_zero, Nat.mod_one]
  | succ k ih =>
    have hb : (UInt8.ofNat n).toNat = n % 256 := by simp
    rw [leBytes, ofLEBytes, ih, hb, pow_succ', Nat.mod_mul]

theorem leBytes_ofLEBytes (bs : List UInt8) : leBytes bs.length (ofLEBytes bs) = bs := by
  induction bs with
  | nil => rfl
  | cons b bs ih =>
    have hb := b.toNat_lt
    have hlow : UInt8.ofNat (b.toNat + 256 * ofLEBytes bs) = b := by
      apply UInt8.toNat.inj
      simp only [UInt8.toNat_ofNat']
      omega
    have hrest : (b.toNat + 256 * ofLEBytes bs) / 256 = ofLEBytes bs := by omega
    rw [ofLEBytes, List.length_cons, leBytes, hlow, hrest, ih]

theorem ofLEBytes_lt (bs : List UInt8) : ofLEBytes bs < 256 ^ bs.length := by
  induction bs with
  | nil => exact Nat.one_pos
  | cons b bs ih =>
    have hb := b.toNat_lt
    rw [ofLEBytes, List.length_cons, pow_succ]
    omega

/-! ## Codecs -/

/-- A way to write a value as `size` bytes. -/
structure Codec (α : Type) where
  size : Nat
  encode : α → List UInt8
  decode : List UInt8 → α
  length_encode : ∀ a, (encode a).length = size
  decode_encode : ∀ a, decode (encode a) = a

namespace Codec

variable {α β : Type}

/-- Words of `8 * k` bits, little endian. -/
def word (k : Nat) : Codec (BitVec (8 * k)) where
  size := k
  encode w := leBytes k w.toNat
  decode bs := BitVec.ofNat (8 * k) (ofLEBytes bs)
  length_encode _ := length_leBytes ..
  decode_encode w := by
    have h : w.toNat < 256 ^ k := by
      rw [show (256 : Nat) = 2 ^ 8 from rfl, ← pow_mul]
      exact w.isLt
    rw [ofLEBytes_leBytes, Nat.mod_eq_of_lt h, BitVec.ofNat_toNat, BitVec.setWidth_eq]

/-- `n` zero bytes. -/
def zeros (n : Nat) : Codec Unit where
  size := n
  encode _ := List.replicate n 0
  decode _ := ()
  length_encode _ := List.length_replicate
  decode_encode _ := rfl

/-- One value after the other. -/
def pair (c : Codec α) (d : Codec β) : Codec (α × β) where
  size := c.size + d.size
  encode x := c.encode x.1 ++ d.encode x.2
  decode bs := (c.decode (bs.take c.size), d.decode (bs.drop c.size))
  length_encode x := by rw [List.length_append, c.length_encode, d.length_encode]
  decode_encode x := by
    rw [List.take_left' (c.length_encode x.1), List.drop_left' (c.length_encode x.1),
      c.decode_encode, d.decode_encode]

/-- The values of another type. -/
def rename (c : Codec α) (f : β → α) (g : α → β) (h : ∀ b, g (f b) = b) : Codec β where
  size := c.size
  encode b := c.encode (f b)
  decode bs := g (c.decode bs)
  length_encode b := c.length_encode (f b)
  decode_encode b := by rw [c.decode_encode, h]

variable (c : Codec α)

/-- An array of records. -/
def encodeAll (l : List α) : List UInt8 := l.flatMap c.encode

/-- Read an array of `n` records. -/
def decodeAll : Nat → List UInt8 → List α
  | 0, _ => []
  | n + 1, bs => c.decode (bs.take c.size) :: decodeAll n (bs.drop c.size)

@[simp] theorem encodeAll_nil : c.encodeAll [] = [] := rfl

theorem encodeAll_cons (a : α) (l : List α) :
    c.encodeAll (a :: l) = c.encode a ++ c.encodeAll l := List.flatMap_cons

theorem encodeAll_append (l l' : List α) :
    c.encodeAll (l ++ l') = c.encodeAll l ++ c.encodeAll l' := List.flatMap_append

theorem length_encodeAll (l : List α) : (c.encodeAll l).length = c.size * l.length := by
  induction l with
  | nil => rfl
  | cons a l ih =>
    rw [encodeAll_cons, List.length_append, c.length_encode, ih, List.length_cons]
    ring

/-- Reading `n` records off a written array gives its first `n`. -/
theorem decodeAll_encodeAll {n : Nat} {l : List α} (h : n ≤ l.length) (bs : List UInt8) :
    c.decodeAll n (c.encodeAll l ++ bs) = l.take n := by
  induction n generalizing l with
  | zero => rw [List.take_zero]; rfl
  | succ n ih =>
    cases l with
    | nil => simp at h
    | cons a l =>
      rw [decodeAll, encodeAll_cons, List.append_assoc, List.take_left' (c.length_encode a),
        List.drop_left' (c.length_encode a), c.decode_encode, List.take_succ_cons,
        ih (by simpa using h)]

/-- An array of words that is read off any bytes is written as these. -/
theorem encodeAll_decodeAll_word {k n : Nat} {bs : List UInt8} (h : bs.length = k * n) :
    (word k).encodeAll ((word k).decodeAll n bs) = bs := by
  induction n generalizing bs with
  | zero => exact (List.length_eq_zero_iff.1 h).symm
  | succ n ih =>
    rw [Nat.mul_succ] at h
    have hlen : (bs.take k).length = k := by
      rw [List.length_take]
      omega
    have hlt := ofLEBytes_lt (bs.take k)
    rw [hlen, show (256 : Nat) = 2 ^ 8 from rfl, ← pow_mul] at hlt
    have hhead : (word k).encode ((word k).decode (bs.take k)) = bs.take k := by
      show leBytes k (BitVec.ofNat (8 * k) (ofLEBytes (bs.take k))).toNat = bs.take k
      have hbytes := leBytes_ofLEBytes (bs.take k)
      rw [hlen] at hbytes
      rw [BitVec.toNat_ofNat, Nat.mod_eq_of_lt hlt, hbytes]
    have htail : (word k).encodeAll ((word k).decodeAll n (bs.drop k)) = bs.drop k :=
      ih (by rw [List.length_drop]; omega)
    show (word k).encodeAll ((word k).decode (bs.take k) ::
      (word k).decodeAll n (bs.drop k)) = bs
    rw [encodeAll_cons, hhead, htail, List.take_append_drop]

theorem length_decodeAll (n : Nat) (bs : List UInt8) : (c.decodeAll n bs).length = n := by
  induction n generalizing bs with
  | zero => rfl
  | succ n ih => rw [decodeAll, List.length_cons, ih]

end Codec

/-! ## Bytes at a position -/

/-- The bytes `bs` stand in `file` from position `pos` on. -/
def At (file : List UInt8) (pos : Nat) (bs : List UInt8) : Prop :=
  ∃ a b, a.length = pos ∧ file = a ++ (bs ++ b)

variable {file bs bs' more : List UInt8} {pos : Nat}

theorem at_end (file bs : List UInt8) : At (file ++ bs) file.length bs :=
  ⟨file, [], rfl, by rw [List.append_nil]⟩

theorem At.append (h : At file pos bs) : At (file ++ more) pos bs := by
  obtain ⟨a, b, ha, rfl⟩ := h
  exact ⟨a, b ++ more, ha, by simp only [List.append_assoc]⟩

theorem At.left (h : At file pos (bs ++ bs')) : At file pos bs := by
  obtain ⟨a, b, ha, rfl⟩ := h
  exact ⟨a, bs' ++ b, ha, by simp only [List.append_assoc]⟩

theorem At.right (h : At file pos (bs ++ bs')) : At file (pos + bs.length) bs' := by
  obtain ⟨a, b, ha, rfl⟩ := h
  exact ⟨a ++ bs, b, by rw [List.length_append, ha], by simp only [List.append_assoc]⟩

theorem At.length_le (h : At file pos bs) : pos + bs.length ≤ file.length := by
  obtain ⟨a, b, rfl, rfl⟩ := h
  simp only [List.length_append]
  omega

theorem At.take_drop (h : At file pos bs) : (file.drop pos).take bs.length = bs := by
  obtain ⟨a, b, ha, rfl⟩ := h
  rw [List.drop_left' ha, List.take_left' rfl]

/-- The first `n` records of an array at a position. -/
theorem At.decodeAll {α : Type} {c : Codec α} {l : List α} {n : Nat}
    (h : At file pos (c.encodeAll l)) (hn : n ≤ l.length) :
    c.decodeAll n ((file.drop pos).take (c.size * n)) = l.take n := by
  rw [← List.take_append_drop n l, c.encodeAll_append] at h
  have hlen : c.size * n = (c.encodeAll (l.take n)).length := by
    rw [c.length_encodeAll, List.length_take, Nat.min_eq_left hn]
  rw [hlen, h.left.take_drop, ← List.append_nil (c.encodeAll _),
    c.decodeAll_encodeAll (by rw [List.length_take, Nat.min_eq_left hn]), List.take_take,
    Nat.min_self]

/-- Other bytes of the same number may take the place of the first ones. -/
theorem At.replace {old new : List UInt8} (h : At (old ++ file) pos bs) (ho : old.length ≤ pos)
    (hl : new.length = old.length) : At (new ++ file) pos bs := by
  obtain ⟨a, b, ha, he⟩ := h
  refine ⟨new ++ a.drop old.length, b, ?_, ?_⟩
  · rw [List.length_append, List.length_drop]
    omega
  · have hd : file = a.drop old.length ++ (bs ++ b) := by
      have := congrArg (List.drop old.length) he
      rwa [List.drop_left' rfl, List.drop_append_of_le_length (by omega)] at this
    rw [hd, List.append_assoc]

/-- The record that is read at a position. -/
def Codec.recordAt {α : Type} (c : Codec α) (file : List UInt8) (pos : Nat) : α :=
  c.decode ((file.drop pos).take c.size)

theorem At.recordAt {α : Type} {c : Codec α} {a : α} (h : At file pos (c.encode a)) :
    c.recordAt file pos = a := by
  have ht := h.take_drop
  rw [c.length_encode] at ht
  rw [Codec.recordAt, ht, c.decode_encode]

end Lib
