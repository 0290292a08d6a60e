import Mathlib.Data.List.Basic
import Lib3MF.Common.Exception

/-!
# Paged vectors

`CPagedVector`: elements in blocks of a fixed size. A block is never moved, so a pointer to an
element is the number of its block and its place there. An element of the head block that is not
allocated yet is not in the model's block.
-/

namespace NMR

/-- A pointer to an element: the number of its block, and the place in it. -/
structure PagePointer where
  block : Nat
  place : Nat
  deriving DecidableEq

/-- `CPagedVector`. All blocks before the head block are full. -/
structure PagedVector (α : Type) (blockSize : Nat) where
  count : Nat
  blocks : List (List α)
  pos : 0 < blockSize
  count_eq : count = blocks.flatten.length
  full : ∀ b ∈ blocks.dropLast, b.length = blockSize
  headBlock : ∀ b, blocks.getLast? = some b → 0 < b.length ∧ b.length ≤ blockSize

namespace PagedVector

variable {α : Type} {blockSize : Nat}

/-- The elements in their order. -/
def toList (v : PagedVector α blockSize) : List α := v.blocks.flatten

/-- A new vector. -/
def empty (pos : 0 < blockSize) : PagedVector α blockSize := ⟨0, [], pos, rfl, nofun, nofun⟩

theorem length_flatten {blocks : List (List α)} (h : ∀ b ∈ blocks, b.length = blockSize) :
    blocks.flatten.length = blocks.length * blockSize := by
  induction blocks with
  | nil => simp
  | cons b blocks ih =>
    rw [List.flatten_cons, List.length_append, h b List.mem_cons_self,
      ih fun b hb => h b (List.mem_cons_of_mem _ hb), List.length_cons, Nat.succ_mul, Nat.add_comm]

/-- The blocks: none, or full ones and the head block. -/
theorem blocks_cases (v : PagedVector α blockSize) :
    v.blocks = [] ∧ v.count = 0 ∨
      ∃ full head, v.blocks = full ++ [head] ∧ (∀ b ∈ full, b.length = blockSize) ∧
        0 < head.length ∧ head.length ≤ blockSize ∧
        v.count = full.length * blockSize + head.length := by
  obtain h | ⟨full, head, h⟩ := List.eq_nil_or_concat v.blocks
  · refine .inl ⟨h, ?_⟩
    rw [v.count_eq, h]
    rfl
  · have hfull : ∀ b ∈ full, b.length = blockSize := by
      intro b hb
      apply v.full
      rwa [h, List.concat_eq_append, List.dropLast_concat]
    have hhead := v.headBlock head (by rw [h, List.concat_eq_append, List.getLast?_concat])
    refine .inr ⟨full, head, by rw [h, List.concat_eq_append], hfull, hhead.1, hhead.2, ?_⟩
    rw [v.count_eq, h, List.concat_eq_append, List.flatten_append, List.length_append,
      length_flatten hfull]
    simp

/-- A new block is allocated exactly when the head block is full. -/
theorem headBlock_full (v : PagedVector α blockSize) (h : v.count % blockSize = 0) :
    ∀ b ∈ v.blocks, b.length = blockSize := by
  obtain ⟨hnil, -⟩ | ⟨full, head, hb, hfull, hpos, hle, hcount⟩ := v.blocks_cases
  · rw [hnil]
    exact nofun
  · intro b hmem
    rw [hb] at hmem
    obtain hmem | hmem := List.mem_append.1 hmem
    · exact hfull b hmem
    · rw [List.mem_singleton.1 hmem]
      by_contra hne
      have hlt : head.length < blockSize := by omega
      rw [hcount, Nat.mul_add_mod_of_lt hlt] at h
      omega

/-- Otherwise there is a head block with room, which holds what the full ones do not. -/
theorem headBlock_room (v : PagedVector α blockSize) (h : v.count % blockSize ≠ 0) :
    ∃ head, v.blocks = v.blocks.dropLast ++ [head] ∧ head.length = v.count % blockSize ∧
      head.length < blockSize ∧ v.count / blockSize = v.blocks.dropLast.length := by
  obtain ⟨-, hzero⟩ | ⟨full, head, hb, hfull, hpos, hle, hcount⟩ := v.blocks_cases
  · rw [hzero, Nat.zero_mod] at h
    exact absurd rfl h
  · have hlt : head.length < blockSize := by
      obtain hlt | heq := Nat.lt_or_eq_of_le hle
      · exact hlt
      · rw [hcount, heq, Nat.mul_add_mod', Nat.mod_self] at h
        exact absurd rfl h
    refine ⟨head, by rw [hb, List.dropLast_concat], ?_, hlt, ?_⟩
    · rw [hcount, Nat.mul_add_mod_of_lt hlt]
    · rw [hcount, hb, List.dropLast_concat, Nat.mul_comm, Nat.mul_add_div v.pos,
        Nat.div_eq_of_lt hlt, Nat.add_zero]

/-! ## Operations -/

/-- `allocData`, with what is written to the new element. -/
def allocData (v : PagedVector α blockSize) (a : α) : PagedVector α blockSize × PagePointer :=
  if h : v.count % blockSize = 0 then
    ({ count := v.count + 1
       blocks := v.blocks ++ [[a]]
       pos := v.pos
       count_eq := by simp [v.count_eq]
       full := fun b hb => v.headBlock_full h b (by rwa [List.dropLast_concat] at hb)
       headBlock := fun b hb => by
         rw [List.getLast?_concat] at hb
         obtain rfl := Option.some.inj hb
         exact ⟨Nat.one_pos, v.pos⟩ },
      ⟨v.blocks.length, 0⟩)
  else
    ({ count := v.count + 1
       blocks := v.blocks.dropLast ++ [v.blocks.getLast?.getD [] ++ [a]]
       pos := v.pos
       count_eq := by
         obtain ⟨head, hb, -⟩ := v.headBlock_room h
         rw [v.count_eq, hb, List.dropLast_concat, List.getLast?_concat]
         simp [Nat.add_assoc]
       full := fun b hb => v.full b (by rwa [List.dropLast_concat] at hb)
       headBlock := fun b hb => by
         obtain ⟨head, hblocks, -, hlt, -⟩ := v.headBlock_room h
         rw [List.getLast?_concat, hblocks, List.getLast?_concat] at hb
         obtain rfl := Option.some.inj hb
         simp only [Option.getD_some, List.length_append, List.length_singleton]
         omega },
      ⟨v.blocks.length - 1, v.count % blockSize⟩)

/-- The address of the element of an index. -/
def pointerTo (blockSize i : Nat) : PagePointer := ⟨i / blockSize, i % blockSize⟩

/-- `getData`. -/
def getData (v : PagedVector α blockSize) (i : Nat) : Except Error PagePointer :=
  if v.count ≤ i then .error .invalidIndex else .ok (pointerTo blockSize i)

/-- What a pointer points to. -/
def deref (v : PagedVector α blockSize) (p : PagePointer) : Option α :=
  v.blocks[p.block]?.bind (·[p.place]?)

theorem length_toList (v : PagedVector α blockSize) : v.toList.length = v.count := v.count_eq.symm

@[simp] theorem toList_empty (pos : 0 < blockSize) :
    (empty pos : PagedVector α blockSize).toList = [] := rfl

/-- An allocated element is the last one, and its pointer the address of its index. -/
theorem allocData_spec (v : PagedVector α blockSize) (a : α) :
    (v.allocData a).1.toList = v.toList ++ [a] ∧
      (v.allocData a).2 = pointerTo blockSize v.count := by
  unfold allocData toList pointerTo
  by_cases h : v.count % blockSize = 0
  · rw [dif_pos h]
    have hblocks := v.headBlock_full h
    have hcount : v.count = v.blocks.length * blockSize := by
      rw [v.count_eq, length_flatten hblocks]
    refine ⟨by simp, ?_⟩
    simp only [PagePointer.mk.injEq, h, and_true]
    rw [hcount, Nat.mul_div_cancel _ v.pos]
  · rw [dif_neg h]
    obtain ⟨head, hb, hlen, hlt, hdiv⟩ := v.headBlock_room h
    refine ⟨?_, ?_⟩
    · dsimp only
      conv_rhs => rw [hb]
      rw [hb, List.dropLast_concat, List.getLast?_concat]
      simp
    · simp only [PagePointer.mk.injEq, and_true]
      rw [hdiv, List.length_dropLast]

/-- Element `i` of the blocks together is in block `i / blockSize`. -/
theorem getElem?_flatten (pos : 0 < blockSize) {full : List (List α)} {head : List α}
    (hfull : ∀ b ∈ full, b.length = blockSize) (hhead : head.length ≤ blockSize) (i : Nat) :
    (full ++ [head]).flatten[i]? =
      (full ++ [head])[i / blockSize]?.bind (·[i % blockSize]?) := by
  induction full generalizing i with
  | nil =>
    by_cases hi : i < blockSize
    · simp [Nat.div_eq_of_lt hi, Nat.mod_eq_of_lt hi]
    · have hdiv : i / blockSize ≠ 0 := by
        have := Nat.div_pos (Nat.le_of_not_lt hi) pos
        omega
      obtain ⟨k, hk⟩ := Nat.exists_eq_succ_of_ne_zero hdiv
      simp [hk, List.getElem?_eq_none (show head.length ≤ i by omega)]
  | cons b full ih =>
    have hb := hfull b List.mem_cons_self
    rw [List.cons_append, List.flatten_cons]
    by_cases hi : i < blockSize
    · rw [List.getElem?_append_left (by omega), Nat.div_eq_of_lt hi, Nat.mod_eq_of_lt hi]
      rfl
    · have hsub : i = (i - blockSize) + blockSize := by omega
      rw [List.getElem?_append_right (by omega), hb,
        ih (fun b hb => hfull b (List.mem_cons_of_mem _ hb))]
      conv_rhs => rw [hsub, Nat.add_div_right _ pos, Nat.add_mod_right]
      rfl

/-- The address of an index points to the element. -/
theorem deref_pointerTo (v : PagedVector α blockSize) (i : Nat) :
    v.deref (pointerTo blockSize i) = v.toList[i]? := by
  obtain ⟨hnil, -⟩ | ⟨full, head, hb, hfull, -, hle, -⟩ := v.blocks_cases
  · simp [deref, toList, hnil]
  · unfold deref toList pointerTo
    rw [hb, getElem?_flatten v.pos hfull hle]

/-- Different elements have different addresses. -/
theorem pointerTo_inj {i j : Nat} (h : pointerTo blockSize i = pointerTo blockSize j) : i = j := by
  obtain ⟨hdiv, hmod⟩ := PagePointer.mk.inj h
  rw [← Nat.div_add_mod i blockSize, ← Nat.div_add_mod j blockSize, hdiv, hmod]

/-- **A pointer stays valid**: allocating does not move what it points to. -/
theorem deref_allocData {v : PagedVector α blockSize} {i : Nat} {x : α}
    (h : v.deref (pointerTo blockSize i) = some x) (a : α) :
    (v.allocData a).1.deref (pointerTo blockSize i) = some x := by
  rw [deref_pointerTo] at h ⊢
  rw [(v.allocData_spec a).1, List.getElem?_append_left (List.getElem?_eq_some_iff.1 h).1, h]

end PagedVector

end NMR
