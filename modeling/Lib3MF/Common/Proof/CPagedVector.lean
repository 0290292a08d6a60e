import Mathlib.Data.List.Nodup
import Lib3MF.Common.CPagedVector
import Lib3MF.Common.PagedVector
import Lib3MF.Lib.Run

/-!
# Paged vectors as lists

`Lists v ptrs xs`: the elements allocated since the last clear lie at `ptrs` and are `xs`, in this
order. Allocating appends to both lists (`Lists.allocData`), a write changes one element
(`Lists.write`), and no element ever moves. So the memory stores a `PagedVector` (`Stores`), which
the calls change alike. The count has 32 bits, so it is the number of elements as long as there are
fewer than `2^32` of them (`agrees_iff`).
-/

namespace NMR

open Lib

namespace CPagedVector

variable {α : Type} {v v' : CPagedVector α} {ptrs : List Pointer} {xs : List α}

/-- Where the elements lie, and what they are. -/
structure Lists (v : CPagedVector α) (ptrs : List Pointer) (xs : List α) : Prop where
  pos : v.blockSize ≠ 0
  room : ptrs.length ≤ v.blocks.length * v.blockSize.toNat
  tight : v.blocks.length * v.blockSize.toNat < ptrs.length + v.blockSize.toNat
  head : v.headBlock = v.blocks.getLast?
  nodup : v.blocks.Nodup
  cells : ∀ b ∈ v.blocks, ∃ l, v.memory.cells b = some l ∧ l.length = v.blockSize.toNat
  pointers : ∀ i p, ptrs[i]? = some p →
    v.blocks[i / v.blockSize.toNat]? = some p.array ∧ p.place = i % v.blockSize.toNat
  values : ptrs.map v.memory.read = xs.map some

/-- The count is the number of elements. -/
def Counts (v : CPagedVector α) (ptrs : List Pointer) : Prop := v.count.toNat = ptrs.length

theorem Lists.blockSize_pos (h : Lists v ptrs xs) : 0 < v.blockSize.toNat := by
  refine Nat.pos_of_ne_zero fun hc => h.pos ?_
  exact BitVec.eq_of_toNat_eq hc

theorem Lists.length_eq (h : Lists v ptrs xs) : ptrs.length = xs.length := by
  simpa using congrArg List.length h.values

theorem Lists.read (h : Lists v ptrs xs) {i : Nat} {p : Pointer} (hp : ptrs[i]? = some p) :
    ∃ x, xs[i]? = some x ∧ v.memory.read p = some x := by
  have hv := congrArg (·[i]?) h.values
  simp only [List.getElem?_map, hp, Option.map_some] at hv
  obtain ⟨x, hx, he⟩ := Option.map_eq_some_iff.1 hv.symm
  exact ⟨x, hx, he.symm⟩

/-- No two elements lie at one place. -/
theorem Lists.nodup_pointers (h : Lists v ptrs xs) : ptrs.Nodup := by
  rw [List.nodup_iff_getElem?_ne_getElem?]
  intro i j hij hj he
  obtain ⟨p, hp⟩ : ∃ p, ptrs[j]? = some p := ⟨_, List.getElem?_eq_getElem hj⟩
  obtain ⟨hbi, hpi⟩ := h.pointers i p (he.trans hp)
  obtain ⟨hbj, hpj⟩ := h.pointers j p hp
  have hlt : i / v.blockSize.toNat < v.blocks.length := (List.getElem?_eq_some_iff.1 hbi).1
  have hdiv : i / v.blockSize.toNat = j / v.blockSize.toNat :=
    (List.getElem?_inj hlt h.nodup).1 (hbi.trans hbj.symm)
  have hi := Nat.div_add_mod i v.blockSize.toNat
  have hj' := Nat.div_add_mod j v.blockSize.toNat
  rw [hdiv, ← hpi, hpj] at hi
  omega

theorem lists_create {blockSize : BitVec 32} (h : create blockSize = .ok v) :
    Lists v [] [] ∧ Counts v [] := by
  unfold create at h
  split_ifs at h with hb
  obtain rfl := Except.ok.inj h
  refine ⟨⟨hb, Nat.zero_le _, ?_, rfl, List.nodup_nil, nofun, nofun, rfl⟩, rfl⟩
  have : blockSize.toNat ≠ 0 := fun hc => hb (BitVec.eq_of_toNat_eq hc)
  simp only [List.length_nil]
  omega

theorem lists_new : Lists (new : CPagedVector α) [] [] ∧ Counts (new : CPagedVector α) [] :=
  @lists_create _ _ 1024 (if_neg (by decide))

theorem Lists.clearAllData (h : Lists v ptrs xs) :
    Lists v.clearAllData [] [] ∧ Counts v.clearAllData [] := by
  refine ⟨⟨h.pos, Nat.zero_le _, ?_, rfl, List.nodup_nil, nofun, nofun, rfl⟩, rfl⟩
  have hpos := h.blockSize_pos
  simp only [CPagedVector.clearAllData, List.length_nil]
  omega

/-- A full head block: the elements fill all blocks. -/
theorem Lists.length_of_full (h : Lists v ptrs xs) (hm : ptrs.length % v.blockSize.toNat = 0) :
    ptrs.length = v.blocks.length * v.blockSize.toNat := by
  have hr := h.room
  have ht := h.tight
  have hpos := h.blockSize_pos
  have hlt : v.blocks.length * v.blockSize.toNat - ptrs.length < v.blockSize.toNat := by omega
  have hd : (v.blocks.length * v.blockSize.toNat - ptrs.length) % v.blockSize.toNat = 0 :=
    Nat.sub_mod_eq_zero_of_mod_eq (by rw [Nat.mul_mod_left, hm])
  rw [Nat.mod_eq_of_lt hlt] at hd
  omega

/-- Otherwise the next element lies in the head block. -/
theorem Lists.head_of_room (h : Lists v ptrs xs) (hm : ptrs.length % v.blockSize.toNat ≠ 0) :
    ∃ b, v.headBlock = some b ∧ v.blocks[ptrs.length / v.blockSize.toNat]? = some b ∧
      ptrs.length < v.blocks.length * v.blockSize.toNat := by
  have hlt : ptrs.length < v.blocks.length * v.blockSize.toNat := by
    refine Nat.lt_of_le_of_ne h.room fun hc => hm ?_
    rw [hc, Nat.mul_mod_left]
  have h1 : ptrs.length / v.blockSize.toNat < v.blocks.length :=
    Nat.div_lt_of_lt_mul (by rwa [Nat.mul_comm])
  have h2 : v.blocks.length ≤ ptrs.length / v.blockSize.toNat + 1 := by
    rw [← Nat.add_div_right _ h.blockSize_pos, Nat.le_div_iff_mul_le h.blockSize_pos]
    exact Nat.le_of_lt h.tight
  have hl : v.blocks.length - 1 = ptrs.length / v.blockSize.toNat := by
    rw [Nat.le_antisymm h2 h1, Nat.add_sub_cancel]
  have hb := List.getElem?_eq_getElem h1
  refine ⟨_, ?_, hb, hlt⟩
  rw [h.head, List.getLast?_eq_getElem?, hl, hb]

/-- A new block is one more array, all of it room. -/
theorem newBlock_spec (v : CPagedVector α) (fresh : Nat → α) :
    ∃ b l, (v.newBlock fresh).headBlock = some b ∧ (v.newBlock fresh).blocks = v.blocks ++ [b] ∧
      v.memory.cells b = none ∧ l.length = v.blockSize.toNat ∧
      ∀ b', (v.newBlock fresh).memory.cells b' = if b' = b then some l else v.memory.cells b' := by
  refine ⟨_, (List.range v.blockSize.toNat).map fresh, rfl, rfl, Arrays.cells_next .., ?_,
    fun b' => Arrays.cells_new ..⟩
  rw [List.length_map, List.length_range]

/-- Taking the place behind the last element, in a block that has room for it. -/
theorem Lists.append {w : CPagedVector α} {b : Nat} (h : Lists v ptrs xs)
    (hsize : w.blockSize = v.blockSize) (hhead : w.headBlock = w.blocks.getLast?)
    (hpre : v.blocks <+: w.blocks) (hnodup : w.blocks.Nodup)
    (hcells : ∀ b ∈ w.blocks, ∃ l, w.memory.cells b = some l ∧ l.length = w.blockSize.toNat)
    (hold : ∀ p, (v.memory.read p).isSome → w.memory.read p = v.memory.read p)
    (hroom : ptrs.length < w.blocks.length * w.blockSize.toNat)
    (htight : w.blocks.length * w.blockSize.toNat ≤ ptrs.length + w.blockSize.toNat)
    (hb : w.blocks[ptrs.length / w.blockSize.toNat]? = some b) :
    ∃ x, Lists w (ptrs ++ [⟨b, ptrs.length % w.blockSize.toNat⟩]) (xs ++ [x]) := by
  have hpos := h.blockSize_pos
  rw [← hsize] at hpos
  obtain ⟨l, hl, hlen⟩ := hcells b (List.mem_of_getElem? hb)
  obtain ⟨x, hx⟩ : ∃ x, l[ptrs.length % w.blockSize.toNat]? = some x :=
    ⟨_, List.getElem?_eq_getElem (by rw [hlen]; exact Nat.mod_lt _ hpos)⟩
  have hread : w.memory.read ⟨b, ptrs.length % w.blockSize.toNat⟩ = some x := by
    rw [Arrays.read, hl, Option.bind_some, hx]
  refine ⟨x, hsize ▸ h.pos, ?_, ?_, hhead, hnodup, hcells, fun i p hp => ?_, ?_⟩
  · rw [List.length_append, List.length_singleton]
    exact hroom
  · rw [List.length_append, List.length_singleton]
    omega
  · rw [List.getElem?_append] at hp
    split_ifs at hp with hi
    · obtain ⟨hbi, hpi⟩ := h.pointers i p hp
      rw [hsize]
      obtain ⟨t, ht⟩ := hpre
      rw [← ht, List.getElem?_append_left (List.getElem?_eq_some_iff.1 hbi).1]
      exact ⟨hbi, hpi⟩
    · rw [List.getElem?_singleton] at hp
      split_ifs at hp with h0
      have hi' : i = ptrs.length := by omega
      obtain rfl := Option.some.inj hp
      rw [hi']
      exact ⟨hb, rfl⟩
  · rw [List.map_append, List.map_append, List.map_singleton, List.map_singleton, hread,
      ← h.values]
    congr 1
    refine List.map_congr_left fun p hp => hold p ?_
    obtain ⟨i, hi⟩ := List.mem_iff_getElem?.1 hp
    obtain ⟨y, -, hy⟩ := h.read hi
    simp [hy]

/-- The first element of a new block. -/
theorem Lists.append_newBlock (h : Lists v ptrs xs)
    (hm : ptrs.length % v.blockSize.toNat = 0) (fresh : Nat → α) (count : BitVec 32) :
    ∃ b x, (v.newBlock fresh).headBlock = some b ∧
      Lists { v.newBlock fresh with count } (ptrs ++ [⟨b, ptrs.length % v.blockSize.toNat⟩])
        (xs ++ [x]) := by
  have hfull := h.length_of_full hm
  have hpos := h.blockSize_pos
  obtain ⟨b, l, hhead, hblocks, hnone, hlen, hcells⟩ := v.newBlock_spec fresh
  have hnew : b ∉ v.blocks := by
    intro hb
    obtain ⟨l', hl', -⟩ := h.cells b hb
    rw [hnone] at hl'
    cases hl'
  have hlength : (v.newBlock fresh).blocks.length = v.blocks.length + 1 := by
    rw [hblocks, List.length_append, List.length_singleton]
  have hsize : (v.newBlock fresh).blockSize = v.blockSize := rfl
  obtain ⟨x, hx⟩ := h.append (w := { v.newBlock fresh with count }) (b := b) hsize
    (by rw [hhead, hblocks, List.getLast?_concat])
    (by rw [hblocks]; exact List.prefix_append ..)
    (by
      rw [hblocks, List.nodup_append]
      refine ⟨h.nodup, List.nodup_singleton _, fun a ha c hc => ?_⟩
      rw [List.mem_singleton.1 hc]
      rintro rfl
      exact hnew ha)
    (by
      intro b' hb'
      rw [hblocks, List.mem_append, List.mem_singleton] at hb'
      rw [hcells]
      rcases hb' with hb' | rfl
      · rw [if_neg (by rintro rfl; exact hnew hb')]
        exact h.cells b' hb'
      · exact ⟨l, if_pos rfl, hlen⟩)
    (by
      intro p hp
      rw [Arrays.read, hcells, Arrays.read, if_neg]
      intro hpb
      rw [Arrays.read, hpb, hnone] at hp
      cases hp)
    (by rw [hlength, hsize, Nat.succ_mul]; omega)
    (by rw [hlength, hsize, Nat.succ_mul]; omega)
    (by
      dsimp only
      rw [hsize, hblocks, hfull, Nat.mul_div_cancel _ hpos, List.getElem?_concat_length])
  exact ⟨b, x, hhead, hx⟩

/-- The next element of the head block. -/
theorem Lists.append_head (h : Lists v ptrs xs) (hm : ptrs.length % v.blockSize.toNat ≠ 0)
    (count : BitVec 32) :
    ∃ b x, v.headBlock = some b ∧
      Lists { v with count } (ptrs ++ [⟨b, ptrs.length % v.blockSize.toNat⟩]) (xs ++ [x]) := by
  obtain ⟨b, hhead, hb, hroom⟩ := h.head_of_room hm
  obtain ⟨x, hx⟩ := h.append (w := { v with count }) rfl h.head List.prefix_rfl h.nodup h.cells
    (fun _ _ => rfl) hroom (Nat.le_of_lt h.tight) hb
  exact ⟨b, x, hhead, hx⟩

/-- **Allocating**: the new element has the next index and lies behind the others, where they are
and what they are stays, and the count is one more, in 32 bits. -/
theorem Lists.allocData (h : Lists v ptrs xs) (hc : Counts v ptrs) (fresh : Nat → α) :
    ∃ w p x, v.allocData fresh = .ok (w, v.count, p) ∧ Lists w (ptrs ++ [p]) (xs ++ [x]) ∧
      w.count = v.count + 1 := by
  have hmod : (v.count % v.blockSize).toNat = ptrs.length % v.blockSize.toNat := by
    rw [BitVec.toNat_umod, hc]
  have hzero : v.count % v.blockSize = 0 ↔ ptrs.length % v.blockSize.toNat = 0 := by
    rw [← hmod]
    exact ⟨fun he => by rw [he]; rfl, fun he => BitVec.eq_of_toNat_eq he⟩
  by_cases hm : ptrs.length % v.blockSize.toNat = 0
  · obtain ⟨b, x, hhead, hx⟩ := h.append_newBlock hm fresh (v.count + 1)
    refine ⟨_, _, x, ?_, hx, rfl⟩
    simp only [CPagedVector.allocData, if_pos (hzero.2 hm), hhead, hmod]
    rfl
  · obtain ⟨b, x, hhead, hx⟩ := h.append_head hm (v.count + 1)
    refine ⟨_, _, x, ?_, hx, rfl⟩
    simp only [CPagedVector.allocData, if_neg (mt hzero.1 hm), hhead, hmod]

/-- **Reading an index**: each element is where it was allocated, and there are no others. -/
theorem Lists.getData (h : Lists v ptrs xs) (hc : Counts v ptrs) (i : BitVec 32) :
    v.getData i = match ptrs[i.toNat]? with
      | some p => .ok p
      | none => .error (.throws .invalidIndex) := by
  unfold CPagedVector.getData
  have hle : v.count ≤ i ↔ ptrs.length ≤ i.toNat := by
    rw [BitVec.le_def, hc]
  by_cases hi : ptrs.length ≤ i.toNat
  · rw [if_pos (hle.2 hi), List.getElem?_eq_none hi]
  · rw [if_neg (mt hle.1 hi)]
    obtain ⟨p, hp⟩ : ∃ p, ptrs[i.toNat]? = some p := ⟨_, List.getElem?_eq_getElem (by omega)⟩
    obtain ⟨hb, hpl⟩ := h.pointers i.toNat p hp
    rw [← BitVec.toNat_udiv] at hb
    rw [hp, elementAt_of_getElem? hb]
    simp only [bind, Except.bind, BitVec.toNat_umod, ← hpl]

/-- **Writing an element** changes this one. -/
theorem Lists.write (h : Lists v ptrs xs) {i : Nat} {p : Pointer} (hp : ptrs[i]? = some p)
    (a : α) : Lists (v.write p a) ptrs (xs.set i a) := by
  obtain ⟨x, hx, hread⟩ := h.read hp
  refine ⟨h.pos, h.room, h.tight, h.head, h.nodup, fun b hb => ?_, h.pointers, ?_⟩
  · obtain ⟨l, hl, hlen⟩ := h.cells b hb
    simp only [CPagedVector.write, Arrays.cells_write, hl]
    split_ifs
    · exact ⟨_, rfl, by rw [List.length_set, hlen]⟩
    · exact ⟨l, rfl, hlen⟩
  · refine List.ext_getElem? fun j => ?_
    rw [List.getElem?_map, List.getElem?_map]
    cases hj : ptrs[j]? with
    | none =>
      have hlen := List.getElem?_eq_none_iff.1 hj
      rw [List.getElem?_eq_none (by rw [List.length_set, ← h.length_eq]; exact hlen)]
      rfl
    | some q =>
      obtain ⟨y, hy, hq⟩ := h.read hj
      have hlt := (List.getElem?_eq_some_iff.1 hp).1
      have hpq : q = p ↔ i = j := by
        constructor
        · rintro rfl
          exact (List.getElem?_inj hlt h.nodup_pointers).1 (hp.trans hj.symm)
        · rintro rfl
          exact Option.some.inj (hj.symm.trans hp)
      simp only [CPagedVector.write, Option.map_some]
      rw [Arrays.read_write (by simp [hread]), List.getElem?_set]
      by_cases hij : i = j
      · rw [if_pos (hpq.2 hij), if_pos hij, if_pos (by rw [← h.length_eq]; exact hlt)]
        rfl
      · rw [if_neg (mt hpq.1 hij), if_neg hij, hq, hy]
        rfl

theorem Lists.deref (h : Lists v ptrs xs) {i : Nat} {p : Pointer} {x : α}
    (hp : ptrs[i]? = some p) (hx : xs[i]? = some x) : v.deref p = .ok x := by
  obtain ⟨y, hy, hread⟩ := h.read hp
  obtain rfl := Option.some.inj (hx.symm.trans hy)
  rw [CPagedVector.deref, hread]

/-- An element that is allocated and written at once. -/
theorem Lists.allocData_write (h : Lists v ptrs xs) (hc : Counts v ptrs)
    (hlt : ptrs.length + 1 < 2 ^ 32) (fresh : Nat → α) (a : α) :
    ∃ w p, v.allocData fresh = .ok (w, v.count, p) ∧
      Lists (w.write p a) (ptrs ++ [p]) (xs ++ [a]) ∧ Counts (w.write p a) (ptrs ++ [p]) := by
  obtain ⟨w, p, x, hw, hl, hcount⟩ := h.allocData hc fresh
  refine ⟨w, p, hw, ?_, ?_⟩
  · have hset := hl.write (i := ptrs.length) (p := p) List.getElem?_concat_length a
    rwa [h.length_eq, List.set_append_right _ _ (Nat.le_refl _), Nat.sub_self] at hset
  · rw [Counts, List.length_append, List.length_singleton]
    change w.count.toNat = _
    rw [hcount, BitVec.toNat_add, hc]
    exact Nat.mod_eq_of_lt hlt

theorem Counts.write (hc : Counts v ptrs) (p : Pointer) (a : α) : Counts (v.write p a) ptrs := hc

/-! ## The vector apart from its memory -/

section Stores

variable {n : Nat} {u : PagedVector α n} {q : PagePointer} {p : Pointer}

/-- The memory has the elements of `u`, fewer than `2^32`, in blocks of the same size. -/
structure Stores (v : CPagedVector α) (u : PagedVector α n) : Prop where
  blockSize : v.blockSize.toNat = n
  lists : ∃ ptrs, Lists v ptrs u.toList ∧ Counts v ptrs

/-- The address in the memory of a page pointer. -/
def PointsTo (v : CPagedVector α) (q : PagePointer) (p : Pointer) : Prop :=
  v.blocks[q.block]? = some p.array ∧ p.place = q.place

theorem stores_create {blockSize : BitVec 32} (h : create blockSize = .ok v)
    (pos : 0 < blockSize.toNat) : Stores v (.empty pos : PagedVector α blockSize.toNat) := by
  refine ⟨?_, [], lists_create h⟩
  unfold create at h
  split_ifs at h
  rw [← Except.ok.inj h]

/-- The element of an index lies at its address. -/
theorem Lists.pointsTo (h : Lists v ptrs xs) (hn : v.blockSize.toNat = n) {i : Nat}
    (hp : ptrs[i]? = some p) : PointsTo v (PagedVector.pointerTo n i) p := by
  obtain ⟨hb, hpl⟩ := h.pointers i p hp
  rw [hn] at hb hpl
  exact ⟨hb, hpl⟩

/-- **An element is allocated and written in both**, at the same address. -/
theorem Stores.allocData (h : Stores v u) (hlt : u.count + 1 < 2 ^ 32) (fresh : Nat → α) (a : α) :
    ∃ w p, v.allocData fresh = .ok (w, v.count, p) ∧ Stores (w.write p a) (u.allocData a).1 ∧
      PointsTo (w.write p a) (u.allocData a).2 p := by
  obtain ⟨ptrs, hl, hc⟩ := h.lists
  obtain ⟨hlist, hpointer⟩ := u.allocData_spec a
  have hlen : ptrs.length = u.count := by rw [hl.length_eq, u.length_toList]
  obtain ⟨w, p, hw, hl', hc'⟩ := hl.allocData_write hc (by rwa [hlen]) fresh a
  have hsize : (w.write p a).blockSize.toNat = n := by
    rw [← h.blockSize]
    unfold CPagedVector.allocData at hw
    dsimp only at hw
    split at hw
    · cases hw
    · obtain rfl := (Prod.mk.inj (Except.ok.inj hw)).1
      dsimp only [CPagedVector.write]
      split_ifs <;> rfl
  refine ⟨w, p, hw, ⟨hsize, _, ?_, hc'⟩, ?_⟩
  · rw [hlist]
    exact hl'
  · rw [hpointer, ← hlen]
    exact hl'.pointsTo hsize List.getElem?_concat_length

/-- **An index is read in both**: at the same address, or not at all. -/
theorem Stores.getData (h : Stores v u) (i : BitVec 32) :
    (∃ p q, v.getData i = .ok p ∧ u.getData i.toNat = .ok q ∧ PointsTo v q p ∧
        ∃ a, v.deref p = .ok a ∧ u.deref q = some a) ∨
      v.getData i = .error (.throws .invalidIndex) ∧ u.getData i.toNat = .error .invalidIndex := by
  obtain ⟨ptrs, hl, hc⟩ := h.lists
  have hlen : ptrs.length = u.count := by rw [hl.length_eq, u.length_toList]
  have hget := hl.getData hc i
  cases hp : ptrs[i.toNat]? with
  | none =>
    rw [hp] at hget
    refine .inr ⟨hget, if_pos ?_⟩
    rw [← hlen]
    exact List.getElem?_eq_none_iff.1 hp
  | some p =>
    rw [hp] at hget
    have hi := (List.getElem?_eq_some_iff.1 hp).1
    obtain ⟨a, ha, -⟩ := hl.read hp
    refine .inl ⟨p, _, hget, if_neg (by omega), hl.pointsTo h.blockSize hp, a, hl.deref hp ha, ?_⟩
    rw [PagedVector.deref_pointerTo, ha]

end Stores

/-! ## Runs -/

/-- The calls on a vector, and a write to the element of an index. -/
inductive Call (α : Type) where
  | allocData (fresh : Nat → α)
  | write (idx : BitVec 32) (a : α)
  | clearAllData

/-- An element allocated since the last clear: the index and the pointer `allocData` gave, and what
is to be found there. -/
structure Element (α : Type) where
  index : BitVec 32
  pointer : Pointer
  value : Option α

/-- A call, beside the elements allocated since the last clear. An element is what it was when it
was allocated, until it is written. -/
def next (s : CPagedVector α × List (Element α)) :
    Call α → CPagedVector α × List (Element α)
  | .allocData fresh =>
    match s.1.allocData fresh with
    | .ok (v, idx, p) => (v, s.2 ++ [⟨idx, p, v.memory.read p⟩])
    | .error _ => s
  | .write idx a =>
    match s.1.getData idx with
    | .ok p => (s.1.write p a, s.2.modify idx.toNat fun e => { e with value := some a })
    | .error _ => s
  | .clearAllData => (s.1.clearAllData, [])

/-- The vector and the elements allocated agree. -/
structure Agrees (v : CPagedVector α) (es : List (Element α)) : Prop where
  count : v.getCount.toNat = es.length
  index : ∀ (i : Nat) (e : Element α), es[i]? = some e → e.index.toNat = i
  getData : ∀ i, v.getData i = match es[i.toNat]? with
    | some e => .ok e.pointer
    | none => .error (.throws .invalidIndex)
  distinct : (es.map Element.pointer).Nodup
  kept : ∀ e ∈ es, v.memory.read e.pointer = e.value ∧ e.value.isSome
  allocates : ∀ fresh, ∃ r, v.allocData fresh = .ok r

/-- The number of allocations since the last clear. -/
def allocatedSinceClear (n : Nat) : Call α → Nat
  | .allocData _ => n + 1
  | .write _ _ => n
  | .clearAllData => 0

/-- The elements, as lists. -/
structure Elements (v : CPagedVector α) (es : List (Element α)) (xs : List α) :
    Prop where
  lists : Lists v (es.map Element.pointer) xs
  index : ∀ (i : Nat) (e : Element α), es[i]? = some e → e.index.toNat = i
  values : es.map Element.value = xs.map some

variable {es : List (Element α)}

theorem Elements.agrees (h : Elements v es xs) (hc : v.count.toNat = es.length) :
    Agrees v es where
  count := hc
  index := h.index
  getData i := by
    rw [h.lists.getData (by rwa [Counts, List.length_map]), List.getElem?_map]
    cases es[i.toNat]? <;> rfl
  distinct := h.lists.nodup_pointers
  kept e he := by
    obtain ⟨i, hi⟩ := List.mem_iff_getElem?.1 he
    obtain ⟨x, hx, hr⟩ := h.lists.read (i := i) (p := e.pointer) (by simp [hi])
    have hv := congrArg (·[i]?) h.values
    simp only [List.getElem?_map, hi, hx, Option.map_some, Option.some.injEq] at hv
    exact ⟨hr.trans hv.symm, by rw [hv]; rfl⟩
  allocates fresh := by
    obtain ⟨w, p, x, hw, -⟩ := h.lists.allocData (by rwa [Counts, List.length_map]) fresh
    exact ⟨_, hw⟩

/-- One call. -/
theorem Elements.call (h : Elements v es xs) (hc : v.count.toNat = es.length)
    (c : Call α) :
    ∃ xs', Elements (next (v, es) c).1 (next (v, es) c).2 xs' ∧
      (next (v, es) c).2.length = allocatedSinceClear es.length c ∧
      (next (v, es) c).1.count = BitVec.ofNat 32 (allocatedSinceClear es.length c) := by
  have hcounts : Counts v (es.map Element.pointer) := by rwa [Counts, List.length_map]
  have hcount : v.count = BitVec.ofNat 32 es.length := by
    rw [← hc, BitVec.ofNat_toNat, BitVec.setWidth_eq]
  cases c with
  | allocData fresh =>
    obtain ⟨w, p, x, hw, hl, hwc⟩ := h.lists.allocData hcounts fresh
    have hn : CPagedVector.next (v, es) (.allocData fresh) =
        (w, es ++ [⟨v.count, p, w.memory.read p⟩]) := by
      simp only [CPagedVector.next, hw]
    obtain ⟨y, hy, hread⟩ := hl.read (i := es.length) (p := p) (by
      rw [show es.length = (es.map Element.pointer).length from (List.length_map _).symm,
        List.getElem?_concat_length])
    rw [hn]
    refine ⟨xs ++ [x], ⟨?_, fun i e he => ?_, ?_⟩, ?_, ?_⟩
    · rw [List.map_append, List.map_singleton]
      exact hl
    · rw [List.getElem?_append] at he
      split_ifs at he with hi
      · exact h.index i e he
      · rw [List.getElem?_singleton] at he
        split_ifs at he with h0
        obtain rfl := Option.some.inj he
        rw [hc]
        omega
    · have hlen := h.lists.length_eq
      rw [List.length_map] at hlen
      rw [hlen, List.getElem?_concat_length] at hy
      rw [List.map_append, List.map_append, h.values, List.map_singleton, List.map_singleton,
        hread, hy]
    · simp [allocatedSinceClear]
    · rw [hwc, hcount]
      simp [allocatedSinceClear, BitVec.ofNat_add]
  | write idx a =>
    cases hp : (es.map Element.pointer)[idx.toNat]? with
    | none =>
      have hg := h.lists.getData hcounts idx
      rw [hp] at hg
      have hn : CPagedVector.next (v, es) (.write idx a) = (v, es) := by
        simp only [CPagedVector.next, hg]
      rw [hn]
      exact ⟨xs, h, rfl, hcount⟩
    | some p =>
      have hg := h.lists.getData hcounts idx
      rw [hp] at hg
      have hn : CPagedVector.next (v, es) (.write idx a) =
          (v.write p a, es.modify idx.toNat fun e => { e with value := some a }) := by
        simp only [CPagedVector.next, hg]
      rw [hn]
      refine ⟨xs.set idx.toNat a, ⟨?_, fun i e he => ?_, ?_⟩, ?_, hcount⟩
      · have hmap : (es.modify idx.toNat fun e => { e with value := some a }).map
            Element.pointer = es.map Element.pointer := by
          refine List.ext_getElem? fun j => ?_
          rw [List.getElem?_map, List.getElem?_map, List.getElem?_modify]
          cases es[j]? with
          | none => rfl
          | some e => split_ifs <;> rfl
        rw [hmap]
        exact h.lists.write hp a
      · rw [List.getElem?_modify] at he
        split_ifs at he with hi
        · obtain ⟨e', he', rfl⟩ := Option.map_eq_some_iff.1 he
          exact h.index i e' he'
        · exact h.index i e (by simpa using he)
      · rw [List.map_set, ← h.values]
        refine List.ext_getElem? fun j => ?_
        rw [List.getElem?_map, List.getElem?_modify, List.getElem?_set, List.length_map,
          List.getElem?_map]
        by_cases hij : idx.toNat = j
        · have hlt := (List.getElem?_eq_some_iff.1 hp).1
          rw [List.length_map] at hlt
          simp [← hij, hlt]
        · simp [if_neg hij]
      · rw [List.length_modify]
        rfl
  | clearAllData =>
    exact ⟨[], ⟨h.lists.clearAllData.1, nofun, rfl⟩, rfl, rfl⟩

/-- A call keeps the agreement exactly when fewer than `2^32` elements were allocated since the
last clear. -/
theorem Elements.agrees_next_iff (h : Elements v es xs) (hc : v.count.toNat = es.length)
    (c : Call α) :
    Agrees (next (v, es) c).1 (next (v, es) c).2 ↔ allocatedSinceClear es.length c < 2 ^ 32 := by
  obtain ⟨xs', he, hlen, hcount⟩ := h.call hc c
  have hnat : (CPagedVector.next (v, es) c).1.count.toNat =
      allocatedSinceClear es.length c % 2 ^ 32 := by
    rw [hcount, BitVec.toNat_ofNat]
  constructor
  · intro ha
    have hac := ha.count
    rw [getCount, hnat, hlen] at hac
    rw [← hac]
    exact Nat.mod_lt _ (by decide)
  · intro hlt
    refine he.agrees ?_
    rw [hnat, hlen, Nat.mod_eq_of_lt hlt]

theorem Elements.agrees_run_iff (h : Elements v es xs) (hc : v.count.toNat = es.length)
    (calls : List (Call α)) :
    (∀ t, Reaches next (v, es) calls t → Agrees t.1 t.2) ↔
      ∀ pre, pre <+: calls → run allocatedSinceClear es.length pre < 2 ^ 32 := by
  have hlt : es.length < 2 ^ 32 := hc ▸ v.count.isLt
  induction calls generalizing v es xs with
  | nil =>
    refine iff_of_true (fun t ht => ?_) fun pre hpre => ?_
    · rw [reaches_nil.1 ht]
      exact h.agrees hc
    · rw [List.prefix_nil.1 hpre]
      exact hlt
  | cons c calls ih =>
    obtain ⟨xs', he, hlen, hcount⟩ := h.call hc c
    have hone := h.agrees_next_iff hc c
    have hnext : allocatedSinceClear es.length c < 2 ^ 32 →
        (CPagedVector.next (v, es) c).1.count.toNat = (CPagedVector.next (v, es) c).2.length := by
      intro hl
      rw [hcount, hlen, BitVec.toNat_ofNat, Nat.mod_eq_of_lt hl]
    constructor
    · intro hall pre hpre
      cases pre with
      | nil => exact hlt
      | cons d pre =>
        obtain ⟨rfl, hp⟩ := List.cons_prefix_cons.1 hpre
        have hl := hone.1 (hall _ (reaches_cons.2 (.inr ⟨[], List.nil_prefix, rfl⟩)))
        rw [run_cons, ← hlen]
        exact (ih he (hnext hl) (hlen ▸ hl)).1
          (fun t ht => hall t (reaches_cons.2 (.inr ht))) pre hp
    · intro hall t ht
      have hl : allocatedSinceClear es.length c < 2 ^ 32 :=
        hall [c] (List.cons_prefix_cons.2 ⟨rfl, List.nil_prefix⟩)
      rcases reaches_cons.1 ht with rfl | ht
      · exact h.agrees hc
      · refine (ih he (hnext hl) (hlen ▸ hl)).2 (fun pre hpre => ?_) t ht
        rw [hlen]
        exact hall (c :: pre) (List.cons_prefix_cons.2 ⟨rfl, hpre⟩)

theorem elements_create {blockSize : BitVec 32} (h : create blockSize = .ok v) :
    Elements v [] [] ∧ v.count.toNat = 0 :=
  ⟨⟨(lists_create h).1, nofun, rfl⟩, (lists_create h).2⟩

/-- **Paged vectors**: a vector of block size 0 is refused; with any other, the count, the indices,
the pointers and the elements are right in every state of a run exactly when fewer than `2^32`
elements are allocated between two clears. -/
theorem agrees_iff (blockSize : BitVec 32) (calls : List (Call α)) :
    (blockSize = 0 ∧ (create blockSize : Except Error (CPagedVector α)) =
        .error .invalidBlockSize) ∨
      ∃ v : CPagedVector α, create blockSize = .ok v ∧ v.getBlockSize = blockSize ∧
        ((∀ t, Reaches next (v, []) calls t → Agrees t.1 t.2) ↔
          ∀ pre, pre <+: calls → run allocatedSinceClear 0 pre < 2 ^ 32) := by
  by_cases hb : blockSize = 0
  · exact .inl ⟨hb, if_pos hb⟩
  · have hv : create blockSize = .ok (⟨blockSize, 0, none, [], .empty⟩ : CPagedVector α) :=
      if_neg hb
    obtain ⟨he, hc⟩ := elements_create hv
    exact .inr ⟨_, hv, rfl, he.agrees_run_iff hc calls⟩

theorem allocatedSinceClear_replicate (fresh : Nat → α) (k n : Nat) :
    run allocatedSinceClear n (List.replicate k (.allocData fresh)) = n + k := by
  induction k generalizing n with
  | zero => rfl
  | succ k ih =>
    rw [List.replicate_succ, run_cons, ih, allocatedSinceClear]
    omega

/-- After `2^32` allocations the count is 0. -/
theorem count_wraps :
    ¬ ∀ v : CPagedVector Nat, create 1024 = .ok v → ∀ calls t,
      Reaches next (v, []) calls t → Agrees t.1 t.2 := by
  intro h
  have hv : create 1024 = .ok (⟨1024, 0, none, [], .empty⟩ : CPagedVector Nat) := if_neg (by decide)
  obtain ⟨he, hc⟩ := elements_create hv
  obtain ⟨n, hn⟩ : ∃ n, n = 2 ^ 32 := ⟨_, rfl⟩
  have hlt := (he.agrees_run_iff hc (List.replicate n (.allocData id))).1 (h _ hv _) _
    List.prefix_rfl
  rw [allocatedSinceClear_replicate, List.length_nil] at hlt
  omega

end CPagedVector

end NMR
