import Mathlib.Data.Finset.Card
import Mathlib.Data.List.Count
import Lib3MF.Common.Mesh.Proof.StoredMerge
import Lib3MF.Model.Classes.ModelMeshObject

/-!
# Which meshes are manifold and oriented

The first pass numbers the edges without gaps (`Numbered`), as long as the counter can hold their
number; the second one counts the sides of each (`Tallies`). So the result says of each edge how
often it is a side in either direction, which is what `isManifoldAndOriented_iff` says of the sides
themselves.
-/

namespace NMR

open Lib

namespace StoredMesh

variable {V R : Type} {exceeds : V → Bool} {m : StoredMesh V R}
  {sides done : List (Int × Int)} {edges : EdgeNumbers} {side : Int × Int}

/-- The edge of a side. -/
def sideEntry (side : Int × Int) : PairMatchingTreeEntry := pairEntry side.1 side.2

/-- The number of edges of some sides. -/
def edgeCountOf (sides : List (Int × Int)) : Nat := (sides.map sideEntry).toFinset.card

/-- The number of edges of a mesh. -/
def edgeCount (m : StoredMesh V R) : Nat := edgeCountOf m.sides

/-- An edge that is a side twice, once in each direction. -/
def OnceEachWay (sides : List (Int × Int)) (side : Int × Int) : Prop :=
  sides.countP (fun s => s = side ∨ s = side.swap) = 2 ∧
    sides.count side = 1 ∧ sides.count side.swap = 1

instance (sides : List (Int × Int)) (side : Int × Int) : Decidable (OnceEachWay sides side) :=
  inferInstanceAs (Decidable (_ ∧ _ ∧ _))

theorem sideEntry_eq_iff {s t : Int × Int} : sideEntry s = sideEntry t ↔ s = t ∨ s = t.swap := by
  unfold sideEntry
  rw [pairEntry_eq_iff, Prod.ext_iff, Prod.ext_iff]
  rfl

/-! ## The first pass -/

/-- The edges of the sides have the numbers below the counter, each its own. -/
structure Numbered (done : List (Int × Int)) (edges : EdgeNumbers) : Prop where
  found : ∀ s ∈ done, ∃ e, edges.tree.checkMatch s.1 s.2 = some e
  entry : ∀ k e, edges.tree.entries.find? k = some e → ∃ s ∈ done, sideEntry s = k
  lower : ∀ k e, edges.tree.entries.find? k = some e → 0 ≤ e
  upper : ∀ k e, edges.tree.entries.find? k = some e → e < edges.edgeCounter
  inj : ∀ k k' e, edges.tree.entries.find? k = some e →
    edges.tree.entries.find? k' = some e → k = k'
  onto : ∀ e, 0 ≤ e → e < edges.edgeCounter → ∃ k, edges.tree.entries.find? k = some e
  count : edges.edgeCounter = edgeCountOf done

theorem numbered_empty : Numbered [] ⟨.empty, 0⟩ :=
  ⟨nofun, nofun, nofun, nofun, nofun, fun _ h0 h1 => absurd h1 (Int.not_lt.2 h0), rfl⟩

/-- A side whose edge is there, or not. -/
theorem edgeCountOf_append (done : List (Int × Int)) (side : Int × Int) :
    edgeCountOf (done ++ [side]) =
      if sideEntry side ∈ done.map sideEntry then edgeCountOf done else edgeCountOf done + 1 := by
  unfold edgeCountOf
  rw [List.map_append, List.toFinset_append, List.map_singleton, Finset.union_comm]
  have hsingle : ([sideEntry side].toFinset : Finset PairMatchingTreeEntry) ∪
      (done.map sideEntry).toFinset = insert (sideEntry side) (done.map sideEntry).toFinset := by
    simp
  rw [hsingle, Finset.card_insert_eq_ite]
  simp only [List.mem_toFinset]

theorem edgeCountOf_mono {rest : List (Int × Int)} :
    edgeCountOf done ≤ edgeCountOf (done ++ rest) := by
  unfold edgeCountOf
  apply Finset.card_le_card
  intro k hk
  simp only [List.mem_toFinset, List.map_append, List.mem_append] at hk ⊢
  exact .inl hk

/-- A side is numbered. -/
theorem numberSide_total (h : Numbered done edges)
    (hlimit : (edgeCountOf (done ++ [side]) : Int) ≤ meshMaxEdgeCount) :
    ∃ edges', (numberSide edges side).run = some (.ok edges') ∧
      Numbered (done ++ [side]) edges' := by
  have hcount := h.count
  have happend := edgeCountOf_append done side
  unfold numberSide
  cases hm : edges.tree.checkMatch side.1 side.2 with
  | some e =>
    have hmem : sideEntry side ∈ done.map sideEntry := by
      obtain ⟨s, hs, hk⟩ := h.entry _ e hm
      exact List.mem_map.2 ⟨s, hs, hk⟩
    rw [if_pos hmem] at happend
    refine ⟨edges, rfl, ?_, ?_, h.lower, h.upper, h.inj, h.onto, by omega⟩
    · intro s hs
      obtain hs | hs := List.mem_append.1 hs
      · exact h.found s hs
      · rw [List.mem_singleton.1 hs]
        exact ⟨e, hm⟩
    · intro k e hk
      obtain ⟨s, hs, hsk⟩ := h.entry k e hk
      exact ⟨s, List.mem_append_left _ hs, hsk⟩
  | none =>
    have hmem : sideEntry side ∉ done.map sideEntry := by
      intro hmem
      obtain ⟨s, hs, hk⟩ := List.mem_map.1 hmem
      obtain ⟨e, he⟩ := h.found s hs
      have hnone : edges.tree.entries.find? (sideEntry s) = none := by
        rw [hk]
        exact hm
      rw [show edges.tree.checkMatch s.1 s.2 = edges.tree.entries.find? (sideEntry s) from rfl,
        hnone] at he
      cases he
    rw [if_neg hmem] at happend
    have hroom : ¬ meshMaxEdgeCount ≤ edges.edgeCounter := by omega
    have hcheck : ¬ meshMaxEdgeCount < edges.edgeCounter + 1 := by omega
    have hfind : ∀ k, (edges.tree.addMatch side.1 side.2 edges.edgeCounter).entries.find? k =
        if k = sideEntry side then some edges.edgeCounter else edges.tree.entries.find? k := by
      intro k
      have hnone : edges.tree.entries.find? (pairEntry side.1 side.2) = none := hm
      show (edges.tree.entries.insert (pairEntry side.1 side.2) edges.edgeCounter).find? k = _
      rw [SortedMap.find?_insert, hnone]
      rfl
    refine ⟨⟨edges.tree.addMatch side.1 side.2 edges.edgeCounter, edges.edgeCounter + 1⟩, ?_, ?_⟩
    · simp only [if_neg hroom, if_neg hcheck]
      rfl
    refine ⟨?_, ?_, ?_, ?_, ?_, ?_, ?_⟩
    · intro s hs
      show ∃ e, (edges.tree.addMatch side.1 side.2 edges.edgeCounter).entries.find?
        (sideEntry s) = some e
      rw [hfind]
      obtain hs | hs := List.mem_append.1 hs
      · split_ifs
        · exact ⟨_, rfl⟩
        · exact h.found s hs
      · rw [List.mem_singleton.1 hs, if_pos rfl]
        exact ⟨_, rfl⟩
    · intro k e hk
      rw [hfind] at hk
      split_ifs at hk with hkey
      · exact ⟨side, by simp, hkey.symm⟩
      · obtain ⟨s, hs, hsk⟩ := h.entry k e hk
        exact ⟨s, List.mem_append_left _ hs, hsk⟩
    · intro k e hk
      rw [hfind] at hk
      split_ifs at hk
      · have := Option.some.inj hk
        omega
      · exact h.lower k e hk
    · intro k e hk
      show e < edges.edgeCounter + 1
      rw [hfind] at hk
      split_ifs at hk
      · have := Option.some.inj hk
        omega
      · have := h.upper k e hk
        omega
    · intro k k' e hk hk'
      rw [hfind] at hk hk'
      split_ifs at hk hk' with h1 h2 h2
      · rw [h1, h2]
      · have hlt := h.upper k' e hk'
        have := Option.some.inj hk
        omega
      · have hlt := h.upper k e hk
        have := Option.some.inj hk'
        omega
      · exact h.inj k k' e hk hk'
    · intro e h0 h1
      by_cases he : e = edges.edgeCounter
      · exact ⟨sideEntry side, by rw [hfind, if_pos rfl, he]⟩
      · obtain ⟨k, hk⟩ := h.onto e h0 (by
          have : e < edges.edgeCounter + 1 := h1
          omega)
        refine ⟨k, ?_⟩
        rw [hfind, if_neg]
        · exact hk
        · rintro rfl
          obtain ⟨s, hs, hsk⟩ := h.entry _ e hk
          exact hmem (List.mem_map.2 ⟨s, hs, hsk⟩)
    · show edges.edgeCounter + 1 = _
      omega

/-- **All sides are numbered.** -/
theorem numberSides_total (hlimit : (edgeCountOf sides : Int) ≤ meshMaxEdgeCount) :
    ∃ edges, (sides.foldlM numberSide ⟨.empty, 0⟩).run = some (.ok edges) ∧
      Numbered sides edges := by
  refine foldlM_run_total Numbered (List.nil_append sides) (fun done side rest edges hl h => ?_)
    numbered_empty
  refine numberSide_total h ?_
  have hmono := @edgeCountOf_mono (done ++ [side]) rest
  rw [List.append_assoc, List.singleton_append, hl] at hmono
  omega

/-! ## The second pass -/

/-- A list holds, for each of the numbers below its length, how many sides it stands for. -/
def Tallies (p : Nat → Int × Int → Bool) (done : List (Int × Int)) (n : Nat) (l : List Int) : Prop :=
  l.length = n ∧ ∀ e, e < n → l[e]? = some (done.countP (p e) : Int)

theorem tallies_replicate (p : Nat → Int × Int → Bool) (n : Nat) :
    Tallies p [] n (List.replicate n 0) := by
  refine ⟨List.length_replicate, fun e he => ?_⟩
  rw [List.getElem?_replicate, if_pos he]
  rfl

/-- A side that stands for one number. -/
theorem Tallies.hit {p : Nat → Int × Int → Bool} {n e₀ : Nat} {l : List Int}
    (h : Tallies p done n l) (hp : ∀ e, p e side = true ↔ e₀ = e) :
    Tallies p (done ++ [side]) n (l.modify e₀ (· + 1)) := by
  refine ⟨by rw [List.length_modify, h.1], fun e he => ?_⟩
  rw [List.getElem?_modify, h.2 e he, List.countP_append, List.countP_singleton]
  show some (if e₀ = e then _ else _) = _
  by_cases heq : e₀ = e
  · rw [if_pos heq, if_pos ((hp e).2 heq)]
    rfl
  · rw [if_neg heq, if_neg fun ht => heq ((hp e).1 ht)]
    rfl

/-- A side that stands for none. -/
theorem Tallies.miss {p : Nat → Int × Int → Bool} {n : Nat} {l : List Int}
    (h : Tallies p done n l) (hp : ∀ e, p e side = false) : Tallies p (done ++ [side]) n l := by
  refine ⟨h.1, fun e he => ?_⟩
  rw [h.2 e he, List.countP_append, List.countP_singleton, hp e]
  rfl

/-- The sides of edge `e` that go up. -/
def isPositive (edges : EdgeNumbers) (e : Nat) (s : Int × Int) : Bool :=
  edges.tree.checkMatch s.1 s.2 = some (e : Int) ∧ s.1 ≤ s.2

/-- The sides of edge `e` that go down. -/
def isNegative (edges : EdgeNumbers) (e : Nat) (s : Int × Int) : Bool :=
  edges.tree.checkMatch s.1 s.2 = some (e : Int) ∧ ¬ s.1 ≤ s.2

/-- What the second pass has counted. -/
def Counted (edges : EdgeNumbers) (done : List (Int × Int)) (st : Orientations) : Prop :=
  Tallies (isPositive edges) done edges.edgeCounter.toNat st.positive ∧
    Tallies (isNegative edges) done edges.edgeCounter.toNat st.negative

/-- A side is counted. -/
theorem orientSide_total {st : Orientations} (hnum : Numbered sides edges) (hside : side ∈ sides)
    (h : Counted edges done st) :
    ∃ st', (orientSide edges st side).run = some (.ok st') ∧ Counted edges (done ++ [side]) st' := by
  obtain ⟨e, he⟩ := hnum.found side hside
  have h0 := hnum.lower _ e he
  have h1 := hnum.upper _ e he
  have hrange : ¬ (e < 0 ∨ edges.edgeCounter ≤ e) := by omega
  have hkey : ∀ k : Nat, edges.tree.checkMatch side.1 side.2 = some (k : Int) ↔ e.toNat = k := by
    intro k
    rw [he, Option.some.injEq]
    omega
  unfold orientSide
  simp only [he, if_neg hrange]
  by_cases hdir : side.1 ≤ side.2
  · rw [if_pos hdir]
    refine ⟨_, rfl, h.1.hit fun k => ?_, h.2.miss fun k => ?_⟩
    · simp only [isPositive, decide_eq_true_eq, hkey, hdir, and_true]
    · simp only [isNegative, hdir, not_true, and_false, decide_false]
  · rw [if_neg hdir]
    refine ⟨_, rfl, h.1.miss fun k => ?_, h.2.hit fun k => ?_⟩
    · simp only [isPositive, hdir, and_false, decide_false]
    · simp only [isNegative, decide_eq_true_eq, hkey, hdir, not_false_eq_true, and_true]

/-- **All sides are counted.** -/
theorem orientSides_total (hnum : Numbered sides edges) :
    ∃ st, (sides.foldlM (orientSide edges) ⟨List.replicate edges.edgeCounter.toNat 0,
      List.replicate edges.edgeCounter.toNat 0⟩).run = some (.ok st) ∧ Counted edges sides st := by
  refine foldlM_run_total (Counted edges) (List.nil_append sides)
    (fun done side rest st hl h => ?_) ⟨tallies_replicate _ _, tallies_replicate _ _⟩
  refine orientSide_total hnum ?_ h
  rw [← hl]
  exact List.mem_append_right _ List.mem_cons_self

/-! ## The result -/

theorem Tallies.all_eq_one {p : Nat → Int × Int → Bool} {n : Nat} {l : List Int}
    (h : Tallies p done n l) :
    (l.all fun k => decide (k = 1)) = true ↔ ∀ e, e < n → done.countP (p e) = 1 := by
  rw [List.all_eq_true]
  refine ⟨fun hall e he => ?_, fun hall k hk => ?_⟩
  · have := of_decide_eq_true (hall _ (List.mem_of_getElem? (h.2 e he)))
    omega
  · obtain ⟨e, he⟩ := List.getElem?_of_mem hk
    have hlt : e < n := h.1 ▸ (List.getElem?_eq_some_iff.1 he).1
    have := (Option.some.inj ((h.2 e hlt).symm.trans he)).symm
    rw [this, hall e hlt]
    rfl

/-- The sides that are one or its reverse. -/
theorem countP_or_swap {s : Int × Int} (hs : s ≠ s.swap) (l : List (Int × Int)) :
    l.countP (fun t => t = s ∨ t = s.swap) = l.count s + l.count s.swap := by
  induction l with
  | nil => rfl
  | cons t l ih =>
    rw [List.countP_cons, List.count_cons, List.count_cons, ih]
    by_cases h1 : t = s
    · subst h1
      simp [hs]
      omega
    · by_cases h2 : t = s.swap
      · simp [h2, hs.symm]
        omega
      · simp [h1, h2]

/-- The sides of an edge in one direction are those of one of its sides. -/
theorem countP_direction (hnum : Numbered sides edges) {s : Int × Int} (hs : s ∈ sides) {e : Nat}
    (he : edges.tree.checkMatch s.1 s.2 = some (e : Int)) {lo hi : Int} (hlt : lo < hi)
    (hends : s = (lo, hi) ∨ s = (hi, lo)) :
    sides.countP (isPositive edges e) = sides.count (lo, hi) ∧
      sides.countP (isNegative edges e) = sides.count (hi, lo) := by
  have hkey : ∀ t ∈ sides, edges.tree.checkMatch t.1 t.2 = some (e : Int) ↔
      t = (lo, hi) ∨ t = (hi, lo) := by
    intro t ht
    have hentry : edges.tree.checkMatch t.1 t.2 = some (e : Int) ↔ sideEntry t = sideEntry s := by
      refine ⟨fun h => hnum.inj _ _ e h he, fun h => ?_⟩
      show edges.tree.entries.find? (sideEntry t) = some (e : Int)
      rw [h]
      exact he
    rw [hentry, sideEntry_eq_iff]
    obtain rfl | rfl := hends
    · rfl
    · exact or_comm
  rw [List.count, List.count]
  refine ⟨List.countP_congr fun t ht => ?_, List.countP_congr fun t ht => ?_⟩
  · simp only [isPositive, decide_eq_true_eq, beq_iff_eq, hkey t ht]
    refine ⟨?_, fun h => ⟨.inl h, by rw [h]; exact Int.le_of_lt hlt⟩⟩
    rintro ⟨rfl | rfl, hle⟩
    · rfl
    · exact absurd hle (Int.not_le.2 hlt)
  · simp only [isNegative, decide_eq_true_eq, beq_iff_eq, hkey t ht]
    refine ⟨?_, fun h => ⟨.inr h, by rw [h]; exact Int.not_le.2 hlt⟩⟩
    rintro ⟨rfl | rfl, hle⟩
    · exact absurd (Int.le_of_lt hlt) hle
    · rfl

/-- The counts of an edge are one each exactly when its sides are. -/
theorem counts_iff (hnum : Numbered sides edges) {s : Int × Int} (hs : s ∈ sides)
    (hne : s.1 ≠ s.2) {e : Nat} (he : edges.tree.checkMatch s.1 s.2 = some (e : Int)) :
    (sides.countP (isPositive edges e) = 1 ∧ sides.countP (isNegative edges e) = 1) ↔
      OnceEachWay sides s := by
  have hswap : s ≠ s.swap := fun h => hne (congrArg Prod.fst h)
  unfold OnceEachWay
  rw [countP_or_swap hswap]
  obtain ⟨a, b⟩ := s
  obtain hlt | hlt := Int.lt_or_gt_of_ne hne
  · obtain ⟨h1, h2⟩ := countP_direction hnum hs he hlt (.inl rfl)
    rw [h1, h2]
    show sides.count (a, b) = 1 ∧ sides.count (b, a) = 1 ↔
      sides.count (a, b) + sides.count (b, a) = 2 ∧
        sides.count (a, b) = 1 ∧ sides.count (b, a) = 1
    omega
  · obtain ⟨h1, h2⟩ := countP_direction hnum hs he hlt (.inr rfl)
    rw [h1, h2]
    show sides.count (b, a) = 1 ∧ sides.count (a, b) = 1 ↔
      sides.count (a, b) + sides.count (b, a) = 2 ∧
        sides.count (a, b) = 1 ∧ sides.count (b, a) = 1
    omega

/-- The ends of a side of a sane mesh differ. -/
theorem side_ne (hsane : Sane exceeds m) {s : Int × Int} (hs : s ∈ m.sides) : s.1 ≠ s.2 := by
  obtain ⟨f, hf, hs⟩ := List.mem_flatMap.1 hs
  obtain ⟨-, hne⟩ := of_decide_eq_true (hsane.faces f hf)
  simp only [StoredFace.sides, List.mem_cons, List.not_mem_nil, or_false] at hs
  obtain rfl | rfl | rfl := hs
  · exact hne 0 1 (by decide)
  · exact hne 1 2 (by decide)
  · exact (hne 0 2 (by decide)).symm

/-- **`isManifoldAndOriented` says what it is to be.** -/
theorem isManifoldAndOriented_iff
    (hlimit : (edgeCount m : Int) ≤ meshMaxEdgeCount) :
    ∃ r, (m.isManifoldAndOriented exceeds).run = some (.ok r) ∧
      (r = true ↔ m.checkSanity exceeds = true ∧ 3 ≤ m.nodes.count ∧ 3 ≤ m.faces.count ∧
        ∀ side ∈ m.sides, OnceEachWay m.sides side) := by
  unfold isManifoldAndOriented
  by_cases hsane : m.checkSanity exceeds = false
  · rw [if_pos hsane]
    exact ⟨false, rfl, by simp [hsane]⟩
  rw [if_neg hsane]
  by_cases hnodes : m.nodes.count < 3
  · rw [if_pos hnodes]
    exact ⟨false, rfl, by simp; omega⟩
  rw [if_neg hnodes]
  by_cases hfaces : m.faces.count < 3
  · rw [if_pos hfaces]
    exact ⟨false, rfl, by simp; omega⟩
  rw [if_neg hfaces]
  rw [Bool.not_eq_false] at hsane
  obtain ⟨edges, hedges, hnum⟩ := numberSides_total hlimit
  obtain ⟨st, hst, hpos, hneg⟩ := orientSides_total hnum
  refine ⟨_, run_bind_eq_ok.2 ⟨edges, hedges, run_bind_eq_ok.2 ⟨st, hst, rfl⟩⟩, ?_⟩
  rw [Bool.and_eq_true, hpos.all_eq_one, hneg.all_eq_one]
  refine ⟨fun h => ⟨hsane, by omega, by omega, fun s hs => ?_⟩, fun h => ?_⟩
  · obtain ⟨e, he⟩ := hnum.found s hs
    have h0 := hnum.lower _ e he
    have h1 := hnum.upper _ e he
    have he' : edges.tree.checkMatch s.1 s.2 = some (e.toNat : Int) := by
      rw [he, Int.toNat_of_nonneg h0]
    exact (counts_iff hnum hs (side_ne (checkSanity_iff.1 hsane) hs) he').1
      ⟨h.1 e.toNat (by omega), h.2 e.toNat (by omega)⟩
  · have hall : ∀ e, e < edges.edgeCounter.toNat → m.sides.countP (isPositive edges e) = 1 ∧
        m.sides.countP (isNegative edges e) = 1 := by
      intro e he
      obtain ⟨k, hk⟩ := hnum.onto e (by omega) (by omega)
      obtain ⟨s, hs, rfl⟩ := hnum.entry k e hk
      exact (counts_iff hnum hs (side_ne (checkSanity_iff.1 hsane) hs) hk).2 (h.2.2.2 s hs)
    exact ⟨fun e he => (hall e he).1, fun e he => (hall e he).2⟩

/-- There are no more edges than sides. -/
theorem edgeCount_le (m : StoredMesh V R) : edgeCount m ≤ m.sides.length := by
  have h := List.toFinset_card_le (m.sides.map sideEntry)
  rwa [List.length_map] at h

/-- A tetrahedron. -/
def tetrahedron : MeshRun (StoredMesh Unit Unit) := do
  let (m, p0) ← MeshRun.ofExcept (addNode (fun _ => false) ⟨.empty, .empty, .empty, none⟩ ())
  let (m, p1) ← MeshRun.ofExcept (m.addNode (fun _ => false) ())
  let (m, p2) ← MeshRun.ofExcept (m.addNode (fun _ => false) ())
  let (m, p3) ← MeshRun.ofExcept (m.addNode (fun _ => false) ())
  let (m, _) ← m.addFace ![p0, p2, p1]
  let (m, _) ← m.addFace ![p0, p1, p3]
  let (m, _) ← m.addFace ![p1, p2, p3]
  let (m, _) ← m.addFace ![p2, p0, p3]
  return m

/-- It is manifold and oriented. -/
theorem tetrahedron_isManifoldAndOriented :
    ∃ m, tetrahedron.run = some (.ok m) ∧
      (m.isManifoldAndOriented fun _ => false).run = some (.ok true) := by
  obtain ⟨u, h⟩ := @exists_of_isOk _ (do
    let m ← tetrahedron
    if ¬ (m.checkSanity (fun _ => false) = true ∧ m.nodes.count = 4 ∧ m.faces.count = 4 ∧
      m.sides.length = 12 ∧ ∀ side ∈ m.sides, OnceEachWay m.sides side) then throw .invalidParam
    return ()) (by decide)
  obtain ⟨m, hm, h⟩ := run_bind_eq_ok.1 h
  obtain ⟨hfacts, -⟩ := guard_ok h
  obtain ⟨hsane, hnodes, hfaces, hlen, hsides⟩ := not_not.1 hfacts
  have hlimit : (edgeCount m : Int) ≤ meshMaxEdgeCount := by
    have := edgeCount_le m
    unfold meshMaxEdgeCount
    omega
  obtain ⟨r, hr, hiff⟩ := @isManifoldAndOriented_iff _ _ (fun _ => false) m hlimit
  rw [hiff.2 ⟨hsane, by omega, by omega, hsides⟩] at hr
  exact ⟨m, hm, hr⟩

end StoredMesh

end NMR
