import Mathlib.Algebra.Order.Ring.Nat
import Mathlib.Data.Nat.Basic
import Lib3MF.Lib.Except
import Lib3MF.Lib.SortedMap
import Lib3MF.Common.Exception

/-!
# Groups of properties

The base material, colour, texture coordinate, composite and multi-property resources all keep
their properties in a map by property ID with a counter for the next one, and give them the same
operations. `PropertyGroup` is that state, `add`, `get`, `set`, `remove`, `buildResourceIndexMap`
and `mergeFrom` those operations; the error of a full group is the resource's own.

`mergeFrom` numbers the properties anew: after merging into an empty group, property `k` is the
`k`-th property of the source in the order of its IDs (`mergeFrom_empty`).
-/

namespace NMR

open Lib

/-- `XML_3MF_MAXRESOURCEINDEX`. -/
def maxResourceIndex : Nat := 2147483647

/-- The properties of a resource, with `m_nNextPropertyID`. -/
structure PropertyGroup (α : Type) where
  entries : SortedMap Nat α
  nextPropertyID : Nat
  deriving DecidableEq

namespace PropertyGroup

variable {α : Type}

/-- A new resource's group. -/
def empty : PropertyGroup α := ⟨.empty, 1⟩

/-- `getCount`. -/
def getCount (g : PropertyGroup α) : Nat := g.entries.size

/-- `addBaseMaterial`, `addColor`, `addUVCoordinate`, `addComposite`, `addMultiProperty`:
`tooMany` is the resource's error for a full group, `check` what it requires of a property. -/
def add (tooMany : Error) (check : α → Except Error Unit) (g : PropertyGroup α) (v : α) :
    Except Error (PropertyGroup α × Nat) := do
  let id := g.nextPropertyID
  if maxResourceIndex ≤ g.getCount then throw tooMany
  check v
  return (⟨g.entries.insert id v, (g.nextPropertyID + 1) % 2 ^ 32⟩, id)

/-- `getBaseMaterial`, `getColor`, `getUVCoordinate`, `getComposite`, `getMultiProperty`. -/
def get (g : PropertyGroup α) (id : Nat) : Except Error α :=
  match g.entries.find? id with
  | some v => .ok v
  | none => .error .invalidIndex

/-- `setColor`, `setUVCoordinate`, `setComposite`, `setMultiProperty`. -/
def set (g : PropertyGroup α) (id : Nat) (v : α) : Except Error (PropertyGroup α) :=
  if (g.entries.find? id).isSome then .ok { g with entries := g.entries.set id v }
  else .error .invalidIndex

/-- `removeMaterial`, `removeColor`, `removePropertyID`, `removeComposite`,
`removeMultiProperty`. -/
def remove (g : PropertyGroup α) (id : Nat) : PropertyGroup α :=
  { g with entries := g.entries.erase id }

/-- `buildResourceIndexMap`: the property IDs in increasing order, the `i`-th of which
`mapResourceIndexToPropertyID` returns for index `i`. -/
def buildResourceIndexMap (g : PropertyGroup α) : List Nat := g.entries.keys

/-- One property of `mergeFrom`. -/
def mergeProperty (add : PropertyGroup α → α → Except Error (PropertyGroup α × Nat))
    (source g : PropertyGroup α) (id : Nat) : Except Error (PropertyGroup α) := do
  let v ← source.get id
  let r ← add g v
  return r.1

/-- `mergeFrom`: add every property of the source, in the order of its IDs, `add` being what the
resource adds a property with. -/
def mergeFrom (add : PropertyGroup α → α → Except Error (PropertyGroup α × Nat))
    (g source : PropertyGroup α) : Except Error (PropertyGroup α) :=
  source.buildResourceIndexMap.foldlM (mergeProperty add source) g

/-! ## Numbering anew -/

variable {tooMany : Error} {check : α → Except Error Unit} {g g' source : PropertyGroup α} {v : α}

/-- `g'` numbers the properties of `g` in the order of their IDs, from `1` on. -/
def Renumbers (g g' : PropertyGroup α) : Prop :=
  g'.entries.entries = (g.entries.values.zipIdx 1).map Prod.swap

/-- The `k`-th property in the order of the IDs, counted from `1`. -/
def nth (g : PropertyGroup α) (k : Nat) : Option α :=
  if k = 0 then none else g.entries.values[k - 1]?

theorem add_spec {r : PropertyGroup α × Nat} (h : g.add tooMany check v = .ok r) :
    g.getCount < maxResourceIndex ∧ check v = .ok () ∧
      r = (⟨g.entries.insert g.nextPropertyID v, (g.nextPropertyID + 1) % 2 ^ 32⟩,
        g.nextPropertyID) := by
  unfold add at h
  dsimp only at h
  split_ifs at h with hc
  · simp at h
  · simp only [bind_eq_ok, pure_eq_ok] at h
    obtain ⟨u, hv, rfl⟩ := h
    exact ⟨not_le.1 hc, hv, rfl⟩

/-- A property that passes the checks is added. -/
theorem add_of_check (tooMany : Error) (check : α → Except Error Unit) (v : α)
    (hc : g.getCount < maxResourceIndex) (hv : check v = .ok ()) : g.add tooMany check v =
      .ok (⟨g.entries.insert g.nextPropertyID v, (g.nextPropertyID + 1) % 2 ^ 32⟩,
        g.nextPropertyID) := by
  unfold add
  simp only [if_neg (Nat.not_le.2 hc), hv]
  rfl

theorem get_eq_ok {id : Nat} : g.get id = .ok v ↔ g.entries.find? id = some v := by
  unfold get
  cases g.entries.find? id <;> simp

/-- The state of `mergeFrom` after the properties `vs`. -/
structure Merged (vs : List α) (g : PropertyGroup α) : Prop where
  entries : g.entries.entries = (vs.zipIdx 1).map Prod.swap
  next : vs.length < maxResourceIndex → g.nextPropertyID = vs.length + 1

theorem merged_empty : Merged [] (empty : PropertyGroup α) := ⟨rfl, fun _ => rfl⟩

theorem Merged.getCount {vs : List α} (hm : Merged vs g) : g.getCount = vs.length := by
  simp [PropertyGroup.getCount, SortedMap.size, hm.entries]

theorem Merged.keys_le {vs : List α} (hm : Merged vs g) {k : Nat} (hk : k ∈ g.entries.keys) :
    k ≤ vs.length := by
  rw [SortedMap.keys, hm.entries, List.map_map] at hk
  obtain ⟨⟨v, i⟩, hi, rfl⟩ := List.mem_map.1 hk
  have := (List.mem_zipIdx hi).2.1
  simp only [Function.comp, Prod.fst_swap]
  omega

/-- One property more. -/
theorem Merged.add {vs : List α} (hm : Merged vs g) {r : PropertyGroup α × Nat}
    (h : g.add tooMany check v = .ok r) : Merged (vs ++ [v]) r.1 := by
  obtain ⟨hc, -, rfl⟩ := add_spec h
  rw [hm.getCount] at hc
  have hn := hm.next hc
  refine ⟨?_, fun _ => ?_⟩
  · have hlt : ∀ k ∈ g.entries.keys, k < g.nextPropertyID := fun k hk => by
      have := hm.keys_le hk
      omega
    rw [SortedMap.insert_entries_of_lt hlt, hm.entries, List.zipIdx_append, List.map_append, hn]
    simp [Nat.add_comm]
  · have hsmall : vs.length + 1 + 1 < 2 ^ 32 := by
      rw [maxResourceIndex] at hc
      omega
    simp only [hn, List.length_append, List.length_singleton]
    exact Nat.mod_eq_of_lt hsmall

theorem Merged.mergeProperty {vs : List α} (hm : Merged vs g) {x : Nat × α}
    (hx : x ∈ source.entries.entries)
    (h : mergeProperty (PropertyGroup.add tooMany check) source g x.1 = .ok g') : Merged (vs ++ [x.2]) g' := by
  simp only [PropertyGroup.mergeProperty, bind_eq_ok, pure_eq_ok] at h
  obtain ⟨v, hv, r, ha, rfl⟩ := h
  rw [get_eq_ok, SortedMap.find?_eq_some.2 hx] at hv
  cases hv
  exact hm.add ha

/-- **Merging into an empty group numbers the properties anew.** -/
theorem mergeFrom_empty (h : empty.mergeFrom (PropertyGroup.add tooMany check) source = .ok g') :
    source.Renumbers g' := by
  rw [PropertyGroup.mergeFrom, buildResourceIndexMap, SortedMap.keys, List.foldlM_map] at h
  have h0 : Merged (([] : List (Nat × α)).map Prod.snd) empty := merged_empty
  have hm := foldlM_ok (fun es g => Merged (es.map Prod.snd) g)
    (fun done g x g₁ hx hm hp => by
      rw [List.map_append]
      exact hm.mergeProperty hx hp) h0 h
  exact hm.entries

theorem Renumbers.values (h : g.Renumbers g') : g'.entries.values = g.entries.values := by
  rw [SortedMap.values, h, List.map_map]
  have : (Prod.snd ∘ Prod.swap : α × Nat → α) = Prod.fst := rfl
  rw [this, List.zipIdx_map_fst]

/-- Property `k` of the new numbering is the `k`-th one of the old. -/
theorem Renumbers.find? (h : g.Renumbers g') (k : Nat) : g'.entries.find? k = g.nth k := by
  refine Option.ext fun v => ?_
  rw [SortedMap.find?_eq_some, h, nth]
  simp only [List.mem_map, Prod.exists, Prod.swap_prod_mk, Prod.mk.injEq]
  constructor
  · intro ⟨w, i, hm, hi, hw⟩
    subst hi hw
    rw [List.mem_zipIdx_iff_le_and_getElem?_sub] at hm
    rw [if_neg (by omega)]
    exact hm.2
  · intro hk
    split_ifs at hk with h0
    exact ⟨v, k, List.mem_zipIdx_iff_le_and_getElem?_sub.2 ⟨by omega, hk⟩, rfl, rfl⟩

end PropertyGroup

end NMR
