import Lib3MF.Common.Proof.ColorStrings
import Lib3MF.Model.Proof.PropertyResources
import Lib3MF.Model.Reader.MultiPropertiesReader

/-!
# Properties through a document

Base materials and colours are read as they were written, and texture coordinates as what their
texts stand for. A composite is written with a ratio for each base material its resource uses, in
the order of their property IDs, and read with these ratios for the first base materials
(`rereadComposite`); where a ratio is not in range, the resource is not read (`ReadableRatios`).
`rereading` is this as a whole, and `reads_written` says that the reader does it.
-/

namespace NMR

open Lib

variable {R : List (PropertyResource ModelProperty)} {r : PropertyResource ModelProperty}
  {printed : PrintedNumbers} {w : LongWidth} {level : ModelReaderWarningLevel} {path : String}

/-! ## What is read -/

/-- The constituents of a composite; another property has none. -/
def ModelProperty.constituents : ModelProperty → Composite
  | .composite c => c
  | _ => []

/-- The set of the materials that constituents refer to. -/
def usedSet (xs : List CompositeConstituent) : SortedMap Nat Unit :=
  xs.foldl (fun (used : SortedMap Nat Unit) x => used.insert x.propertyID ()) .empty

/-- The IDs of the base materials that the composites of a resource use, in their order. -/
def usedMaterials (r : PropertyResource ModelProperty) : List Nat :=
  (usedSet (r.group.entries.values.flatMap ModelProperty.constituents)).keys

/-- The reader takes the ratio: it is finite, and not below `0` or above `1`. -/
def ReadableRatio (ratio : Double) : Prop :=
  ¬ ratio.IsInfinite ∧ ¬ (ratio.lt (.ofRat 0) ∨ (Double.ofRat 1).lt ratio)

/-- The reader takes the ratios of the composites. -/
def ReadableRatios (printed : PrintedNumbers) (r : PropertyResource ModelProperty) : Prop :=
  r.kind = .compositeMaterials → ∀ v ∈ r.group.entries.values, ∀ k ∈ usedMaterials r,
    ReadableRatio (printed.ratio (v.constituents.getMixingRatio k))

instance (ratio : Double) : Decidable (ReadableRatio ratio) :=
  inferInstanceAs (Decidable (¬ _ ∧ ¬ _))

instance (printed : PrintedNumbers) (r : PropertyResource ModelProperty) :
    Decidable (ReadableRatios printed r) :=
  inferInstanceAs (Decidable (_ → ∀ v ∈ _, ∀ k ∈ _, _))

/-- A composite as it is read: the ratios of the materials `used`, for the first base materials. -/
def rereadComposite (printed : PrintedNumbers) (used : List Nat) (c : Composite) : Composite :=
  used.zipIdx.map fun x => ⟨x.2 + 1, printed.ratio (c.getMixingRatio x.1)⟩

/-- A property as it is read. -/
def rereadProperty (printed : PrintedNumbers) (used : List Nat) : ModelProperty → ModelProperty
  | .uvCoordinate v => Reader.readTex2Coord ⟨printed.coordinate v.u, printed.coordinate v.v⟩
  | .composite c => .composite (rereadComposite printed used c)
  | v => v

/-- The number of the base materials of composite materials, once they are read. -/
def rereadBaseID (R : List (PropertyResource ModelProperty)) (r : PropertyResource ModelProperty) :
    Nat :=
  if r.kind = .compositeMaterials then (R.map (·.uniqueID)).idxOf r.baseMaterialID + 1 else 0

/-- What a reader makes of the property resources `R`. -/
def rereading (printed : PrintedNumbers) (R : List (PropertyResource ModelProperty)) :
    PropertyReading ModelProperty where
  result r :=
    if r.kind ≠ .multiPropertyGroup ∧ ReadableRatios printed r then
      some ⟨r.kind, rereadBaseID R r,
        r.group.entries.values.map (rereadProperty printed (usedMaterials r))⟩
    else none
  kind r x h := by
    split_ifs at h
    rw [← Option.some.inj h]
  length r x h := by
    split_ifs at h
    rw [← Option.some.inj h, List.length_map, SortedMap.length_values]
    rfl

/-- Numbers that are printed with all their digits. -/
def exactNumbers : PrintedNumbers := ⟨id, id⟩

/-! ## Loops -/

/-- The loop goes over the properties in their order. -/
theorem forProperties_eq {α : Type} (r : PropertyResource ModelProperty)
    (f : ModelProperty → Except Error α) :
    Writer.forProperties r f = r.group.entries.values.mapM f := by
  have hget : ∀ e ∈ r.group.entries.entries, r.group.get e.1 = .ok e.2 := fun e he =>
    PropertyGroup.get_eq_ok.2 (SortedMap.find?_eq_some.2 he)
  unfold Writer.forProperties
  rw [PropertyGroup.buildResourceIndexMap, SortedMap.keys, SortedMap.values, List.mapM_map,
    List.mapM_map]
  refine mapM_congr fun e he => ?_
  simp only [Function.comp, hget e he, ok_bind]

/-! ## Colours, names and coordinates -/

/-- A colour is read as it was written. -/
theorem readColorText_print (w : LongWidth) {c : Nat} (hc : c < 2 ^ 32)
    (hs : Short (String.ofList (fnColorToString (BitVec.ofNat 32 c)))) :
    Reader.readColorText w (String.ofList (fnColorToString (BitVec.ofNat 32 c))) = .ok c := by
  unfold Reader.readColorText
  rw [nfStrLen_bind, String.toList_ofList, fnStringToSRGBColor_fnColorToString, ok_bind]
  refine ⟨hs, ?_⟩
  rw [Option.getD_some, BitVec.toNat_ofNat, Nat.mod_eq_of_lt hc]

variable (printed w) in
/-- **Base materials** are read as they were written. -/
theorem readBaseMaterials_written {vs : List ModelProperty} {bases : List (String × String)}
    (used : List Nat) (hfits : ∀ v ∈ vs, v.Fits .baseMaterials)
    (hw : vs.mapM Writer.writeBaseMaterial = .ok bases)
    (hshort : ∀ b ∈ bases, Short b.1 ∧ Short b.2) :
    bases.mapM (Reader.readBaseMaterial w) = .ok (vs.map (rereadProperty printed used)) := by
  refine mapM_of_mapM hw fun v b hv hb hvb => ?_
  have hfit := hfits v hv
  cases v with
  | baseMaterial v =>
    obtain ⟨name, hname, hvb⟩ := bind_eq_ok.1 hvb
    obtain ⟨displayColor, hcolor, hvb⟩ := bind_eq_ok.1 hvb
    obtain rfl := Except.ok.inj hvb
    obtain rfl := writeEscaped_ok hname
    obtain rfl := writeEscaped_ok hcolor
    obtain ⟨h1, h2⟩ := hshort _ hb
    unfold Reader.readBaseMaterial
    rw [nfStrLen_bind, readColorText_print w hfit h2, ok_bind]
    exact ⟨h1, rfl⟩
  | color c => exact hfit.elim
  | uvCoordinate v => exact hfit.elim
  | composite c => exact hfit.elim

variable (printed w) in
/-- **Colours** are read as they were written. -/
theorem readColors_written {vs : List ModelProperty} {colors : List String} (used : List Nat)
    (hfits : ∀ v ∈ vs, v.Fits .colorGroup) (hw : vs.mapM Writer.writeColor = .ok colors)
    (hshort : ∀ c ∈ colors, Short c) :
    colors.mapM (Reader.readColor w) = .ok (vs.map (rereadProperty printed used)) := by
  refine mapM_of_mapM hw fun v b hv hb hvb => ?_
  have hfit := hfits v hv
  cases v with
  | baseMaterial v => exact hfit.elim
  | color c =>
    obtain rfl := writeEscaped_ok hvb
    unfold Reader.readColor
    rw [readColorText_print w hfit (hshort _ hb), ok_bind]
    rfl
  | uvCoordinate v => exact hfit.elim
  | composite c => exact hfit.elim

/-- **Texture coordinates** are read as what their texts stand for. -/
theorem readTex2Coords_written {vs : List ModelProperty} {coordinates : List UVCoordinate}
    (used : List Nat) (hw : vs.mapM (Writer.writeTex2Coord printed) = .ok coordinates) :
    coordinates.map Reader.readTex2Coord = vs.map (rereadProperty printed used) := by
  have hread := mapM_of_mapM (g := fun e => (.ok (Reader.readTex2Coord e) : Except Error _)) hw
    (h := rereadProperty printed used) fun v b _ _ hvb => by
      cases v with
      | baseMaterial v => cases hvb
      | color c => cases hvb
      | uvCoordinate v => rw [← Except.ok.inj hvb]; rfl
      | composite c => cases hvb
  exact Except.ok.inj ((mapM_ok fun _ _ => rfl).symm.trans hread)

/-! ## Composites -/

theorem usedSet_concat (xs : List CompositeConstituent) (x : CompositeConstituent) :
    usedSet (xs ++ [x]) = (usedSet xs).insert x.propertyID () := by
  simp [usedSet]

theorem mem_keys_usedSet {xs : List CompositeConstituent} {k : Nat} :
    k ∈ (usedSet xs).keys ↔ ∃ x ∈ xs, x.propertyID = k := by
  induction xs using List.reverseRecOn with
  | nil => simp [usedSet]
  | append_singleton xs x ih =>
    rw [usedSet_concat, SortedMap.mem_keys_insert, ih]
    simp only [List.mem_append, List.mem_singleton, or_and_right, exists_or, exists_eq_left]
    rw [or_comm, eq_comm]

/-- The materials used so far, and an index for each. -/
structure Used (mapping : PropertyIndexMapping) (baseMaterialID : Nat)
    (done : List CompositeConstituent) (used : SortedMap Nat Unit × List Nat) : Prop where
  set : used.1 = usedSet done
  length : used.2.length = used.1.size
  mapped : ∀ x ∈ done, ∃ i, mapping.mapPropertyIDToIndex baseMaterialID x.propertyID = .ok i
  indices : ∀ i ∈ used.2, ∃ k, mapping.mapPropertyIDToIndex baseMaterialID k = .ok i

theorem used_of_foldlM {mapping : PropertyIndexMapping} {baseMaterialID : Nat}
    {xs : List CompositeConstituent} {used : SortedMap Nat Unit × List Nat}
    (h : xs.foldlM (Writer.useMaterial mapping baseMaterialID) (.empty, []) = .ok used) :
    Used mapping baseMaterialID xs used := by
  have h0 : Used mapping baseMaterialID [] (SortedMap.empty, []) :=
    ⟨rfl, rfl, by simp, by simp⟩
  refine foldlM_ok (Used mapping baseMaterialID) (fun done used x used' _ hu hs => ?_) h0 h
  unfold Writer.useMaterial at hs
  obtain ⟨index, hindex, hs⟩ := bind_eq_ok.1 hs
  have hmapped : ∀ y ∈ done ++ [x], ∃ i,
      mapping.mapPropertyIDToIndex baseMaterialID y.propertyID = .ok i := by
    intro y hy
    rcases List.mem_append.1 hy with hy | hy
    · exact hu.mapped y hy
    · rw [List.mem_singleton.1 hy]
      exact ⟨index, hindex⟩
  split_ifs at hs with hfound
  · obtain rfl := Except.ok.inj hs
    refine ⟨?_, hu.length, hmapped, hu.indices⟩
    rw [usedSet_concat, ← hu.set, SortedMap.insert_of_mem (SortedMap.find?_isSome.1 hfound)]
  · obtain rfl := Except.ok.inj hs
    have hnew : x.propertyID ∉ used.1.keys := fun hk => hfound (SortedMap.find?_isSome.2 hk)
    refine ⟨?_, ?_, hmapped, fun i hi => ?_⟩
    · rw [usedSet_concat, ← hu.set]
    · rw [SortedMap.size_insert hnew, List.length_append, hu.length]
      rfl
    · rcases List.mem_append.1 hi with hi | hi
      · exact hu.indices i hi
      · rw [List.mem_singleton.1 hi]
        exact ⟨x.propertyID, hindex⟩

/-- The composites of a resource that is written. -/
theorem mapM_getComposite {vs : List ModelProperty} {composites : List Composite}
    (h : vs.mapM Writer.getComposite = .ok composites) :
    composites = vs.map ModelProperty.constituents ∧ ∀ v ∈ vs, ∃ c, v = .composite c := by
  have hstep : ∀ v c, Writer.getComposite v = .ok c → v = .composite c := by
    intro v c hv
    cases v with
    | baseMaterial v => cases hv
    | color c => cases hv
    | uvCoordinate v => cases hv
    | composite c => rw [← Except.ok.inj hv]
  refine ⟨eq_map_of_mapM (fun v c _ hv => ?_) h, fun v hv => ?_⟩
  · rw [hstep v c hv]
    rfl
  · obtain ⟨c, hc⟩ := exists_ok_of_mapM h hv
    exact ⟨c, hstep v c hc⟩

/-- Numbers that are finite are read. -/
theorem mapM_fnStringToDouble {values : List Double} (h : ∀ x ∈ values, ¬ x.IsInfinite) :
    values.mapM Reader.fnStringToDouble = .ok values := by
  have hall := mapM_ok (f := Reader.fnStringToDouble) (g := id) fun x hx => if_neg (h x hx)
  rwa [List.map_id] at hall

/-- The constituents that are made of the ratios. -/
theorem rereadComposite_eq (used : List Nat) (c : Composite) :
    (List.range' 1 used.length).zipIdx.map (fun x => (⟨x.1,
      (used.map fun k => printed.ratio (c.getMixingRatio k)).getD x.2 (.ofRat 0)⟩ :
        CompositeConstituent)) = rereadComposite printed used c := by
  refine List.ext_getElem (by simp [rereadComposite]) fun i hi hi' => ?_
  have hlt : i < used.length := by simpa [rereadComposite] using hi'
  simp [rereadComposite, hlt, Nat.add_comm]

/-- The constituents pass the check of `addComposite` where the ratios are in range. -/
theorem checkComposite_reread {V : Type} {materials : PropertyGroup V} {used : List Nat} {n : Nat}
    (hkeys : materials.buildResourceIndexMap = List.range' 1 n) (hn : used.length ≤ n)
    (c : Composite) : checkComposite materials (rereadComposite printed used c) = .ok () ↔
      ∀ k ∈ used, ¬ ((printed.ratio (c.getMixingRatio k)).lt (.ofRat 0) ∨
        (Double.ofRat 1).lt (printed.ratio (c.getMixingRatio k))) := by
  have hfound : ∀ i < used.length, (materials.entries.find? (i + 1)).isSome := by
    intro i hi
    rw [SortedMap.find?_isSome, ← PropertyGroup.buildResourceIndexMap, hkeys, List.mem_range'_1]
    omega
  rw [checkComposite_eq_ok, rereadComposite, List.forall_mem_map]
  constructor
  · intro h k hk
    obtain ⟨i, hi, rfl⟩ := List.mem_iff_getElem.1 hk
    exact (h (used[i], i) (List.mk_mem_zipIdx_iff_getElem?.2 (List.getElem?_eq_getElem hi))).2
  · intro h x hx
    have hi := (List.mem_zipIdx_iff_getElem?.1 hx)
    exact ⟨hfound _ (List.getElem?_eq_some_iff.1 hi).1, h _ (List.mem_of_getElem? hi)⟩

variable (printed level) in
/-- **A composite is read with its ratios for the first base materials** exactly when they are in
range. -/
theorem readComposite_written {V : Type} {materials : PropertyGroup V} {used : List Nat} {n : Nat}
    (hkeys : materials.buildResourceIndexMap = List.range' 1 n) (hn : used.length ≤ n)
    (c : Composite) {out : Composite} :
    Reader.readComposite level materials (List.range' 1 used.length)
        (used.map fun k => printed.ratio (c.getMixingRatio k)) = .ok out ↔
      (∀ k ∈ used, ReadableRatio (printed.ratio (c.getMixingRatio k))) ∧
        out = rereadComposite printed used c := by
  unfold Reader.readComposite
  by_cases hfinite : ∀ k ∈ used, ¬ (printed.ratio (c.getMixingRatio k)).IsInfinite
  · have hratios := mapM_fnStringToDouble (List.forall_mem_map.2 hfinite)
    have hcheck : Reader.checkRatios level (List.range' 1 used.length)
        (used.map fun k => printed.ratio (c.getMixingRatio k)) = .ok () := by
      unfold Reader.checkRatios
      rw [if_neg (by simp), if_neg (by simp)]
    have hreadable : (∀ k ∈ used, ReadableRatio (printed.ratio (c.getMixingRatio k))) ↔
        checkComposite materials (rereadComposite printed used c) = .ok () := by
      rw [checkComposite_reread hkeys hn]
      exact forall₂_congr fun k hk => and_iff_right (hfinite k hk)
    rw [hratios, ok_bind]
    dsimp only
    rw [hcheck, ok_bind, rereadComposite_eq, hreadable]
    cases checkComposite materials (rereadComposite printed used c) with
    | error e => simp [bind, Except.bind]
    | ok u => simp [bind, Except.bind, eq_comm]
  · -- an infinite ratio is not read
    refine iff_of_false (fun h => hfinite fun k hk hinf => ?_)
      fun h => hfinite fun k hk => (h.1 k hk).1
    obtain ⟨ratios, hratios, -⟩ := bind_eq_ok.1 h
    obtain ⟨x, hx⟩ := exists_ok_of_mapM hratios (List.mem_map_of_mem hk)
    unfold Reader.fnStringToDouble at hx
    rw [if_pos hinf] at hx
    cases hx

/-- A composite of the second material alone is read as one of the first. -/
example : rereadComposite exactNumbers [2] [⟨2, .ofRat 1⟩] = [⟨1, .ofRat 1⟩] := by decide

/-- The base materials of the indices. -/
theorem mapM_materialPropertyID {V : Type} {materials : PropertyGroup V} {n count : Nat}
    (hkeys : materials.buildResourceIndexMap = List.range' 1 count) (hn : n ≤ count) :
    (List.range n).mapM (Reader.materialPropertyID materials) = .ok (List.range' 1 n) := by
  have hstep : ∀ i ∈ List.range n, Reader.materialPropertyID materials i = .ok (i + 1) := by
    intro i hi
    unfold Reader.materialPropertyID
    rw [hkeys, List.getElem?_range' (by have := List.mem_range.1 hi; omega), Nat.one_mul,
      Nat.add_comm]
  rw [mapM_ok hstep, List.range'_eq_map_range]
  simp only [Nat.add_comm]

/-! ## Composite materials -/

section CompositeMaterials

variable {i j : Nat} {b : PropertyResource ModelProperty} {mapping : PropertyIndexMapping}
  {used : SortedMap Nat Unit × List Nat}

/-- The materials that are used are among the base materials. -/
theorem Used.keys_le {xs : List CompositeConstituent} (hn : (R.map (·.uniqueID)).Nodup)
    (hm : Mapped mapping R) (hb : b ∈ R) (hu : Used mapping b.uniqueID xs used) :
    used.1.keys.length ≤ b.group.getCount := by
  have hsub : used.1.keys ⊆ b.group.buildResourceIndexMap := by
    intro k hk
    rw [hu.set, mem_keys_usedSet] at hk
    obtain ⟨x, hx, rfl⟩ := hk
    obtain ⟨index, hindex⟩ := hu.mapped x hx
    obtain ⟨b', hb', hid, hkey⟩ := mapPropertyIDToIndex_ok hm hindex
    rw [List.inj_on_of_nodup_map hn hb' hb hid] at hkey
    exact List.mem_of_getElem? hkey
  have hnodup : used.1.keys.Nodup := used.1.sorted.imp fun h => Nat.ne_of_lt h
  have hle := (List.subperm_of_subset hnodup hsub).length_le
  rw [PropertyGroup.buildResourceIndexMap, SortedMap.size_keys (m := b.group.entries)] at hle
  exact hle

/-- The indices have 32 bits. -/
theorem Used.lt {xs : List CompositeConstituent} {baseMaterialID : Nat} (hm : Mapped mapping R)
    (hc : ∀ r ∈ R, r.group.getCount ≤ maxResourceIndex)
    (hu : Used mapping baseMaterialID xs used) : ∀ n ∈ used.2, n < 2 ^ 32 := by
  intro n hn
  obtain ⟨k, hk⟩ := hu.indices n hn
  obtain ⟨r, hr, -, hkey⟩ := mapPropertyIDToIndex_ok hm hk
  have hlt := (List.getElem?_eq_some_iff.1 hkey).1
  rw [PropertyGroup.buildResourceIndexMap, SortedMap.size_keys] at hlt
  have hcount : r.group.entries.size ≤ 2147483647 := hc r hr
  omega

variable (printed level) in
/-- The composites of a resource are read exactly when their ratios are in range. -/
theorem readComposites_written {V : Type} {materials : PropertyGroup V} {n : Nat}
    (hkind : r.kind = .compositeMaterials)
    (hkeys : materials.buildResourceIndexMap = List.range' 1 n)
    (hn : (usedMaterials r).length ≤ n) (out : List Composite) :
    (r.group.entries.values.map fun v => (usedMaterials r).map fun k =>
        printed.ratio (v.constituents.getMixingRatio k)).mapM
          (Reader.readComposite level materials (List.range' 1 (usedMaterials r).length)) = .ok out ↔
      ReadableRatios printed r ∧ out = r.group.entries.values.map fun v =>
        rereadComposite printed (usedMaterials r) v.constituents := by
  rw [List.mapM_map]
  refine (mapM_eq_ok_iff fun v out =>
    readComposite_written printed level hkeys hn v.constituents).trans ?_
  unfold ReadableRatios
  rw [forall_prop_of_true hkind]

/-- The base materials of composites are found when these are read. -/
theorem findBaseMaterial_written (hb : ∀ r ∈ R, 0 < r.uniqueID ∧ r.uniqueID < 2 ^ 32)
    (hv : ValidProperties R) (hi : R[i]? = some r) (hkind : r.kind = .compositeMaterials)
    {s : ReaderState ModelProperty} (hs : ReadResources (rereading printed R) path (R.take i) s) :
    ∃ j b b', R[j]? = some b ∧ b ∈ R.take i ∧ b.uniqueID = r.baseMaterialID ∧
      fnStringToUint32 (writeIntAttribute r.baseMaterialID) = .ok r.baseMaterialID ∧
      s.resourceHandler.findResourceIDByPath path r.baseMaterialID =
        some ⟨path, r.baseMaterialID, j + 1⟩ ∧
      Reader.findBaseMaterial s (j + 1) = .ok b' ∧ b'.uniqueID = j + 1 ∧
      b'.group.buildResourceIndexMap = List.range' 1 b.group.getCount := by
  obtain ⟨j, b, hj, hbj, hid, hbase⟩ := hv.bases i r hi hkind
  have hbi : (R.take i)[j]? = some b := by rw [List.getElem?_take_of_lt hj, hbj]
  obtain ⟨xb, b', hfind, -, hxb⟩ := hs.reread.find? hbi
  refine ⟨j, b, b', hbj, List.mem_of_getElem? hbi, hid, ?_, ?_, ?_, hxb.uniqueID, ?_⟩
  · rw [← hid, fnStringToUint32_writeIntAttribute (hb b (List.mem_of_getElem? hbj)).2,
      if_neg (hs.ids b (List.mem_of_getElem? hbi))]
  · refine hs.numbers.byPath j _ ?_
    rw [List.getElem?_map, hbi, ← hid]
    rfl
  · unfold Reader.findBaseMaterial
    rw [hfind]
    exact if_pos (hxb.kind.trans hbase)
  · rw [hxb.group.keys, (rereading printed R).length _ _ hxb.result]

variable (printed) in
/-- What is read of composites is what `rereading` says. -/
theorem map_rereadComposite (hcomposite : ∀ v ∈ r.group.entries.values, ∃ c, v = .composite c)
    (used : List Nat) : (r.group.entries.values.map fun v =>
      rereadComposite printed used v.constituents).map .composite =
        r.group.entries.values.map (rereadProperty printed used) := by
  rw [List.map_map]
  refine List.map_congr_left fun v hv => ?_
  obtain ⟨c, rfl⟩ := hcomposite v hv
  rfl

/-- **Composite materials are read** with the ratios for the first base materials, exactly when the
ratios are in range. -/
theorem readCompositeMaterials_written (hn : (R.map (·.uniqueID)).Nodup)
    (hb : ∀ r ∈ R, 0 < r.uniqueID ∧ r.uniqueID < 2 ^ 32)
    (hc : ∀ r ∈ R, r.group.getCount ≤ maxResourceIndex) (hv : ValidProperties R)
    (hi : R[i]? = some r) (hkind : r.kind = .compositeMaterials)
    (hm : Mapped mapping (R.take (i + 1))) {content : PropertiesElement}
    (hw : Writer.writeCompositeMaterials printed mapping r = .ok content)
    (hshort : ∀ t ∈ content.texts, Short t) {s : ReaderState ModelProperty}
    (hs : ReadResources (rereading printed R) path (R.take i) s)
    {x : ReadProperties ModelProperty} :
    Reader.readProperties w level path s content = .ok x ↔
      (rereading printed R).result r = some x := by
  unfold Writer.writeCompositeMaterials at hw
  rw [forProperties_eq] at hw
  obtain ⟨composites, hcomposites, hw⟩ := bind_eq_ok.1 hw
  obtain ⟨used, hused, hw⟩ := bind_eq_ok.1 hw
  obtain ⟨matIndices, hindices, hw⟩ := bind_eq_ok.1 hw
  obtain rfl := Except.ok.inj hw
  obtain rfl := writeEscaped_ok hindices
  obtain ⟨rfl, hcomposite⟩ := mapM_getComposite hcomposites
  have hu := used_of_foldlM hused
  -- the base materials stand in front of the resource
  obtain ⟨j, b, b', hbj, hbi, hid, hid32, hpath, hmaterials, hb', hkeys⟩ :=
    findBaseMaterial_written hb hv hi hkind hs
  have hbm : b ∈ R.take (i + 1) := List.take_subset_take_left _ (Nat.le_succ i) hbi
  have hne : r.baseMaterialID ≠ 0 := by
    rw [← hid]
    exact Nat.pos_iff_ne_zero.1 (hb b (List.mem_of_getElem? hbj)).1
  have hplace : rereadBaseID R r = j + 1 := by
    rw [rereadBaseID, if_pos hkind, ← hid, idxOf_uniqueID hn hbj]
  -- the materials that are used, and their indices
  rw [← hid] at hu
  have hle := hu.keys_le ((List.take_sublist _ R).map _ |>.nodup hn) hm hbm
  have hlen : used.2.length = used.1.keys.length := hu.length.trans (SortedMap.size_keys _).symm
  have hset : used.1.keys = usedMaterials r := by
    rw [hu.set, usedMaterials, List.flatMap_def]
  have hnumbers : fnVctUint32_fromString (Writer.indicesText used.2) = .ok used.2 :=
    fnVctUint32_fromString_print (hu.lt hm fun r hr => hc r (List.mem_of_mem_take hr))
  have htext : nfStrLen (Writer.indicesText used.2) = .ok _ :=
    nfStrLen_ok.2 ⟨hshort _ (List.mem_singleton_self _), rfl⟩
  have hids := mapM_materialPropertyID hkeys (n := used.2.length) (by rw [hlen]; exact hle)
  have hread := readComposites_written printed level hkind hkeys (by rw [← hset]; exact hle)
  rw [List.map_map, hset]
  rw [hlen, hset] at hids
  show Reader.readCompositeMaterials level path s _ _ _ = .ok x ↔ _
  unfold Reader.readCompositeMaterials
  rw [hid32, ok_bind, htext, ok_bind, hnumbers, ok_bind, if_neg hne, hpath]
  dsimp only
  rw [hmaterials, ok_bind, hlen, hset, hids, ok_bind, bind_eq_ok]
  simp only [Function.comp_def, hread]
  have hproperties := map_rereadComposite printed hcomposite (usedMaterials r)
  have hgroup : r.kind ≠ .multiPropertyGroup := by
    rw [hkind]
    decide
  show _ ↔ (if _ then _ else none) = some x
  constructor
  · rintro ⟨out, ⟨hreadable, rfl⟩, h⟩
    rw [if_pos ⟨hgroup, hreadable⟩, ← Except.ok.inj h, hproperties, hplace, hkind, hb']
  · intro h
    split_ifs at h with hreadable
    refine ⟨_, ⟨hreadable.2, rfl⟩, ?_⟩
    rw [← Option.some.inj h, hproperties, hplace, hkind, hb']

end CompositeMaterials

/-! ## Resources -/

/-- Of the resources that are no composite materials, each is read. -/
theorem rereading_result {kind : PropertyResourceKind} (hkind : r.kind = kind)
    (hne : kind ≠ .multiPropertyGroup) (hc : kind ≠ .compositeMaterials) :
    (rereading printed R).result r = some ⟨kind, 0,
      r.group.entries.values.map (rereadProperty printed (usedMaterials r))⟩ := by
  have hcomposite : r.kind ≠ .compositeMaterials := by rwa [hkind]
  have hbase : rereadBaseID R r = 0 := if_neg hcomposite
  show (if _ then _ else none) = _
  rw [if_pos ⟨by rwa [hkind], fun h => absurd h hcomposite⟩, hbase, hkind]

/-- **The reader makes of the property resources of a document what `rereading` says.** -/
theorem reads_written (hn : (R.map (·.uniqueID)).Nodup)
    (hb : ∀ r ∈ R, 0 < r.uniqueID ∧ r.uniqueID < 2 ^ 32)
    (hc : ∀ r ∈ R, r.group.getCount ≤ maxResourceIndex) (hv : ValidProperties R)
    {es : List (PropertyResourceElement PropertiesElement)}
    (he : WrittenElements (Writer.writeProperties printed) R es)
    (hshort : ∀ t ∈ propertyTexts es, Short t) :
    Reads (Reader.readProperties w level) path R es (rereading printed R) := by
  intro i r e hi hei s hs x
  obtain ⟨mapping, content, hm, hw, hes⟩ := he.element i r hi
  obtain rfl := Option.some.inj (hei.symm.trans hes)
  have htexts : ∀ t ∈ content.texts, Short t := fun t ht =>
    hshort t (List.mem_flatMap.2 ⟨_, List.mem_of_getElem? hei, ht⟩)
  have hfits := hv.fits r (List.mem_of_getElem? hi)
  unfold Writer.writeProperties at hw
  cases hkind : r.kind with
  | baseMaterials =>
    rw [hkind] at hw hfits
    obtain ⟨bases, hbases, hw⟩ := bind_eq_ok.1 hw
    obtain rfl := Except.ok.inj hw
    rw [forProperties_eq] at hbases
    have hread := readBaseMaterials_written printed w (usedMaterials r) hfits hbases
      fun b hb => ⟨htexts _ (List.mem_flatMap.2 ⟨b, hb, by simp⟩),
        htexts _ (List.mem_flatMap.2 ⟨b, hb, by simp⟩)⟩
    show (bases.mapM (Reader.readBaseMaterial w) >>= _) = .ok x ↔ _
    rw [hread, ok_bind, rereading_result hkind (by decide) (by decide)]
    simp
  | colorGroup =>
    rw [hkind] at hw hfits
    obtain ⟨colors, hcolors, hw⟩ := bind_eq_ok.1 hw
    obtain rfl := Except.ok.inj hw
    rw [forProperties_eq] at hcolors
    have hread := readColors_written printed w (usedMaterials r) hfits hcolors htexts
    show (colors.mapM (Reader.readColor w) >>= _) = .ok x ↔ _
    rw [hread, ok_bind, rereading_result hkind (by decide) (by decide)]
    simp
  | texture2DGroup =>
    rw [hkind] at hw
    obtain ⟨coordinates, hcoordinates, hw⟩ := bind_eq_ok.1 hw
    obtain rfl := Except.ok.inj hw
    rw [forProperties_eq] at hcoordinates
    show (.ok (⟨.texture2DGroup, 0, coordinates.map Reader.readTex2Coord⟩ : ReadProperties _) :
      Except Error _) = .ok x ↔ _
    rw [readTex2Coords_written (usedMaterials r) hcoordinates,
      rereading_result hkind (by decide) (by decide)]
    simp
  | compositeMaterials =>
    rw [hkind] at hw
    exact readCompositeMaterials_written hn hb hc hv hi hkind hm hw htexts hs
  | multiPropertyGroup =>
    rw [hkind] at hw
    cases hw

end NMR
