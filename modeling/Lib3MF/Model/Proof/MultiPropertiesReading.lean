import Lib3MF.Model.Reader.MultiPropertiesAccess

/-!
# Any multi-property element

Reading index by index accesses nothing out of range: it is the reading of
`Reader.readMultiProperties` (`parseMultiProperties_eq`). What is read is told by the attribute
values alone: the layers are the listed ones in their order (`LayersRead`), and each `multi` has a
property for each layer (`MultiRead`). `multiProperties_read` puts these together for every
element.
-/

namespace NMR

open Lib

namespace Reader

variable {V : Type} {level : ModelReaderWarningLevel} {path : String} {handler : ResourceHandler}

/-! ## No access out of range -/

theorem defaultBlendMethods_eq (pids : List Nat) : defaultBlendMethods pids =
    Checked.lift (blendMethodsOf ⟨0, none, none⟩ pids) := by
  unfold defaultBlendMethods blendMethodsOf
  by_cases h : pids = []
  · rw [if_pos h, if_pos (by rw [h]; rfl)]
    rfl
  · have hmix : ∀ i ∈ List.range (List.replicate (sizeMinusOne pids.length) BlendMethod.none).length,
        (pure .mix : CheckedReading BlendMethod) = .ok .mix := fun _ _ => rfl
    rw [if_neg h, if_neg (by rwa [List.length_eq_zero_iff]), fill_range, mapM_ok hmix,
      List.map_const', List.length_range, List.length_replicate]
    rfl

/-- The blend method of layer `i`. -/
theorem blendMethod_at {methods : List BlendMethod} {n i : Nat} {method : BlendMethod}
    (h : (.mix :: methods ++ List.replicate n .mix)[i]? = some method) :
    layerMethod methods i = .ok method := by
  unfold layerMethod
  cases i with
  | zero =>
    rw [if_neg (by omega), Option.some.inj h]
  | succ i =>
    rw [List.cons_append, List.getElem?_cons_succ] at h
    by_cases hi : i < methods.length
    · rw [List.getElem?_append_left hi] at h
      rw [if_pos (by omega), Nat.add_sub_cancel]
      exact elementAt_of_getElem? h
    · rw [List.getElem?_append_right (by omega)] at h
      rw [if_neg (by omega), List.eq_of_mem_replicate (List.mem_of_getElem? h)]

/-- One layer. -/
theorem parseLayer_eq {pids : List Nat} {methods : List BlendMethod} {i : Nat}
    {y : Nat × BlendMethod} (hid : pids[i]? = some y.1)
    (hmethod : layerMethod methods i = .ok y.2) :
    parseLayer path handler pids methods i = Checked.lift (readLayer path handler y) := by
  unfold parseLayer readLayer
  rw [elementAt_of_getElem? hid]
  simp only [bind, Except.bind]
  cases handler.findResourceIDByPath path y.1 with
  | none => rfl
  | some pID =>
    dsimp only
    rw [hmethod]
    rfl

/-- The layers. -/
theorem parseLayers_eq (n : MultiPropertiesNode) : parseLayers level path handler n =
    Checked.lift (readLayers level path handler n) := by
  unfold parseLayers readLayers
  cases n.pids with
  | none =>
    dsimp only
    rw [Checked.lift_bind]
    rfl
  | some pids =>
    have hmethods : parseBlendMethods n pids = Checked.lift (blendMethodsOf n pids) := by
      unfold parseBlendMethods blendMethodsOf
      cases n.blendMethods with
      | some methods => rfl
      | none => exact defaultBlendMethods_eq pids
    have hloop : ∀ methods : List BlendMethod,
        (List.range pids.length).mapM (parseLayer path handler pids methods) =
          Checked.lift ((pids.zip (.mix :: methods ++ List.replicate pids.length .mix)).mapM
            (readLayer path handler)) := by
      intro methods
      have hlen : (pids.zip (.mix :: methods ++ List.replicate pids.length .mix)).length =
          pids.length := by
        simp only [List.length_zip, List.length_append, List.length_cons, List.length_replicate]
        omega
      have hrange := @mapM_range _ _ CheckedReading _ _
        (pids.zip (.mix :: methods ++ List.replicate pids.length .mix))
        (parseLayer path handler pids methods)
        (fun y => Checked.lift (readLayer path handler y)) fun i y hy => by
          obtain ⟨hid, hmethod⟩ := List.getElem?_zip_eq_some.1 hy
          exact parseLayer_eq hid (blendMethod_at hmethod)
      rw [hlen] at hrange
      rw [hrange, Checked.lift_mapM]
    simp only [hmethods, hloop, Checked.lift_bind]

theorem getLayer_of_getElem? {layers : List MultiPropertyLayer} {i : Nat} {l : MultiPropertyLayer}
    (hsmall : layers.length < 2 ^ 32) (h : layers[i]? = some l) :
    getLayer layers (UInt32.ofNat i) = .ok l := by
  have hi : i < layers.length := (List.getElem?_eq_some_iff.1 h).1
  have hnat : (UInt32.ofNat i).toNat = i := by
    rw [UInt32.toNat_ofNat']
    omega
  unfold getLayer lastLayerIndex
  rw [hnat, if_neg (by split_ifs <;> omega), h]

/-- The property ID for an index in a layer. -/
def resolvePIndex (m : MaterialModel V) (x : MultiPropertyLayer × Nat) : Except Error Nat :=
  match m.findGroup x.1.resourceID with
  | none => .error .resourceNotFound
  | some g =>
    match g.buildResourceIndexMap[x.2]? with
    | none => .error .invalidResourceIndex
    | some id => .ok id

theorem resolvePIndices_eq (m : MaterialModel V) (layers : List MultiPropertyLayer)
    (indices : List Nat) : resolvePIndices m layers indices =
      (layers.zip (padPIndices layers.length indices)).mapM (resolvePIndex m) := by
  induction layers generalizing indices with
  | nil => rfl
  | cons l layers ih =>
    have hpad : padPIndices (l :: layers).length indices =
        indices.headD 0 :: padPIndices layers.length indices.tail := by
      cases indices with
      | nil => simp [padPIndices, List.replicate_succ]
      | cons i indices => simp [padPIndices]
    rw [hpad, List.zip_cons_cons, List.mapM_cons, ← ih, resolvePIndices, resolvePIndex]
    cases m.findGroup l.resourceID with
    | none => rfl
    | some g =>
      dsimp only
      cases g.buildResourceIndexMap[indices.headD 0]? <;> rfl

/-- The property of a layer. -/
theorem parsePropertyID_eq (m : MaterialModel V) {layers : List MultiPropertyLayer}
    {vctPIndices : List Nat} {i : Nat} {y : MultiPropertyLayer × Nat}
    (hsmall : layers.length < 2 ^ 32) (hl : layers[i]? = some y.1)
    (hi : vctPIndices[i]? = some y.2) :
    parsePropertyID m layers vctPIndices i = Checked.lift (resolvePIndex m y) := by
  unfold parsePropertyID resolvePIndex
  rw [getLayer_of_getElem? hsmall hl]
  dsimp only
  cases m.findGroup y.1.resourceID with
  | none => rfl
  | some g =>
    dsimp only
    rw [elementAt_of_getElem? hi]
    show (match g.buildResourceIndexMap[y.2]? with
      | none => _
      | some nPropertyID => _) = _
    cases g.buildResourceIndexMap[y.2]? <;> rfl

/-- The properties of a `multi`. -/
theorem parsePropertyIDs_eq (m : MaterialModel V) {layers : List MultiPropertyLayer}
    (hsmall : layers.length < 2 ^ 32) (indices : List Nat) :
    parsePropertyIDs m layers indices = Checked.lift (resolvePIndices m layers indices) := by
  have hlen : (layers.zip (padPIndices layers.length indices)).length = layers.length := by
    simp only [padPIndices, List.length_zip, List.length_append, List.length_replicate]
    omega
  unfold parsePropertyIDs
  dsimp only
  have hrange := @mapM_range _ _ CheckedReading _ _
    (layers.zip (padPIndices layers.length indices))
    (parsePropertyID m layers (padPIndices layers.length indices))
    (fun y => Checked.lift (resolvePIndex m y)) fun i y hy => by
      obtain ⟨hl, hi⟩ := List.getElem?_zip_eq_some.1 hy
      exact parsePropertyID_eq m hsmall hl hi
  rw [hlen] at hrange
  rw [Nat.mod_eq_of_lt hsmall, fill_range, List.length_replicate, hrange, resolvePIndices_eq,
    Checked.lift_mapM]

theorem parseMulti_eq (m : MaterialModel V) {layers : List MultiPropertyLayer}
    (hsmall : layers.length < 2 ^ 32) (g : PropertyGroup MultiProperty)
    (e : List (String × String)) :
    parseMulti level m layers g e = Checked.lift (readMulti level m layers g e) := by
  unfold parseMulti readMulti
  simp only [Checked.lift_bind, parsePropertyIDs_eq m hsmall]
  rfl

/-! ## Attributes -/

/-- The value of an attribute; where a name comes twice, the last one. -/
def attributeText (attributes : List (String × String)) (name : String) : Option String :=
  (attributes.reverse.find? fun a => a.1 = name).map Prod.snd

theorem attributeText_append (attributes : List (String × String)) (a : String × String)
    (name : String) : attributeText (attributes ++ [a]) name =
      if a.1 = name then some a.2 else attributeText attributes name := by
  unfold attributeText
  rw [List.reverse_append, List.reverse_singleton, List.singleton_append, List.find?_cons]
  by_cases h : a.1 = name <;> simp [h]

/-- The numbers an attribute lists, none where it is missing. -/
def ListedNumbers (attributes : List (String × String)) (name : String) (numbers : List Nat) :
    Prop :=
  match attributeText attributes name with
  | none => numbers = []
  | some text => fnVctUint32_fromString text = .ok numbers

/-- The blend methods the attribute lists; what is no name of a method counts as `mix`. -/
def listedBlendMethods (attributes : List (String × String)) : List BlendMethod :=
  match attributeText attributes "blendmethods" with
  | none => []
  | some text => (fnVctString_fromString text).map fun s => if s = "multiply" then .multiply else .mix

theorem readBlendMethod_ok {s : String} {method : BlendMethod}
    (h : readBlendMethod level s = .ok method) :
    method = if s = "multiply" then .multiply else .mix := by
  unfold readBlendMethod stringToBlendMethod at h
  by_cases hmix : s = "mix"
  · rw [if_pos hmix] at h
    rw [if_neg (by rw [hmix]; decide)]
    exact (Except.ok.inj h).symm
  · by_cases hmultiply : s = "multiply"
    · rw [if_neg hmix, if_pos hmultiply] at h
      rw [if_pos hmultiply]
      exact (Except.ok.inj h).symm
    · rw [if_neg hmix, if_neg hmultiply] at h
      obtain ⟨u, -, hm⟩ := bind_eq_ok.1 h
      rw [if_neg hmultiply]
      exact (Except.ok.inj hm).symm

/-- A list is no longer than its text. -/
theorem length_splitOn_le (l : List Char) : (l.splitOn ' ').length ≤ l.length + 1 := by
  induction l with
  | nil => simp
  | cons c l ih =>
    rw [List.splitOn, List.splitOnP_cons_eq_if_modifyHead]
    split_ifs
    · exact Nat.succ_le_succ ih
    · rw [List.length_modifyHead, List.length_cons]
      exact ih.trans (by omega)

theorem length_le_utf8ByteSize_ofList (l : List Char) :
    l.length ≤ (String.ofList l).utf8ByteSize := by
  induction l with
  | nil => exact Nat.zero_le _
  | cons c l ih =>
    have hc : 0 < c.utf8Size := Char.utf8Size_pos c
    rw [show c :: l = [c] ++ l from rfl, String.ofList_append, String.utf8ByteSize_append,
      ← String.singleton_eq_ofList, String.utf8ByteSize_singleton, List.length_append,
      List.length_singleton]
    omega

theorem length_fnVctUint32_fromString {text : String} {numbers : List Nat} (hs : Short text)
    (h : fnVctUint32_fromString text = .ok numbers) : numbers.length < 2 ^ 32 := by
  have hlen := (mapM_eq_ok.1 h).length_eq
  have htokens : (tokens text).length ≤ (text.toList.splitOn ' ').length :=
    List.length_filter_le _ _
  have hsplit := length_splitOn_le text.toList
  have hbytes := length_le_utf8ByteSize_ofList text.toList
  rw [String.ofList_toList] at hbytes
  unfold Short maxXMLStringLength at hs
  omega

/-- The node after the attributes `done`. -/
structure NodeRead (done : List (String × String)) (n : MultiPropertiesNode) : Prop where
  pids : ListedNumbers done "pids" (n.pids.getD [])
  blendMethods : n.blendMethods.getD [] = listedBlendMethods done
  few : (n.pids.getD []).length < 2 ^ 32

theorem NodeRead.next {done : List (String × String)} {n n' : MultiPropertiesNode}
    {a : String × String} (h : NodeRead done n)
    (hr : MultiPropertiesNode.readAttribute level n a = .ok n') : NodeRead (done ++ [a]) n' := by
  unfold MultiPropertiesNode.readAttribute at hr
  simp only [nfStrLen_bind] at hr
  obtain ⟨-, hshort, hr⟩ := hr
  have hother : ∀ name, a.1 ≠ name →
      attributeText (done ++ [a]) name = attributeText done name := fun name hne => by
    rw [attributeText_append, if_neg hne]
  -- an attribute with another name leaves both lists
  have hkeep : a.1 ≠ "pids" → a.1 ≠ "blendmethods" → n'.pids = n.pids →
      n'.blendMethods = n.blendMethods → NodeRead (done ++ [a]) n' := by
    intro hp hb hep heb
    refine ⟨?_, ?_, by rw [hep]; exact h.few⟩
    · rw [ListedNumbers, hother _ hp, hep]
      exact h.pids
    · rw [listedBlendMethods, hother _ hb, heb]
      exact h.blendMethods
  unfold MultiPropertiesNode.onAttribute at hr
  split_ifs at hr with hid h0 hp hsome hb hsome
  · obtain ⟨id, -, hr⟩ := bind_eq_ok.1 hr
    obtain rfl := Except.ok.inj hr
    exact hkeep (by rw [hid]; decide) (by rw [hid]; decide) rfl rfl
  · obtain ⟨pids, hparse, hr⟩ := bind_eq_ok.1 hr
    obtain rfl := Except.ok.inj hr
    refine ⟨?_, ?_, length_fnVctUint32_fromString hshort hparse⟩
    · rw [ListedNumbers, attributeText_append, if_pos hp]
      exact hparse
    · rw [listedBlendMethods, hother _ (by rw [hp]; decide)]
      exact h.blendMethods
  · obtain ⟨methods, hparse, hr⟩ := bind_eq_ok.1 hr
    obtain rfl := Except.ok.inj hr
    refine ⟨?_, ?_, h.few⟩
    · rw [ListedNumbers, hother _ (by rw [hb]; decide)]
      exact h.pids
    · rw [listedBlendMethods, attributeText_append, if_pos hb]
      exact eq_map_of_mapM (fun s method _ hm => readBlendMethod_ok hm) hparse
  · obtain ⟨u, -, hr⟩ := bind_eq_ok.1 hr
    obtain rfl := Except.ok.inj hr
    exact hkeep hp hb rfl rfl

theorem nodeRead {attributes : List (String × String)} {n : MultiPropertiesNode}
    (h : attributes.foldlM (MultiPropertiesNode.readAttribute level) MultiPropertiesNode.new =
      .ok n) : NodeRead attributes n := by
  have h0 : NodeRead [] MultiPropertiesNode.new := ⟨rfl, rfl, by decide⟩
  exact foldlM_ok NodeRead (fun _ _ _ _ _ hn hr => hn.next hr) h0 h

theorem multiNodeRead {attributes : List (String × String)} {n : MultiNode}
    (h : attributes.foldlM (MultiNode.readAttribute level) MultiNode.new = .ok n) :
    ListedNumbers attributes "pindices" n.pindices := by
  have h0 : ListedNumbers [] "pindices" MultiNode.new.pindices := rfl
  refine foldlM_ok (fun done (n : MultiNode) => ListedNumbers done "pindices" n.pindices)
    (fun done n a n' _ hn hr => ?_) h0 h
  unfold MultiNode.readAttribute at hr
  simp only [nfStrLen_bind] at hr
  obtain ⟨-, -, hr⟩ := hr
  unfold MultiNode.onAttribute at hr
  rw [ListedNumbers, attributeText_append]
  split_ifs at hr with hp
  · obtain ⟨indices, hparse, hr⟩ := bind_eq_ok.1 hr
    obtain rfl := Except.ok.inj hr
    rw [if_pos hp]
    exact hparse
  · obtain ⟨u, -, hr⟩ := bind_eq_ok.1 hr
    obtain rfl := Except.ok.inj hr
    rw [if_neg hp]
    exact hn

/-! ## Layers and properties -/

/-- The layers are those of the listed IDs, in their order: the first one blends by `mix`, the
others by the listed methods, and by `mix` where there are no more. -/
structure LayersRead (path : String) (handler : ResourceHandler) (pids : List Nat)
    (methods : List BlendMethod) (layers : List MultiPropertyLayer) : Prop where
  length : layers.length = pids.length
  layer : ∀ (i : Nat) (l : MultiPropertyLayer), layers[i]? = some l → ∃ id pID,
    pids[i]? = some id ∧ handler.findResourceIDByPath path id = some pID ∧
    l = ⟨pID.uniqueID, if i = 0 then .mix else methods.getD (i - 1) .mix⟩

/-- A property for each layer: the one its index stands for, 0 where it is missing. -/
structure MultiRead (m : MaterialModel V) (layers : List MultiPropertyLayer) (indices : List Nat)
    (multi : MultiProperty) : Prop where
  length : multi.length = layers.length
  property : ∀ (i : Nat) (l : MultiPropertyLayer), layers[i]? = some l → ∃ g, m.findGroup l.resourceID = some g ∧
    multi[i]? = g.buildResourceIndexMap[indices.getD i 0]?

theorem readLayers_ok {n : MultiPropertiesNode} {layers : List MultiPropertyLayer}
    (h : readLayers level path handler n = .ok layers) :
    LayersRead path handler (n.pids.getD []) (n.blendMethods.getD []) layers := by
  unfold readLayers at h
  cases hp : n.pids with
  | none =>
    rw [hp] at h
    obtain ⟨u, -, h⟩ := bind_eq_ok.1 h
    obtain rfl := Except.ok.inj h
    exact ⟨rfl, fun i l hl => by simp at hl⟩
  | some pids =>
    rw [hp] at h
    obtain ⟨methods, hm, h⟩ := bind_eq_ok.1 h
    obtain ⟨u, -, h⟩ := bind_eq_ok.1 h
    have hall := mapM_eq_ok.1 h
    have hlen : layers.length = pids.length := by
      rw [← hall.length_eq]
      simp only [List.length_zip, List.length_append, List.length_cons, List.length_replicate]
      omega
    -- a list of methods that is made up only has `mix`
    have hmethods : ∀ i, methods.getD i .mix = (n.blendMethods.getD []).getD i .mix := by
      intro i
      unfold blendMethodsOf at hm
      cases hb : n.blendMethods with
      | some given =>
        rw [hb] at hm
        rw [Except.ok.inj hm]
        rfl
      | none =>
        rw [hb] at hm
        dsimp only at hm
        split_ifs at hm
        rw [← Except.ok.inj hm]
        simp [List.getD_eq_getElem?_getD, List.getElem?_replicate]
        split_ifs <;> rfl
    refine ⟨hlen, fun i l hl => ?_⟩
    obtain ⟨y, hy, hr⟩ := forall₂_getElem? hall hl
    obtain ⟨hid, hmethod⟩ := List.getElem?_zip_eq_some.1 hy
    have hmethod' : y.2 = if i = 0 then .mix else methods.getD (i - 1) .mix := by
      cases i with
      | zero => exact (Option.some.inj hmethod).symm
      | succ i =>
        rw [List.cons_append, List.getElem?_cons_succ] at hmethod
        rw [if_neg (by omega), Nat.add_sub_cancel, List.getD_eq_getElem?_getD]
        by_cases hi : i < methods.length
        · rw [List.getElem?_append_left hi] at hmethod
          rw [hmethod, Option.getD_some]
        · rw [List.getElem?_append_right (by omega)] at hmethod
          rw [List.getElem?_eq_none (by omega), Option.getD_none,
            List.eq_of_mem_replicate (List.mem_of_getElem? hmethod)]
    unfold readLayer at hr
    cases hf : handler.findResourceIDByPath path y.1 with
    | none =>
      rw [hf] at hr
      cases hr
    | some pID =>
      rw [hf] at hr
      refine ⟨y.1, pID, hid, hf, ?_⟩
      rw [← Except.ok.inj hr, hmethod', hmethods]

theorem resolvePIndices_ok {m : MaterialModel V} {layers : List MultiPropertyLayer}
    {indices : List Nat} {multi : MultiProperty} (h : resolvePIndices m layers indices = .ok multi) :
    MultiRead m layers indices multi := by
  induction layers generalizing indices multi with
  | nil =>
    obtain rfl := Except.ok.inj h
    exact ⟨rfl, fun i l hl => by simp at hl⟩
  | cons l layers ih =>
    unfold resolvePIndices at h
    cases hg : m.findGroup l.resourceID with
    | none =>
      rw [hg] at h
      cases h
    | some g =>
      rw [hg] at h
      dsimp only at h
      cases hid : g.buildResourceIndexMap[indices.headD 0]? with
      | none =>
        rw [hid] at h
        cases h
      | some id =>
        rw [hid] at h
        obtain ⟨rest, hrest, h⟩ := bind_eq_ok.1 h
        obtain rfl := Except.ok.inj h
        have hread := ih hrest
        refine ⟨by rw [List.length_cons, List.length_cons, hread.length], fun i l' hl => ?_⟩
        cases i with
        | zero =>
          obtain rfl := Option.some.inj hl
          refine ⟨g, hg, ?_⟩
          rw [List.getElem?_cons_zero, ← hid]
          cases indices <;> rfl
        | succ i =>
          rw [List.getElem?_cons_succ] at hl
          obtain ⟨g', hg', hi⟩ := hread.property i l' hl
          refine ⟨g', hg', ?_⟩
          rw [List.getElem?_cons_succ, hi]
          cases indices <;> simp [List.getD_eq_getElem?_getD]

/-! ## Elements -/

/-- All layers are added, in their order. -/
theorem addReadLayers_eq {m : MaterialModel V} {layers layers' : List MultiPropertyLayer}
    (h : layers.foldlM (addReadLayer m) [] = .ok layers') : layers' = layers := by
  refine foldlM_ok (fun done layers' => layers' = done) (fun done b l b' _ hb hr => ?_) rfl h
  unfold addReadLayer at hr
  split_ifs at hr
  rw [addLayer_append hr, hb]

theorem parseMultis_eq (m : MaterialModel V) {layers : List MultiPropertyLayer}
    (hsmall : layers.length < 2 ^ 32) (multis : List (List (String × String))) :
    multis.foldlM (parseMulti level m layers) .empty =
      Checked.lift (multis.foldlM (readMulti level m layers) .empty) := by
  rw [Checked.lift_foldlM]
  congr 1
  funext g e
  exact parseMulti_eq m hsmall g e

/-- **Reading accesses nothing out of range**: index by index it is the reading of lists. -/
theorem parseMultiProperties_eq (s : MaterialReaderState V) (e : MultiPropertiesElement) :
    parseMultiProperties level path s e = Checked.lift (readMultiProperties level path s e) := by
  unfold parseMultiProperties readMultiProperties
  rw [Checked.lift_bind]
  cases hn : e.attributes.foldlM (MultiPropertiesNode.readAttribute level)
      MultiPropertiesNode.new with
  | error e => rfl
  | ok n =>
    simp only [Checked.lift_ok, bind, Except.bind]
    split_ifs with h0
    · rfl
    · rw [parseLayers_eq]
      cases hl : readLayers level path s.resourceHandler n with
      | error e => rfl
      | ok layers =>
        have hsmall : layers.length < 2 ^ 32 := by
          rw [(readLayers_ok hl).length]
          exact (nodeRead hn).few
        cases hp : s.resourceHandler.getNewResourceID path n.id with
        | error e => rfl
        | ok p =>
          simp only [Checked.lift_ok]
          cases hm : addNewGroup s.model p.2.uniqueID with
          | error e => rfl
          | ok m =>
            simp only [Checked.lift_ok, readMultiPropertyGroup, bind, Except.bind]
            cases hadd : layers.foldlM (addReadLayer m) [] with
            | error e => rfl
            | ok layers' =>
              obtain rfl := addReadLayers_eq hadd
              simp only [Checked.lift_ok, parseMultis_eq m hsmall]
              cases e.multis.foldlM (readMulti level m layers') .empty <;> rfl

/-- The `multi` elements, in their order. -/
theorem readMultis_ok {m : MaterialModel V} {layers : List MultiPropertyLayer}
    {multis : List (List (String × String))} {g : PropertyGroup MultiProperty}
    (h : multis.foldlM (readMulti level m layers) .empty = .ok g) :
    List.Forall₂ (fun element multi => ∃ indices, ListedNumbers element "pindices" indices ∧
      MultiRead m layers indices multi) multis g.entries.values := by
  have hinv := foldlM_ok (fun (done : List (List (String × String))) g => ∃ vs,
      PropertyGroup.Merged vs g ∧
      List.Forall₂ (fun element multi => ∃ indices, ListedNumbers element "pindices" indices ∧
        MultiRead m layers indices multi) done vs)
    (fun done g element g' _ ⟨vs, hg, hall⟩ hr => by
      unfold readMulti at hr
      obtain ⟨n, hn, hr⟩ := bind_eq_ok.1 hr
      obtain ⟨u, -, hr⟩ := bind_eq_ok.1 hr
      obtain ⟨multi, hmulti, hr⟩ := bind_eq_ok.1 hr
      obtain ⟨r, hadd, hr⟩ := bind_eq_ok.1 hr
      obtain rfl := Except.ok.inj hr
      exact ⟨vs ++ [multi], hg.add hadd, List.rel_append hall (.cons ⟨n.pindices,
        multiNodeRead hn, resolvePIndices_ok hmulti⟩ .nil)⟩)
    ⟨[], PropertyGroup.merged_empty, .nil⟩ h
  obtain ⟨vs, hg, hall⟩ := hinv
  have hvalues : g.entries.values = vs := by
    unfold SortedMap.values
    rw [hg.entries, List.map_map]
    exact List.zipIdx_map_fst ..
  rw [hvalues]
  exact hall

/-- **Any multi-property element**: an exception, or a group with the listed layers and a property
for each of them in every `multi`. -/
theorem multiProperties_read (level : ModelReaderWarningLevel) (path : String)
    (s : MaterialReaderState V) (e : MultiPropertiesElement) :
    match parseMultiProperties level path s e with
    | .error fault => ∃ error, fault = .throws error
    | .ok s' => ∃ g pids, s'.model = addMultiPropertyGroup s.model g ∧
        ListedNumbers e.attributes "pids" pids ∧
        LayersRead path s.resourceHandler pids (listedBlendMethods e.attributes) g.layers ∧
        List.Forall₂ (fun element multi => ∃ indices,
          ListedNumbers element "pindices" indices ∧ MultiRead s.model g.layers indices multi)
          e.multis g.group.entries.values := by
  rw [parseMultiProperties_eq]
  cases hr : readMultiProperties level path s e with
  | error error => exact ⟨error, rfl⟩
  | ok s' =>
    unfold readMultiProperties at hr
    obtain ⟨n, hn, hr⟩ := bind_eq_ok.1 hr
    obtain ⟨-, hr⟩ := guard_eq_ok.1 hr
    obtain ⟨layers, hl, hr⟩ := bind_eq_ok.1 hr
    obtain ⟨p, -, hr⟩ := bind_eq_ok.1 hr
    obtain ⟨m, hm, hr⟩ := bind_eq_ok.1 hr
    obtain ⟨g, hg, hr⟩ := bind_eq_ok.1 hr
    obtain rfl := Except.ok.inj hr
    unfold readMultiPropertyGroup at hg
    obtain ⟨layers', hadd, hg⟩ := bind_eq_ok.1 hg
    obtain ⟨group, hgroup, hg⟩ := bind_eq_ok.1 hg
    obtain rfl := Except.ok.inj hg
    obtain rfl := addReadLayers_eq hadd
    -- the new group is no resource a layer can refer to
    have hsame : ∀ id, m.findGroup id = s.model.findGroup id := by
      intro id
      unfold addNewGroup at hm
      split_ifs at hm
      rw [← Except.ok.inj hm]
      rfl
    have hread := nodeRead hn
    refine ⟨_, n.pids.getD [], rfl, hread.pids, ?_, ?_⟩
    · rw [← hread.blendMethods]
      exact readLayers_ok hl
    · refine (readMultis_ok hgroup).imp fun element multi ⟨indices, hi, hmulti⟩ => ?_
      refine ⟨indices, hi, hmulti.length, fun i l hli => ?_⟩
      obtain ⟨g, hg, hid⟩ := hmulti.property i l hli
      exact ⟨g, (hsame _).symm.trans hg, hid⟩

end Reader

end NMR
