import Lib3MF.Model.Reader.MeshReader

/-!
# Property resources through a document

After the property resources are written, the mapping has the index of each of their properties
(`Mapped`, `writePropertyResources_ok`). When they are read, each gets the number of its place as
unique ID, and its properties are numbered anew in their order (`ReadResources`,
`readPropertyResources_written`). What the properties are then is a parameter, the `PropertyReading`
that the functions for a resource's content amount to (`Reads`).
-/

namespace NMR

open Lib

variable {V E : Type} {write : PropertyIndexMapping → PropertyResource V → Except Error E}
  {read : String → ReaderState V → E → Except Error (ReadProperties V)}

/-! ## Writing -/

/-- The mapping has the indices of the properties of `R`. -/
def Mapped (mapping : PropertyIndexMapping) (R : List (PropertyResource V)) : Prop :=
  ∀ id k i, mapping.idMap.find? (toLex (id, k)) = some i ↔
    ∃ r ∈ R, r.uniqueID = id ∧ r.group.buildResourceIndexMap[i]? = some k

theorem mapped_empty : Mapped .empty ([] : List (PropertyResource V)) := by
  intro id k i
  simp [PropertyIndexMapping.empty]

theorem mapPropertyIDToIndex_ok {R : List (PropertyResource V)} {mapping : PropertyIndexMapping}
    {id k i : Nat} (hm : Mapped mapping R)
    (h : mapping.mapPropertyIDToIndex id k = .ok i) :
    ∃ r ∈ R, r.uniqueID = id ∧ r.group.buildResourceIndexMap[i]? = some k := by
  unfold PropertyIndexMapping.mapPropertyIDToIndex at h
  split_ifs at h
  cases hf : mapping.idMap.find? (toLex (id, k)) with
  | none =>
    rw [hf] at h
    cases h
  | some index =>
    rw [hf] at h
    cases h
    exact (hm id k i).1 hf

/-- The place of a resource. -/
theorem idxOf_uniqueID {R : List (PropertyResource V)}
    (hn : (R.map (·.uniqueID)).Nodup) {i : Nat} {g : PropertyResource V}
    (hi : R[i]? = some g) : (R.map (·.uniqueID)).idxOf g.uniqueID = i := by
  have hmap : (R.map (·.uniqueID))[i]? = some g.uniqueID := by rw [List.getElem?_map, hi]; rfl
  obtain ⟨hlt, he⟩ := List.getElem?_eq_some_iff.1 hmap
  rw [← he]
  exact hn.idxOf_getElem i hlt

theorem keys_nodup (g : PropertyGroup V) : g.buildResourceIndexMap.Nodup :=
  g.entries.sorted.imp fun h => Nat.ne_of_lt h

theorem idxOf?_eq_some {l : List Nat} (hn : l.Nodup) {i k : Nat} (h : l[i]? = some k) :
    l.idxOf? k = some i := by
  obtain ⟨hlt, he⟩ := List.getElem?_eq_some_iff.1 h
  rw [List.idxOf?_eq_some_iff]
  refine ⟨hlt, he, fun j hj hji => ?_⟩
  have := (List.Nodup.getElem_inj_iff hn).1 (hji.trans he.symm)
  omega

/-- The properties registered so far, with their indices, beside those of the resources `R`. -/
def PropertiesRegistered (R : List (PropertyResource V)) (r : PropertyResource V) (done : List Nat)
    (mapping : PropertyIndexMapping) : Prop :=
  ∀ id k i, mapping.idMap.find? (toLex (id, k)) = some i ↔
    (∃ r' ∈ R, r'.uniqueID = id ∧ r'.group.buildResourceIndexMap[i]? = some k) ∨
      id = r.uniqueID ∧ done[i]? = some k

/-- One property more. -/
theorem PropertiesRegistered.step {R : List (PropertyResource V)} {r : PropertyResource V}
    {done : List Nat} {mapping mapping' : PropertyIndexMapping} {k : Nat}
    (hr : ∀ r' ∈ R, r'.uniqueID ≠ r.uniqueID) (hw : PropertiesRegistered R r done mapping)
    (hk : k ∉ done) (h : Writer.registerProperty r mapping (k, done.length) = .ok mapping') :
    PropertiesRegistered R r (done ++ [k]) mapping' := by
  unfold Writer.registerProperty PropertyIndexMapping.registerPropertyID at h
  split_ifs at h
  obtain rfl := Except.ok.inj h
  have hnone : mapping.idMap.find? (toLex (r.uniqueID, k)) = none := by
    by_contra hsome
    obtain ⟨i, hi⟩ := Option.ne_none_iff_exists'.1 hsome
    rcases (hw _ _ _).1 hi with ⟨r', hr', he, -⟩ | ⟨-, hd⟩
    · exact hr r' hr' he
    · exact hk (List.mem_of_getElem? hd)
  intro id k' i
  rw [SortedMap.find?_insert, hnone]
  by_cases he : id = r.uniqueID ∧ k' = k
  · obtain ⟨rfl, rfl⟩ := he
    rw [if_pos rfl, Option.getD_none]
    constructor
    · intro hi
      rw [← Option.some.inj hi]
      exact .inr ⟨rfl, List.getElem?_concat_length⟩
    · rintro (⟨r', hr', he, -⟩ | ⟨-, hd⟩)
      · exact absurd he (hr r' hr')
      · by_cases hlt : i < done.length
        · rw [List.getElem?_append_left hlt] at hd
          exact absurd (List.mem_of_getElem? hd) hk
        · have hi := (List.getElem?_eq_some_iff.1 hd).1
          rw [List.length_append, List.length_singleton] at hi
          congr 1
          omega
  · have hne : toLex (id, k') ≠ toLex (r.uniqueID, k) := by
      intro h
      exact he (Prod.mk.inj (toLex.injective h))
    rw [if_neg hne, hw]
    apply or_congr_right
    apply and_congr_right
    intro hid
    have hk' : k ≠ k' := fun h => he ⟨hid, h.symm⟩
    by_cases hlt : i < done.length
    · rw [List.getElem?_append_left hlt]
    · rw [List.getElem?_eq_none (by omega), List.getElem?_append_right (by omega)]
      cases hi : i - done.length with
      | zero => simp [hk']
      | succ n => simp

/-- The elements of the resources: each was written when the mapping had the resources up to it. -/
structure WrittenElements (write : PropertyIndexMapping → PropertyResource V → Except Error E)
    (R : List (PropertyResource V)) (es : List (PropertyResourceElement E)) : Prop where
  length : es.length = R.length
  element : ∀ (i : Nat) (r : PropertyResource V), R[i]? = some r → ∃ mapping content,
    Mapped mapping (R.take (i + 1)) ∧ write mapping r = .ok content ∧
      es[i]? = some ⟨writeIntAttribute r.uniqueID, content⟩

/-- A resource is written with its properties, which get their indices. -/
theorem writePropertyResource_ok {R : List (PropertyResource V)} {r : PropertyResource V}
    {written written' : PropertyIndexMapping × List (PropertyResourceElement E)}
    (hr : ∀ r' ∈ R, r'.uniqueID ≠ r.uniqueID) (hm : Mapped written.1 R)
    (h : Writer.writePropertyResource write written r = .ok written') :
    Mapped written'.1 (R ++ [r]) ∧ ∃ content, write written'.1 r = .ok content ∧
      written'.2 = written.2 ++ [⟨writeIntAttribute r.uniqueID, content⟩] := by
  unfold Writer.writePropertyResource at h
  obtain ⟨mapping, hp, h⟩ := bind_eq_ok.1 h
  obtain ⟨content, hcontent, h⟩ := bind_eq_ok.1 h
  obtain rfl := Except.ok.inj h
  have h0 : ([] : List Nat).Nodup → PropertiesRegistered R r [] written.1 := by
    intro _ id k i
    simp [hm id k i]
  have hall := foldlM_zipIdx_ok (fun done w => done.Nodup → PropertiesRegistered R r done w)
    (fun done w k w' hw hs hn => by
      rw [List.nodup_append] at hn
      exact (hw hn.1).step hr (fun hk => hn.2.2 k hk k (by simp) rfl) hs) h0 hp
    (keys_nodup r.group)
  refine ⟨fun id k i => ?_, content, hcontent, rfl⟩
  rw [hall]
  simp only [List.mem_append, List.mem_singleton, or_and_right, exists_or, exists_eq_left]
  rw [eq_comm (a := id)]

/-- **The property resources are written in order, and their properties get their indices.** -/
theorem writePropertyResources_ok {R : List (PropertyResource V)}
    {written : PropertyIndexMapping × List (PropertyResourceElement E)}
    (hn : (R.map (·.uniqueID)).Nodup)
    (h : R.foldlM (Writer.writePropertyResource write) (.empty, []) = .ok written) :
    Mapped written.1 R ∧ WrittenElements write R written.2 := by
  have h0 : (([] : List (PropertyResource V)).map (·.uniqueID)).Nodup →
      Mapped PropertyIndexMapping.empty ([] : List (PropertyResource V)) ∧
        WrittenElements write [] ([] : List (PropertyResourceElement E)) :=
    fun _ => ⟨mapped_empty, rfl, by simp⟩
  refine foldlM_ok (fun done w => (done.map (·.uniqueID)).Nodup → Mapped w.1 done ∧
    WrittenElements write done w.2) (fun done w r w' _ hw hs hn => ?_) h0 h hn
  rw [List.map_append, List.nodup_append] at hn
  obtain ⟨hm, he⟩ := hw hn.1
  have hr : ∀ r' ∈ done, r'.uniqueID ≠ r.uniqueID := fun r' hr' =>
    hn.2.2 _ (List.mem_map_of_mem hr') _ (by simp)
  obtain ⟨hm', content, hcontent, he'⟩ := writePropertyResource_ok hr hm hs
  refine ⟨hm', by rw [he', List.length_append, List.length_append, he.length]; rfl,
    fun i r' hi => ?_⟩
  by_cases hlt : i < done.length
  · rw [List.getElem?_append_left hlt] at hi
    obtain ⟨mapping, c, h1, h2, h3⟩ := he.element i r' hi
    refine ⟨mapping, c, ?_, h2, ?_⟩
    · rwa [List.take_append_of_le_length (by omega)]
    · rw [he', List.getElem?_append_left (by rw [he.length]; exact hlt), h3]
  · have hlast : i = done.length := by
      have := (List.getElem?_eq_some_iff.1 hi).1
      rw [List.length_append, List.length_singleton] at this
      omega
    subst hlast
    rw [List.getElem?_concat_length] at hi
    obtain rfl := Option.some.inj hi
    refine ⟨w'.1, content, ?_, hcontent, ?_⟩
    · rwa [List.take_of_length_le (by rw [List.length_append, List.length_singleton])]
    · rw [he', ← he.length, List.getElem?_concat_length]

/-! ## IDs -/

/-- The handler has the IDs of a part under `path`, in their order: each has the number of its
place as unique ID. -/
structure ResourceHandler.Numbers (path : String) (ids : List Nat) (h : ResourceHandler) :
    Prop where
  size : h.resourceIDs.size = ids.length
  keys : ∀ k ∈ h.resourceIDs.keys, k ≤ ids.length
  byPath : ∀ i id, ids[i]? = some id → h.findResourceIDByPath path id = some ⟨path, id, i + 1⟩
  byUniqueID : ∀ i id, ids[i]? = some id → h.findResourceID (i + 1) = some ⟨path, id, i + 1⟩
  registered : ∀ id, h.Registered path id ↔ id ∈ ids

namespace ResourceHandler

variable {path : String} {ids : List Nat} {h h' : ResourceHandler} {id : Nat}

theorem numbers_empty (path : String) : Numbers path [] .empty where
  size := rfl
  keys := by simp [empty]
  byPath := by simp
  byUniqueID := by simp
  registered := by simp

/-- A new ID gets the next number. -/
theorem Numbers.next (hn : h.Numbers path ids) (hid : id ∉ ids) (hlen : ids.length + 1 < 2 ^ 32) :
    ∃ h', h.getNewResourceID path id = .ok (h', ⟨path, id, ids.length + 1⟩) ∧
      h'.Numbers path (ids ++ [id]) := by
  have hreg : ¬ h.Registered path id := fun hr => hid ((hn.registered id).1 hr)
  obtain ⟨⟨h', p⟩, hok⟩ := getNewResourceID_isOk.2 hreg
  obtain ⟨-, hp, hh⟩ := getNewResourceID_spec hok
  rw [hn.size, Nat.mod_eq_of_lt hlen] at hp
  have hkey : ids.length + 1 ∉ h.resourceIDs.keys := by
    intro hk
    have := hn.keys _ hk
    omega
  have hnone : h.resourceIDs.find? (ids.length + 1) = none := SortedMap.find?_eq_none.2 hkey
  have hnonePath : h.idAndPathToResourceIDs.find? (toLex (id, path)) = none := by
    simpa [Registered, findResourceIDByPath] using hreg
  subst hp hh
  refine ⟨_, hok, ?_, ?_, ?_, ?_, ?_⟩
  · rw [SortedMap.size_insert hkey, hn.size, List.length_append, List.length_singleton]
  · intro k hk
    rw [List.length_append, List.length_singleton]
    rcases SortedMap.mem_keys_insert.1 hk with rfl | hk
    · exact le_rfl
    · have := hn.keys k hk
      omega
  · intro i id' hi
    rw [findResourceIDByPath, SortedMap.find?_insert, hnonePath]
    by_cases hlt : i < ids.length
    · rw [List.getElem?_append_left hlt] at hi
      have hne : toLex (id', path) ≠ toLex (id, path) := by
        intro he
        rw [(Prod.mk.inj (toLex.injective he)).1] at hi
        exact hid (List.mem_of_getElem? hi)
      rw [if_neg hne]
      exact hn.byPath i id' hi
    · rw [List.getElem?_append_right (by omega)] at hi
      obtain ⟨h0, rfl⟩ : i - ids.length = 0 ∧ id = id' := by
        cases hk : i - ids.length with
        | zero => simpa [hk] using hi
        | succ n => simp [hk] at hi
      rw [if_pos rfl, Option.getD_none, show i = ids.length by omega]
  · intro i id' hi
    rw [findResourceID, SortedMap.find?_insert, hnone]
    by_cases hlt : i < ids.length
    · rw [List.getElem?_append_left hlt] at hi
      rw [if_neg (show i + 1 ≠ ids.length + 1 by omega)]
      exact hn.byUniqueID i id' hi
    · rw [List.getElem?_append_right (by omega)] at hi
      obtain ⟨h0, rfl⟩ : i - ids.length = 0 ∧ id = id' := by
        cases hk : i - ids.length with
        | zero => simpa [hk] using hi
        | succ n => simp [hk] at hi
      rw [if_pos (show i + 1 = ids.length + 1 by omega), Option.getD_none,
        show i = ids.length by omega]
  · intro id'
    rw [registered_getNewResourceID hok, hn.registered, List.mem_append, List.mem_singleton]
    simp [or_comm]

end ResourceHandler

/-! ## Reading -/

/-- What a reader makes of resources that were written: `none` where it takes them for an error, and
otherwise as many properties, of the same class. -/
structure PropertyReading (V : Type) where
  result : PropertyResource V → Option (ReadProperties V)
  kind : ∀ r x, result r = some x → x.kind = r.kind
  length : ∀ r x, result r = some x → x.properties.length = r.group.getCount

variable {reading : PropertyReading V}

/-- `r` as it is read at the place with the number `n`. -/
structure RereadAs (reading : PropertyReading V) (r : PropertyResource V) (n : Nat)
    (x : ReadProperties V) (r' : PropertyResource V) : Prop where
  result : reading.result r = some x
  uniqueID : r'.uniqueID = n
  kind : r'.kind = r.kind
  baseMaterialID : r'.baseMaterialID = x.baseMaterialID
  group : PropertyGroup.Merged x.properties r'.group

/-- The resources `R` as they are read: each has the number of its place as unique ID, and its
properties are numbered anew. -/
def Reread (reading : PropertyReading V) (R R' : List (PropertyResource V)) : Prop :=
  List.Forall₂ (fun x r' => ∃ properties, RereadAs reading x.1 x.2 properties r') (R.zipIdx 1) R'

theorem Reread.length_eq {R R' : List (PropertyResource V)} (h : Reread reading R R') :
    R.length = R'.length := by
  have hlen := List.Forall₂.length_eq h
  rwa [List.length_zipIdx] at hlen

/-- The resource of a place. -/
theorem Reread.getElem? {R R' : List (PropertyResource V)} (h : Reread reading R R') {i : Nat}
    {r : PropertyResource V} (hi : R[i]? = some r) :
    ∃ x r', R'[i]? = some r' ∧ RereadAs reading r (i + 1) x r' := by
  have hlen := h.length_eq
  obtain ⟨hlt, -⟩ := List.getElem?_eq_some_iff.1 hi
  have hltz : i < (R.zipIdx 1).length := by rw [List.length_zipIdx]; exact hlt
  have hz : (R.zipIdx 1)[i] = (r, 1 + i) := by
    rw [List.getElem_zipIdx]
    congr 1
    exact Option.some.inj ((List.getElem?_eq_getElem hlt).symm.trans hi)
  obtain ⟨x, hx⟩ := List.forall₂_iff_get.1 h |>.2 i hltz (hlen ▸ hlt)
  simp only [List.get_eq_getElem, hz, Nat.add_comm 1 i] at hx
  exact ⟨x, R'[i], List.getElem?_eq_getElem (hlen ▸ hlt), hx⟩

/-- Each unique ID is that of a place. -/
theorem Reread.uniqueID {R R' : List (PropertyResource V)} (h : Reread reading R R') {i : Nat}
    {r' : PropertyResource V} (hi : R'[i]? = some r') : r'.uniqueID = i + 1 ∧ i < R.length := by
  have hlen := h.length_eq
  obtain ⟨hlt, -⟩ := List.getElem?_eq_some_iff.1 hi
  have hR := List.getElem?_eq_getElem (hlen ▸ hlt : i < R.length)
  obtain ⟨x, r₁, hr₁, hx⟩ := h.getElem? hR
  rw [hi] at hr₁
  rw [Option.some.inj hr₁]
  exact ⟨hx.uniqueID, hlen ▸ hlt⟩

/-- The resources that were read are numbered. -/
theorem Reread.uniqueIDs_nodup {R R' : List (PropertyResource V)} (h : Reread reading R R') :
    (R'.map (·.uniqueID)).Nodup := by
  have hids : R'.map (·.uniqueID) = List.range' 1 R'.length := by
    refine List.ext_getElem? fun i => ?_
    rw [List.getElem?_map]
    by_cases hi : i < R'.length
    · rw [List.getElem?_range' hi, List.getElem?_eq_getElem hi, Option.map_some,
        (h.uniqueID (List.getElem?_eq_getElem hi)).1, Nat.one_mul, Nat.add_comm]
    · rw [List.getElem?_eq_none (by omega), List.getElem?_eq_none (by rw [List.length_range']; omega)]
      rfl
  rw [hids]
  exact List.nodup_range'

/-- The resource of a place is found by its unique ID. -/
theorem Reread.find? {R R' : List (PropertyResource V)} (h : Reread reading R R') {i : Nat}
    {r : PropertyResource V} (hi : R[i]? = some r) :
    ∃ x r', R'.find? (fun r' => r'.uniqueID = i + 1) = some r' ∧ R'[i]? = some r' ∧
      RereadAs reading r (i + 1) x r' := by
  obtain ⟨x, r', hr', hx⟩ := h.getElem? hi
  refine ⟨x, r', ?_, hr', hx⟩
  obtain ⟨hlt, he⟩ := List.getElem?_eq_some_iff.1 hr'
  rw [List.find?_eq_some_iff_getElem]
  refine ⟨by simp [hx.uniqueID], i, hlt, he, fun j hj => ?_⟩
  have hu := (h.uniqueID (List.getElem?_eq_getElem (by omega : j < R'.length))).1
  simp only [Bool.not_eq_true', decide_eq_false_iff_not]
  omega

/-- No resource has a number behind theirs. -/
theorem Reread.find?_eq_none {R R' : List (PropertyResource V)} (h : Reread reading R R') {id : Nat}
    (hid : R.length < id) : R'.find? (fun r' => r'.uniqueID = id) = none := by
  rw [List.find?_eq_none]
  intro r' hr'
  obtain ⟨i, hi⟩ := List.mem_iff_getElem?.1 hr'
  obtain ⟨hu, hlt⟩ := h.uniqueID hi
  simp only [decide_eq_true_eq]
  omega

/-- The state of a reader after the property resources `R` of a part under `path`. -/
structure ReadResources (reading : PropertyReading V) (path : String)
    (R : List (PropertyResource V)) (s : ReaderState V) : Prop where
  ids : ∀ r ∈ R, r.uniqueID ≠ 2 ^ 32 - 1
  numbers : s.resourceHandler.Numbers path (R.map (·.uniqueID))
  reread : Reread reading R s.model.propertyResources
  objects : s.model.objects = []

theorem readResources_new (reading : PropertyReading V) (path : String) :
    ReadResources reading path [] Reader.new where
  ids := by simp
  numbers := ResourceHandler.numbers_empty path
  reread := .nil
  objects := rfl

/-- `read` makes of the elements of the resources what `reading` says, once it has read those in
front of them. -/
def Reads (read : String → ReaderState V → E → Except Error (ReadProperties V)) (path : String)
    (R : List (PropertyResource V)) (es : List (PropertyResourceElement E))
    (reading : PropertyReading V) : Prop :=
  ∀ (i : Nat) (r : PropertyResource V) (e : PropertyResourceElement E), R[i]? = some r →
    es[i]? = some e → ∀ s, ReadResources reading path (R.take i) s →
      ∀ x, read path s e.content = .ok x ↔ reading.result r = some x

theorem PropertyGroup.Merged.values {vs : List V} {g : PropertyGroup V}
    (h : PropertyGroup.Merged vs g) : g.entries.values = vs := by
  rw [SortedMap.values, h.entries, List.map_map]
  exact List.zipIdx_map_fst ..

/-- The properties are numbered from `1` on. -/
theorem PropertyGroup.Merged.keys {vs : List V} {g : PropertyGroup V}
    (h : PropertyGroup.Merged vs g) : g.buildResourceIndexMap = List.range' 1 vs.length := by
  rw [PropertyGroup.buildResourceIndexMap, SortedMap.keys, h.entries, List.map_map]
  exact List.zipIdx_map_snd ..

/-- The number at an index. -/
theorem RereadAs.getElem?_keys {r r' : PropertyResource V} {n : Nat} {x : ReadProperties V}
    (h : RereadAs reading r n x r') {index k : Nat}
    (hk : r.group.buildResourceIndexMap[index]? = some k) :
    r'.group.buildResourceIndexMap[index]? = some (index + 1) := by
  have hlt := (List.getElem?_eq_some_iff.1 hk).1
  rw [PropertyGroup.buildResourceIndexMap, SortedMap.size_keys] at hlt
  have hlen := reading.length r x h.result
  rw [h.group.keys, List.getElem?_range' (by rw [hlen]; exact hlt), Nat.one_mul, Nat.add_comm]

/-- As many properties as fit are read. -/
theorem addProperties_ok (kind : PropertyResourceKind) (vs : List V) {done : List V}
    {g : PropertyGroup V} (hg : PropertyGroup.Merged done g)
    (hlen : done.length + vs.length ≤ maxResourceIndex) :
    ∃ g', vs.foldlM (Reader.addProperty kind) g = .ok g' ∧ PropertyGroup.Merged (done ++ vs) g' := by
  induction vs generalizing done g with
  | nil => exact ⟨g, rfl, by rwa [List.append_nil]⟩
  | cons v vs ih =>
    rw [List.length_cons] at hlen
    have hadd := g.add_of_check kind.tooMany (fun _ => .ok ()) v (by rw [hg.getCount]; omega) rfl
    have hm := hg.add hadd
    obtain ⟨g', hf, hg'⟩ := ih hm (by rw [List.length_append, List.length_singleton]; omega)
    refine ⟨g', ?_, by rwa [List.append_assoc] at hg'⟩
    rw [List.foldlM_cons, bind_eq_ok]
    refine ⟨_, ?_, hf⟩
    unfold Reader.addProperty
    rw [hadd]
    rfl

/-- **A resource is read behind the others** where its content is taken, unless its ID is
`2 ^ 32 - 1`. -/
theorem readPropertyResource_written {path : String} {R : List (PropertyResource V)}
    {r : PropertyResource V} {s : ReaderState V} {content : E}
    (hs : ReadResources reading path R s) (hnew : r.uniqueID ∉ R.map (·.uniqueID))
    (hb : 0 < r.uniqueID ∧ r.uniqueID < 2 ^ 32) (hc : r.group.getCount ≤ maxResourceIndex)
    (hlen : R.length + 1 < 2 ^ 32)
    (hread : ∀ x, read path s content = .ok x ↔ reading.result r = some x) :
    ((∃ s', Reader.readPropertyResource read path s ⟨writeIntAttribute r.uniqueID, content⟩ =
        .ok s') ↔ r.uniqueID ≠ 2 ^ 32 - 1 ∧ (reading.result r).isSome) ∧
      ∀ s', Reader.readPropertyResource read path s ⟨writeIntAttribute r.uniqueID, content⟩ =
        .ok s' → ReadResources reading path (R ++ [r]) s' := by
  unfold Reader.readPropertyResource
  rw [fnStringToUint32_writeIntAttribute hb.2]
  by_cases hmax : r.uniqueID = 2 ^ 32 - 1
  · rw [if_pos hmax]
    refine ⟨iff_of_false (fun ⟨s', h⟩ => ?_) fun h => h.1 hmax, fun s' h => ?_⟩ <;>
      exact absurd h (by simp [bind, Except.bind])
  have hpos : r.uniqueID ≠ 0 := by omega
  rw [if_neg hmax, ok_bind, if_neg hpos, and_iff_right hmax]
  cases hx : read path s content with
  | error e =>
    have hnone : reading.result r = none := by
      refine Option.eq_none_iff_forall_ne_some.2 fun x h => ?_
      rw [(hread x).2 h] at hx
      cases hx
    refine ⟨iff_of_false (fun ⟨s', h⟩ => ?_) (by simp [hnone]), fun s' h => ?_⟩ <;>
      exact absurd h (by simp [bind, Except.bind])
  | ok x =>
    have hresult := (hread x).1 hx
    obtain ⟨h', hn, hnum⟩ := hs.numbers.next hnew (by rw [List.length_map]; exact hlen)
    rw [List.length_map] at hn
    have hfresh : (s.model.findResource (R.length + 1)).isSome = false := by
      unfold MeshModel.findResource
      rw [hs.reread.find?_eq_none (Nat.lt_succ_self _), hs.objects]
      simp
    obtain ⟨g', hg, hm⟩ := addProperties_ok x.kind x.properties
      PropertyGroup.merged_empty (by
        rw [List.length_nil, Nat.zero_add, reading.length r x hresult]
        exact hc)
    rw [List.nil_append] at hm
    have hread' : ∀ s', s' = (⟨h', { s.model with
        propertyResources := s.model.propertyResources ++
          [⟨R.length + 1, x.kind, x.baseMaterialID, g'⟩] }⟩ : ReaderState V) →
        ReadResources reading path (R ++ [r]) s' := by
      rintro s' rfl
      refine ⟨fun r' hr' => ?_, ?_, ?_, hs.objects⟩
      · rcases List.mem_append.1 hr' with hr' | hr'
        · exact hs.ids r' hr'
        · rwa [List.mem_singleton.1 hr']
      · rw [List.map_append]
        exact hnum
      · rw [Reread, List.zipIdx_append]
        refine List.rel_append hs.reread (.cons ⟨x, hresult, ?_, reading.kind r x hresult, rfl, hm⟩
          .nil)
        exact Nat.add_comm _ _
    simp only [ok_bind, hn, hfresh, hg, Bool.false_eq_true, if_false]
    exact ⟨iff_of_true ⟨_, rfl⟩ (by simp [hresult]), fun s' h => hread' s' (Except.ok.inj h).symm⟩

/-- The resources from place `i` on are read exactly when the content of each is taken and no ID is
`2 ^ 32 - 1`. -/
theorem readPropertyResources_drop {path : String} {R : List (PropertyResource V)}
    {es : List (PropertyResourceElement E)} (he : WrittenElements write R es)
    (hr : Reads read path R es reading) (hn : (R.map (·.uniqueID)).Nodup)
    (hb : ∀ r ∈ R, 0 < r.uniqueID ∧ r.uniqueID < 2 ^ 32)
    (hc : ∀ r ∈ R, r.group.getCount ≤ maxResourceIndex) (hlen : R.length < 2 ^ 32) {n i : Nat}
    {s : ReaderState V} (hi : i + n = R.length) (hs : ReadResources reading path (R.take i) s) :
    ((∃ s', (es.drop i).foldlM (Reader.readPropertyResource read path) s = .ok s') ↔
        ∀ r ∈ R.drop i, r.uniqueID ≠ 2 ^ 32 - 1 ∧ (reading.result r).isSome) ∧
      ∀ s', (es.drop i).foldlM (Reader.readPropertyResource read path) s = .ok s' →
        ReadResources reading path R s' := by
  induction n generalizing i s with
  | zero =>
    rw [List.drop_of_length_le (by rw [he.length]; omega), List.drop_of_length_le (by omega)]
    rw [List.take_of_length_le (by omega)] at hs
    exact ⟨iff_of_true ⟨s, rfl⟩ (by simp), fun s' h => Except.ok.inj h ▸ hs⟩
  | succ n ih =>
    -- the resource and the element at the place
    have hlt : i < R.length := by omega
    have hget := List.getElem?_eq_getElem hlt
    generalize R[i] = r at hget
    obtain ⟨mapping, content, -, -, hes⟩ := he.element i r hget
    have hdropR : R.drop i = r :: R.drop (i + 1) := by
      rw [List.drop_eq_getElem_cons hlt,
        Option.some.inj ((List.getElem?_eq_getElem hlt).symm.trans hget)]
    have hlte : i < es.length := by rw [he.length]; exact hlt
    have hdrop : es.drop i = ⟨writeIntAttribute r.uniqueID, content⟩ :: es.drop (i + 1) := by
      rw [List.drop_eq_getElem_cons hlte,
        Option.some.inj ((List.getElem?_eq_getElem hlte).symm.trans hes)]
    have htake : R.take (i + 1) = R.take i ++ [r] := by
      rw [List.take_add_one, hget]
      rfl
    have hnew : r.uniqueID ∉ (R.take i).map (·.uniqueID) := by
      have hsplit := hn
      rw [← List.take_append_drop i R, hdropR, List.map_append, List.map_cons,
        List.nodup_append] at hsplit
      exact fun h => hsplit.2.2 _ h _ List.mem_cons_self rfl
    have hmem : r ∈ R := List.mem_of_getElem? hget
    have hstep := readPropertyResource_written hs hnew (hb r hmem)
      (hc r hmem) (by rw [List.length_take]; omega) (hr i r _ hget hes s hs)
    rw [hdrop, hdropR, List.foldlM_cons, List.forall_mem_cons]
    cases hread : Reader.readPropertyResource read path s
        ⟨writeIntAttribute r.uniqueID, content⟩ with
    | error e =>
      rw [hread] at hstep
      refine ⟨iff_of_false (fun ⟨s', h⟩ => absurd h (by simp [bind, Except.bind])) fun h => ?_,
        fun s' h => absurd h (by simp [bind, Except.bind])⟩
      obtain ⟨s', h'⟩ := hstep.1.2 h.1
      cases h'
    | ok s₁ =>
      rw [hread] at hstep
      have hs₁ := hstep.2 s₁ rfl
      rw [← htake] at hs₁
      have hlast := ih (by omega) hs₁
      rw [ok_bind]
      exact ⟨hlast.1.trans (and_iff_right (hstep.1.1 ⟨s₁, rfl⟩)).symm, hlast.2⟩

/-- **The property resources are read** exactly when the content of each is taken and no ID is
`2 ^ 32 - 1`. -/
theorem readPropertyResources_written {path : String} {R : List (PropertyResource V)}
    {es : List (PropertyResourceElement E)} (he : WrittenElements write R es)
    (hr : Reads read path R es reading) (hn : (R.map (·.uniqueID)).Nodup)
    (hb : ∀ r ∈ R, 0 < r.uniqueID ∧ r.uniqueID < 2 ^ 32)
    (hc : ∀ r ∈ R, r.group.getCount ≤ maxResourceIndex) (hlen : R.length < 2 ^ 32) :
    ((∃ s, es.foldlM (Reader.readPropertyResource read path) Reader.new = .ok s) ↔
        ∀ r ∈ R, r.uniqueID ≠ 2 ^ 32 - 1 ∧ (reading.result r).isSome) ∧
      ∀ s, es.foldlM (Reader.readPropertyResource read path) Reader.new = .ok s →
        ReadResources reading path R s :=
  readPropertyResources_drop he hr hn hb hc hlen (Nat.zero_add _) (readResources_new reading path)

end NMR
