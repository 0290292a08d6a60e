import Lib3MF.Common.Platform.Proof.Namespaces
import Lib3MF.Lib.Except
import Lib3MF.Model.Writer.MetaDataWriter

/-!
# Prefixes of metadata names

The writer gives each custom name space one prefix, different name spaces different ones, none of
them that of an extension (`Registered`); a prefix that is written is resolved to its name space
when the document is read (`readNameSpaces_declarations`, `lookup_declarations`).
-/

namespace NMR

open Lib

/-! ## Prefixes -/

/-- The prefix with a number. -/
def customPrefix (n : Nat) : String := "customXMLNS" ++ toString n

theorem nextPrefix_eq (nameSpaces : XmlNameSpaces) :
    nextPrefix nameSpaces = customPrefix (nameSpaces.size % 2 ^ 32) := rfl

/-- A prefix of the writer is longer than any other that is declared. -/
theorem customPrefix_size (n : Nat) : 11 ≤ (customPrefix n).utf8ByteSize := by
  rw [customPrefix, String.utf8ByteSize_append]
  exact Nat.le_add_right _ _

theorem customPrefix_ne {s : String} (n : Nat) (h : s.utf8ByteSize < 11) : s ≠ customPrefix n := by
  intro he
  have hs := customPrefix_size n
  rw [← he] at hs
  omega

theorem customPrefix_ne_extension (n : Nat) {e : String × String} (he : e ∈ extensionPrefixes) :
    e.1 ≠ customPrefix n := by
  apply customPrefix_ne
  revert e
  decide

theorem colon_not_mem_customPrefix (n : Nat) : ':' ∉ (customPrefix n).toList := by
  rw [customPrefix, String.toList_append, List.mem_append, not_or]
  refine ⟨by decide, fun h => ?_⟩
  rw [Nat.toString_eq_repr, Nat.toList_repr] at h
  have hd := Nat.isDigit_of_mem_toDigits (b := 10) (by decide) (by decide) h
  exact absurd hd (by decide)

/-! ## Keys -/

/-- A key with a prefix is taken apart at the colon behind it. -/
theorem decompose_prefixed {nsPrefix : String} (name : String) (h : ':' ∉ nsPrefix.toList) :
    decomposeKeyIntoNamespaceAndName (nsPrefix ++ ":" ++ name) = (nsPrefix, name) := by
  have hl : (nsPrefix ++ ":" ++ name).toList = nsPrefix.toList ++ ':' :: name.toList := by
    rw [String.toList_append, String.toList_append, List.append_assoc]
    rfl
  have hall : ∀ c ∈ nsPrefix.toList, decide (c ≠ ':') = true := by
    intro c hc
    simp only [ne_eq, decide_not, Bool.not_eq_true', decide_eq_false_iff_not]
    rintro rfl
    exact h hc
  unfold decomposeKeyIntoNamespaceAndName
  rw [hl, List.dropWhile_append_of_pos hall, List.takeWhile_append_of_pos hall]
  simp

/-- A name of the core specification has no prefix. -/
theorem decompose_value {name : String} (h : name ∈ metaDataValues) :
    decomposeKeyIntoNamespaceAndName name = ("", name) := by
  revert name
  decide

/-! ## Registering -/

/-- The name spaces have the prefixes `customPrefix 0`, `customPrefix 1`, …, each one of them. -/
structure Registered (nameSpaces : XmlNameSpaces) : Prop where
  small : nameSpaces.size ≤ 2 ^ 32
  custom : ∀ u p, nameSpaces.find? u = some p → ∃ i < nameSpaces.size, p = customPrefix i
  injective : ∀ u u' p, nameSpaces.find? u = some p → nameSpaces.find? u' = some p → u = u'
  all : ∀ i < nameSpaces.size, ∃ u, nameSpaces.find? u = some (customPrefix i)

/-- The name spaces that are registered are those of the entries. -/
structure Covers (nameSpaces : XmlNameSpaces) (mds : List ModelMetaData) : Prop where
  has : ∀ md ∈ mds, md.nameSpace ≠ "" → ∃ p, nameSpaces.find? md.nameSpace = some p
  only : ∀ u p, nameSpaces.find? u = some p → ∃ md ∈ mds, md.nameSpace = u

theorem registered_empty : Registered SortedMap.empty where
  small := Nat.zero_le _
  custom u p h := by simp at h
  injective u u' p h := by simp at h
  all i h := by simp at h

theorem covers_empty : Covers SortedMap.empty [] where
  has md h := by simp at h
  only u p h := by simp at h

/-- One more name space gets one more prefix. -/
theorem Registered.register {nameSpaces nameSpaces' : XmlNameSpaces} {u : String}
    (h : Registered nameSpaces) (hu : nameSpaces.find? u = none)
    (hr : nameSpaces.registerCustomNameSpace u (nextPrefix nameSpaces) = .ok nameSpaces') :
    Registered nameSpaces' ∧
      ∀ u', nameSpaces'.find? u' = if u' = u then some (nextPrefix nameSpaces)
        else nameSpaces.find? u' := by
  unfold XmlNameSpaces.registerCustomNameSpace at hr
  split_ifs at hr with h1 h2
  obtain rfl := Except.ok.inj hr
  have hfind : ∀ u', (nameSpaces.insert u (nextPrefix nameSpaces)).find? u' =
      if u' = u then some (nextPrefix nameSpaces) else nameSpaces.find? u' := by
    intro u'
    rw [SortedMap.find?_insert, hu]
    rfl
  have hsize : (nameSpaces.insert u (nextPrefix nameSpaces)).size = nameSpaces.size + 1 :=
    SortedMap.size_insert (SortedMap.find?_eq_none.1 hu)
  have hfresh : ∀ u' p, nameSpaces.find? u' = some p → p ≠ nextPrefix nameSpaces := by
    intro u' p hp he
    apply h2
    rw [List.any_eq_true]
    exact ⟨(u', p), SortedMap.find?_eq_some.1 hp, by simpa using he⟩
  -- the count has 32 bits: beyond them the first prefix would come again
  have hlt : nameSpaces.size < 2 ^ 32 := by
    by_contra hge
    have hs : nameSpaces.size = 2 ^ 32 := by have := h.small; omega
    obtain ⟨u', hu'⟩ := h.all 0 (by omega)
    apply hfresh u' _ hu'
    rw [nextPrefix_eq, hs]
    rfl
  have hnext : nextPrefix nameSpaces = customPrefix nameSpaces.size := by
    rw [nextPrefix_eq, Nat.mod_eq_of_lt hlt]
  refine ⟨⟨by omega, fun u' p hp => ?_, fun u₁ u₂ p h₁ h₂ => ?_, fun i hi => ?_⟩, hfind⟩
  · rw [hfind] at hp
    split_ifs at hp
    · exact ⟨nameSpaces.size, by omega, by rw [← hnext]; exact (Option.some.inj hp).symm⟩
    · obtain ⟨i, hi, hp⟩ := h.custom u' p hp
      exact ⟨i, by omega, hp⟩
  · rw [hfind] at h₁ h₂
    split_ifs at h₁ h₂ with e₁ e₂ e₂
    · rw [e₁, e₂]
    · exact absurd (Option.some.inj h₁).symm (hfresh u₂ p h₂)
    · exact absurd (Option.some.inj h₂).symm (hfresh u₁ p h₁)
    · exact h.injective u₁ u₂ p h₁ h₂
  · rw [hsize] at hi
    by_cases hi' : i = nameSpaces.size
    · exact ⟨u, by rw [hfind, if_pos rfl, hnext, hi']⟩
    · obtain ⟨u', hu'⟩ := h.all i (by omega)
      refine ⟨u', ?_⟩
      rw [hfind, if_neg, hu']
      rintro rfl
      rw [hu] at hu'
      simp at hu'

/-- The name spaces of a group are registered after those before it. -/
theorem registered_group {nameSpaces nameSpaces' : XmlNameSpaces} {done : List ModelMetaData}
    {group : ModelMetaDataGroup} (h : Registered nameSpaces ∧ Covers nameSpaces done)
    (hr : registerMetaDataGroupNameSpaces nameSpaces group = .ok nameSpaces') :
    Registered nameSpaces' ∧ Covers nameSpaces' (done ++ group.metaData) := by
  apply foldlM_ok (fun done nameSpaces => Registered nameSpaces ∧ Covers nameSpaces done) _ h hr
  intro done ns md ns' _ ⟨hreg, hcov⟩ hs
  have hmem : ∀ md', md' ∈ done → md' ∈ done ++ [md] := fun _ => List.mem_append_left _
  by_cases he : md.nameSpace = ""
  · simp only [if_pos he, Except.ok.injEq] at hs
    subst hs
    refine ⟨hreg, fun md' hm hne => ?_, fun u p hp => ?_⟩
    · rcases List.mem_append.1 hm with hm | hm
      · exact hcov.has md' hm hne
      · rw [List.mem_singleton.1 hm] at hne
        exact absurd he hne
    · obtain ⟨md', hm, hu⟩ := hcov.only u p hp
      exact ⟨md', hmem md' hm, hu⟩
  · rw [if_neg he] at hs
    cases hf : ns.find? md.nameSpace with
    | some p =>
      simp only [hf, Except.ok.injEq] at hs
      subst hs
      refine ⟨hreg, fun md' hm hne => ?_, fun u p hp => ?_⟩
      · rcases List.mem_append.1 hm with hm | hm
        · exact hcov.has md' hm hne
        · rw [List.mem_singleton.1 hm]
          exact ⟨p, hf⟩
      · obtain ⟨md', hm, hu⟩ := hcov.only u p hp
        exact ⟨md', hmem md' hm, hu⟩
    | none =>
      simp only [hf] at hs
      obtain ⟨hreg', hfind⟩ := hreg.register hf hs
      refine ⟨hreg', fun md' hm hne => ?_, fun u p hp => ?_⟩
      · by_cases hn : md'.nameSpace = md.nameSpace
        · exact ⟨_, by rw [hfind, if_pos hn]⟩
        · rcases List.mem_append.1 hm with hm | hm
          · obtain ⟨p, hp⟩ := hcov.has md' hm hne
            exact ⟨p, by rw [hfind, if_neg hn, hp]⟩
          · rw [List.mem_singleton.1 hm] at hn
            exact absurd rfl hn
      · rw [hfind] at hp
        split_ifs at hp with hu
        · exact ⟨md, by simp, hu.symm⟩
        · obtain ⟨md', hm, hu⟩ := hcov.only u p hp
          exact ⟨md', hmem md' hm, hu⟩

/-- All metadata of a model. -/
def MetaDataOwners.all (m : MetaDataOwners) : List ModelMetaData :=
  (m.model :: m.objects ++ m.buildItems).flatMap ModelMetaDataGroup.metaData

/-- **Each name space of the metadata gets exactly one prefix.** -/
theorem MetaDataOwners.registered {m : MetaDataOwners} {nameSpaces : XmlNameSpaces}
    (h : m.registerMetaDataNameSpaces = .ok nameSpaces) :
    Registered nameSpaces ∧ Covers nameSpaces m.all := by
  have h0 : Registered SortedMap.empty ∧
      Covers SortedMap.empty (([] : List ModelMetaDataGroup).flatMap ModelMetaDataGroup.metaData) :=
    ⟨registered_empty, covers_empty⟩
  apply @foldlM_ok _ _ _ (fun (done : List ModelMetaDataGroup) nameSpaces =>
    Registered nameSpaces ∧ Covers nameSpaces (done.flatMap ModelMetaDataGroup.metaData))
    _ _ [] _ _ _ h0 h
  intro done ns group ns' _ hi hs
  rw [List.flatMap_append, List.flatMap_singleton]
  exact registered_group hi hs

/-! ## Reading the declarations -/

theorem registerNameSpace_current (r : XmlReader) (nsPrefix uri : String) :
    (r.registerNameSpace nsPrefix uri).currentName = r.currentName ∧
      (r.registerNameSpace nsPrefix uri).currentValue = r.currentValue := by
  unfold XmlReader.registerNameSpace
  split_ifs <;> simp

theorem takeAttribute_current (r : XmlReader) (name value : XmlEntity) :
    (r.takeAttribute name value).currentName = name.name ∧
      (r.takeAttribute name value).currentValue = value.name := by
  unfold XmlReader.takeAttribute
  split_ifs <;> simp [registerNameSpace_current]

/-- One declaration is read when its prefix and name space are not too long. -/
theorem readNameSpace_ok {r r' : XmlReader} {a : XmlAttribute}
    (hp : a.nsPrefix = "" ∨ a.nsPrefix = "xmlns") (hx : (r.namespaceURI "xmlns").isSome) :
    readNameSpace r a = .ok r' ↔ (Short a.name ∧ Short a.value) ∧
      r' = r.takeAttribute ⟨.attribName, a.nsPrefix, a.name⟩ ⟨.attribValue, "", a.value⟩ := by
  have hu : ∃ uri, (r.takeAttribute ⟨.attribName, a.nsPrefix, a.name⟩
      ⟨.attribValue, "", a.value⟩).getNamespaceURI = some uri := by
    rw [XmlReader.getNamespaceURI, (XmlReader.takeAttribute_frame r _ _).1,
      (XmlReader.takeAttribute_frame r _ _).2.2]
    rcases hp with hp | hp
    · exact ⟨"", by simp [hp]⟩
    · rw [hp, if_neg (by simp), XmlReader.lookup_takeAttribute, List.lookup_append]
      obtain ⟨uri, huri⟩ := Option.isSome_iff_exists.1 hx
      rw [XmlReader.namespaceURI] at huri
      exact ⟨uri, by rw [huri]; rfl⟩
  obtain ⟨uri, hu⟩ := hu
  unfold readNameSpace
  simp only [hu, (takeAttribute_current r _ _).1, (takeAttribute_current r _ _).2, nfStrLen_bind,
    Except.ok.injEq, and_assoc]
  rw [eq_comm (a := r')]

/-- The declarations are read when no prefix and no name space is too long, and the map of the
reader then has the first declaration of each prefix. -/
theorem foldlM_readNameSpace {attributes done : List XmlAttribute} {r : XmlReader}
    (hp : ∀ a ∈ attributes, a.nsPrefix = "" ∨ a.nsPrefix = "xmlns")
    (hr : ∀ p, r.namespaceURI p = (builtInNameSpaces ++ prefixBindings done).lookup p) :
    ((∃ r', attributes.foldlM readNameSpace r = .ok r') ↔
        ∀ a ∈ attributes, Short a.name ∧ Short a.value) ∧
      ∀ r', attributes.foldlM readNameSpace r = .ok r' → ∀ p, r'.namespaceURI p =
        (builtInNameSpaces ++ prefixBindings (done ++ attributes)).lookup p := by
  induction attributes generalizing done r with
  | nil =>
    refine ⟨⟨fun _ a h => absurd h (by simp), fun _ => ⟨r, rfl⟩⟩, fun r' h p => ?_⟩
    obtain rfl := Except.ok.inj h
    rw [List.append_nil, hr]
  | cons a attributes ih =>
    have hx : (r.namespaceURI "xmlns").isSome := by
      rw [hr, List.lookup_append]
      rfl
    have ha := hp a List.mem_cons_self
    have hnext : ∀ p, (r.takeAttribute ⟨.attribName, a.nsPrefix, a.name⟩
        ⟨.attribValue, "", a.value⟩).namespaceURI p =
          (builtInNameSpaces ++ prefixBindings (done ++ [a])).lookup p := by
      intro p
      have hlook := hr p
      rw [XmlReader.namespaceURI] at hlook ⊢
      rw [XmlReader.lookup_takeAttribute, List.lookup_append, hlook, prefixBindings_append,
        ← List.append_assoc]
      exact List.lookup_append.symm
    obtain ⟨hex, hlookup⟩ := ih (fun b hb => hp b (List.mem_cons_of_mem _ hb)) hnext
    simp only [List.foldlM_cons, bind_eq_ok, readNameSpace_ok ha hx, List.forall_mem_cons]
    refine ⟨⟨?_, ?_⟩, ?_⟩
    · rintro ⟨r', r₁, ⟨hs, h₁⟩, h⟩
      rw [h₁] at h
      exact ⟨hs, hex.1 ⟨r', h⟩⟩
    · rintro ⟨hs, hall⟩
      obtain ⟨r', h⟩ := hex.2 hall
      exact ⟨r', _, ⟨hs, rfl⟩, h⟩
    · rintro r' ⟨r₁, ⟨hs, h₁⟩, h⟩ p
      rw [h₁] at h
      rw [hlookup r' h p, List.append_assoc]
      rfl

/-! ## Writing the declarations -/

/-- The declarations of a document. -/
def declarations (flags : ModelWriterFlags) (nameSpaces : XmlNameSpaces) : List XmlAttribute :=
  ⟨"", "xmlns", xmlns100⟩ :: flags.attributes ++
    nameSpaces.entries.map fun e => ⟨"xmlns", e.2, e.1⟩

theorem writeNameSpaces_ok {flags : ModelWriterFlags} {nameSpaces : XmlNameSpaces}
    {attributes : List XmlAttribute} (h : writeNameSpaces flags nameSpaces = .ok attributes) :
    attributes = declarations flags nameSpaces := by
  unfold writeNameSpaces at h
  obtain ⟨custom, hc, h⟩ := bind_eq_ok.1 h
  obtain rfl := Except.ok.inj h
  rw [declarations, eq_map_of_mapM (g := fun e => ⟨"xmlns", e.2, e.1⟩) _ hc]
  intro e a _ ha
  obtain ⟨uri, hu, ha⟩ := bind_eq_ok.1 ha
  rw [← Except.ok.inj ha, writeEscaped_ok hu]

theorem mem_flags_attributes {flags : ModelWriterFlags} {a : XmlAttribute}
    (h : a ∈ flags.attributes) :
    a.nsPrefix = "xmlns" ∧ (a.name, a.value) ∈ extensionPrefixes := by
  unfold ModelWriterFlags.attributes at h
  obtain ⟨e, he, ha⟩ := List.mem_filterMap.1 h
  split_ifs at ha
  obtain rfl := Option.some.inj ha
  exact ⟨rfl, (List.of_mem_zip he).1⟩

theorem lookup_eq_none {l : List (String × String)} {p : String} (h : ∀ e ∈ l, e.1 ≠ p) :
    l.lookup p = none := by
  rw [List.lookup_eq_none_iff]
  intro e he
  simpa using (h e he).symm

/-- A list in which one value has the key. -/
theorem lookup_eq_some {l : List (String × String)} {p u : String} (h : ∀ e ∈ l, e.1 = p → e.2 = u)
    (hm : (p, u) ∈ l) : l.lookup p = some u := by
  induction l with
  | nil => simp at hm
  | cons e l ih =>
    obtain ⟨k, v⟩ := e
    rw [List.lookup_cons]
    by_cases hk : p = k
    · subst hk
      simp only [beq_self_eq_true]
      exact congrArg some (h (p, v) List.mem_cons_self rfl)
    · have hne : (p == k) = false := by simpa using hk
      rw [hne]
      apply ih fun e he => h e (List.mem_cons_of_mem _ he)
      exact (List.mem_cons.1 hm).resolve_left fun he => hk (Prod.mk.inj he).1

/-- **A custom prefix is resolved to its name space.** -/
theorem lookup_declarations {flags : ModelWriterFlags} {nameSpaces : XmlNameSpaces}
    (hreg : Registered nameSpaces) {u p : String} (h : nameSpaces.find? u = some p) :
    (builtInNameSpaces ++ prefixBindings (declarations flags nameSpaces)).lookup p = some u := by
  obtain ⟨i, -, rfl⟩ := hreg.custom u p h
  have hbuilt : builtInNameSpaces.lookup (customPrefix i) = none := by
    apply lookup_eq_none
    intro e he
    apply customPrefix_ne
    revert e
    decide
  have hflags : (prefixBindings flags.attributes).lookup (customPrefix i) = none := by
    apply lookup_eq_none
    intro e he
    obtain ⟨a, ha, hae⟩ := List.mem_filterMap.1 he
    obtain ⟨hx, hext⟩ := mem_flags_attributes ha
    rw [if_pos hx] at hae
    rw [← Option.some.inj hae]
    exact customPrefix_ne_extension i hext
  have hcustom : prefixBindings (nameSpaces.entries.map fun e => ⟨"xmlns", e.2, e.1⟩) =
      nameSpaces.entries.map fun e => (e.2, e.1) := by
    simp [prefixBindings, List.filterMap_map]
  have hcons : prefixBindings (declarations flags nameSpaces) =
      prefixBindings flags.attributes ++ nameSpaces.entries.map fun e => (e.2, e.1) := by
    rw [← hcustom, ← prefixBindings_append]
    rfl
  rw [List.lookup_append, hbuilt, hcons, List.lookup_append, hflags]
  show (nameSpaces.entries.map fun e => (e.2, e.1)).lookup (customPrefix i) = some u
  apply lookup_eq_some
  · intro e he hk
    obtain ⟨⟨u', p'⟩, hm, rfl⟩ := List.mem_map.1 he
    have hf : nameSpaces.find? u' = some p' := SortedMap.find?_eq_some.2 hm
    simp only at hk
    rw [hk] at hf
    exact hreg.injective u' u _ hf h
  · exact List.mem_map.2 ⟨(u, customPrefix i), SortedMap.find?_eq_some.1 h, rfl⟩

/-- The declarations of a document are read where no prefix and no custom name space is too long;
each custom prefix then has its name space. -/
theorem readNameSpaces_declarations (flags : ModelWriterFlags) {nameSpaces : XmlNameSpaces}
    (hreg : Registered nameSpaces) :
    ((∃ r, readNameSpaces (declarations flags nameSpaces) = .ok r) ↔
        ∀ u p, nameSpaces.find? u = some p → Short p ∧ Short u) ∧
      ∀ r, readNameSpaces (declarations flags nameSpaces) = .ok r →
        ∀ u p, nameSpaces.find? u = some p → r.namespaceURI p = some u := by
  have hp : ∀ a ∈ declarations flags nameSpaces, a.nsPrefix = "" ∨ a.nsPrefix = "xmlns" := by
    intro a ha
    rcases List.mem_append.1 ha with ha | ha
    · rcases List.mem_cons.1 ha with rfl | ha
      · exact .inl rfl
      · exact .inr (mem_flags_attributes ha).1
    · obtain ⟨e, -, rfl⟩ := List.mem_map.1 ha
      exact .inr rfl
  have h0 : ∀ p, XmlReader.create.namespaceURI p =
      (builtInNameSpaces ++ prefixBindings []).lookup p := by
    intro p
    rw [show prefixBindings [] = [] from rfl, List.append_nil]
    rfl
  obtain ⟨hex, hlookup⟩ := foldlM_readNameSpace hp h0
  constructor
  · rw [readNameSpaces, hex]
    constructor
    · intro h u p hup
      exact h ⟨"xmlns", p, u⟩ (List.mem_append_right _
        (List.mem_map.2 ⟨(u, p), SortedMap.find?_eq_some.1 hup, rfl⟩))
    · intro h a ha
      rcases List.mem_append.1 ha with ha | ha
      · rcases List.mem_cons.1 ha with rfl | ha
        · exact ⟨by unfold Short; decide, by unfold Short; decide⟩
        · have hext := (mem_flags_attributes ha).2
          have hall : ∀ e ∈ extensionPrefixes, Short e.1 ∧ Short e.2 := by
            unfold Short
            decide
          exact hall _ hext
      · obtain ⟨⟨u, p⟩, hm, rfl⟩ := List.mem_map.1 ha
        exact h u p (SortedMap.find?_eq_some.2 hm)
  · intro r hr u p hup
    rw [hlookup r hr p, List.nil_append]
    exact lookup_declarations hreg hup

end NMR
