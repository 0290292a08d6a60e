import Lib3MF.Common.OPC.OpcPackageWriter
import Lib3MF.Common.OPC.Proof.ListDocuments

/-!
# Content types are read back

The writer keeps the content types of a package by their extensions, each with the one it was added
with first (`mem_contentTypesOf`), and the reader takes them as they are written unless one of them
is empty (`contentTypes_reread`).
-/

namespace NMR.Opc

open Lib XmlLayout XmlWriter NativeReader

/-- The element of an entry. -/
def contentTypeElement (e : List UInt8 × List UInt8) : ListElement :=
  ⟨contentTypesNode, [(attribExtension, e.1), (attribContentType, e.2)]⟩

theorem contentTypeElement_calls (e : List UInt8 × List UInt8) :
    (contentTypeElement e).calls.forM call = writeContentType e.1 e.2 := by
  simp [ListElement.calls, contentTypeElement, writeContentType, XmlWriter.call]

theorem contentTypeElement_valid {e : List UInt8 × List UInt8} (h : IsText e.1 ∧ IsText e.2) :
    (contentTypeElement e).Valid where
  name := show IsNCName contentTypesNode by decide +kernel
  short := show contentTypesNode.length ≤ maxXmlStringLength by decide +kernel
  attributes_ne := List.cons_ne_nil _ _
  attributes a ha := by
    have hnames : ∀ name ∈ [attribExtension, attribContentType], IsNCName name ∧
        name.length ≤ maxXmlStringLength ∧ name ≠ xmlText "xmlns" := by decide +kernel
    simp only [contentTypeElement, List.mem_cons, List.not_mem_nil, or_false] at ha
    rcases ha with rfl | rfl
    · exact isListAttribute_of hnames (by simp) h.1
    · exact isListAttribute_of hnames (by simp) h.2

theorem contentTypesReader_valid : contentTypesReader.Valid where
  container := by decide +kernel
  xml_ne := by decide +kernel
  short := by decide +kernel
  fits := by
    show (escapeXMLString schemaContentTypes).length ≤ nativeXMLMaxStringLength
    decide +kernel
  zeroFree := by decide +kernel
  schema_short := by decide +kernel

theorem addElement_contentType (t : ContentTypes) (e : List UInt8 × List UInt8) :
    contentTypesReader.addElement t (contentTypeElement e) =
      addReadContentType false ⟨e.1, [], e.2⟩ t := by
  have hnames : attribExtension ≠ attribContentType ∧ attribContentType ≠ attribExtension ∧
      attribExtension ≠ attribPartName ∧ attribContentType ≠ attribPartName := by decide +kernel
  obtain ⟨h₁, h₂, h₃, h₄⟩ := hnames
  simp [ListReader.addElement, contentTypesReader, contentTypeElement, ContentTypeStrings.assign,
    h₁, h₂, h₃, h₄]

/-- An entry that the reader takes. -/
def IsContentType (e : List UInt8 × List UInt8) : Prop := e.1 ≠ [] ∧ e.2 ≠ []

/-- **The entries** are read in their order, up to one that is empty. -/
theorem foldlM_contentTypes {es : List (List UInt8 × List UInt8)} {t : ContentTypes}
    (hnodup : ((t.contentTypes ++ es).map Prod.fst).Nodup) :
    ((∀ e ∈ es, IsContentType e) ∧
      (es.map contentTypeElement).foldlM contentTypesReader.addElement t =
        .ok { t with contentTypes := t.contentTypes ++ es }) ∨
    ((∃ e ∈ es, ¬ IsContentType e) ∧ ∃ f,
      (es.map contentTypeElement).foldlM contentTypesReader.addElement t = .error f ∧
        (f = .contentTypeEmptyContentType ∨ f = .contentTypeEmptyExtension)) := by
  induction es generalizing t with
  | nil =>
    rw [List.append_nil]
    exact .inl ⟨List.forall_mem_nil _, rfl⟩
  | cons e es ih =>
    have hassoc : t.contentTypes ++ e :: es = t.contentTypes ++ [e] ++ es := by
      rw [List.append_assoc, List.singleton_append]
    have hnew : ¬ t.contentTypes.any (fun x => x.1 = e.1) = true := fun h => by
      obtain ⟨x, hx, hsame⟩ := List.any_eq_true.1 h
      rw [List.map_append, List.nodup_append] at hnodup
      exact hnodup.2.2 x.1 (List.mem_map_of_mem hx) e.1 (by simp) (of_decide_eq_true hsame)
    have hadd := addElement_contentType t e
    rw [addReadContentType] at hadd
    rw [hassoc] at hnodup ⊢
    rw [List.map_cons, List.foldlM_cons, hadd]
    by_cases htype : e.2 = []
    · rw [if_pos htype]
      exact .inr ⟨⟨e, List.mem_cons_self, fun h => h.2 htype⟩, _, rfl, .inl rfl⟩
    rw [if_neg htype, if_neg Bool.false_ne_true]
    by_cases hext : e.1 = []
    · rw [if_pos hext]
      exact .inr ⟨⟨e, List.mem_cons_self, fun h => h.1 hext⟩, _, rfl, .inr rfl⟩
    rw [if_neg hext, if_neg hnew]
    rcases @ih { t with contentTypes := t.contentTypes ++ [e] } hnodup with
      ⟨hall, hfold⟩ | ⟨hex, hfold⟩
    · exact .inl ⟨List.forall_mem_cons.2 ⟨⟨hext, htype⟩, hall⟩, hfold⟩
    · obtain ⟨x, hx, hempty⟩ := hex
      exact .inr ⟨⟨x, List.mem_cons_of_mem _ hx, hempty⟩, hfold⟩

theorem find?_foldl_addContentType (added : List (List UInt8 × List UInt8)) (m : ContentTypeMap)
    (extension : List UInt8) : (added.foldl addContentType m).find? extension =
      (m.find? extension).or (added.lookup extension) := by
  induction added generalizing m with
  | nil =>
    rw [List.lookup_nil, Option.or_none]
    rfl
  | cons e added ih =>
    rw [List.foldl_cons, ih, addContentType, SortedMap.find?_insert, List.lookup_cons]
    by_cases h : extension = e.1
    · subst h
      cases m.find? e.1 <;> simp
    · rw [if_neg h, beq_eq_false_iff_ne.2 h]

/-- **An extension** has the content type it was added with first. -/
theorem mem_contentTypesOf {added : List (List UInt8 × List UInt8)}
    {extension contentType : List UInt8} :
    (extension, contentType) ∈ (contentTypesOf added).entries ↔
      added.lookup extension = some contentType := by
  rw [← SortedMap.find?_eq_some, contentTypesOf, find?_foldl_addContentType, SortedMap.find?_empty,
    Option.none_or]

/-- **Content types are read back.** Whatever content types are added to a package: if none of the
extensions and content types is empty, the reader has, in the order of the extensions, each extension
with the content type it was added with first, and no overrides; otherwise the document is written,
and rejected. -/
theorem contentTypes_reread {nl : List UInt8} {added : List (List UInt8 × List UInt8)}
    (hnl : IsLineEnding nl) (hv : ∀ e ∈ added, IsText e.1 ∧ IsText e.2)
    (hfits : (listDocument nl contentTypesContainer schemaContentTypes
      ((contentTypesOf added).entries.map contentTypeElement)).length + bufferMargin ≤
        xmlReaderBufferSize) :
    ∃ w, writeContentTypes (contentTypesOf added) (XmlWriter.create nl) = .ok () w ∧
      ((∀ e ∈ (contentTypesOf added).entries, IsContentType e) →
        ∃ es : List (List UInt8 × List UInt8), es.Pairwise (fun x y => x.1 < y.1) ∧
        (∀ extension contentType, (extension, contentType) ∈ es ↔
          added.lookup extension = some contentType) ∧
        ∀ fuel ≥ 3 * (contentTypesOf added).size + 12, readContentTypes fuel w.output =
          .lift (.ok ⟨es, []⟩)) ∧
      ((∃ e ∈ (contentTypesOf added).entries, ¬ IsContentType e) → ∃ f,
        (f = .contentTypeEmptyContentType ∨ f = .contentTypeEmptyExtension) ∧
        ∀ fuel ≥ 3 * (contentTypesOf added).size + 12, readContentTypes fuel w.output =
          .lift (.error f)) := by
  have hmem : ∀ e ∈ (contentTypesOf added).entries, e ∈ added := fun e he => by
    obtain ⟨before, after, rfl, -⟩ := List.lookup_eq_some_iff.1 (mem_contentTypesOf.1 he)
    exact List.mem_append_right _ List.mem_cons_self
  generalize hm : contentTypesOf added = m at *
  have he : ∀ e ∈ m.entries.map contentTypeElement, e.Valid := fun e he => by
    obtain ⟨x, hx, rfl⟩ := List.mem_map.1 he
    exact contentTypeElement_valid (hv x (hmem x hx))
  have hc : ∀ e ∈ m.entries.map contentTypeElement, e.name ≠ contentTypesReader.container :=
    fun e he => by
      obtain ⟨x, -, rfl⟩ := List.mem_map.1 he
      exact show contentTypesNode ≠ contentTypesContainer by decide +kernel
  obtain ⟨w, hwrite, -, hread⟩ :=
    contentTypesReader.reads_written he hc contentTypesReader_valid hnl hfits
  have hdocument := writeDocument_list contentTypesContainer schemaContentTypes contentTypeElement
    contentTypeElement_calls m.entries
  have hfold : ∀ fuel ≥ 3 * m.size + 12, readContentTypes fuel w.output = Reading.lift
      ((m.entries.map contentTypeElement).foldlM contentTypesReader.addElement ⟨[], []⟩) :=
    fun fuel hfuel => by
      have hlen : fuel = (fuel - (3 * m.size + 10)) +
          3 * (m.entries.map contentTypeElement).length + 10 := by
        rw [List.length_map]
        show _ = (fuel - (3 * m.size + 10)) + 3 * m.size + 10
        omega
      rw [readContentTypes, hlen, hread _ _ fun e he => ?_]
      obtain ⟨x, -, rfl⟩ := List.mem_map.1 he
      show 2 ≤ fuel - (3 * m.size + 10)
      omega
  have hnodup : ((ContentTypes.contentTypes ⟨[], []⟩ ++ m.entries).map Prod.fst).Nodup :=
    m.sorted.imp fun h => h.ne
  refine ⟨w, (congrFun hdocument _).trans hwrite, fun hall => ?_, fun hempty => ?_⟩
  · rcases foldlM_contentTypes hnodup with ⟨-, hok⟩ | ⟨⟨e, he, hne⟩, -⟩
    · refine ⟨m.entries, List.pairwise_map.1 m.sorted, fun extension contentType => ?_,
        fun fuel hfuel => ?_⟩
      · rw [← hm]
        exact mem_contentTypesOf
      · rw [hfold fuel hfuel, hok]
        rfl
    · exact absurd (hall e he) hne
  · rcases foldlM_contentTypes hnodup with ⟨hall, -⟩ | ⟨-, f, herror, hf⟩
    · obtain ⟨e, he, hne⟩ := hempty
      exact absurd (hall e he) hne
    · exact ⟨f, hf, fun fuel hfuel => by rw [hfold fuel hfuel, herror]⟩

/-- The content types of a package, one extension twice. -/
def packageContentTypes : List (List UInt8 × List UInt8) :=
  [(xmlText "rels", xmlText "application/vnd.openxmlformats-package.relationships+xml"),
    (xmlText "model", xmlText "application/vnd.ms-package.3dmanufacturing-3dmodel+xml"),
    (xmlText "rels", xmlText "text/plain")]

theorem contentTypes_reread_package : ∃ w es,
    writeContentTypes (contentTypesOf packageContentTypes) (XmlWriter.create [10]) = .ok () w ∧
      readContentTypes 30 w.output = .lift (.ok ⟨es, []⟩) ∧
      (xmlText "rels", xmlText "application/vnd.openxmlformats-package.relationships+xml") ∈ es ∧
      (xmlText "rels", xmlText "text/plain") ∉ es := by
  have htexts : ∀ e ∈ packageContentTypes, IsText e.1 ∧ IsText e.2 := by decide +kernel
  have hall : ∀ e ∈ (contentTypesOf packageContentTypes).entries, e.1 ≠ [] ∧ e.2 ≠ [] := by
    decide +kernel
  have hsize : 3 * (contentTypesOf packageContentTypes).size + 12 ≤ 30 := by decide +kernel
  obtain ⟨w, hwrite, hread, -⟩ :=
    @contentTypes_reread [10] packageContentTypes (.inl rfl) htexts (by decide +kernel)
  obtain ⟨es, -, hmem, hfuel⟩ := hread hall
  refine ⟨w, es, hwrite, hfuel 30 hsize, (hmem _ _).2 (by decide +kernel), fun h => ?_⟩
  exact absurd ((hmem _ _).1 h) (by decide +kernel)

end NMR.Opc
