import Lib3MF.Common.OPC.OpcPackageWriter
import Lib3MF.Common.OPC.Proof.ListDocuments
import Lib3MF.Lib.PairwiseFold

/-!
# Relationships are read back

The relationships of a part, or of the package, are written as a list of elements
(`writeRelationships_eq`). The reader takes the document exactly when no two of them have one ID and
no two are print tickets; it has them in the order of their IDs then, each with a delimiter in front
of its target (`relationships_reread`).
-/

namespace NMR.Opc

open Lib XmlLayout XmlWriter NativeReader

/-! ## The elements -/

namespace Relationship

/-- The element of a relationship. -/
def element (r : Relationship) : ListElement :=
  ⟨relationshipNode, [(attribType, r.type),
    (attribTarget, fnIncludeLeadingPathDelimiter r.targetPartURI), (attribID, r.id)]⟩

/-- The strings of the relationship can be written and read. -/
structure Written (r : Relationship) : Prop where
  type : IsText r.type
  target : IsText (fnIncludeLeadingPathDelimiter r.targetPartURI)
  id : IsText r.id

theorem fnExtractFileName_delimiter (path : List UInt8) :
    fnExtractFileName (xmlText "/" ++ path) = fnExtractFileName path := by
  have hslash : (xmlText "/").reverse.takeWhile (fun c => !isPathDelimiter c) = [] := by decide
  rw [fnExtractFileName, fnExtractFileName, List.reverse_append, List.takeWhile_append, hslash,
    List.append_nil]
  split_ifs with h
  · exact congrArg List.reverse (List.takeWhile_prefix _ |>.eq_of_length h).symm
  · rfl

theorem isPartURI_include {uri : List UInt8} (h : IsPartURI uri) :
    IsPartURI (fnIncludeLeadingPathDelimiter uri) := by
  obtain ⟨hne, hname⟩ := h
  unfold fnIncludeLeadingPathDelimiter
  cases uri with
  | nil => exact absurd rfl hne
  | cons c path =>
    dsimp only
    split_ifs
    · exact ⟨hne, hname⟩
    · refine ⟨List.append_ne_nil_of_right_ne_nil _ hne, ?_⟩
      rw [fnExtractFileName_delimiter]
      exact hname

/-- The relationship as it is read. -/
def included (r : Relationship) : Relationship :=
  ⟨r.id, r.type, fnIncludeLeadingPathDelimiter r.targetPartURI, isPartURI_include r.isPartURI⟩

theorem element_valid {r : Relationship} (h : r.Written) : r.element.Valid where
  name := show IsNCName relationshipNode by decide +kernel
  short := show relationshipNode.length ≤ maxXmlStringLength by decide +kernel
  attributes_ne := List.cons_ne_nil _ _
  attributes a ha := by
    have hnames : ∀ name ∈ [attribType, attribTarget, attribID], IsNCName name ∧
        name.length ≤ maxXmlStringLength ∧ name ≠ xmlText "xmlns" := by decide +kernel
    simp only [element, List.mem_cons, List.not_mem_nil, or_false] at ha
    rcases ha with rfl | rfl | rfl
    · exact isListAttribute_of hnames (by simp) h.type
    · exact isListAttribute_of hnames (by simp) h.target
    · exact isListAttribute_of hnames (by simp) h.id

theorem writeToXML_eq (r : Relationship) : r.element.calls.forM call = r.writeToXML := by
  simp [ListElement.calls, element, writeToXML, XmlWriter.call]

end Relationship

theorem relationshipReader_valid : relationshipReader.Valid where
  container := by decide +kernel
  xml_ne := by decide +kernel
  short := by decide +kernel
  fits := by
    show (escapeXMLString schemaRelationships).length ≤ nativeXMLMaxStringLength
    decide +kernel
  zeroFree := by decide +kernel
  schema_short := by decide +kernel

/-- **The document** is that of a list. -/
theorem writeRelationships_eq (rels : List Relationship) : writeRelationships rels =
    writeDocument true
      (listCalls relationshipContainer schemaRelationships (rels.map Relationship.element)) :=
  writeDocument_list _ _ Relationship.element Relationship.writeToXML_eq rels

/-! ## Reading -/

/-- Two relationships that the reader takes together. -/
def Relationship.Distinct (r s : Relationship) : Prop :=
  r.id ≠ s.id ∧ ¬ (r.type = printTicketRelationshipType ∧ s.type = printTicketRelationshipType)

theorem Relationship.Distinct.symm {r s : Relationship} (h : r.Distinct s) : s.Distinct r :=
  ⟨h.1.symm, fun hboth => h.2 hboth.symm⟩

/-- What is read of a relationship. -/
def Relationship.entry (r : Relationship) : List UInt8 × Relationship := (r.id, r.included)

theorem addElement_relationship (m : RelationshipMap) (r : Relationship) :
    relationshipReader.addElement m r.element =
      addReadRelationship ⟨fnIncludeLeadingPathDelimiter r.targetPartURI, r.id, r.type⟩ m := by
  have hnames : attribType ≠ attribTarget ∧ attribID ≠ attribTarget ∧ attribTarget ≠ attribType ∧
      attribID ≠ attribType ∧ attribTarget ≠ attribID ∧ attribType ≠ attribID := by decide +kernel
  obtain ⟨h₁, h₂, h₃, h₄, h₅, h₆⟩ := hnames
  simp [ListReader.addElement, relationshipReader, Relationship.element, RelationshipStrings.assign,
    h₁, h₂, h₃, h₄, h₅, h₆]

/-- **A relationship more**: it is taken where it goes with all that were read before. -/
theorem addReadRelationship_step {m : RelationshipMap} {done : List Relationship}
    (hm : m.entries.Perm (done.map Relationship.entry)) (r : Relationship) :
    ((∀ x ∈ done, x.Distinct r) ∧ ∃ m', relationshipReader.addElement m r.element = .ok m' ∧
      m'.entries.Perm ((done ++ [r]).map Relationship.entry)) ∨
    (¬ (∀ x ∈ done, x.Distinct r) ∧ ∃ e, relationshipReader.addElement m r.element = .error e ∧
      (e = .duplicateRelationshipID ∨ e = .duplicatePrintTicket)) := by
  have hids : (m.find? r.id).isSome ↔ ∃ x ∈ done, x.id = r.id := by
    rw [SortedMap.find?_isSome, SortedMap.keys, (hm.map Prod.fst).mem_iff]
    simp [Relationship.entry]
  have htickets : m.entries.any (fun e => e.2.type = r.type) ↔ ∃ x ∈ done, x.type = r.type := by
    rw [List.any_eq_true]
    simp only [hm.mem_iff, decide_eq_true_eq]
    simp [Relationship.entry, Relationship.included]
  have hmake : Relationship.make r.id r.type (fnIncludeLeadingPathDelimiter r.targetPartURI) =
      .ok r.included := dif_pos (Relationship.isPartURI_include r.isPartURI)
  have hne : fnIncludeLeadingPathDelimiter r.targetPartURI ≠ [] :=
    (Relationship.isPartURI_include r.isPartURI).1
  rw [addElement_relationship, addReadRelationship, if_neg hne]
  by_cases hticket : r.type = printTicketRelationshipType ∧
      m.entries.any (fun e => e.2.type = r.type) = true
  · obtain ⟨x, hx, htype⟩ := htickets.1 hticket.2
    refine .inr ⟨fun h => (h x hx).2 ⟨htype.trans hticket.1, hticket.1⟩, _, if_pos hticket, .inr rfl⟩
  rw [if_neg hticket]
  by_cases hid : (m.find? r.id).isSome = true
  · obtain ⟨x, hx, hsame⟩ := hids.1 hid
    exact .inr ⟨fun h => (h x hx).1 hsame, _, if_pos hid, .inl rfl⟩
  rw [if_neg hid, hmake]
  refine .inl ⟨fun x hx => ⟨fun hsame => hid (hids.2 ⟨x, hx, hsame⟩), fun hboth => hticket
    ⟨hboth.2, htickets.2 ⟨x, hx, hboth.1.trans hboth.2.symm⟩⟩⟩, _, rfl, ?_⟩
  have hnew : r.id ∉ m.keys := fun h => hid (SortedMap.find?_isSome.2 h)
  rw [List.map_append]
  exact (SortedMap.perm_insert hnew).trans ((hm.cons _).trans (List.perm_append_singleton _ _).symm)

/-- **All relationships** are taken exactly where any two of them are. -/
theorem foldlM_addElement {rels : List Relationship} :
    (rels.Pairwise Relationship.Distinct ∧ ∃ m,
      (rels.map Relationship.element).foldlM relationshipReader.addElement .empty = .ok m ∧
      m.entries.Perm (rels.map Relationship.entry)) ∨
    (¬ rels.Pairwise Relationship.Distinct ∧ ∃ e,
      (rels.map Relationship.element).foldlM relationshipReader.addElement .empty = .error e ∧
      (e = .duplicateRelationshipID ∨ e = .duplicatePrintTicket)) := by
  rw [List.foldlM_map]
  exact foldlM_pairwise Relationship.Distinct
    (fun done (m : RelationshipMap) => m.entries.Perm (done.map Relationship.entry)) _
    (fun _ _ r hm => addReadRelationship_step hm r) (.refl _)

/-- **The document** is read as its relationships are taken, one after the other. -/
theorem readRelationships_document {nl : List UInt8} {rels : List Relationship}
    (hnl : IsLineEnding nl) (hv : ∀ r ∈ rels, r.Written)
    (hfits : (listDocument nl relationshipContainer schemaRelationships
      (rels.map Relationship.element)).length + bufferMargin ≤ xmlReaderBufferSize) :
    ∃ w, writeRelationships rels (XmlWriter.create nl) = .ok () w ∧
      ∀ fuel ≥ 3 * rels.length + 13, readRelationships fuel w.output = (Reading.lift
        ((rels.map Relationship.element).foldlM relationshipReader.addElement .empty) >>=
          fun m => pure (m.entries.map (·.2))) := by
  have he : ∀ e ∈ rels.map Relationship.element, e.Valid := fun e he => by
    obtain ⟨r, hr, rfl⟩ := List.mem_map.1 he
    exact Relationship.element_valid (hv r hr)
  have hc : ∀ e ∈ rels.map Relationship.element, e.name ≠ relationshipReader.container :=
    fun e he => by
      obtain ⟨r, -, rfl⟩ := List.mem_map.1 he
      exact show relationshipNode ≠ relationshipContainer by decide +kernel
  obtain ⟨w, hwrite, -, hread⟩ :=
    relationshipReader.reads_written he hc relationshipReader_valid hnl hfits
  refine ⟨w, (congrFun (writeRelationships_eq rels) _).trans hwrite, fun fuel hfuel => ?_⟩
  have hlen : fuel = (fuel - (3 * rels.length + 10)) + 3 * (rels.map Relationship.element).length +
      10 := by
    rw [List.length_map]
    omega
  rw [readRelationships, hlen, hread _ _ fun e he => ?_]
  obtain ⟨r, -, rfl⟩ := List.mem_map.1 he
  show 3 ≤ fuel - (3 * rels.length + 10)
  omega

/-- What was read is in the order of the IDs. -/
theorem read_sorted {m : RelationshipMap} {rels : List Relationship}
    (hm : m.entries.Perm (rels.map Relationship.entry)) :
    (m.entries.map (·.2)).Perm (rels.map Relationship.included) ∧
      (m.entries.map (·.2)).Pairwise fun r s => r.id < s.id := by
  have hkeys : ∀ x ∈ m.entries, x.2.id = x.1 := fun x hx => by
    obtain ⟨r, -, rfl⟩ := List.mem_map.1 (hm.mem_iff.1 hx)
    rfl
  refine ⟨?_, List.pairwise_map.2 ((List.pairwise_map.1 m.sorted).imp_of_mem fun hx hy hlt => ?_)⟩
  · have hread := hm.map Prod.snd
    rw [List.map_map] at hread
    exact hread
  · rw [hkeys _ hx, hkeys _ hy]
    exact hlt

/-- **Relationships are read back** exactly where no two of them have one ID and no two are print
tickets: those that were written, in the order of their IDs, with a delimiter in front of their
targets. Otherwise the document is written, and rejected. -/
theorem relationships_reread {nl : List UInt8} {rels : List Relationship} (hnl : IsLineEnding nl)
    (hv : ∀ r ∈ rels, r.Written)
    (hfits : (listDocument nl relationshipContainer schemaRelationships
      (rels.map Relationship.element)).length + bufferMargin ≤ xmlReaderBufferSize) :
    ∃ w, writeRelationships rels (XmlWriter.create nl) = .ok () w ∧
      (rels.Pairwise Relationship.Distinct → ∃ read : List Relationship,
        read.Perm (rels.map Relationship.included) ∧ read.Pairwise (fun r s => r.id < s.id) ∧
        ∀ fuel ≥ 3 * rels.length + 13, readRelationships fuel w.output = .lift (.ok read)) ∧
      (¬ rels.Pairwise Relationship.Distinct → ∃ e,
        (e = .duplicateRelationshipID ∨ e = .duplicatePrintTicket) ∧
        ∀ fuel ≥ 3 * rels.length + 13, readRelationships fuel w.output = .lift (.error e)) := by
  obtain ⟨w, hwrite, hread⟩ := readRelationships_document hnl hv hfits
  refine ⟨w, hwrite, fun hpairs => ?_, fun hnot => ?_⟩
  · rcases @foldlM_addElement rels with ⟨-, m, hm, hentries⟩ | ⟨hnot, -⟩
    · obtain ⟨hperm, hsorted⟩ := read_sorted hentries
      refine ⟨m.entries.map (·.2), hperm, hsorted, fun fuel hfuel => ?_⟩
      rw [hread fuel hfuel, hm]
      rfl
    · exact absurd hpairs hnot
  · rcases @foldlM_addElement rels with ⟨hpairs, -⟩ | ⟨-, e, hm, he⟩
    · exact absurd hpairs hnot
    · refine ⟨e, he, fun fuel hfuel => ?_⟩
      rw [hread fuel hfuel, hm]
      rfl

theorem isPartURI_startPart : IsPartURI (xmlText "3D/3dmodel.model") := by decide +kernel

theorem isPartURI_thumbnail : IsPartURI (xmlText "/Metadata/thumbnail.png") := by decide +kernel

/-- The start part of a package and its thumbnail. -/
def packageRelationships : List Relationship :=
  [⟨xmlText "rel1", xmlText "http://schemas.microsoft.com/3dmanufacturing/2013/01/3dmodel",
      xmlText "3D/3dmodel.model", isPartURI_startPart⟩,
    ⟨xmlText "rel0", xmlText "http://schemas.openxmlformats.org/package/2006/relationships/thumbnail",
      xmlText "/Metadata/thumbnail.png", isPartURI_thumbnail⟩]

theorem written_packageRelationships : ∀ r ∈ packageRelationships, r.Written := fun r hr => by
  have hall : ∀ r ∈ packageRelationships, IsText r.type ∧
      IsText (fnIncludeLeadingPathDelimiter r.targetPartURI) ∧ IsText r.id := by decide +kernel
  exact ⟨(hall r hr).1, (hall r hr).2.1, (hall r hr).2.2⟩

theorem relationships_reread_package : ∃ w read,
    writeRelationships packageRelationships (XmlWriter.create [10]) = .ok () w ∧
      readRelationships 19 w.output = .lift (.ok read) ∧
      read.Perm (packageRelationships.map Relationship.included) ∧
      read.Pairwise (fun r s => r.id < s.id) := by
  have hpairs : packageRelationships.Pairwise fun r s => r.id ≠ s.id ∧
      ¬ (r.type = printTicketRelationshipType ∧ s.type = printTicketRelationshipType) := by
    decide +kernel
  obtain ⟨w, hwrite, hread, -⟩ :=
    @relationships_reread [10] packageRelationships (.inl rfl) written_packageRelationships
      (by decide +kernel)
  obtain ⟨read, hperm, hsorted, hfuel⟩ := hread hpairs
  exact ⟨w, read, hwrite, hfuel 19 (by decide), hperm, hsorted⟩

end NMR.Opc
