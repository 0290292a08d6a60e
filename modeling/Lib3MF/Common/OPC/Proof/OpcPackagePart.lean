import Lib3MF.Common.OPC.OpcPackagePart
import Lib3MF.Common.OPC.Proof.Relationships

/-!
# Parts are read back

A part takes relationships as long as no two have the same target and type, and keeps them in the
order of their targets (`addRelationships_run`). Written and read, they go to a new part unless the
reader rejects the document or two of them have become the same
(`relationships_of_part_reread`).
-/

namespace NMR.Opc

open Lib XmlLayout XmlWriter NativeReader

/-- Two relationships that one part takes. -/
def Relationship.Apart (r s : Relationship) : Prop :=
  ¬ (r.targetPartURI = s.targetPartURI ∧ r.type = s.type)

theorem Relationship.Apart.symm {r s : Relationship} (h : r.Apart s) : s.Apart r :=
  fun hsame => h ⟨hsame.1.symm, hsame.2.symm⟩

namespace OpcPackagePart

/-- `m_Relationships` is in the order of the targets. -/
def Ordered (rels : List Relationship) : Prop :=
  rels.Pairwise fun r s => r.targetPartURI ≤ s.targetPartURI

theorem ordered_insert {rels : List Relationship} (h : Ordered rels) (r : Relationship) :
    Ordered (rels.orderedInsert (fun x y => x.targetPartURI < y.targetPartURI) r) := by
  induction rels with
  | nil => exact List.pairwise_singleton _ _
  | cons x rels ih =>
    obtain ⟨hx, hrels⟩ := List.pairwise_cons.1 h
    rw [List.orderedInsert]
    split_ifs with hlt
    · refine List.pairwise_cons.2 ⟨fun y hy => ?_, h⟩
      rcases List.mem_cons.1 hy with rfl | hy
      · exact hlt.le
      · exact hlt.le.trans (hx y hy)
    · refine List.pairwise_cons.2 ⟨fun y hy => ?_, ih hrels⟩
      rcases (List.mem_orderedInsert _).1 hy with rfl | hy
      · exact not_lt.1 hlt
      · exact hx y hy

/-- **A relationship more.** -/
theorem addRelationship_step {p : OpcPackagePart} {done : List Relationship}
    (hp : p.relationships.Perm done) (ho : Ordered p.relationships) (r : Relationship) :
    ((∀ x ∈ done, x.Apart r) ∧ ∃ q, p.addRelationship r.id r.type r.targetPartURI = .ok q ∧
      q.uri = p.uri ∧ q.relationships.Perm (done ++ [r]) ∧ Ordered q.relationships) ∨
    (¬ (∀ x ∈ done, x.Apart r) ∧
      p.addRelationship r.id r.type r.targetPartURI = .error (.throws .duplicateRelationship)) := by
  have hmake : Relationship.make r.id r.type r.targetPartURI = .ok r := dif_pos r.isPartURI
  have hany : p.relationships.any (fun x => x.targetPartURI = r.targetPartURI ∧ x.type = r.type) ↔
      ∃ x ∈ done, x.targetPartURI = r.targetPartURI ∧ x.type = r.type := by
    rw [List.any_eq_true]
    simp only [hp.mem_iff, decide_eq_true_eq]
  rw [addRelationship, hmake]
  by_cases h : p.relationships.any (fun x => x.targetPartURI = r.targetPartURI ∧ x.type = r.type) = true
  · obtain ⟨x, hx, hsame⟩ := hany.1 h
    exact .inr ⟨fun hall => hall x hx hsame, if_pos h⟩
  · refine .inl ⟨fun x hx hsame => h (hany.2 ⟨x, hx, hsame⟩), _, if_neg h, rfl, ?_,
      ordered_insert ho r⟩
    exact (List.perm_orderedInsert _ _ _).trans
      ((hp.cons r).trans (List.perm_append_singleton _ _).symm)

/-- **All relationships** go to a new part exactly where no two have the same target and type. -/
theorem addRelationships_run {uri : List UInt8} {rels : List Relationship} :
    (rels.Pairwise Relationship.Apart ∧ ∃ q, addRelationships ⟨uri, []⟩ rels = .ok q ∧
      q.uri = uri ∧ q.relationships.Perm rels ∧ Ordered q.relationships) ∨
    (¬ rels.Pairwise Relationship.Apart ∧ ∃ e, addRelationships ⟨uri, []⟩ rels = .error e ∧
      e = .throws .duplicateRelationship) := by
  have hnil : Ordered [] := .nil
  refine foldlM_pairwise Relationship.Apart
    (fun done (q : OpcPackagePart) =>
      q.uri = uri ∧ q.relationships.Perm done ∧ Ordered q.relationships) _
    (fun done p r hp => ?_) ⟨rfl, .refl _, hnil⟩
  obtain ⟨huri, hperm, ho⟩ := hp
  rcases addRelationship_step hperm ho r with ⟨hall, q, hadd, hq⟩ | ⟨hnot, hadd⟩
  · rw [huri] at hq
    exact .inl ⟨hall, q, hadd, hq⟩
  · exact .inr ⟨hnot, _, hadd, rfl⟩

/-- **A part is read back.** Whatever relationships a part takes, one after the other: they are
written, and a new part takes what is read of them exactly where no two have one ID, no two are print
tickets, and no two have one type and targets that differ by a delimiter in front only. -/
theorem relationships_of_part_reread {nl uri : List UInt8} {rels : List Relationship}
    {p : OpcPackagePart} (hnl : IsLineEnding nl) (hp : addRelationships ⟨uri, []⟩ rels = .ok p)
    (hv : ∀ r ∈ rels, r.Written)
    (hfits : (listDocument nl relationshipContainer schemaRelationships
      (p.relationships.map Relationship.element)).length + bufferMargin ≤
        xmlReaderBufferSize) :
    ∃ w, writeRelationships p.relationships (XmlWriter.create nl) = .ok () w ∧
      (rels.Pairwise Relationship.Distinct ∧
          (rels.map Relationship.included).Pairwise Relationship.Apart → ∃ q : OpcPackagePart,
        q.uri = uri ∧ q.relationships.Perm (rels.map Relationship.included) ∧
        Ordered q.relationships ∧
        ∀ fuel ≥ 3 * rels.length + 13, readRelationships fuel ⟨uri, []⟩ w.output = .lift (.ok q)) ∧
      (¬ (rels.Pairwise Relationship.Distinct ∧
          (rels.map Relationship.included).Pairwise Relationship.Apart) → ∃ e,
        (e = .duplicateRelationshipID ∨ e = .duplicatePrintTicket ∨
          e = .throws .duplicateRelationship) ∧
        ∀ fuel ≥ 3 * rels.length + 13, readRelationships fuel ⟨uri, []⟩ w.output =
          .lift (.error e)) := by
  -- the part has the relationships it was given
  obtain ⟨hperm, hlen⟩ : p.relationships.Perm rels ∧ p.relationships.length = rels.length := by
    rcases @addRelationships_run uri rels with ⟨-, q, hq, -, hperm, -⟩ | ⟨-, e, herror, -⟩
    · rw [hp] at hq
      cases hq
      exact ⟨hperm, hperm.length_eq⟩
    · rw [hp] at herror
      cases herror
  have hdistinct : p.relationships.Pairwise Relationship.Distinct ↔
      rels.Pairwise Relationship.Distinct := hperm.pairwise_iff Relationship.Distinct.symm
  obtain ⟨w, hwrite, hread⟩ :=
    readRelationships_document hnl (fun r hr => hv r (hperm.mem_iff.1 hr)) hfits
  rw [hlen] at hread
  refine ⟨w, hwrite, ?_⟩
  rcases @foldlM_addElement p.relationships with
    ⟨hpairs, m, hm, hentries⟩ | ⟨hnot, e, hm, he⟩
  · obtain ⟨hsame, -⟩ := read_sorted hentries
    have hincluded := hsame.trans (hperm.map Relationship.included)
    have hrun : ∀ fuel ≥ 3 * rels.length + 13, readRelationships fuel ⟨uri, []⟩ w.output =
        .lift (addRelationships ⟨uri, []⟩ (m.entries.map (·.2))) := fun fuel hfuel => by
      rw [readRelationships, hread fuel hfuel, hm]
      rfl
    have hapart : (m.entries.map (·.2)).Pairwise Relationship.Apart ↔
        (rels.map Relationship.included).Pairwise Relationship.Apart :=
      hincluded.pairwise_iff Relationship.Apart.symm
    rcases @addRelationships_run uri (m.entries.map (·.2)) with
      ⟨hall, q, hq, huri, hqperm, hordered⟩ | ⟨hnot, e, herror, he⟩
    · refine ⟨fun _ => ⟨q, huri, hqperm.trans hincluded, hordered, fun fuel hfuel => ?_⟩,
        fun hnot => absurd ⟨hdistinct.1 hpairs, hapart.1 hall⟩ hnot⟩
      rw [hrun fuel hfuel, hq]
    · refine ⟨fun h => absurd (hapart.2 h.2) hnot,
        fun _ => ⟨e, .inr (.inr he), fun fuel hfuel => ?_⟩⟩
      rw [hrun fuel hfuel, herror]
  · refine ⟨fun h => absurd (hdistinct.2 h.1) hnot, fun _ => ⟨e, ?_, fun fuel hfuel => ?_⟩⟩
    · exact he.imp_right .inl
    · rw [readRelationships, hread fuel hfuel, hm]
      rfl

/-- A part with the relationships of a package. -/
def packagePart : OpcPackagePart :=
  ⟨xmlText "3D/3dmodel.model", packageRelationships.reverse⟩

theorem relationships_of_part_reread_package : ∃ (w : XmlWriter) (q : OpcPackagePart),
    addRelationships ⟨xmlText "3D/3dmodel.model", []⟩ packageRelationships = .ok packagePart ∧
      writeRelationships packagePart.relationships (XmlWriter.create [10]) = .ok () w ∧
      readRelationships 19 ⟨xmlText "3D/3dmodel.model", []⟩ w.output = .lift (.ok q) ∧
      q.relationships.Perm (packageRelationships.map Relationship.included) ∧
      Ordered q.relationships := by
  have hadd : addRelationships ⟨xmlText "3D/3dmodel.model", []⟩ packageRelationships =
      .ok packagePart := by decide +kernel
  have hpairs : packageRelationships.Pairwise fun r s => r.id ≠ s.id ∧
      ¬ (r.type = printTicketRelationshipType ∧ s.type = printTicketRelationshipType) := by
    decide +kernel
  have hapart : (packageRelationships.map Relationship.included).Pairwise fun r s =>
      ¬ (r.targetPartURI = s.targetPartURI ∧ r.type = s.type) := by decide +kernel
  obtain ⟨w, hwrite, hread, -⟩ := @relationships_of_part_reread [10] _ packageRelationships
    packagePart (.inl rfl) hadd written_packageRelationships (by decide +kernel)
  obtain ⟨q, -, hperm, hordered, hfuel⟩ := hread ⟨hpairs, hapart⟩
  exact ⟨w, q, hadd, hwrite, hfuel 19 (by decide), hperm, hordered⟩

end OpcPackagePart

end NMR.Opc
