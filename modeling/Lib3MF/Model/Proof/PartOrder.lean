import Lib3MF.Lib.LastListed
import Lib3MF.Model.Proof.PartUses

/-!
# The order of the model parts

Each production attachment is moved to the back of the list whenever a relationship leads to it,
so the list holds the URIs in the order of their last listings. The loop runs over the first of
them while they move, and only as often as the root part listed URIs, so it need not come to every
part (`chain_not_readsInOrder`). Under a URI the part is read that is of no use before: a second
URI of a part, or one that was a texture, finds its stream at the end. The parts are read once and
in order exactly when the package is readable, every part listed is read, and each relationship of
a part is listed once more after the part (`readsInOrder_iff`).
-/

namespace NMR

open Lib

variable {l : List String} {a b u v uri : String}

namespace OpcPackage

/-- The parts that URIs name. -/
def names (uris : List String) : List String := uris.map fnRemoveLeadingPathDelimiter

variable (p : OpcPackage) (reader : ModelReader3MF)

/-- Every model part reachable from the root part is read exactly once, and before each part that
has a relationship to it. -/
def ReadsInOrder : Prop :=
  ∃ uris, p.readStream reader = .ok uris ∧ (names uris).Nodup ∧
    (∀ a, a ∈ names uris ↔ Relation.ReflTransGen p.Refers p.rootPart a) ∧
    ∀ a ∈ names uris, ∀ b, p.Refers a b → [b, a].Sublist (names uris)

/-- The URIs listed under which a part is read: of the first `2 ^ 31`, those whose stream is not
empty. -/
def listedRead : List String :=
  (p.allListed.dedup.take (readCount p.allListed.dedup)).filter fun uri =>
    p.streamOf (p.uses reader) uri ≠ []

/-- Nothing ends the reading: the relationships of the package are unique, each use succeeds after
those before it, and the root part is of no use and not empty. -/
structure Readable : Prop where
  startPart : p.Unique reader packageStartPartRelationshipType
  thumbnail : p.Unique reader packageThumbnailRelationshipType
  performed : p.Performed reader (p.uses reader)
  opens : p.Opens p.rootPart
  unused : ¬ p.Copied (p.uses reader) p.rootPart
  filled : p.content p.rootPart ≠ []

/-- Every part listed is read; and what a part has a relationship to is listed once more, as it is
read, after the last listing of the part. -/
structure ListsInOrder : Prop extends p.Readable reader where
  all : ∀ u ∈ p.allListed, fnRemoveLeadingPathDelimiter u ∈ names (p.listedRead reader)
  after : ∀ u ∈ p.listedRead reader, ∀ b, p.Refers (fnRemoveLeadingPathDelimiter u) b →
    ∃ v ∈ p.listedRead reader, fnRemoveLeadingPathDelimiter v = b ∧ ListedAfter p.allListed u v

variable {p reader}

/-! ## What is read -/

/-- **The parts read** are those under the URIs listed whose stream is not empty, from the last
one on, and the root part. -/
theorem readStream_eq_ok {uris : List String} : p.readStream reader = .ok uris ↔
    p.Readable reader ∧ uris = (p.listedRead reader).reverse ++ [p.startPart] := by
  have hread : ∀ part s, p.createPart p.startPart = .ok part →
      p.Extracted (p.uses reader) s → (s.remaining p.rootPart part = [] ↔
        p.Copied (p.uses reader) p.rootPart ∨ p.content p.rootPart = []) ∧
      s.readProductionAttachmentModels = (p.listedRead reader).reverse := by
    intro part s hc hs
    have hcontent : p.content p.rootPart = part.content := (opens_of_createPart hc).2
    refine ⟨?_, ?_⟩
    · rw [PackageExtraction.remaining, hcontent, ← hs.copied]
      by_cases h : p.rootPart ∈ s.copied <;> simp [h]
    · rw [PackageExtraction.readProductionAttachmentModels, hs.productionAttachments,
        modelURIs_uses, List.filter_reverse, listedRead]
      refine congrArg List.reverse (List.filter_congr fun uri huri => ?_)
      have hl : uri ∈ modelURIs (p.uses reader) := by
        rw [modelURIs_uses]
        exact List.mem_dedup.1 (List.mem_of_mem_take huri)
      rw [PackageExtraction.findProductionModelAttachment, hs.streams, if_pos hl, Option.getD_some]
  constructor
  · intro h
    obtain ⟨⟨part, s⟩, he, h⟩ := bind_eq_ok.1 h
    obtain ⟨hstart, hthumbnail, hc, hs⟩ := extract3MFOPCPackage_eq_ok.1 he
    obtain ⟨hroot, hmodels⟩ := hread part s hc (extracted_of_foldlM hs)
    obtain ⟨hne, h⟩ := guard_eq_ok.1 h
    rw [hroot, not_or] at hne
    refine ⟨⟨hstart, hthumbnail, (foldlM_perform_ok_iff _).1 ⟨s, hs⟩, (opens_of_createPart hc).1,
      hne.1, hne.2⟩, ?_⟩
    rw [← hmodels]
    exact (pure_eq_ok.1 h).symm
  · intro h
    obtain ⟨h, hu⟩ := h
    obtain ⟨part, hc⟩ := h.opens.createPart
    obtain ⟨s, hs⟩ := (foldlM_perform_ok_iff _).2 h.performed
    obtain ⟨hroot, hmodels⟩ := hread part s hc (extracted_of_foldlM hs)
    have he := extract3MFOPCPackage_eq_ok.2 ⟨h.startPart, h.thumbnail, hc, hs⟩
    refine bind_eq_ok.2 ⟨(part, s), he, guard_eq_ok.2 ⟨?_, ?_⟩⟩
    · rw [hroot, not_or]
      exact ⟨h.unused, h.filled⟩
    · rw [hmodels, hu]
      rfl

theorem mem_allListed (hu : u ∈ p.listedRead reader) : u ∈ p.allListed :=
  List.mem_dedup.1 (List.mem_of_mem_take (List.mem_of_mem_filter hu))

/-- The first use of a part that is read is its listing under the URI. -/
theorem find?_uses (hu : u ∈ p.listedRead reader) :
    (p.uses reader).find? (fun x => x.name = fnRemoveLeadingPathDelimiter u) =
      some ⟨.modelData, u⟩ := by
  have hne := (List.mem_filter.1 hu).2
  rw [decide_eq_true_iff, streamOf] at hne
  by_contra h
  rw [if_neg h] at hne
  exact hne rfl

/-- No part is read under two URIs. -/
theorem nodup_names : (names (p.listedRead reader)).Nodup := by
  refine List.Nodup.map_on (fun u hu v hv he => ?_)
    ((List.nodup_dedup _).sublist ((List.take_sublist _ _).filter _ |>.trans List.filter_sublist))
  have h := find?_uses hu
  rw [he, find?_uses hv] at h
  cases h
  rfl

/-- The order of two URIs under which parts are read is the order of their last listings. -/
theorem sublist_listedRead_iff (hu : u ∈ p.listedRead reader) (hv : v ∈ p.listedRead reader)
    (hne : u ≠ v) : [u, v].Sublist (p.listedRead reader) ↔ ListedAfter p.allListed u v := by
  obtain ⟨hut, hus⟩ := List.mem_filter.1 hu
  obtain ⟨hvt, hvs⟩ := List.mem_filter.1 hv
  rw [listedRead, sublist_filter_iff (q := fun uri => p.streamOf (p.uses reader) uri ≠ []) hus hvs,
    sublist_take_iff (List.nodup_dedup _) hut hvt, sublist_dedup_iff hne]

theorem names_readStream : names ((p.listedRead reader).reverse ++ [p.startPart]) =
    (names (p.listedRead reader)).reverse ++ [p.rootPart] := by
  simp [names, rootPart]

end OpcPackage

namespace AcyclicPackage

open OpcPackage

variable {p : AcyclicPackage} {reader : ModelReader3MF}

/-! ## The order -/

theorem ne_rootPart (h : Relation.TransGen p.Refers p.rootPart a) : a ≠ p.rootPart := by
  intro he
  exact p.acyclic p.rootPart (he ▸ h)

/-- What stands before another part stands before the root part. -/
theorem sublist_of_append_root {r : String} (h : [b, a].Sublist (l ++ [r])) (hne : a ≠ r) :
    [b, a].Sublist l := by
  rw [← List.reverse_sublist, List.reverse_append] at h
  have ha : [a, b].Sublist (r :: l.reverse) := h
  rw [List.sublist_cons_iff] at ha
  rcases ha with ha | ⟨l', he, -⟩
  · rw [← List.reverse_sublist]
    exact ha
  · exact absurd (List.cons.inj he).1 hne

theorem eq_pair_of_map {f : String → String} {l : List String} (h : l.map f = [a, b]) :
    ∃ u v, l = [u, v] ∧ f u = a ∧ f v = b := by
  match l, h with
  | [u, v], h =>
    simp only [List.map_cons, List.map_nil, List.cons.injEq, and_true] at h
    exact ⟨u, v, rfl, h.1, h.2⟩

/-- What is read is what is reachable. -/
theorem mem_names_iff (h : p.ListsInOrder reader) (a : String) :
    a ∈ (names (p.listedRead reader)).reverse ++ [p.rootPart] ↔
      Relation.ReflTransGen p.Refers p.rootPart a := by
  rw [List.mem_append, List.mem_reverse, List.mem_singleton]
  constructor
  · intro ha
    rcases ha with ha | rfl
    · obtain ⟨u, hu, rfl⟩ := List.mem_map.1 ha
      exact (reachable_listed (mem_allListed hu)).to_reflTransGen
    · exact .refl
  · intro ha
    induction ha with
    | refl => exact .inr rfl
    | tail _ hb ih =>
      left
      rcases ih with ih | rfl
      · obtain ⟨u, hu, rfl⟩ := List.mem_map.1 ih
        obtain ⟨v, hv, rfl, -⟩ := h.after u hu _ hb
        exact List.mem_map_of_mem hv
      · obtain ⟨u, hu, rfl⟩ := hb
        exact h.all u (targets_subset_listed _ hu)

/-- **The parts are read once and in order** exactly when the package is readable, every part listed
is read, and each relationship of a part is listed once more after the part. -/
theorem readsInOrder_iff (p : AcyclicPackage) (reader : ModelReader3MF) :
    p.ReadsInOrder reader ↔ p.ListsInOrder reader := by
  have hread : p.ReadsInOrder reader ↔ p.Readable reader ∧
      ((names (p.listedRead reader)).reverse ++ [p.rootPart]).Nodup ∧
      (∀ a, a ∈ (names (p.listedRead reader)).reverse ++ [p.rootPart] ↔
        Relation.ReflTransGen p.Refers p.rootPart a) ∧
      ∀ a ∈ (names (p.listedRead reader)).reverse ++ [p.rootPart], ∀ b, p.Refers a b →
        [b, a].Sublist ((names (p.listedRead reader)).reverse ++ [p.rootPart]) := by
    rw [← names_readStream]
    constructor
    · intro ⟨uris, hu, h⟩
      obtain ⟨hr, rfl⟩ := readStream_eq_ok.1 hu
      exact ⟨hr, h⟩
    · exact fun h => ⟨_, readStream_eq_ok.2 ⟨h.1, rfl⟩, h.2⟩
  rw [hread]
  constructor
  · intro ⟨hr, _, hmem, hord⟩
    -- whatever is reachable by a relationship is read before the root part
    have hin : ∀ b, Relation.TransGen p.Refers p.rootPart b → b ∈ names (p.listedRead reader) :=
      fun b hb => by
        rcases List.mem_append.1 ((hmem b).2 hb.to_reflTransGen) with h | h
        · exact List.mem_reverse.1 h
        · exact absurd (List.mem_singleton.1 h) (p.ne_rootPart hb)
    refine ⟨hr, fun u hu => hin _ (reachable_listed hu), fun u hu b hb => ?_⟩
    have hu' : fnRemoveLeadingPathDelimiter u ∈ names (p.listedRead reader) :=
      List.mem_map_of_mem hu
    have hsub := hord _ (List.mem_append_left _ (List.mem_reverse.2 hu')) b hb
    have hsub' : [fnRemoveLeadingPathDelimiter u, b].Sublist (names (p.listedRead reader)) := by
      rw [← List.reverse_sublist]
      exact sublist_of_append_root hsub (p.ne_rootPart (reachable_listed (mem_allListed hu)))
    obtain ⟨l', hl', he⟩ := List.sublist_map_iff.1 hsub'
    obtain ⟨u', v, rfl, hu', hv⟩ := eq_pair_of_map he.symm
    have hmem := fun x hx => hl'.subset (a := x) hx
    have huv : u' = u := List.inj_on_of_nodup_map nodup_names (hmem u' (by simp)) hu hu'
    subst huv
    refine ⟨v, hmem v (by simp), hv, (sublist_listedRead_iff hu (hmem v (by simp)) ?_).1 hl'⟩
    intro he
    rw [← hv, he] at hb
    exact p.acyclic _ (.single hb)
  · intro h
    have hnot : p.rootPart ∉ (names (p.listedRead reader)).reverse := fun hr => by
      obtain ⟨u, hu, he⟩ := List.mem_map.1 (List.mem_reverse.1 hr)
      exact p.ne_rootPart (reachable_listed (mem_allListed hu)) he
    refine ⟨h.toReadable, ?_, fun a => ?_, fun a ha b hb => ?_⟩
    · rw [List.nodup_append]
      refine ⟨List.nodup_reverse.2 nodup_names, List.nodup_singleton _, fun a ha b hb he => ?_⟩
      rw [List.mem_singleton.1 hb] at he
      exact hnot (he ▸ ha)
    · exact mem_names_iff h a
    · rcases List.mem_append.1 ha with ha | ha
      · obtain ⟨u, hu, rfl⟩ := List.mem_map.1 (List.mem_reverse.1 ha)
        obtain ⟨v, hv, rfl, hafter⟩ := h.after u hu b hb
        have hne : u ≠ v := fun he => p.acyclic _ (.single (he ▸ hb))
        have hsub := ((sublist_listedRead_iff hu hv hne).2 hafter).map fnRemoveLeadingPathDelimiter
        exact (hsub.reverse).trans (List.sublist_append_left _ _)
      · rw [List.mem_singleton.1 ha] at hb ⊢
        have hbm := (mem_names_iff h b).2 (.single hb)
        rcases List.mem_append.1 hbm with hbm | hbm
        · exact (List.singleton_sublist.2 hbm).append (List.Sublist.refl [p.rootPart])
        · exact absurd (List.mem_singleton.1 hbm) (p.ne_rootPart (.single hb))

/-! ## A chain of parts -/

/-- A package whose relationships all lead to parts of higher names. -/
def ofAscending (p : OpcPackage)
    (h : ∀ a ∈ p.parts.keys, ∀ uri ∈ p.targets a, a < fnRemoveLeadingPathDelimiter uri) :
    AcyclicPackage :=
  have hr : ∀ a b, p.Refers a b → a < b := fun a b ⟨uri, hu, hb⟩ => by
    by_cases ha : a ∈ p.parts.keys
    · exact hb ▸ h a ha uri hu
    · rw [targets, SortedMap.find?_eq_none.2 ha] at hu
      exact absurd hu List.not_mem_nil
  { p with
    acyclic := fun a ha => by
      have hlt : ∀ b, Relation.TransGen p.Refers a b → a < b := fun b hab => by
        induction hab with
        | single hb => exact hr _ _ hb
        | tail _ hb ih => exact ih.trans (hr _ _ hb)
      exact lt_irrefl a (hlt a ha) }

/-- A start part relationship. -/
def startPartTo (uri : String) : OpcPackageRelationship := ⟨packageStartPartRelationshipType, uri⟩

/-- A reader as the API makes it. -/
def defaultReader : ModelReader3MF := ⟨[], false, .fatal⟩

/-- The root part refers to `a.model`, that to `b.model` and that to `c.model`. -/
def chain : AcyclicPackage :=
  ofAscending ⟨[startPartTo "/3D/3dmodel.model"],
    ⟨[("3D/3dmodel.model", ⟨[startPartTo "/3D/a.model"], [60]⟩),
      ("3D/a.model", ⟨[startPartTo "/3D/b.model"], [60]⟩),
      ("3D/b.model", ⟨[startPartTo "/3D/c.model"], [60]⟩),
      ("3D/c.model", ⟨[], [60]⟩)], by decide +kernel⟩⟩ (by decide +kernel)

/-- A part with two URIs is read under the one it is listed under first. -/
example : (⟨[startPartTo "3D/3dmodel.model"], ⟨[
    ("3D/3dmodel.model", ⟨[startPartTo "/3D/a.model", startPartTo "a.model"], [60]⟩),
    ("3D/a.model", ⟨[], [60]⟩)], by decide +kernel⟩⟩ : OpcPackage).readStream defaultReader =
      .ok ["/3D/a.model", "3D/3dmodel.model"] := by
  decide +kernel

/-- In the chain `c.model` is not read. -/
theorem chain_not_readsInOrder : ¬ chain.ReadsInOrder defaultReader := by
  intro ⟨uris, hu, _, hmem, _⟩
  have hread : chain.readStream defaultReader =
      .ok ["/3D/b.model", "/3D/a.model", "/3D/3dmodel.model"] := by
    decide +kernel
  rw [hread] at hu
  cases hu
  have hab : chain.Refers "3D/3dmodel.model" "3D/a.model" :=
    ⟨"/3D/a.model", by decide +kernel, by decide +kernel⟩
  have hbc : chain.Refers "3D/a.model" "3D/b.model" :=
    ⟨"/3D/b.model", by decide +kernel, by decide +kernel⟩
  have hcd : chain.Refers "3D/b.model" "3D/c.model" :=
    ⟨"/3D/c.model", by decide +kernel, by decide +kernel⟩
  have hc := (hmem "3D/c.model").2 (((Relation.ReflTransGen.single hab).tail hbc).tail hcd)
  exact absurd hc (by decide +kernel)

end AcyclicPackage

end NMR
