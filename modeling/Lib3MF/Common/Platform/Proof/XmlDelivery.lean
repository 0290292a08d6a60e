import Lib3MF.Common.Platform.Proof.Namespaces
import Lib3MF.Common.Platform.Proof.XmlScopedReading
import Lib3MF.Common.Platform.XmlDocuments

/-!
# The reader on a document

`XmlReader` walks over the entities of a tree, `ScopedReader` over the bytes of a stream. On a
document that is laid out and that the buffer takes, the two keep in step: each call returns the
same and shows the same strings (`InStep.read`, `InStep.moveToNextAttribute`). So what is known of
the entities of a tree is known of its bytes.
-/

namespace NMR

open Lib NativeReader

/-! ## Filling the buffer -/

namespace NativeReader

/-- The reader with another buffer shows what it showed. -/
structure Refilled (r r' : NativeReader) : Prop where
  currentName : r'.currentName = r.currentName
  currentPrefix : r'.currentPrefix = r.currentPrefix
  currentValue : r'.currentValue = r.currentValue
  elementName : r'.currentElementName = r.currentElementName
  elementPrefix : r'.currentElementPrefix = r.currentElementPrefix

theorem Refilled.refl (r : NativeReader) : Refilled r r := ⟨rfl, rfl, rfl, rfl, rfl⟩

theorem refilled_readNextBufferFromStream {r r' : NativeReader}
    (h : r.readNextBufferFromStream = .ok r') : Refilled r r' := by
  unfold readNextBufferFromStream at h
  dsimp only at h
  split_ifs at h
  split at h
  · cases h
  · cases h
    exact ⟨rfl, rfl, rfl, rfl, rfl⟩

theorem refilled_ensureFilledBuffer {r r' : NativeReader} {filled : Bool}
    (h : r.ensureFilledBuffer = .ok (r', filled)) : Refilled r r' := by
  unfold ensureFilledBuffer at h
  split_ifs at h
  · cases hnext : r.readNextBufferFromStream with
    | error e =>
      rw [hnext] at h
      cases h
    | ok r₁ =>
      have hr := refilled_readNextBufferFromStream hnext
      rw [hnext] at h
      dsimp only at h
      split_ifs at h
      · cases h
        exact ⟨hr.currentName, hr.currentPrefix, hr.currentValue, hr.elementName, hr.elementPrefix⟩
      · cases h
        exact hr
  · cases h
    exact .refl r

end NativeReader

/-! ## The two readers -/

namespace ScopedReader

/-- Its strings are those of `r`. -/
structure Shows (s : ScopedReader) (r : XmlReader) : Prop where
  nameSpaces : s.nameSpaces = r.nameSpaces.map fun n => (utf8 n.1, utf8 n.2)
  default : s.defaultNameSpace = utf8 r.defaultNameSpace
  isAttribute : s.nameSpaceIsAttribute = r.nameSpaceIsAttribute
  currentName : s.native.currentName = utf8 r.currentName
  currentPrefix : s.native.currentPrefix = utf8 r.currentPrefix
  currentValue : s.native.currentValue = utf8 r.currentValue
  elementName : s.native.currentElementName = utf8 r.currentElementName
  elementPrefix : s.native.currentElementPrefix = utf8 r.currentElementPrefix
  isEOF : s.native.isEOF = r.isEOF

/-- The reader delivers the entities `ahead`, and then nothing; its buffer may still be empty. -/
inductive Delivers (r : NativeReader) : List XmlEntity → Prop where
  | stands {seen : List EntityItem} {ahead : List XmlEntity} {tail : List UInt8}
      (h : Stands r seen (ahead.map XmlEntity.item) tail) (ht : '<'.toUInt8 ∉ tail) :
      Delivers r ahead
  | empty {r' : NativeReader} {e : XmlEntity} {ahead : List XmlEntity} {tail : List UInt8}
      (he : r.ensureFilledBuffer = .ok (r', true))
      (h : Stands r' [] ((e :: ahead).map XmlEntity.item) tail) (ht : '<'.toUInt8 ∉ tail) :
      Delivers r (e :: ahead)

/-- The reader has reached the place in the document where the walk over its entities is. -/
structure InStep (s : ScopedReader) (r : XmlReading) : Prop where
  shows : Shows s r.1
  delivers : Delivers s.native r.2
  isOpen : r.2 ≠ [] → s.native.isEOF = false

variable {s : ScopedReader} {r : XmlReader} {e : XmlEntity} {ahead : List XmlEntity}

theorem Delivers.filled {r : NativeReader} (h : Delivers r (e :: ahead)) : ∃ r' seen tail,
    r.ensureFilledBuffer = .ok (r', true) ∧ Stands r' seen (e.item :: ahead.map XmlEntity.item) tail ∧
      '<'.toUInt8 ∉ tail := by
  cases h with
  | stands h ht => exact ⟨r, _, _, h.filled, h, ht⟩
  | empty he h ht => exact ⟨_, _, _, he, h, ht⟩

theorem Delivers.ended {r : NativeReader} (h : Delivers r []) : ∃ r',
    r.ensureFilledBuffer = .ok (r', false) ∧ r'.isEOF = true ∧ Delivers r' [] := by
  cases h with
  | stands h ht =>
    obtain ⟨r', he, heof, h'⟩ := h.ended ht
    exact ⟨r', he, heof, @Delivers.stands r' _ [] _ h' List.not_mem_nil⟩

/-- What the reader shows does not depend on its buffer. -/
theorem Shows.refilled {r' : NativeReader} (h : Shows s r) (hr : Refilled s.native r')
    (he : r'.isEOF = s.native.isEOF) : Shows { s with native := r' } r where
  nameSpaces := h.nameSpaces
  default := h.default
  isAttribute := h.isAttribute
  currentName := hr.currentName.trans h.currentName
  currentPrefix := hr.currentPrefix.trans h.currentPrefix
  currentValue := hr.currentValue.trans h.currentValue
  elementName := hr.elementName.trans h.elementName
  elementPrefix := hr.elementPrefix.trans h.elementPrefix
  isEOF := he.trans h.isEOF

/-- Filling the buffer in front of a call. -/
theorem read_of_filled {r' : NativeReader} (h : s.native.ensureFilledBuffer = .ok (r', true))
    (h' : r'.ensureFilledBuffer = .ok (r', true)) : s.read = ScopedReader.read { s with native := r' } := by
  unfold ScopedReader.read
  rw [h, h']
  rfl

theorem moveToNextAttribute_of_filled {r' : NativeReader}
    (h : s.native.ensureFilledBuffer = .ok (r', true))
    (h' : r'.ensureFilledBuffer = .ok (r', true)) :
    s.moveToNextAttribute = ScopedReader.moveToNextAttribute { s with native := r' } := by
  unfold ScopedReader.moveToNextAttribute
  rw [h, h']

/-- With its buffer filled the reader stands on the next entity. -/
theorem InStep.standsOn (h : InStep s (r, e :: ahead)) : ∃ s' seen tail,
    Shows s' r ∧ StandsOn s' seen (e.item :: ahead.map XmlEntity.item) tail ∧ '<'.toUInt8 ∉ tail ∧
      s.read = s'.read ∧ s.moveToNextAttribute = s'.moveToNextAttribute := by
  obtain ⟨r', seen, tail, he, hstands, ht⟩ := h.delivers.filled
  have heof := isEOF_of_filled he
  refine ⟨{ s with native := r' }, seen, tail, h.shows.refilled (refilled_ensureFilledBuffer he) heof,
    ⟨hstands, heof.trans (h.isOpen (List.cons_ne_nil _ _))⟩, ht, ?_, ?_⟩
  · exact read_of_filled he hstands.filled
  · exact moveToNextAttribute_of_filled he hstands.filled

/-- A reader that stands on entities delivers them. -/
theorem StandsOn.inStep {seen : List EntityItem} {tail : List UInt8}
    (h : StandsOn s seen (ahead.map XmlEntity.item) tail) (ht : '<'.toUInt8 ∉ tail) (hs : Shows s r) :
    InStep s (r, ahead) := ⟨hs, .stands h.native ht, fun _ => h.isEOF⟩

/-- The name of a tag. -/
theorem Shows.tag (h : Shows s r) (he : endsAttributes e.type = true) :
    Shows (s.passed e.item (Stands.onTag s.native e.item))
      { r with currentValue := "", currentPrefix := e.nsPrefix, currentName := e.name,
               currentElementName := e.name, currentElementPrefix := e.nsPrefix,
               nameSpaceIsAttribute := false } := by
  refine ⟨h.nameSpaces, h.default, ?_, rfl, rfl, rfl, rfl, rfl, h.isEOF⟩
  simp [passed, XmlEntity.item, he]

/-- **`Read`** returns and shows the same. -/
theorem InStep.read (h : InStep s (r, ahead)) : ∃ s',
    s.read = .ok (s', ahead.head?.map fun e => (r.readEntity e).1) ∧ InStep s' (r.read ahead).2 := by
  cases ahead with
  | nil =>
    obtain ⟨r', he, heof, hd⟩ := h.delivers.ended
    have hr := refilled_ensureFilledBuffer he
    refine ⟨{ s with native := r' }, ?_, ?_, hd, fun h0 => absurd rfl h0⟩
    · unfold ScopedReader.read
      rw [he]
      rfl
    · have hs := h.shows
      exact ⟨hs.nameSpaces, hs.default, hs.isAttribute, hr.currentName.trans hs.currentName,
        hr.currentPrefix.trans hs.currentPrefix, hr.currentValue.trans hs.currentValue,
        hr.elementName.trans hs.elementName, hr.elementPrefix.trans hs.elementPrefix, heof⟩
  | cons e ahead =>
    obtain ⟨s₁, seen, tail, hs, h₁, ht, hread, -⟩ := h.standsOn
    rw [hread, List.head?_cons, Option.map_some]
    show ∃ s', _ ∧ InStep s' ((r.readEntity e).2, ahead)
    unfold XmlReader.readEntity
    cases htype : e.type with
    | text =>
      obtain ⟨chars, hr, h'⟩ := h₁.read_text htype
      refine ⟨_, hr, h'.inStep ht ⟨hs.nameSpaces, hs.default, ?_, rfl, rfl, rfl, hs.elementName,
        hs.elementPrefix, hs.isEOF⟩⟩
      simp [passed, endsAttributes, XmlEntity.item, htype]
    | element =>
      obtain ⟨hr, h'⟩ := h₁.read_name (.inl ⟨.inl htype, rfl⟩)
      exact ⟨_, hr, h'.inStep ht (hs.tag (by rw [htype]; rfl))⟩
    | processingInstruction =>
      obtain ⟨hr, h'⟩ := h₁.read_name (.inl ⟨.inr htype, rfl⟩)
      exact ⟨_, hr, h'.inStep ht (hs.tag (by rw [htype]; rfl))⟩
    | elementEnd =>
      obtain ⟨hr, h'⟩ := h₁.read_name (.inr ⟨.inl htype, rfl⟩)
      exact ⟨_, hr, h'.inStep ht (hs.tag (by rw [htype]; rfl))⟩
    | processingInstructionEnd =>
      obtain ⟨hr, h'⟩ := h₁.read_name (.inr ⟨.inr htype, rfl⟩)
      exact ⟨_, hr, h'.inStep ht (hs.tag (by rw [htype]; rfl))⟩
    | closeElement =>
      obtain ⟨hr, h'⟩ := h₁.read_close htype
      refine ⟨_, hr, h'.inStep ht ⟨hs.nameSpaces, hs.default, ?_, hs.elementName, hs.elementPrefix,
        rfl, rfl, rfl, hs.isEOF⟩⟩
      simp [passed, endsAttributes, XmlEntity.item, htype, hs.isAttribute]
    | attribName =>
      obtain ⟨hr, h'⟩ := h₁.read_unknown (.inl htype)
      refine ⟨_, hr, h'.inStep ht ⟨hs.nameSpaces, hs.default, ?_, hs.currentName, hs.currentPrefix,
        hs.currentValue, hs.elementName, hs.elementPrefix, hs.isEOF⟩⟩
      simp [passed, endsAttributes, XmlEntity.item, htype, hs.isAttribute]
    | attribValue =>
      obtain ⟨hr, h'⟩ := h₁.read_unknown (.inr htype)
      refine ⟨_, hr, h'.inStep ht ⟨hs.nameSpaces, hs.default, ?_, hs.currentName, hs.currentPrefix,
        hs.currentValue, hs.elementName, hs.elementPrefix, hs.isEOF⟩⟩
      simp [passed, endsAttributes, XmlEntity.item, htype, hs.isAttribute]

/-! ## Attributes -/

theorem lookup_utf8 (l : List (String × String)) (p : String) :
    (l.map fun n => (utf8 n.1, utf8 n.2)).lookup (utf8 p) = (l.lookup p).map utf8 := by
  induction l with
  | nil => rfl
  | cons n l ih =>
    rw [List.map_cons, List.lookup_cons, List.lookup_cons, ih]
    by_cases hp : p = n.1
    · simp [hp]
    · have hne : (p == n.1) = false := by simpa using hp
      have hne' : (utf8 p == utf8 n.1) = false := by simpa using hp
      rw [hne, hne']

/-- **`GetNamespaceURI`** gives the same. -/
theorem Shows.getNamespaceURI (h : Shows s r) :
    s.getNamespaceURI = r.getNamespaceURI.map utf8 := by
  unfold ScopedReader.getNamespaceURI XmlReader.getNamespaceURI
  rw [h.currentPrefix, h.isAttribute, h.default, h.nameSpaces, lookup_utf8]
  simp only [utf8_eq_nil]
  split_ifs <;> rfl

theorem Shows.registerNameSpace (h : Shows s r) (nsPrefix uri : String) :
    Shows (s.registerNameSpace (utf8 nsPrefix) (utf8 uri)) (r.registerNameSpace nsPrefix uri) := by
  unfold ScopedReader.registerNameSpace XmlReader.registerNameSpace
  rw [h.nameSpaces, lookup_utf8, Option.isSome_map]
  split_ifs
  · exact h
  · refine { h with nameSpaces := ?_ }
    rw [List.map_append]
    rfl

theorem utf8_xmlns : utf8 "xmlns" = xmlText "xmlns" := by decide

/-- A default declaration is entered alike. -/
theorem Shows.setDefault (h : Shows s r) (uri : String) :
    Shows { s with defaultNameSpace := utf8 uri } { r with defaultNameSpace := uri } :=
  { h with default := rfl }

/-- **An attribute** is taken alike. -/
theorem Shows.takeAttribute (h : Shows s r) (name value : XmlEntity) :
    Shows (s.entered name.item value.item) (r.takeAttribute name value) := by
  let s₁ : ScopedReader :=
    { s with native := Stands.onAttribute s.native name.item value.item, nameSpaceIsAttribute := true }
  let r₁ : XmlReader :=
    { r with nameSpaceIsAttribute := true, currentPrefix := name.nsPrefix,
             currentName := name.name, currentValue := value.name }
  have h₁ : Shows s₁ r₁ := ⟨h.nameSpaces, h.default, rfl, rfl, rfl, rfl, h.elementName,
    h.elementPrefix, h.isEOF⟩
  have hp : s₁.native.currentPrefix = xmlText "xmlns" ↔ name.nsPrefix = "xmlns" := by
    rw [h₁.currentPrefix, ← utf8_xmlns, utf8_inj]
  have hd : s₁.native.currentPrefix = [] ∧ s₁.native.currentName = xmlText "xmlns" ↔
      name.nsPrefix = "" ∧ name.name = "xmlns" := by
    rw [h₁.currentPrefix, h₁.currentName, ← utf8_xmlns, utf8_inj, utf8_eq_nil]
  show Shows s₁.registerAttribute (r.takeAttribute name value)
  unfold registerAttribute XmlReader.takeAttribute
  dsimp only
  by_cases hdefault : name.nsPrefix = "" ∧ name.name = "xmlns"
  · have hne : name.nsPrefix ≠ "xmlns" := by simp [hdefault.1]
    rw [if_pos (hd.2 hdefault), if_pos hdefault, if_neg (mt hp.1 hne), if_neg hne]
    exact h₁.setDefault value.name
  · rw [if_neg (mt hd.1 hdefault), if_neg hdefault]
    by_cases hprefix : name.nsPrefix = "xmlns"
    · rw [if_pos (hp.2 hprefix), if_pos hprefix]
      exact h₁.registerNameSpace name.name value.name
    · rw [if_neg (mt hp.1 hprefix), if_neg hprefix]
      exact h₁

/-- **`MoveToNextAttribute`** returns and shows the same. -/
theorem InStep.moveToNextAttribute (h : InStep s (r, ahead)) (hp : AttributesPaired ahead) :
    ∃ s' found r', s.moveToNextAttribute = .ok (s', found) ∧
      r.moveToNextAttribute ahead = .ok (found, r') ∧ InStep s' r' ∧
      ahead.length = r'.2.length + if found then 2 else 0 := by
  cases ahead with
  | nil =>
    obtain ⟨r', he, heof, hd⟩ := h.delivers.ended
    have hr := refilled_ensureFilledBuffer he
    have hs := h.shows
    refine ⟨{ s with native := r' }, false, ({ r with isEOF := true }, []), ?_, rfl,
      ⟨?_, hd, fun h0 => absurd rfl h0⟩, rfl⟩
    · unfold ScopedReader.moveToNextAttribute
      rw [he]
    · exact ⟨hs.nameSpaces, hs.default, hs.isAttribute, hr.currentName.trans hs.currentName,
        hr.currentPrefix.trans hs.currentPrefix, hr.currentValue.trans hs.currentValue,
        hr.elementName.trans hs.elementName, hr.elementPrefix.trans hs.elementPrefix, heof⟩
  | cons e ahead =>
    obtain ⟨s₁, seen, tail, hs, h₁, ht, -, hmove⟩ := h.standsOn
    rw [hmove]
    by_cases htype : e.type = .attribName
    · obtain ⟨v, hv, hvtype⟩ := hp.1 htype
      obtain ⟨ahead', rfl⟩ : ∃ ahead', ahead = v :: ahead' := by
        cases ahead with
        | nil => cases hv
        | cons v' ahead' => exact ⟨ahead', by rw [Option.some.inj hv]⟩
      obtain ⟨hm, h'⟩ := h₁.nextAttribute htype hvtype
      exact ⟨_, true, (r.takeAttribute e v, ahead'), hm,
        XmlReader.moveToNextAttribute_attribute r ahead' htype hvtype,
        h'.inStep ht (hs.takeAttribute e v), rfl⟩
    · refine ⟨_, false, ({ r with nameSpaceIsAttribute := true }, e :: ahead), h₁.noAttribute htype,
        XmlReader.moveToNextAttribute_other r ahead htype,
        ⟨?_, .stands h₁.native ht, fun _ => h₁.isEOF⟩, rfl⟩
      exact { hs with isAttribute := rfl }

end ScopedReader

/-! ## Whole documents -/

/-- The document is laid out, and the buffer of a reader takes it with the text behind its last
tag. -/
structure XmlContent.FitsBuffer (doc : XmlContent) (tail : List UInt8) (capacity : Nat) : Prop where
  laid : doc.Laid false
  isTag : doc ≠ .nil ∧ ¬ doc.EndsInText
  noTag : '<'.toUInt8 ∉ tail
  fits : (doc.render ++ tail).length + bufferMargin ≤ capacity
  min : minBufferCapacity ≤ capacity
  max : capacity ≤ maxBufferCapacity

namespace ScopedReader

variable {doc : XmlContent} {tail : List UInt8} {capacity : Nat}

theorem shows_create {stream : NativeStream} {s : ScopedReader}
    (h : ScopedReader.create stream capacity = .ok s) : Shows s .create ∧ s.native.isEOF = false := by
  unfold ScopedReader.create NativeReader.create at h
  split_ifs at h
  cases h
  have hbuiltIn : ScopedReader.builtInNameSpaces =
      XmlReader.create.nameSpaces.map fun n => (utf8 n.1, utf8 n.2) := by decide
  exact ⟨⟨hbuiltIn, rfl, rfl, rfl, rfl, rfl, rfl, rfl, rfl⟩, rfl⟩

/-- **A new reader** is at the front of the document. -/
theorem inStep_create (h : doc.FitsBuffer tail capacity) : ∃ s,
    ScopedReader.create ⟨doc.render ++ tail, []⟩ capacity = .ok s ∧
      InStep s (XmlReader.create, doc.entities) := by
  have hne : (doc.chunks []) ≠ [] := XmlContent.chunks_ne_nil (.inr h.isTag)
  have hrender : (doc.chunks []).flatMap XmlChunk.render = doc.render := by
    rw [XmlContent.render_chunks (.inr h.isTag.2), List.flatMap_nil, List.append_nil]
  have hitems : (doc.chunks []).flatMap XmlChunk.items = doc.entities.map XmlEntity.item := by
    rw [XmlContent.items_chunks h.laid (by simp [XmlContent.Bare]) (.inr h.isTag.2), List.flatMap_nil,
      List.append_nil]
  have hlast : ∃ c, (doc.chunks []).getLast? = some c ∧ c.tag.Closes := by
    refine ⟨(doc.chunks []).getLast hne, List.getLast?_eq_getLast_of_ne_nil hne, ?_⟩
    exact XmlContent.closes_chunks (by simp) _ (List.getLast?_eq_getLast_of_ne_nil hne)
  have hvalid : ∀ c ∈ doc.chunks [], c.Valid := XmlContent.valid_chunks h.laid nofun
  have hfits := h.fits
  rw [← hrender] at hfits
  obtain ⟨r, r', hcreate, hfilled, hstands⟩ :=
    filled_create h.min h.max hvalid hlast h.noTag hfits
  have hentities : doc.entities ≠ [] := fun h0 => by
    obtain ⟨c, hc, -⟩ := hlast
    exact items_ne_nil hc (hitems.trans (by rw [h0]; rfl))
  rw [hrender] at hcreate
  rw [hitems] at hstands
  have hc : ScopedReader.create ⟨doc.render ++ tail, []⟩ capacity =
      .ok ⟨r, ScopedReader.builtInNameSpaces, [], false⟩ := by
    rw [ScopedReader.create, hcreate]
  obtain ⟨hshows, heof⟩ := shows_create hc
  refine ⟨_, hc, hshows, ?_, fun _ => heof⟩
  cases hes : doc.entities with
  | nil => exact absurd hes hentities
  | cons e ahead =>
    rw [hes] at hstands
    exact .empty hfilled hstands h.noTag

end ScopedReader

/-! ## Name spaces -/

/-- A reader, and how many entities of the document its caller has passed. -/
abbrev ScopedReading := ScopedReader × Nat

namespace ScopedReader

/-- The state after a call: `Read` passes one entity, `MoveToNextAttribute` a name and a value. A call
that throws leaves the reader. -/
def next (s : ScopedReading) : XmlReaderCall → ScopedReading
  | .read =>
    match s.1.read with
    | .ok (r, some _) => (r, s.2 + 1)
    | .ok (r, none) => (r, s.2)
    | .error _ => s
  | .moveToNextAttribute =>
    match s.1.moveToNextAttribute with
    | .ok (r, true) => (r, s.2 + 2)
    | .ok (r, false) => (r, s.2)
    | .error _ => s

/-- The reader reports the name of `e`, in the name space `uri`. -/
def Reports (r : ScopedReader) (e : XmlEntity) (uri : Option String) : Prop :=
  r.native.currentPrefix = utf8 e.nsPrefix ∧ r.native.currentName = utf8 e.name ∧
    r.getNamespaceURI = uri.map utf8

/-- `Read` in front of an element and `MoveToNextAttribute` in front of an attribute report it, in the
name space of the document. -/
def ReportsScoped (items : List XmlItem) (s : ScopedReading) (c : XmlReaderCall) : Prop :=
  ∀ e uri, items[s.2]? = some (e, some uri) →
    match c with
    | .read => e.type = .element →
      ∃ r, s.1.read = .ok (r, some .startElement) ∧ r.Reports e uri
    | .moveToNextAttribute => e.type = .attribName →
      ∃ r, s.1.moveToNextAttribute = .ok (r, true) ∧ r.Reports e uri

/-- The reader and the walk are at the same place of the document. -/
def Walks (doc : XmlContent) (s : ScopedReading) (w : XmlWalk) : Prop :=
  ∃ r, InStep s.1 r ∧ XmlReader.Follows doc.entities r w ∧
    s.2 + w.ahead.length = (doc.items .document).length

variable {doc : XmlContent} {s : ScopedReading} {w : XmlWalk}

/-- **The step lemma**: a call keeps reader and walk together. -/
theorem Walks.next (h : Walks doc s w) (c : XmlReaderCall) : Walks doc (next s c) (w.next c) := by
  obtain ⟨⟨r, ahead⟩, hs, hw, hn⟩ := h
  have hw' := hw.next c
  have ha : ahead = w.ahead := hw.ahead
  cases c with
  | read =>
    obtain ⟨s', hread, hs'⟩ := hs.read
    refine ⟨_, ?_, hw', ?_⟩
    · unfold ScopedReader.next
      rw [hread]
      cases ahead <;> exact hs'
    · unfold ScopedReader.next XmlWalk.next
      rw [hread, ← hn, ← ha]
      cases ahead with
      | nil => rfl
      | cons e ahead =>
        simp only [List.head?_cons, Option.map_some, List.tail_cons, List.length_cons]
        omega
  | moveToNextAttribute =>
    obtain ⟨s', found, r', hm, hmr, hs', hlen⟩ := hs.moveToNextAttribute (ha ▸ hw.paired)
    have hr : XmlReader.next (r, ahead) .moveToNextAttribute = r' := by
      unfold XmlReader.next
      rw [hmr]
    rw [hr] at hw'
    refine ⟨r', ?_, hw', ?_⟩
    · unfold ScopedReader.next
      rw [hm]
      cases found <;> exact hs'
    · unfold ScopedReader.next
      rw [hm, ← hn, ← hw'.ahead, ← ha, hlen]
      cases found
      · rfl
      · simp only [if_true]
        omega

theorem map_utf8_inj {a b : Option String} : a.map utf8 = b.map utf8 ↔ a = b :=
  (Option.map_injective utf8_injective).eq_iff

/-- A call reports the right name space exactly where the first or last declaration that was
walked over is the one in scope. -/
theorem Walks.reportsScoped_iff (h : Walks doc s w) (c : XmlReaderCall) :
    ReportsScoped (doc.items .document) s c ↔ w.Agrees (doc.items .document) c := by
  obtain ⟨⟨r, ahead⟩, hs, hw, hn⟩ := h
  have ha : ahead = w.ahead := hw.ahead
  have hpos : (doc.items .document).length - w.ahead.length = s.2 := by omega
  unfold ReportsScoped XmlWalk.Agrees
  rw [hpos]
  refine forall_congr' fun e => forall_congr' fun uri => forall_congr' fun he => ?_
  obtain ⟨⟨ahead', hahead⟩, htype⟩ := hw.item (hpos.symm ▸ he)
  cases c with
  | read =>
    refine forall_congr' fun ht => ?_
    obtain ⟨s', hread, hs'⟩ := hs.read
    have huri := XmlReader.getNamespaceURI_element hw hahead ht
    have hshows : Shows s' (XmlReader.next (r, ahead) .read).1 := hs'.shows
    have hentity : (XmlReader.next (r, ahead) .read).1 = (r.readEntity e).2 := by
      rw [ha, hahead]
      rfl
    have htag : ((r.readEntity e).2.currentPrefix = e.nsPrefix ∧
        (r.readEntity e).2.currentName = e.name) ∧ (r.readEntity e).1 = .startElement := by
      simp [XmlReader.readEntity, ht]
    rw [ha, hahead, List.head?_cons, Option.map_some, htag.2] at hread
    rw [← huri, hread]
    constructor
    · rintro ⟨r', hr', -, -, hu⟩
      cases hr'
      exact map_utf8_inj.1 (hshows.getNamespaceURI.symm.trans hu)
    · intro hu
      refine ⟨s', rfl, ?_, ?_, ?_⟩
      · rw [hshows.currentPrefix, hentity, htag.1.1]
      · rw [hshows.currentName, hentity, htag.1.2]
      · rw [hshows.getNamespaceURI, hu]
  | moveToNextAttribute =>
    refine forall_congr' fun ht => ?_
    obtain ⟨s', found, r', hm, hmr, hs', -⟩ := hs.moveToNextAttribute (ha ▸ hw.paired)
    have huri := XmlReader.getNamespaceURI_attribute hw hahead ht
    obtain ⟨v, ahead₂, rfl, hv⟩ := hw.value hahead ht
    cases hmr.symm.trans hv
    have hshows : Shows s' (r.takeAttribute e v) := hs'.shows
    have hnext : (XmlReader.next (r, ahead) .moveToNextAttribute).1 = r.takeAttribute e v := by
      unfold XmlReader.next
      rw [hmr]
    obtain ⟨hpfx, hname, -⟩ := XmlReader.takeAttribute_frame r e v
    rw [hnext] at huri
    rw [hm]
    constructor
    · rintro ⟨r', hr', -, -, hu⟩ hne
      cases hr'
      rw [← map_utf8_inj.1 (hshows.getNamespaceURI.symm.trans hu), huri, if_neg hne]
    · intro hu
      refine ⟨s', rfl, ?_, ?_, ?_⟩
      · rw [hshows.currentPrefix, hpfx]
      · rw [hshows.currentName, hname]
      · rw [hshows.getNamespaceURI, huri]
        split_ifs with hp
        · obtain ht' | ⟨-, hempty⟩ := htype
          · cases ht.symm.trans ht'
          · rw [hempty hp]
        · rw [hu hp]

/-- A new reader and the walk from the front of the document. -/
theorem walks_create {tail : List UInt8} {capacity : Nat} (h : doc.FitsBuffer tail capacity) : ∃ r,
    ScopedReader.create ⟨doc.render ++ tail, []⟩ capacity = .ok r ∧
      Walks doc (r, 0) (.start doc.entities) := by
  obtain ⟨s, hc, hs⟩ := inStep_create h
  refine ⟨s, hc, (XmlReader.create, doc.entities), hs, XmlReader.follows_create _, ?_⟩
  have hlen := congrArg List.length (map_fst_items doc .document)
  rw [List.length_map] at hlen
  rw [Nat.zero_add, hlen]
  rfl

/-- Any calls report the right name spaces exactly where the walk agrees with the scopes. -/
theorem reportsScoped_all_iff (h : Walks doc s w) (calls : List XmlReaderCall) :
    Guarded next (ReportsScoped (doc.items .document)) s calls ↔
      Guarded XmlWalk.next (XmlWalk.Agrees (doc.items .document)) w calls :=
  guarded_sim (Walks doc) h (fun _ _ c h => h.next c) fun _ _ c h => h.reportsScoped_iff c

/-- **Name spaces follow the scoping rules exactly where the first declaration walked over is the
innermost one.** Over any document that is laid out and fits, and any calls, every element and
attribute is reported with the name space of the scoping rules if and only if, at each of them, the
first declaration of the prefix walked over before (or, for an element without a prefix, the last
default declaration) gives the name space that the innermost declaration around it gives. -/
theorem nameSpaces_iff {tail : List UInt8} {capacity : Nat} (h : doc.FitsBuffer tail capacity)
    (calls : List XmlReaderCall) : ∃ r,
      ScopedReader.create ⟨doc.render ++ tail, []⟩ capacity = .ok r ∧
        (Guarded next (ReportsScoped (doc.items .document)) (r, 0) calls ↔
          Guarded XmlWalk.next (XmlWalk.Agrees (doc.items .document)) (.start doc.entities) calls) := by
  obtain ⟨r, hc, hw⟩ := walks_create h
  exact ⟨r, hc, reportsScoped_all_iff hw calls⟩

/-- An element that binds a prefix anew: `<a xmlns:p="u"><p:b xmlns:p="v"/></a>`. -/
def redeclaredPrefix : XmlContent :=
  .element "" "a" [⟨"xmlns", "p", "u"⟩]
    (.emptyElement "p" "b" [⟨"xmlns", "p", "v"⟩] .nil) .nil

theorem render_redeclaredPrefix :
    redeclaredPrefix.render = xmlText "<a xmlns:p=\"u\"><p:b xmlns:p=\"v\"/></a>" := by
  decide

theorem fitsBuffer_redeclaredPrefix : redeclaredPrefix.FitsBuffer [10] 1024 where
  laid := ⟨by decide +kernel, ⟨by decide +kernel, trivial⟩, trivial⟩
  isTag := ⟨nofun, id⟩
  noTag := by decide
  fits := by
    rw [render_redeclaredPrefix]
    decide
  min := by decide
  max := by decide

/-- The outer element of `redeclaredPrefix`, and its declaration. -/
theorem nameSpaces_iff_redeclaredPrefix : ∃ r,
    ScopedReader.create ⟨xmlText "<a xmlns:p=\"u\"><p:b xmlns:p=\"v\"/></a>\n", []⟩ 1024 = .ok r ∧
      (Guarded next (ReportsScoped (redeclaredPrefix.items .document)) (r, 0)
          [.read, .moveToNextAttribute] ↔
        Guarded XmlWalk.next (XmlWalk.Agrees (redeclaredPrefix.items .document))
          (.start redeclaredPrefix.entities) [.read, .moveToNextAttribute]) := by
  have h := nameSpaces_iff fitsBuffer_redeclaredPrefix [.read, .moveToNextAttribute]
  rw [render_redeclaredPrefix] at h
  exact h

/-- The inner element of `redeclaredPrefix` is reported with the name space of the outer one. -/
theorem redeclaredPrefix_not_scoped :
    ¬ ∀ (doc : XmlContent) (tail : List UInt8) (capacity : Nat) (calls : List XmlReaderCall),
      doc.wellFormed .document = true → doc.FitsBuffer tail capacity → ∃ r,
        ScopedReader.create ⟨doc.render ++ tail, []⟩ capacity = .ok r ∧
          Guarded next (ReportsScoped (doc.items .document)) (r, 0) calls := by
  intro h
  obtain ⟨r, hc, hg⟩ := h redeclaredPrefix [10] 1024 [.read, .moveToNextAttribute, .read]
    (by decide) fitsBuffer_redeclaredPrefix
  obtain ⟨r', hc', hw⟩ := walks_create fitsBuffer_redeclaredPrefix
  cases hc.symm.trans hc'
  have hb := ((reportsScoped_all_iff hw _).1 hg).2.2.1 ⟨.element, "p", "b"⟩ (some "v") (by decide) rfl
  exact absurd hb (by decide)

end ScopedReader

end NMR
