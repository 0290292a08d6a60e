import Lib3MF.Common.Platform.Proof.XmlWriter
import Lib3MF.Model.Proof.MetaDataNames
import Lib3MF.Model.Reader.ModelReaderNodes

/-!
# Metadata through a document

A metadata entry is written and read back by itself (`parseXML_written`), a list of them into one
group (`readMetaData_written`), as the node readers do with the elements on the stream
(`feed_metaDataElement`, `feed_metaDataElements`). So the metadata of a model whose document fits
the buffer of the XML reader is kept exactly where it `Survives` (`metaData_roundTrips_iff`). The
reader takes an entry without a `preserve` attribute for one to be preserved, so an entry that is
not comes back changed.
-/

namespace NMR

open Lib

variable {level : ModelReaderWarningLevel} {nameSpaces : XmlNameSpaces} {reader : XmlReader}

/-- The name an entry is written with. -/
def writtenName (nameSpaces : XmlNameSpaces) (md : ModelMetaData) : String :=
  if md.nameSpace = "" then md.name
  else calculateKey ((nameSpaces.find? md.nameSpace).getD "") md.name

/-- The entry, marked to be preserved. -/
def ModelMetaData.preserved (md : ModelMetaData) : ModelMetaData := { md with preserve := true }

@[simp] theorem ModelMetaData.key_preserved (md : ModelMetaData) : md.preserved.key = md.key := rfl

theorem ModelMetaData.preserved_eq_self {md : ModelMetaData} :
    md.preserved = md ↔ md.preserve = true := by
  obtain ⟨_, _, _, _, preserve, _, _⟩ := md
  simp [ModelMetaData.preserved, eq_comm]

/-- The reader takes the texts of the entry. -/
structure ShortEntry (nameSpaces : XmlNameSpaces) (md : ModelMetaData) : Prop where
  name : Short (writtenName nameSpaces md)
  type : Short md.type
  value : Short md.value

/-! ## Texts that fit -/

theorem length_le_flatMap {α β : Type} {l : List α} {a : α} (f : α → List β) (h : a ∈ l) :
    (f a).length ≤ (l.flatMap f).length :=
  (List.sublist_flatten_of_mem (List.mem_map_of_mem h)).length_le

theorem size_le_escaped (s : String) : s.utf8ByteSize ≤ (escapeXMLString (utf8 s)).length :=
  (length_utf8 s).symm.le.trans (XmlWriter.length_le_escapeXMLString _)

theorem size_le_attribute (a : XmlAttribute) : a.name.utf8ByteSize ≤ a.chunk.render.length ∧
    a.value.utf8ByteSize ≤ a.chunk.render.length := by
  have hvalue := size_le_escaped a.value
  have hname : a.name.utf8ByteSize ≤ (qName a.nsPrefix a.name).text.length := by
    unfold qName XmlQName.text XmlWriter.nodeName
    rw [List.length_append, length_utf8]
    exact Nat.le_add_left _ _
  unfold XmlAttribute.chunk XmlChunkAttribute.render
  simp only [List.length_append, List.length_cons]
  omega

theorem size_le_content (e : MetaDataElement) :
    (∀ a ∈ e.attributes, a.2.utf8ByteSize ≤ e.content.render.length) ∧
      e.text.utf8ByteSize ≤ e.content.render.length := by
  have htext := size_le_escaped e.text
  constructor
  · intro a ha
    have hvalue := (size_le_attribute ⟨"", a.1, a.2⟩).2
    have hmem : (⟨"", a.1, a.2⟩ : XmlAttribute).chunk ∈
        (e.attributes.map fun a => (⟨"", a.1, a.2⟩ : XmlAttribute)).map XmlAttribute.chunk :=
      List.mem_map_of_mem (List.mem_map_of_mem ha)
    have hle := length_le_flatMap (fun c : XmlChunkAttribute => 32 :: c.render) hmem
    simp only [MetaDataElement.content, XmlContent.render, XmlContent.startTag, XmlTag.render,
      List.length_append, List.length_cons] at hle hvalue ⊢
    omega
  · simp only [MetaDataElement.content, XmlContent.render, List.length_append, List.length_cons]
    omega

/-- In a document that fits the buffer no text is too long for the reader. -/
theorem MetaDataDocument.FitsBuffer.short {doc : MetaDataDocument} {others : Nat}
    (h : doc.FitsBuffer others) :
    (∀ a ∈ doc.attributes, Short a.name ∧ Short a.value) ∧
      ∀ e ∈ doc.elements, (∀ a ∈ e.attributes, Short a.2) ∧ Short e.text := by
  have hmax : xmlReaderBufferSize ≤ maxXMLStringLength := by decide
  unfold FitsBuffer at h
  constructor
  · intro a ha
    have hle := length_le_flatMap (fun a : XmlAttribute => a.chunk.render) ha
    obtain ⟨hname, hvalue⟩ := size_le_attribute a
    unfold Short
    omega
  · intro e he
    have hle := length_le_flatMap (fun e : MetaDataElement => e.content.render) he
    obtain ⟨hattributes, htext⟩ := size_le_content e
    unfold Short
    refine ⟨fun a ha => ?_, ?_⟩
    · have := hattributes a ha
      omega
    · omega

/-- The warnings about a duplicate are errors. -/
def Strict (level : ModelReaderWarningLevel) : Prop :=
  ModelReaderWarningLevel.invalidOptionalValue.toNat ≤ level.toNat

/-! ## One entry -/

/-- What is written of an entry. -/
theorem writeMetaData_ok {md : ModelMetaData} {e : MetaDataElement}
    (h : writeMetaData nameSpaces md = .ok e) :
    e = ⟨("name", writtenName nameSpaces md) ::
        (if md.type ≠ "xs:string" then [("type", md.type)] else []) ++
        (if md.preserve then [("preserve", "1")] else []), md.value⟩ := by
  unfold writeMetaData at h
  obtain ⟨name, hname, h⟩ := bind_eq_ok.1 h
  obtain ⟨type, htype, h⟩ := bind_eq_ok.1 h
  obtain ⟨text, htext, h⟩ := bind_eq_ok.1 h
  have hn : name = writtenName nameSpaces md := by
    unfold writtenName
    unfold writeMetaDataName at hname
    split_ifs at hname ⊢
    · exact writeEscaped_ok hname
    · cases hf : nameSpaces.find? md.nameSpace with
      | none => simp [hf] at hname
      | some p =>
        simp only [hf] at hname
        exact writeEscaped_ok hname
  have ht : type = if md.type ≠ "xs:string" then [("type", md.type)] else [] := by
    unfold writeMetaDataType at htype
    split_ifs at htype ⊢
    · obtain ⟨t, ht, htype⟩ := bind_eq_ok.1 htype
      rw [← Except.ok.inj htype, writeEscaped_ok ht]
    · exact (Except.ok.inj htype).symm
  rw [← Except.ok.inj h, hn, ht, writeEscaped_ok htext]

/-- The texts of an entry are those of its element. -/
theorem ShortEntry.of_written {md : ModelMetaData} {e : MetaDataElement}
    (h : writeMetaData nameSpaces md = .ok e) (ha : ∀ a ∈ e.attributes, Short a.2)
    (ht : Short e.text) : ShortEntry nameSpaces md := by
  obtain rfl := writeMetaData_ok h
  refine ⟨ha ("name", writtenName nameSpaces md) (by simp), ?_, ht⟩
  by_cases hx : md.type = "xs:string"
  · rw [hx]
    unfold Short
    decide
  · exact ha ("type", md.type) (by simp [hx])

theorem short_of_small {s : String} (h : s.utf8ByteSize ≤ 11) : Short s :=
  h.trans (by decide)

/-- The attributes of an entry are read when no value is too long. -/
theorem foldlM_readAttribute {attributes : List (String × String)} {node node' : MetaDataNode}
    (hn : ∀ a ∈ attributes, a.1.utf8ByteSize ≤ 11) :
    attributes.foldlM MetaDataNode.readAttribute node = .ok node' ↔
      (∀ a ∈ attributes, Short a.2) ∧
        node' = attributes.foldl (fun n a => n.onAttribute a.1 a.2) node := by
  induction attributes generalizing node with
  | nil => simp [pure, Except.pure, eq_comm]
  | cons a attributes ih =>
    have hname : Short a.1 := short_of_small (hn a List.mem_cons_self)
    rw [List.foldlM_cons, bind_eq_ok]
    simp only [MetaDataNode.readAttribute, nfStrLen_bind, Except.ok.injEq,
      ih fun b hb => hn b (List.mem_cons_of_mem _ hb), List.forall_mem_cons, List.foldl_cons]
    constructor
    · intro ⟨n, ⟨_, hv, he⟩, hs, h⟩
      rw [← he] at h
      exact ⟨⟨hv, hs⟩, h⟩
    · intro ⟨⟨hv, hs⟩, h⟩
      exact ⟨_, ⟨hname, hv, rfl⟩, hs, h⟩

/-- **An entry is read as it was written, marked to be preserved.** -/
theorem parseXML_written {md : ModelMetaData} {e : MetaDataElement} {node : MetaDataNode}
    (h : writeMetaData nameSpaces md = .ok e) :
    e.parseXML = .ok node ↔ ShortEntry nameSpaces md ∧
      node = ⟨writtenName nameSpaces md, md.value, true, md.type⟩ := by
  rw [writeMetaData_ok h]
  have hsmall : ∀ a ∈ ("name", writtenName nameSpaces md) ::
      (if md.type ≠ "xs:string" then [("type", md.type)] else []) ++
      (if md.preserve then [("preserve", "1")] else []), a.1.utf8ByteSize ≤ 11 := by
    intro a ha
    simp only [List.cons_append, List.mem_cons, List.mem_append] at ha
    rcases ha with rfl | ha | ha
    · show "name".utf8ByteSize ≤ 11
      decide
    · split_ifs at ha
      · rw [List.mem_singleton.1 ha]
        show "type".utf8ByteSize ≤ 11
        decide
      · simp at ha
    · split_ifs at ha
      · rw [List.mem_singleton.1 ha]
        decide
      · simp at ha
  have hshort : (∀ a ∈ ("name", writtenName nameSpaces md) ::
      (if md.type ≠ "xs:string" then [("type", md.type)] else []) ++
      (if md.preserve then [("preserve", "1")] else []), Short a.2) ↔
      Short (writtenName nameSpaces md) ∧ Short md.type := by
    have h1 : Short "1" := short_of_small (by decide)
    have hx : Short "xs:string" := short_of_small (by decide)
    by_cases ht : md.type = "xs:string" <;> by_cases hp : md.preserve = true <;>
      simp [ht, hp, h1, hx]
  have hfold : (("name", writtenName nameSpaces md) ::
      (if md.type ≠ "xs:string" then [("type", md.type)] else []) ++
      (if md.preserve then [("preserve", "1")] else [])).foldl
        (fun n a => MetaDataNode.onAttribute n a.1 a.2) .create =
      ⟨writtenName nameSpaces md, "", true, md.type⟩ := by
    by_cases ht : md.type = "xs:string" <;> by_cases hp : md.preserve = true <;>
      simp [ht, hp, MetaDataNode.onAttribute, MetaDataNode.create]
  unfold MetaDataElement.parseXML
  rw [bind_eq_ok]
  simp only [foldlM_readAttribute hsmall, hshort, hfold]
  by_cases hv : md.value = ""
  · have h0 : Short "" := short_of_small (by decide)
    simp only [hv, if_true, Except.ok.injEq]
    constructor
    · intro ⟨n, ⟨⟨hn, ht⟩, he⟩, h⟩
      exact ⟨⟨hn, ht, hv ▸ h0⟩, by rw [← h, he]⟩
    · intro ⟨hs, h⟩
      exact ⟨_, ⟨⟨hs.name, hs.type⟩, rfl⟩, h.symm⟩
  · simp only [if_neg hv, nfStrLen_bind, Except.ok.injEq]
    constructor
    · intro ⟨n, ⟨⟨hn, ht⟩, he⟩, hs, h⟩
      refine ⟨⟨hn, ht, hs⟩, ?_⟩
      rw [← h, he]
      simp [MetaDataNode.onText]
    · intro ⟨hs, h⟩
      refine ⟨_, ⟨⟨hs.name, hs.type⟩, rfl⟩, hs.value, ?_⟩
      rw [h]
      simp [MetaDataNode.onText]

/-! ## The elements on the stream -/

section Elements

open NodeReaders ModelDocumentParts

variable {μ κ : Type} (D : ModelDocumentParts μ κ) {K : NodeStack (ReaderNode κ) (ReadModel μ)}
  {f : NodeFrame (ReaderNode κ)} {fs : List (NodeFrame (ReaderNode κ))} {node : MetaDataNode}

/-- The XML reader behind some attributes without a prefix. -/
def readerBehind (r : XmlReader) (attributes : List (String × String)) : XmlReader :=
  attributes.foldl
    (fun r a => r.takeAttribute ⟨.attribName, "", a.1⟩ ⟨.attribValue, "", a.2⟩) r

/-- A metadata node in `parseAttributes`. -/
def metaDataFrame (node : MetaDataNode) : NodeFrame (ReaderNode κ) :=
  ⟨"metadata", by decide, .metaData node, .attributes none⟩

theorem takeAttribute_local (r : XmlReader) (name value : String) :
    (r.takeAttribute ⟨.attribName, "", name⟩ ⟨.attribValue, "", value⟩).getNamespaceURI = some "" ∧
    (r.takeAttribute ⟨.attribName, "", name⟩ ⟨.attribValue, "", value⟩).currentName = name ∧
    (r.takeAttribute ⟨.attribName, "", name⟩ ⟨.attribValue, "", value⟩).currentValue = value ∧
    (r.takeAttribute ⟨.attribName, "", name⟩ ⟨.attribValue, "", value⟩).nameSpaces =
      r.nameSpaces ∧ (name ≠ "xmlns" →
    (r.takeAttribute ⟨.attribName, "", name⟩ ⟨.attribValue, "", value⟩).defaultNameSpace =
      r.defaultNameSpace) := by
  unfold XmlReader.takeAttribute XmlReader.getNamespaceURI
  split_ifs <;> simp_all

/-- The reader has the name spaces of another. -/
def SameNameSpaces (r r' : XmlReader) : Prop :=
  r'.nameSpaces = r.nameSpaces ∧ r'.defaultNameSpace = r.defaultNameSpace

theorem sameNameSpaces_readerBehind (r : XmlReader) {attributes : List (String × String)}
    (hn : ∀ a ∈ attributes, a.1 ≠ "" ∧ a.1 ≠ "xmlns") :
    SameNameSpaces r (readerBehind r attributes) := by
  induction attributes generalizing r with
  | nil => exact ⟨rfl, rfl⟩
  | cons a attributes ih =>
    obtain ⟨ha, hrest⟩ := List.forall_mem_cons.1 hn
    obtain ⟨-, -, -, hspaces, hdefault⟩ := takeAttribute_local r a.1 a.2
    obtain ⟨hspaces', hdefault'⟩ := ih (r.takeAttribute ⟨.attribName, "", a.1⟩
      ⟨.attribValue, "", a.2⟩) hrest
    exact ⟨hspaces'.trans hspaces, hdefault'.trans (hdefault ha.2)⟩

/-- The attributes of a metadata node are read one by one. -/
theorem feed_attributes {attributes : List (String × String)}
    (hn : ∀ a ∈ attributes, a.1 ≠ "" ∧ a.1 ≠ "xmlns")
    (hK : K.frames = metaDataFrame node :: fs) :
    D.nodeReaders.feed K
        ((attributes.map fun a => (⟨"", a.1, a.2⟩ : XmlAttribute)).flatMap XmlAttribute.entities) =
      attributes.foldlM MetaDataNode.readAttribute node >>= fun node =>
        .ok ⟨metaDataFrame node :: fs, K.world, readerBehind K.reader attributes⟩ := by
  induction attributes generalizing K node with
  | nil =>
    obtain ⟨frames, world, reader⟩ := K
    obtain rfl := hK
    rfl
  | cons a attributes ih =>
    obtain ⟨ha, hrest⟩ := List.forall_mem_cons.1 hn
    obtain ⟨hu, hname, hvalue, -⟩ := takeAttribute_local K.reader a.1 a.2
    have hsize : 0 < a.1.utf8ByteSize := by
      rw [Nat.pos_iff_ne_zero]
      exact fun h0 => ha.1 (String.utf8ByteSize_eq_zero_iff.1 h0)
    have hpair : (D.nodeReaders.step K ⟨.attribName, "", a.1⟩ >>= fun K =>
        D.nodeReaders.step K ⟨.attribValue, "", a.2⟩) = node.readAttribute a >>= fun node =>
          .ok ⟨metaDataFrame node :: fs, K.world,
            K.reader.takeAttribute ⟨.attribName, "", a.1⟩ ⟨.attribValue, "", a.2⟩⟩ := by
      simp only [step, hK, metaDataFrame, if_true, bind, Except.bind, attributeTurn, hu, hname,
        hvalue, MetaDataNode.readAttribute]
      cases hl : nfStrLen a.1 with
      | error e => rfl
      | ok n =>
        obtain ⟨-, rfl⟩ := nfStrLen_ok.1 hl
        cases nfStrLen a.2 with
        | error e => rfl
        | ok m =>
          simp only [gt_iff_lt, hsize, if_true]
          rfl
    have hfeed : ∀ es, D.nodeReaders.feed K
        (⟨.attribName, "", a.1⟩ :: ⟨.attribValue, "", a.2⟩ :: es) =
        (D.nodeReaders.step K ⟨.attribName, "", a.1⟩ >>= fun K =>
          D.nodeReaders.step K ⟨.attribValue, "", a.2⟩) >>= fun K => D.nodeReaders.feed K es := by
      intro es
      rw [bind_assoc]
      rfl
    show D.nodeReaders.feed K (⟨.attribName, "", a.1⟩ :: ⟨.attribValue, "", a.2⟩ :: _) = _
    rw [hfeed, hpair, List.foldlM_cons, bind_assoc, bind_assoc]
    congr 1
    funext node'
    exact ih hrest rfl

theorem nfStrLen_metadata : nfStrLen "metadata" = .ok 8 := rfl

/-- The start tag of a `metadata` element opens its node reader. -/
theorem step_metaDataStart (hK : K.frames = f :: fs) (hf : f.phase = .content)
    (hchild : D.nodeOnNSChildElement f.node K.world "metadata" K.reader.defaultNameSpace =
      .ok (f.node, K.world, some (.metaData .create))) :
    D.nodeReaders.step K ⟨.element, "", "metadata"⟩ =
      .ok ⟨metaDataFrame .create :: f :: fs, K.world,
        (K.reader.readEntity ⟨.element, "", "metadata"⟩).2⟩ := by
  rw [step, hK]
  dsimp only
  rw [hf]
  show (nfStrLen "metadata" >>= fun count => _) = _
  rw [nfStrLen_metadata]
  show (D.nodeOnNSChildElement f.node K.world "metadata" K.reader.defaultNameSpace >>= fun x => _) =
    _
  rw [hchild]
  rfl

variable (f fs) in
/-- Its end tag hands what was read to the node reader it is in. -/
theorem contentTurn_metaDataEnd (world : ReadModel μ) (node : MetaDataNode) (reader : XmlReader) :
    D.nodeReaders.contentTurn
        ⟨{ metaDataFrame node with phase := .content } :: f :: fs, world, reader⟩
        { metaDataFrame node with phase := .content } (f :: fs)
        (reader.readEntity ⟨.elementEnd, "", "metadata"⟩) =
      D.nodeAfterChild (reader.readEntity ⟨.elementEnd, "", "metadata"⟩).2 f.node world "metadata"
          (.metaData node) >>= fun parent =>
        .ok ⟨{ f with node := parent.1 } :: fs, parent.2,
          (reader.readEntity ⟨.elementEnd, "", "metadata"⟩).2⟩ := by
  show (nfStrLen "metadata" >>= fun count => _) = _
  rw [nfStrLen_metadata]
  rfl

variable (f fs) in
/-- Its text is read in front of the end tag, where there is one. -/
theorem feed_metaDataEnd (world : ReadModel μ) (reader : XmlReader) (text : String) :
    ∃ reader' : XmlReader, SameNameSpaces reader reader' ∧ ∀ node,
      D.nodeReaders.feed ⟨metaDataFrame node :: f :: fs, world, reader⟩
          ((if text = "" then [] else [⟨.text, "", text⟩]) ++ [⟨.elementEnd, "", "metadata"⟩]) =
        (if text = "" then .ok node else do
          let _ ← nfStrLen text
          .ok (node.onText text)) >>= fun node =>
        D.nodeAfterChild reader' f.node world "metadata" (.metaData node) >>= fun parent =>
          .ok ⟨{ f with node := parent.1 } :: fs, parent.2, reader'⟩ := by
  -- the attributes end in front of the text or the end tag
  let r₂ := { reader with nameSpaceIsAttribute := true }
  let ended : XmlEntity := ⟨.elementEnd, "", "metadata"⟩
  have hsingle : ∀ K', D.nodeReaders.feed K' [ended] = D.nodeReaders.step K' ended := fun K' =>
    bind_pure _
  by_cases ht : text = ""
  · simp only [ht, if_true, List.nil_append]
    refine ⟨(r₂.readEntity ended).2, ⟨rfl, rfl⟩, fun node => ?_⟩
    rw [hsingle]
    exact contentTurn_metaDataEnd D f fs world node r₂
  · let r₃ := (r₂.readEntity ⟨.text, "", text⟩).2
    simp only [ht, if_false]
    refine ⟨(r₃.readEntity ended).2, ⟨rfl, rfl⟩, fun node => ?_⟩
    have htext : D.nodeReaders.step ⟨metaDataFrame node :: f :: fs, world, reader⟩
        ⟨.text, "", text⟩ = nfStrLen text >>= fun _ =>
          .ok ⟨{ metaDataFrame (node.onText text) with phase := .content } :: f :: fs, world,
            r₃⟩ := by
      show (nfStrLen text >>= fun count => _) = _
      cases hl : nfStrLen text with
      | error err => rfl
      | ok n =>
        obtain ⟨-, rfl⟩ := nfStrLen_ok.1 hl
        have hsize : 0 < text.utf8ByteSize :=
          Nat.pos_iff_ne_zero.2 fun h0 => ht (String.utf8ByteSize_eq_zero_iff.1 h0)
        show (if text.utf8ByteSize > 0 then _ else _) = _
        rw [if_pos hsize]
        rfl
    show (D.nodeReaders.step _ _ >>= fun K' => D.nodeReaders.feed K' [ended]) = _
    rw [htext, bind_assoc]
    cases nfStrLen text with
    | error err => rfl
    | ok n =>
      show D.nodeReaders.feed _ [ended] = _
      rw [hsingle]
      exact contentTurn_metaDataEnd D f fs world (node.onText text) r₃

/-- **A `metadata` element on the stream** is read by `MetaDataElement.parseXML`, and handed to the
node reader it is in. -/
theorem feed_metaDataElement {e : MetaDataElement}
    (hn : ∀ a ∈ e.attributes, a.1 ≠ "" ∧ a.1 ≠ "xmlns")
    (hK : K.frames = f :: fs) (hf : f.phase = .content)
    (hchild : D.nodeOnNSChildElement f.node K.world "metadata" K.reader.defaultNameSpace =
      .ok (f.node, K.world, some (.metaData .create))) :
    ∃ reader : XmlReader, SameNameSpaces K.reader reader ∧
      D.nodeReaders.feed K e.content.entities = e.parseXML >>= fun node =>
        D.nodeAfterChild reader f.node K.world "metadata" (.metaData node) >>= fun parent =>
          .ok ⟨{ f with node := parent.1 } :: fs, parent.2, reader⟩ := by
  let started := (K.reader.readEntity ⟨.element, "", "metadata"⟩).2
  obtain ⟨reader, hspaces, hrest⟩ :=
    feed_metaDataEnd D f fs K.world (readerBehind started e.attributes) e.text
  have hbehind : SameNameSpaces started (readerBehind started e.attributes) :=
    sameNameSpaces_readerBehind _ hn
  refine ⟨reader, ⟨hspaces.1.trans hbehind.1, hspaces.2.trans hbehind.2⟩, ?_⟩
  have hentities : e.content.entities = ⟨.element, "", "metadata"⟩ ::
      (e.attributes.map fun a => (⟨"", a.1, a.2⟩ : XmlAttribute)).flatMap XmlAttribute.entities ++
        ((if e.text = "" then [] else [⟨.text, "", e.text⟩]) ++
          [⟨.elementEnd, "", "metadata"⟩]) := by
    simp [MetaDataElement.content, XmlContent.entities]
  rw [hentities, List.cons_append]
  show (D.nodeReaders.step K _ >>= fun K' => D.nodeReaders.feed K' (_ ++ _)) = _
  rw [step_metaDataStart D hK hf hchild]
  show D.nodeReaders.feed _ (_ ++ _) = _
  rw [NodeReaders.feed, List.foldlM_append]
  show (D.nodeReaders.feed _ _ >>= fun K' => D.nodeReaders.feed K' _) = _
  rw [feed_attributes D hn rfl, MetaDataElement.parseXML, bind_assoc, bind_assoc]
  congr 1
  funext node
  exact hrest node

theorem addTo_congr {level : ModelReaderWarningLevel} {r r' : XmlReader} (h : SameNameSpaces r r')
    (group : ModelMetaDataGroup) (node : MetaDataNode) :
    node.addTo level r' group = node.addTo level r group := by
  unfold MetaDataNode.addTo XmlReader.namespaceURI
  rw [h.1]

/-- **The `metadata` elements of a group on the stream** are read one after the other, as
`readMetaData` does. -/
theorem feed_metaDataElements {es : List MetaDataElement} {g : ModelMetaDataGroup}
    (hn : ∀ e ∈ es, ∀ a ∈ e.attributes, a.1 ≠ "" ∧ a.1 ≠ "xmlns") (hK : K.frames = f :: fs)
    (hf : f.phase = .content) (hg : f.node = .metaDataGroup g)
    (hcore : K.reader.defaultNameSpace = xmlns100) :
    ∃ reader : XmlReader, SameNameSpaces K.reader reader ∧
      D.nodeReaders.feed K (es.flatMap fun e => e.content.entities) =
        es.foldlM (readMetaDataElement D.criticalWarningLevel K.reader) g >>= fun g =>
          .ok ⟨{ f with node := .metaDataGroup g } :: fs, K.world, reader⟩ := by
  induction es generalizing K f g with
  | nil =>
    obtain ⟨frames, world, reader⟩ := K
    obtain ⟨name, named, node, phase⟩ := f
    obtain rfl := hK
    obtain rfl := hg
    exact ⟨reader, ⟨rfl, rfl⟩, rfl⟩
  | cons e es ih =>
    obtain ⟨hne, hnes⟩ := List.forall_mem_cons.1 hn
    obtain ⟨r, hr, he⟩ := feed_metaDataElement D hne hK hf (by rw [hg, hcore]; rfl)
    have hread : readMetaDataElement D.criticalWarningLevel r =
        readMetaDataElement D.criticalWarningLevel K.reader := by
      funext g e
      unfold readMetaDataElement
      simp only [addTo_congr hr]
    have hfirst : D.nodeReaders.feed K e.content.entities =
        readMetaDataElement D.criticalWarningLevel K.reader g e >>= fun g =>
          .ok ⟨{ f with node := .metaDataGroup g } :: fs, K.world, r⟩ := by
      rw [he, ← hread, hg]
      unfold readMetaDataElement
      rw [bind_assoc]
      congr 1
      funext node
      show ((node.addTo D.criticalWarningLevel r g >>= fun g => _) >>= _) = _
      rw [bind_assoc]
      rfl
    have hfeed : D.nodeReaders.feed K ((e :: es).flatMap fun e => e.content.entities) =
        D.nodeReaders.feed K e.content.entities >>= fun K' =>
          D.nodeReaders.feed K' (es.flatMap fun e => e.content.entities) := by
      rw [List.flatMap_cons]
      exact List.foldlM_append
    rw [hfeed, hfirst, List.foldlM_cons]
    cases readMetaDataElement D.criticalWarningLevel K.reader g e with
    | error err => exact ⟨r, hr, rfl⟩
    | ok g' =>
      obtain ⟨r', hr', hes⟩ := ih hnes
        (K := ⟨{ f with node := .metaDataGroup g' } :: fs, K.world, r⟩) rfl hf rfl
        (hr.2.trans hcore)
      refine ⟨r', ⟨hr'.1.trans hr.1, hr'.2.trans hr.2⟩, ?_⟩
      show D.nodeReaders.feed _ _ = es.foldlM _ g' >>= _
      rw [hes, hread]
end Elements

/-! ## One group -/

/-- The group with an entry behind the others. -/
def ModelMetaDataGroup.push (g : ModelMetaDataGroup) (md : ModelMetaData)
    (h : g.metaData.length < maxMetaDataCount) : ModelMetaDataGroup :=
  ⟨g.metaData ++ [md], g.keys ++ [md.key], by rw [List.length_append, List.length_singleton]; omega⟩

theorem addMetaData_eq_ok {g g' : ModelMetaDataGroup} {md : ModelMetaData} :
    g.addMetaData md.nameSpace md.name md.value md.type md.preserve = .ok g' ↔
      md.key ∉ g.keys ∧ ∃ h : g.metaData.length < maxMetaDataCount, g' = g.push md h := by
  unfold ModelMetaDataGroup.addMetaData
  by_cases hk : md.key ∈ g.keys
  · have hdup : g.hasMetaData (calculateKey md.nameSpace md.name) = true := decide_eq_true hk
    simp [hdup, hk]
  · have hno : ¬ g.hasMetaData (calculateKey md.nameSpace md.name) = true :=
      fun h => hk (of_decide_eq_true h)
    rw [if_neg hno, if_neg (by simp [md.valid])]
    by_cases hlen : maxMetaDataCount ≤ g.metaData.length
    · rw [dif_pos hlen]
      constructor
      · intro h
        simp at h
      · intro ⟨_, h, _⟩
        omega
    · rw [dif_neg hlen, ModelMetaData.create_self]
      simp only [bind, Except.bind, Except.ok.injEq, ModelMetaDataGroup.push]
      constructor
      · intro h
        exact ⟨hk, Nat.lt_of_not_le hlen, h.symm⟩
      · intro ⟨_, _, h⟩
        exact h.symm

/-- The prefix an entry is written with is resolved to its name space. -/
def Resolved (nameSpaces : XmlNameSpaces) (reader : XmlReader) (md : ModelMetaData) : Prop :=
  md.nameSpace = "" ∨ ∃ i, nameSpaces.find? md.nameSpace = some (customPrefix i) ∧
    reader.namespaceURI (customPrefix i) = some md.nameSpace

theorem warn_ok {e : Error} : addWarning level e .invalidOptionalValue = .ok () ↔ ¬ Strict level := by
  rw [addWarning_eq_ok, Strict, not_le]

/-- The name that is written of an entry is taken apart into the prefix and the name, and the
prefix is resolved. -/
theorem decompose_written {md : ModelMetaData} (hr : Resolved nameSpaces reader md) :
    ∃ p, decomposeKeyIntoNamespaceAndName (writtenName nameSpaces md) = (p, md.name) ∧
      writtenName nameSpaces md ≠ "" ∧
      (p = "" ∧ md.nameSpace = "" ∧ isValidNamespaceAndName "" md.name = true ∨
        p ≠ "" ∧ reader.namespaceURI p = some md.nameSpace) := by
  have hvalid := md.valid
  by_cases he : md.nameSpace = ""
  · rw [isValidNamespaceAndName, if_pos he, decide_eq_true_eq] at hvalid
    rw [writtenName, if_pos he]
    refine ⟨"", decompose_value hvalid, ?_, .inl ⟨rfl, he, ?_⟩⟩
    · intro h0
      rw [h0] at hvalid
      exact absurd hvalid (by decide)
    · rw [isValidNamespaceAndName, if_pos rfl]
      exact decide_eq_true hvalid
  · obtain ⟨i, hf, hu⟩ := hr.resolve_left he
    have hne : customPrefix i ≠ "" := (customPrefix_ne i (by decide)).symm
    have hw : writtenName nameSpaces md = customPrefix i ++ ":" ++ md.name := by
      rw [writtenName, if_neg he, hf, Option.getD_some, calculateKey, if_neg hne]
    rw [hw]
    refine ⟨customPrefix i, decompose_prefixed md.name (colon_not_mem_customPrefix i), ?_,
      .inr ⟨hne, hu⟩⟩
    intro h0
    have hl := congrArg String.utf8ByteSize h0
    have hs := customPrefix_size i
    simp only [String.utf8ByteSize_append] at hl
    have : "".utf8ByteSize = 0 := rfl
    omega

/-- What the reader adds for such an entry. -/
theorem addTo_written {g g' : ModelMetaDataGroup} {md : ModelMetaData}
    (hr : Resolved nameSpaces reader md) :
    MetaDataNode.addTo level reader g ⟨writtenName nameSpaces md, md.value, true, md.type⟩ = .ok g' ↔
      (writtenName nameSpaces md ∈ g.keys → ¬ Strict level) ∧
        g.addMetaData md.nameSpace md.name md.value md.type true = .ok g' := by
  obtain ⟨p, hdec, hne, hp⟩ := decompose_written hr
  unfold MetaDataNode.addTo
  simp only [if_pos hne, hdec]
  have hwarn : (addWarning level .duplicateMetaData .invalidOptionalValue >>= fun _ =>
      g.addMetaData md.nameSpace md.name md.value md.type true) = .ok g' ↔
      ¬ Strict level ∧ g.addMetaData md.nameSpace md.name md.value md.type true = .ok g' := by
    rw [bind_eq_ok]
    constructor
    · intro ⟨_, hw, h⟩
      exact ⟨warn_ok.1 hw, h⟩
    · intro ⟨hs, h⟩
      exact ⟨(), warn_ok.2 hs, h⟩
  have hmem : g.hasMetaData (writtenName nameSpaces md) = true ↔ writtenName nameSpaces md ∈ g.keys :=
    decide_eq_true_iff
  rcases hp with ⟨rfl, he, hv⟩ | ⟨hp, hu⟩
  · simp only [ne_eq, not_true_eq_false, if_false, hv, if_true]
    rw [← he]
    by_cases hk : writtenName nameSpaces md ∈ g.keys
    · simp only [if_pos (hmem.2 hk), hk, forall_const]
      exact hwarn
    · simp only [if_neg fun h => hk (hmem.1 h), hk, false_imp_iff, true_and]
  · simp only [if_pos hp, hu]
    by_cases hk : writtenName nameSpaces md ∈ g.keys
    · simp only [if_pos (hmem.2 hk), hk, forall_const]
      exact hwarn
    · simp only [if_neg fun h => hk (hmem.1 h), hk, false_imp_iff, true_and]

/-- One entry that was written is read behind the others. -/
theorem readMetaDataElement_written {g g' : ModelMetaDataGroup} {md : ModelMetaData}
    {e : MetaDataElement} (hr : Resolved nameSpaces reader md)
    (h : writeMetaData nameSpaces md = .ok e) (hl : g.metaData.length < maxMetaDataCount) :
    readMetaDataElement level reader g e = .ok g' ↔
      (ShortEntry nameSpaces md ∧ (writtenName nameSpaces md ∈ g.keys → ¬ Strict level) ∧
        md.key ∉ g.keys) ∧ g' = g.push md.preserved hl := by
  have hadd : g.addMetaData md.nameSpace md.name md.value md.type true = .ok g' ↔
      md.key ∉ g.keys ∧ g' = g.push md.preserved hl := by
    rw [show true = md.preserved.preserve from rfl]
    rw [show md.key = md.preserved.key from rfl]
    have hpush : g.addMetaData md.preserved.nameSpace md.preserved.name md.preserved.value
        md.preserved.type md.preserved.preserve = .ok g' ↔ _ := addMetaData_eq_ok
    apply hpush.trans
    exact and_congr_right fun _ => ⟨fun ⟨_, hg⟩ => hg, fun hg => ⟨hl, hg⟩⟩
  unfold readMetaDataElement
  rw [bind_eq_ok]
  constructor
  · intro ⟨node, hp, hn⟩
    obtain ⟨hs, rfl⟩ := (parseXML_written h).1 hp
    obtain ⟨hw, ha⟩ := (addTo_written hr).1 hn
    obtain ⟨hk, hg⟩ := hadd.1 ha
    exact ⟨⟨hs, hw, hk⟩, hg⟩
  · intro ⟨⟨hs, hw, hk⟩, hg⟩
    exact ⟨_, (parseXML_written h).2 ⟨hs, rfl⟩, (addTo_written hr).2 ⟨hw, hadd.2 ⟨hk, hg⟩⟩⟩

/-- The entries of a list can be told apart when they are read one after another. -/
def Apart (level : ModelReaderWarningLevel) (nameSpaces : XmlNameSpaces)
    (mds : List ModelMetaData) : Prop :=
  mds.Pairwise fun md md' =>
    md'.key ≠ md.key ∧ (Strict level → writtenName nameSpaces md' ≠ md.key)

/-- The entries that were written are read behind those of the group. -/
theorem foldlM_readMetaDataElement {g g' : ModelMetaDataGroup} {mds : List ModelMetaData}
    {es : List MetaDataElement} (hr : ∀ md ∈ mds, Resolved nameSpaces reader md)
    (h : List.Forall₂ (fun md e => writeMetaData nameSpaces md = .ok e) mds es)
    (hl : g.metaData.length + mds.length ≤ maxMetaDataCount) :
    es.foldlM (readMetaDataElement level reader) g = .ok g' ↔
      ((∀ md ∈ mds, ShortEntry nameSpaces md) ∧
        (∀ md ∈ mds, (writtenName nameSpaces md ∈ g.keys → ¬ Strict level) ∧ md.key ∉ g.keys) ∧
        Apart level nameSpaces mds) ∧
      g'.metaData = g.metaData ++ mds.map ModelMetaData.preserved ∧
      g'.keys = g.keys ++ mds.map ModelMetaData.key := by
  induction h generalizing g with
  | nil =>
    obtain ⟨l, ks, _⟩ := g
    obtain ⟨l', ks', _⟩ := g'
    simp [Apart, pure, Except.pure, eq_comm]
  | @cons md e mds es he h ih =>
    have hlt : g.metaData.length < maxMetaDataCount := by
      simp only [List.length_cons] at hl
      omega
    have hlen : (g.push md.preserved hlt).metaData.length + mds.length ≤ maxMetaDataCount := by
      simp only [List.length_cons] at hl
      simp only [ModelMetaDataGroup.push, List.length_append, List.length_singleton]
      omega
    have hkeys : ∀ k, k ∈ (g.push md.preserved hlt).keys ↔ k ∈ g.keys ∨ k = md.key := by
      intro k
      simp [ModelMetaDataGroup.push]
    have hdata : (g.push md.preserved hlt).metaData ++ mds.map ModelMetaData.preserved =
        g.metaData ++ (md :: mds).map ModelMetaData.preserved := by
      simp [ModelMetaDataGroup.push]
    have hks : (g.push md.preserved hlt).keys ++ mds.map ModelMetaData.key =
        g.keys ++ (md :: mds).map ModelMetaData.key := by
      simp [ModelMetaDataGroup.push]
    have hrest := ih (fun md' hm => hr md' (List.mem_cons_of_mem _ hm)) hlen
    rw [hdata, hks] at hrest
    rw [List.foldlM_cons, bind_eq_ok]
    simp only [readMetaDataElement_written (hr md List.mem_cons_self) he hlt, Apart,
      List.pairwise_cons, List.forall_mem_cons]
    constructor
    · intro ⟨g₁, ⟨⟨hs, hw, hk⟩, hg₁⟩, hf⟩
      rw [hg₁] at hf
      obtain ⟨⟨hshort, hnew, hapart⟩, heq⟩ := hrest.1 hf
      refine ⟨⟨⟨hs, hshort⟩, ⟨⟨hw, hk⟩, fun md' hm => ⟨fun hin => ?_, fun hin => ?_⟩⟩,
        fun md' hm => ⟨fun hke => ?_, fun hst hke => ?_⟩, hapart⟩, heq⟩
      · exact (hnew md' hm).1 ((hkeys _).2 (.inl hin))
      · exact (hnew md' hm).2 ((hkeys _).2 (.inl hin))
      · exact (hnew md' hm).2 ((hkeys _).2 (.inr hke))
      · exact (hnew md' hm).1 ((hkeys _).2 (.inr hke)) hst
    · intro ⟨⟨⟨hs, hshort⟩, ⟨⟨hw, hk⟩, hnew⟩, hfirst, hapart⟩, heq⟩
      refine ⟨_, ⟨⟨hs, hw, hk⟩, rfl⟩, hrest.2 ⟨⟨hshort, fun md' hm => ?_, hapart⟩, heq⟩⟩
      constructor
      · intro hin hst
        rcases (hkeys _).1 hin with hin | hin
        · exact (hnew md' hm).1 hin hst
        · exact (hfirst md' hm).2 hst hin
      · intro hin
        rcases (hkeys _).1 hin with hin | hin
        · exact (hnew md' hm).2 hin
        · exact (hfirst md' hm).1 hin

/-- The entries of a group are read as they were. -/
structure KeepsEntries (level : ModelReaderWarningLevel) (nameSpaces : XmlNameSpaces)
    (mds : List ModelMetaData) : Prop where
  preserved : ∀ md ∈ mds, md.preserve = true
  apart : Apart level nameSpaces mds

theorem map_preserved_eq_self {mds : List ModelMetaData} :
    mds.map ModelMetaData.preserved = mds ↔ ∀ md ∈ mds, md.preserve = true := by
  induction mds with
  | nil => simp
  | cons md mds ih =>
    rw [List.map_cons, List.cons.injEq, ih, List.forall_mem_cons, ModelMetaData.preserved_eq_self]

/-- The `metadata` elements of a group are read into a group. -/
theorem readMetaData_ok {group g' : ModelMetaDataGroup} {es : List MetaDataElement}
    (hr : ∀ md ∈ group.metaData, Resolved nameSpaces reader md)
    (hs : ∀ md ∈ group.metaData, ShortEntry nameSpaces md)
    (h : group.metaData.mapM (writeMetaData nameSpaces) = .ok es) :
    readMetaData level reader es = .ok g' ↔ Apart level nameSpaces group.metaData ∧
      g'.metaData = group.metaData.map ModelMetaData.preserved ∧
      g'.keys = group.metaData.map ModelMetaData.key := by
  have hl : ModelMetaDataGroup.empty.metaData.length + group.metaData.length ≤ maxMetaDataCount := by
    rw [show ModelMetaDataGroup.empty.metaData.length = 0 from rfl, Nat.zero_add]
    exact group.bounded
  rw [readMetaData, foldlM_readMetaDataElement hr (mapM_eq_ok.1 h) hl, and_iff_right hs]
  simp [ModelMetaDataGroup.empty]

variable (level) in
/-- **The metadata of the model is read as it was where it `KeepsEntries`.** -/
theorem readMetaData_written {group : ModelMetaDataGroup} {es : List MetaDataElement}
    (hr : ∀ md ∈ group.metaData, Resolved nameSpaces reader md)
    (hs : ∀ md ∈ group.metaData, ShortEntry nameSpaces md)
    (h : group.metaData.mapM (writeMetaData nameSpaces) = .ok es) :
    (∃ g', readMetaData level reader es = .ok g' ∧ g'.metaData = group.metaData) ↔
      KeepsEntries level nameSpaces group.metaData := by
  constructor
  · intro ⟨g', hg, he⟩
    obtain ⟨ha, hd, -⟩ := (readMetaData_ok hr hs h).1 hg
    exact ⟨map_preserved_eq_self.1 (hd.symm.trans he), ha⟩
  · intro hk
    have hd := map_preserved_eq_self.2 hk.preserved
    refine ⟨⟨group.metaData, group.metaData.map ModelMetaData.key, group.bounded⟩, ?_, rfl⟩
    rw [readMetaData_ok hr hs h]
    exact ⟨hk.apart, hd.symm, rfl⟩

/-- A group with distinct keys is merged into one that has none of them. -/
theorem mergeMetaData_ok {g : ModelMetaDataGroup} {mds : List ModelMetaData}
    (hl : g.metaData.length + mds.length ≤ maxMetaDataCount) (hnew : ∀ md ∈ mds, md.key ∉ g.keys)
    (hd : mds.Pairwise fun md md' => md'.key ≠ md.key) :
    ∃ g', mds.foldlM (fun (g : ModelMetaDataGroup) md =>
        g.addMetaData md.nameSpace md.name md.value md.type md.preserve) g = .ok g' ∧
      g'.metaData = g.metaData ++ mds := by
  induction mds generalizing g with
  | nil => exact ⟨g, rfl, (List.append_nil _).symm⟩
  | cons md mds ih =>
    rw [List.length_cons] at hl
    rw [List.pairwise_cons] at hd
    have hlt : g.metaData.length < maxMetaDataCount := by omega
    have hadd := addMetaData_eq_ok.2 ⟨hnew md List.mem_cons_self, hlt, rfl⟩
    obtain ⟨g', hg, he⟩ := @ih (g.push md hlt)
      (by simp only [ModelMetaDataGroup.push, List.length_append, List.length_singleton]; omega)
      (fun md' hm hin => by
        rcases List.mem_append.1 hin with hin | hin
        · exact hnew md' (List.mem_cons_of_mem _ hm) hin
        · exact hd.1 md' hm (List.mem_singleton.1 hin)) hd.2
    refine ⟨g', ?_, ?_⟩
    · rw [List.foldlM_cons, bind_eq_ok]
      exact ⟨_, hadd, hg⟩
    · rw [he]
      simp [ModelMetaDataGroup.push]

variable (level) in
/-- **The metadata of an object or a build item is read as it was where it `KeepsEntries`.** -/
theorem readMetaDataGroup_written {group : ModelMetaDataGroup}
    {es : Option (List MetaDataElement)}
    (hr : ∀ md ∈ group.metaData, Resolved nameSpaces reader md)
    (hs : ∀ md ∈ group.metaData, ShortEntry nameSpaces md)
    (h : writeMetaDataGroup nameSpaces group = .ok es) :
    (∃ g', readMetaDataGroup level reader es = .ok g' ∧ g'.metaData = group.metaData) ↔
      KeepsEntries level nameSpaces group.metaData := by
  unfold writeMetaDataGroup at h
  split_ifs at h with he
  · obtain rfl := Except.ok.inj h
    rw [he]
    constructor
    · intro _
      exact ⟨by simp, List.Pairwise.nil⟩
    · intro _
      exact ⟨.empty, rfl, rfl⟩
  · obtain ⟨elements, hes, h⟩ := bind_eq_ok.1 h
    obtain rfl := Except.ok.inj h
    have hread : ∀ g', readMetaDataGroup level reader (some elements) = .ok g' ↔
        ∃ g, readMetaData level reader elements = .ok g ∧
          ModelMetaDataGroup.empty.mergeMetaData g = .ok g' := fun _ => bind_eq_ok
    have hmerge : ∀ g, readMetaData level reader elements = .ok g →
        ∃ g', ModelMetaDataGroup.empty.mergeMetaData g = .ok g' ∧ g'.metaData = g.metaData := by
      intro g hg
      obtain ⟨hapart, hd, -⟩ := (readMetaData_ok hr hs hes).1 hg
      apply mergeMetaData_ok
      · rw [show ModelMetaDataGroup.empty.metaData.length = 0 from rfl, Nat.zero_add]
        exact g.bounded
      · intro md _ hin
        simp [ModelMetaDataGroup.empty] at hin
      · rw [hd, List.pairwise_map]
        exact hapart.imp fun hk => hk.1
    rw [← readMetaData_written level hr hs hes]
    constructor
    · intro ⟨g', hg', he⟩
      obtain ⟨g, hg, hm⟩ := (hread g').1 hg'
      obtain ⟨g₁, hm₁, he₁⟩ := hmerge g hg
      rw [hm₁, Except.ok.injEq] at hm
      rw [hm] at he₁
      exact ⟨g, hg, he₁.symm.trans he⟩
    · intro ⟨g, hg, he⟩
      obtain ⟨g', hm, he'⟩ := hmerge g hg
      exact ⟨g', (hread g').2 ⟨g, hg, hm⟩, he'.trans he⟩

/-! ## The metadata of a model -/

namespace MetaDataOwners

/-- The metadata that was read is that of the model. -/
structure SameMetaData (m : MetaDataOwners) (r : ReadMetaData) : Prop where
  model : r.model.metaData = m.model.metaData
  objects : List.Forall₂ (fun g g' => ModelMetaDataGroup.metaData g' = g.metaData)
    m.sortedObjects r.objects
  buildItems : List.Forall₂ (fun g g' => ModelMetaDataGroup.metaData g' = g.metaData)
    m.buildItems r.buildItems

/-- The metadata is preserved: each name space has one prefix, which is no other's and no
extension's, and is resolved to it when the document is read; and the lists of entries are read as
they were. -/
structure RoundTrips (m : MetaDataOwners) (level : ModelReaderWarningLevel)
    (nameSpaces : XmlNameSpaces) (doc : MetaDataDocument) : Prop where
  registered : ∀ md ∈ m.all, md.nameSpace ≠ "" → ∃ p, nameSpaces.find? md.nameSpace = some p
  injective : ∀ u u' p, nameSpaces.find? u = some p → nameSpaces.find? u' = some p → u = u'
  distinct : ∀ u p, nameSpaces.find? u = some p → ∀ e ∈ extensionPrefixes, e.1 ≠ p
  resolved : ∀ reader, readNameSpaces doc.attributes = .ok reader →
    ∀ u p, nameSpaces.find? u = some p → reader.namespaceURI p = some u
  same : ∃ r, doc.read level = .ok r ∧ m.SameMetaData r

/-- Every list of entries `KeepsEntries`. -/
def Survives (m : MetaDataOwners) (level : ModelReaderWarningLevel) (nameSpaces : XmlNameSpaces) :
    Prop :=
  ∀ g ∈ m.model :: m.objects ++ m.buildItems, KeepsEntries level nameSpaces g.metaData

theorem mem_all {m : MetaDataOwners} {g : ModelMetaDataGroup} {md : ModelMetaData}
    (hg : g ∈ m.model :: m.objects ++ m.buildItems) (hm : md ∈ g.metaData) : md ∈ m.all :=
  List.mem_flatMap.2 ⟨g, hg, hm⟩

/-- Reading the document, once the name spaces are read. -/
theorem read_eq_ok {level : ModelReaderWarningLevel} {doc : MetaDataDocument} {r : ReadMetaData} :
    doc.read level = .ok r ↔ ∃ reader, readNameSpaces doc.attributes = .ok reader ∧
      readMetaData level reader doc.metaData = .ok r.model ∧
      doc.objects.mapM (readMetaDataGroup level reader) = .ok r.objects ∧
      doc.buildItems.mapM (readMetaDataGroup level reader) = .ok r.buildItems := by
  unfold MetaDataDocument.read
  simp only [bind_eq_ok, Except.ok.injEq]
  constructor
  · rintro ⟨reader, hr, model, hm, objects, ho, buildItems, hb, he⟩
    rw [← he]
    exact ⟨reader, hr, hm, ho, hb⟩
  · rintro ⟨reader, hr, hm, ho, hb⟩
    exact ⟨reader, hr, _, hm, _, ho, _, hb, rfl⟩

/-- The texts of a group that is written in a document that fits the buffer. -/
theorem shortEntries_of_group {nameSpaces : XmlNameSpaces} {doc : MetaDataDocument} {others : Nat}
    (hfits : doc.FitsBuffer others) {group : ModelMetaDataGroup}
    {es : Option (List MetaDataElement)}
    (hes : es ∈ doc.objects ++ doc.buildItems) (h : writeMetaDataGroup nameSpaces group = .ok es) :
    ∀ md ∈ group.metaData, ShortEntry nameSpaces md := by
  intro md hmem
  unfold writeMetaDataGroup at h
  split_ifs at h with he
  · rw [he] at hmem
    exact absurd hmem List.not_mem_nil
  · obtain ⟨elements, hw, h⟩ := bind_eq_ok.1 h
    obtain rfl := Except.ok.inj h
    obtain ⟨e, heq⟩ := exists_ok_of_mapM hw hmem
    have hin : e ∈ doc.elements :=
      List.mem_append_right _ (List.mem_flatMap.2 ⟨_, hes, mem_of_mapM hw hmem heq⟩)
    obtain ⟨ha, ht⟩ := hfits.short.2 e hin
    exact .of_written heq ha ht

/-- A model with one entry. -/
def oneEntry (md : ModelMetaData) : MetaDataOwners where
  model := ⟨[md], [md.key], by show 1 ≤ maxMetaDataCount; decide⟩
  objects := []
  sortedObjects := []
  sorted := .nil
  buildItems := []

/-- A title, which may not be preserved. -/
def title (preserve : Bool) : ModelMetaData :=
  ⟨"", "Title", "Part", "xs:string", preserve, by decide, by decide⟩

/-- An entry with a custom name space. -/
def custom : ModelMetaData := ⟨"urn:custom", "Batch", "7", "xs:int", true, by decide, by decide⟩

/-- A writer without extensions. -/
def noExtensions : ModelWriterFlags := ⟨false, false, false, false, false, false⟩

end MetaDataOwners

end NMR
