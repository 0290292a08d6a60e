import Lib3MF.Lib.Run
import Lib3MF.Common.SpaceDelimited
import Lib3MF.Common.Platform.Proof.XmlWriter
import Lib3MF.Model.Classes.ToolpathLayerWriteData

/-!
# The phases of a toolpath layer

A layer is in its header, writes data, or is finished, and what the XML writer has written is the
start of a document with one layer (`Sound`). Every call keeps that (`step_sound`) where a binary
stream that is assigned takes the points (`StreamTakes`); a finished one throws when the segment is
open already (`writeSegment_streamFinished`). `layer_lawful` is about runs.
-/

namespace NMR

open Lib

namespace ToolpathLayerWriteData

open XmlWriter XmlElement OpenElement

variable {nl before nsPrefix name list item : List UInt8} {w : XmlWriter} {e : OpenElement}
  {es : List OpenElement} {s s' : ToolpathLayerWriteData}

/-! ## Numbers and UUIDs in attributes -/

theorem fits_of_length {v : List UInt8} (h : v.length ≤ 1000) : XmlWriter.Fits v := by
  have hle := length_escapeXMLString_le v
  unfold XmlWriter.Fits nativeXMLMaxStringLength
  omega

theorem fits_unsignedText {n : Nat} (h : n < 4294967296) : XmlWriter.Fits (unsignedText n) := by
  have hlen : (toString (n : Int)).toList.length ≤ 11 := length_toString_le (by omega) (by omega)
  apply fits_of_length
  rw [unsignedText, xmlText, xmlBytes, List.length_map]
  exact Nat.le_trans hlen (by omega)

theorem fits_signedText (n : BitVec 32) : XmlWriter.Fits (signedText n) := by
  have hl := BitVec.le_toInt n
  have hu := BitVec.toInt_lt (x := n)
  have hlen := length_toString_le (i := n.toInt) (by omega) (by omega)
  apply fits_of_length
  rw [signedText, xmlText, xmlBytes, List.length_map]
  omega

/-- A UUID has 36 characters at most. -/
theorem fits_uuid (u : UUIDText) : XmlWriter.Fits (xmlText u.text) := by
  obtain ⟨text, digits, h⟩ := u
  unfold UUID.set at h
  simp only at h
  split_ifs at h
  obtain rfl := Except.ok.inj h
  apply fits_of_length
  simp only [xmlText, xmlBytes, String.toList_ofList, List.length_map, List.length_append,
    List.length_cons, List.length_take]
  omega

/-! ## Elements -/

/-- **An element with attributes.** -/
theorem writes_element {attributes : List (List UInt8 × List UInt8)}
    (h : Writes nl w before (e :: es)) (hdepth : es.length + 2 < 2 ^ 32)
    (hp : (nsPrefix ++ xmlText ":").length ≤ nativeXMLMaxStringLength)
    (hn : name.length ≤ nativeXMLMaxStringLength)
    (ha : ∀ a ∈ attributes, a.1.length ≤ nativeXMLMaxStringLength ∧ XmlWriter.Fits a.2) :
    Succeeds (writeElement nsPrefix name attributes) w fun w' => Writes nl w' before
      (e.add (.mk (nodeName nsPrefix name) (attributes.map fun a => (nodeName nsPrefix a.1, a.2))
        false []) :: es) := by
  have hp' : nsPrefix.length ≤ nativeXMLMaxStringLength := by
    rw [List.length_append] at hp
    omega
  unfold writeElement
  apply Succeeds.bind (writes_startElement h hdepth hp hn (Nat.zero_le _) rfl)
  intro _ w hw
  apply Succeeds.bind (Succeeds.forM (fun done w => Writes nl w before
    (⟨nodeName nsPrefix name, done.map fun a => (nodeName nsPrefix a.1, a.2), []⟩ :: e :: es))
    (fun done a t hmem ht => ?_) hw)
  · intro _ w hw
    exact writes_endElement hw rfl
  · have hwrite := writes_attribute ht rfl hp' (ha a hmem).1 (ha a hmem).2
    rw [List.map_append]
    exact hwrite

/-- The element of the parts or of the profiles. -/
def registeredElement (list item : List UInt8) (entries : List (Fin UInt32.size × UUIDText)) :
    XmlElement :=
  .mk list [] true (entries.map fun e =>
    .mk item [(xmlText "id", unsignedText e.1.val), (xmlText "uuid", xmlText e.2.text)] false [])

/-- **The parts or the profiles.** -/
theorem writes_registered {entries : List (Fin UInt32.size × UUIDText)}
    (h : Writes nl w before (e :: es)) (hdepth : es.length + 3 < 2 ^ 32)
    (hl : list.length ≤ nativeXMLMaxStringLength) (hi : item.length ≤ nativeXMLMaxStringLength) :
    Succeeds (writeRegistered list item entries) w fun w' => Writes nl w' before
      (e.add (registeredElement list item entries) :: es) := by
  unfold writeRegistered
  have hdepth2 : (e :: es).length + 1 < 2 ^ 32 := by
    rw [List.length_cons]
    omega
  apply Succeeds.bind (writes_startElement h (by omega) (by decide) hl (Nat.zero_le _) rfl)
  intro _ w hw
  apply Succeeds.bind (Succeeds.forM (fun done w => Writes nl w before
    (⟨list, [], done.map fun e => .mk item
      [(xmlText "id", unsignedText e.1.val), (xmlText "uuid", xmlText e.2.text)] false []⟩ ::
        e :: es)) (fun done a t _ ht => ?_) hw)
  · intro _ w hw
    exact writes_fullEndElement hw hl
  · have ha : ∀ b ∈ [(xmlText "id", unsignedText a.1.val), (xmlText "uuid", xmlText a.2.text)],
        b.1.length ≤ nativeXMLMaxStringLength ∧ XmlWriter.Fits b.2 := by
      intro b hb
      simp only [List.mem_cons, List.not_mem_nil, or_false] at hb
      rcases hb with rfl | rfl
      · exact ⟨by show (xmlText "id").length ≤ _; decide, fits_unsignedText a.1.isLt⟩
      · exact ⟨by show (xmlText "uuid").length ≤ _; decide, fits_uuid a.2⟩
    have hp : ([] ++ xmlText ":").length ≤ nativeXMLMaxStringLength := by decide
    have hwrite := writes_element ht (by rw [List.length_cons]; omega) hp hi ha
    rw [List.map_append]
    exact hwrite

/-- **The start tag of a segment.** -/
theorem writes_startSegment {type : List UInt8} (h : Writes nl w before (e :: es))
    (hdepth : es.length + 2 < 2 ^ 32) (ht : XmlWriter.Fits type) (profileID partID : UInt32) :
    Succeeds (startSegment type profileID partID) w fun w' => Writes nl w' before
      (⟨xmlText "segment", [(xmlText "type", type),
        (xmlText "profileid", unsignedText profileID.toNat),
        (xmlText "partid", unsignedText partID.toNat)], []⟩ :: e :: es) := by
  have hp : ([] ++ xmlText ":").length ≤ nativeXMLMaxStringLength := by decide
  unfold startSegment
  apply Succeeds.bind (writes_startElement h hdepth hp (by decide) (Nat.zero_le _) rfl)
  intro _ w hw
  apply Succeeds.bind (writes_attribute hw rfl (Nat.zero_le _) (by decide) ht)
  intro _ w hw
  apply Succeeds.bind (writes_attribute hw rfl (Nat.zero_le _) (by decide)
    (fits_unsignedText profileID.toNat_lt))
  intro _ w hw
  exact writes_attribute hw rfl (Nat.zero_le _) (by decide) (fits_unsignedText partID.toNat_lt)

/-! ## Segments -/

/-- An element without a layer or segments element in it. -/
def Plain (e : XmlElement) : Prop :=
  count (xmlText "layer") e = 0 ∧ count (xmlText "segments") e = 0

theorem plain_mk {attributes : List (List UInt8 × List UInt8)} {full : Bool}
    {content : List XmlElement} (hn : name ≠ xmlText "layer" ∧ name ≠ xmlText "segments")
    (hc : ∀ c ∈ content, Plain c) : Plain (.mk name attributes full content) := by
  unfold Plain
  rw [count, count, if_neg hn.1, if_neg hn.2, countAll_eq_zero fun c h => (hc c h).1,
    countAll_eq_zero fun c h => (hc c h).2]
  exact ⟨rfl, rfl⟩

theorem xml_succeeds {x : XmlWriterM Unit} {q : XmlWriter → Prop}
    (h : Succeeds x s.xmlWriter q) :
    Succeeds (xml x) s fun s' => ∃ w, s' = { s with xmlWriter := w } ∧ q w := by
  obtain ⟨_, w, hx, hq⟩ := h
  refine @Succeeds.of_ok _ _ _ _ s { s with xmlWriter := w } () _ ?_ ⟨w, rfl, hq⟩
  unfold xml
  rw [hx]

/-- The stream takes arrays of `count` numbers. -/
def StreamTakes (s : ToolpathLayerWriteData) (count : Nat) : Prop :=
  ∀ path stream, s.binaryStream = some (path, stream) → stream.isFinished = false ∧ 0 < count

variable {lzma : Lzma} {uninit : Nat → BitVec 32}

/-- The stream takes an array that is not empty, and stays open. -/
theorem addIntArray_ok {stream : ChunkedBinaryStreamWriter} {data : List (BitVec 32)}
    (hf : stream.isFinished = false) (hd : data ≠ []) (p : ChunkedBinaryPredictionType) :
    ∃ stream' key, stream.addIntArray lzma uninit data p = .ok (stream', key) ∧
      stream'.isFinished = false := by
  have hlen : ¬ data.length = 0 := fun h => hd (List.length_eq_zero_iff.1 h)
  have hfirst : ∃ stream' c, stream.beginFirstChunk lzma uninit = .ok stream' ∧
      stream'.currentChunk = some c ∧ stream'.isFinished = false := by
    unfold ChunkedBinaryStreamWriter.beginFirstChunk ChunkedBinaryStreamWriter.beginChunk
      ChunkedBinaryStreamWriter.finishOpenChunk
    cases hc : stream.currentChunk with
    | some c => exact ⟨stream, c, rfl, hc, hf⟩
    | none =>
      refine ⟨{ stream with
        currentChunk := some ⟨0, 0, 0, 0, uninit stream.chunks.length, 0⟩
        currentChunkEntries := []
        currentChunkData := [] }, _, ?_, rfl, hf⟩
      simp only [Option.isNone_none, if_true, hf, Bool.false_eq_true, if_false, Option.isSome_none,
        bind, Except.bind, pure, Except.pure]
  obtain ⟨stream', c, h1, hc, hf'⟩ := hfirst
  refine ⟨(stream'.pushEntry c (ChunkedBinaryStreamWriter.intEntryType p) (data.length * 4)
    (ChunkedBinaryStreamWriter.intWords p data)).1, stream'.elementIDCounter, ?_, hf'⟩
  unfold ChunkedBinaryStreamWriter.addIntArray
  simp only [hf, Bool.false_eq_true, if_false, if_neg hlen, h1, bind, Except.bind, hc, pure,
    Except.pure]
  rfl

theorem addIntArrays_ok {path : List UInt8} {stream : ChunkedBinaryStreamWriter}
    {arrays : List (List (BitVec 32))} (hs : s.binaryStream = some (path, stream))
    (hf : stream.isFinished = false) (ha : ∀ data ∈ arrays, data ≠ []) :
    ∃ keys stream', addIntArrays lzma uninit arrays s =
      .ok keys { s with binaryStream := some (path, stream') } := by
  induction arrays generalizing s stream with
  | nil => exact ⟨[], stream, by rw [← hs]; rfl⟩
  | cons data arrays ih =>
    obtain ⟨stream', key, h, hf'⟩ :=
      @addIntArray_ok lzma uninit stream data hf (ha data List.mem_cons_self) .deltaPrediction
    have hadd : addIntArray lzma uninit data s =
        .ok key { s with binaryStream := some (path, stream') } := by
      unfold addIntArray
      rw [hs]
      dsimp only
      rw [h]
    obtain ⟨keys, stream'', hk⟩ := @ih { s with binaryStream := some (path, stream') } stream' rfl hf'
      fun d hd => ha d (List.mem_cons_of_mem _ hd)
    refine ⟨key :: keys, stream'', ?_⟩
    unfold addIntArrays
    rw [bind_of_ok hadd, bind_of_ok hk]
    rfl

/-- The attributes of points are short. -/
theorem fits_zip {names values : List (List UInt8)}
    (hn : ∀ n ∈ names, n.length ≤ nativeXMLMaxStringLength) (hv : ∀ v ∈ values, XmlWriter.Fits v) :
    ∀ a ∈ names.zip values, a.1.length ≤ nativeXMLMaxStringLength ∧ XmlWriter.Fits a.2 := by
  intro a ha
  obtain ⟨h1, h2⟩ := List.of_mem_zip (show (a.1, a.2) ∈ names.zip values from ha)
  exact ⟨hn _ h1, hv _ h2⟩

/-- **The points of a segment** become plain elements in it. -/
theorem writes_points {names keys : List (List UInt8)} {count : Nat}
    {arrays : List (Fin count → BitVec 32)} (h : Writes nl s.xmlWriter before (e :: es))
    (hdepth : es.length + 2 < 2 ^ 32) (hstream : StreamTakes s count)
    (hname : name.length ≤ nativeXMLMaxStringLength)
    (hnames : ∀ n ∈ names, n.length ≤ nativeXMLMaxStringLength)
    (hkeys : ∀ n ∈ keys, n.length ≤ nativeXMLMaxStringLength)
    (hplain : ∀ attributes, Plain (.mk (nodeName [] name) attributes false []) ∧
      Plain (.mk (nodeName (xmlText "z") name) attributes false [])) :
    Succeeds (writePoints lzma uninit name names keys arrays) s fun s' => ∃ w stream cs,
      s' = { s with xmlWriter := w, binaryStream := stream } ∧
        Writes nl w before ({ e with content := e.content ++ cs } :: es) ∧ ∀ c ∈ cs, Plain c := by
  unfold writePoints
  show Succeeds (if s.binaryStream.isSome = true then _ else _) s _
  cases hb : s.binaryStream with
  | none =>
    rw [if_neg nofun]
    refine (Succeeds.forM (fun _ s' => ∃ w cs, s' = { s with xmlWriter := w } ∧
      Writes nl w before ({ e with content := e.content ++ cs } :: es) ∧ ∀ c ∈ cs, Plain c)
      (fun done i t _ ht => ?_) ⟨s.xmlWriter, [], rfl, by rw [List.append_nil]; exact h,
        nofun⟩).mono fun t ht => ?_
    · obtain ⟨w, cs, rfl, hw, hcs⟩ := ht
      have hp : ([] ++ xmlText ":").length ≤ nativeXMLMaxStringLength := by decide
      have hv : ∀ v ∈ arrays.map fun a => signedText (a i), XmlWriter.Fits v := by
        intro v hv
        obtain ⟨a, -, rfl⟩ := List.mem_map.1 hv
        exact fits_signedText _
      refine (xml_succeeds (writes_element hw hdepth hp hname (fits_zip hnames hv))).mono ?_
      rintro _ ⟨w', rfl, hw'⟩
      refine ⟨w', cs ++ [_], rfl, by rw [← List.append_assoc]; exact hw', ?_⟩
      intro c hc
      rcases List.mem_append.1 hc with hc | hc
      · exact hcs c hc
      · rw [List.mem_singleton.1 hc]
        exact (hplain _).1
    · obtain ⟨w, cs, rfl, hw, hcs⟩ := ht
      exact ⟨w, none, cs, by rw [← hb], hw, hcs⟩
  | some x =>
    obtain ⟨path, stream⟩ := x
    rw [Option.isSome_some, if_pos rfl]
    obtain ⟨hf, hcount⟩ := hstream path stream hb
    have hne : ∀ data ∈ arrays.map List.ofFn, data ≠ [] := by
      intro data hd
      obtain ⟨a, -, rfl⟩ := List.mem_map.1 hd
      intro h0
      have hlen := congrArg List.length h0
      rw [List.length_ofFn, List.length_nil] at hlen
      omega
    obtain ⟨ids, stream', hids⟩ := @addIntArrays_ok s lzma uninit path stream _ hb hf hne
    apply Succeeds.bind (.of_ok hids rfl)
    rintro ids _ rfl
    have hp : (xmlText "z" ++ xmlText ":").length ≤ nativeXMLMaxStringLength := by decide
    have hv : ∀ v ∈ ids.map fun id => unsignedText id.toNat, XmlWriter.Fits v := by
      intro v hv
      obtain ⟨id, -, rfl⟩ := List.mem_map.1 hv
      exact fits_unsignedText id.isLt
    refine (xml_succeeds (s := { s with binaryStream := some (path, stream') })
      (writes_element h hdepth hp hname (fits_zip hkeys hv))).mono ?_
    rintro _ ⟨w', rfl, hw'⟩
    refine ⟨w', _, [_], rfl, hw', ?_⟩
    intro c hc
    rw [List.mem_singleton.1 hc]
    exact (hplain _).2

/-! ## Phases -/

end ToolpathLayerWriteData

/-- The phases of a layer. -/
inductive LayerPhase where
  | header | data | finished
  deriving DecidableEq

/-- Their order. -/
def LayerPhase.rank : LayerPhase → Nat
  | .header => 0
  | .data => 1
  | .finished => 2

namespace ToolpathLayerWriteData

open XmlWriter XmlElement OpenElement

variable {nl before nsPrefix name list item : List UInt8} {w : XmlWriter} {e : OpenElement}
  {es : List OpenElement} {s s' : ToolpathLayerWriteData} {lzma : Lzma} {uninit : Nat → BitVec 32}

/-- The phase the flags stand for, where exactly one of them is set. -/
def phase (s : ToolpathLayerWriteData) : Option LayerPhase :=
  match s.writingHeader, s.writingData, s.writingFinished with
  | true, false, false => some .header
  | false, true, false => some .data
  | false, false, true => some .finished
  | _, _, _ => none

/-- The attributes of the layer element. -/
def layerAttributes : List (List UInt8 × List UInt8) :=
  [(xmlText "xmlns", xmlText toolpathSpec), (xmlText "xmlns:z", xmlText zCompression)]

/-- The attributes of the segments element. -/
def segmentsAttributes (s : ToolpathLayerWriteData) : List (List UInt8 × List UInt8) :=
  if s.binaryStream.isSome then [(xmlText "z:binary", s.binaryPath)] else []

/-- What the header has in front of the segments. -/
def headerContent (s : ToolpathLayerWriteData) : List XmlElement :=
  [registeredElement (xmlText "parts") (xmlText "part") s.partEntries,
    registeredElement (xmlText "profiles") (xmlText "profile") s.profiles.entries]

/-- What is in front of the layer element. -/
def documentStart (nl : List UInt8) : List UInt8 := nativeXMLEncoding ++ nl

/-- The open elements of the header. -/
def layerTag : OpenElement := ⟨xmlText "layer", layerAttributes, []⟩

/-- The layer is in its header. -/
structure InHeader (nl : List UInt8) (s : ToolpathLayerWriteData) : Prop where
  header : s.writingHeader = true
  data : s.writingData = false
  finished : s.writingFinished = false
  writes : Writes nl s.xmlWriter (documentStart nl) [layerTag]
  attachments : s.additionalAttachments = []

/-- The layer writes data. -/
structure InData (nl : List UInt8) (s : ToolpathLayerWriteData) (content : List XmlElement)
    (attributes : List (List UInt8 × List UInt8)) (segments : List XmlElement) : Prop where
  header : s.writingHeader = false
  data : s.writingData = true
  finished : s.writingFinished = false
  writes : Writes nl s.xmlWriter (documentStart nl)
    [⟨xmlText "segments", attributes, segments⟩, ⟨xmlText "layer", layerAttributes, content⟩]
  content : ∀ c ∈ content, Plain c
  segments : ∀ c ∈ segments, Plain c
  attachments : s.additionalAttachments = []

/-- A balanced document with one layer element, which has one segments element. -/
def IsLayerDocument (nl bytes : List UInt8) : Prop :=
  ∃ root : XmlElement, bytes = documentStart nl ++ root.render nl 0 ∧
    root.name = xmlText "layer" ∧ (∃ c ∈ root.content, c.name = xmlText "segments") ∧
    count (xmlText "layer") root = 1 ∧ count (xmlText "segments") root = 1

/-- The layer is finished, and its document has been added. -/
structure InFinished (nl : List UInt8) (s : ToolpathLayerWriteData) : Prop where
  header : s.writingHeader = false
  data : s.writingData = false
  finished : s.writingFinished = true
  attachments : ∃ document, IsLayerDocument nl document ∧
    s.additionalAttachments = [(s.packagePath, document, packageToolpathRelationshipType)]

/-- What holds between the calls. -/
inductive Sound (nl : List UInt8) (s : ToolpathLayerWriteData) : Prop where
  | header (h : InHeader nl s)
  | data (content : List XmlElement) (attributes : List (List UInt8 × List UInt8))
      (segments : List XmlElement) (h : InData nl s content attributes segments)
  | finished (h : InFinished nl s)

/-- The path of the binary stream is short enough for an attribute. -/
def HeaderFits (s : ToolpathLayerWriteData) : Prop :=
  s.writingHeader = true → s.binaryStream.isSome = true → XmlWriter.Fits s.binaryPath

/-! ## The header -/

theorem plain_registered {entries : List (Fin UInt32.size × UUIDText)}
    (hl : list ≠ xmlText "layer" ∧ list ≠ xmlText "segments")
    (hi : item ≠ xmlText "layer" ∧ item ≠ xmlText "segments") :
    Plain (registeredElement list item entries) := by
  refine plain_mk hl fun c hc => ?_
  obtain ⟨a, -, rfl⟩ := List.mem_map.1 hc
  exact plain_mk hi nofun

theorem plain_headerContent (s : ToolpathLayerWriteData) : ∀ c ∈ s.headerContent, Plain c := by
  intro c hc
  simp only [headerContent, List.mem_cons, List.not_mem_nil, or_false] at hc
  rcases hc with rfl | rfl
  · exact plain_registered (by decide) (by decide)
  · exact plain_registered (by decide) (by decide)

/-- **The constructor** starts the header. -/
theorem inHeader_create (nl packagePath : List UInt8) (objectUUIDs : Nat → UUIDText) :
    InHeader nl (create nl packagePath objectUUIDs) := by
  have hstart : Succeeds startLayer (XmlWriter.create nl) fun w =>
      Writes nl w (documentStart nl) [layerTag] := by
    unfold startLayer writeStartDocument
    have h0 : Succeeds (writeUTF8 nativeXMLEncoding true) (XmlWriter.create nl) fun w =>
        Writes nl w (documentStart nl) [] :=
      .of_ok (writeUTF8_line (by decide))
        ⟨rfl, (List.append_nil (documentStart nl)).symm, rfl, rfl, rfl, rfl⟩
    apply Succeeds.bind h0
    intro _ w hw
    apply Succeeds.bind (writes_startElement hw (by decide) (by decide) (by decide) (by decide)
      (by decide))
    intro _ w hw
    exact writes_attribute hw rfl (by decide) (by decide) (fits_of_length (by decide))
  obtain ⟨_, w, h, hw⟩ := hstart
  refine ⟨rfl, rfl, rfl, ?_, rfl⟩
  show Writes nl (finalState (startLayer (XmlWriter.create nl))) _ _
  rw [h]
  exact hw

/-- **`finishHeader`** writes the parts and the profiles and opens the segments. -/
theorem finishHeader_succeeds (h : InHeader nl s) (hfits : HeaderFits s) :
    Succeeds finishHeader s fun s' => ∃ w,
      s' = { s with xmlWriter := w, writingHeader := false, writingData := true } ∧
        Writes nl w (documentStart nl) [⟨xmlText "segments", s.segmentsAttributes, []⟩,
          ⟨xmlText "layer", layerAttributes, s.headerContent⟩] := by
  have hp : ([] ++ xmlText ":").length ≤ nativeXMLMaxStringLength := by decide
  unfold finishHeader
  refine .get_bind (.require_bind h.header (.modify_bind ?_))
  apply Succeeds.bind (xml_succeeds (s := { s with writingHeader := false })
    (writes_registered h.writes (by decide) (by decide) (by decide)))
  rintro _ _ ⟨w, rfl, hw⟩
  apply Succeeds.bind (xml_succeeds (s := { s with writingHeader := false, xmlWriter := w })
    (writes_registered hw (by decide) (by decide) (by decide)))
  rintro _ _ ⟨w, rfl, hw⟩
  apply Succeeds.bind (xml_succeeds (s := { s with writingHeader := false, xmlWriter := w })
    (writes_startElement hw (by simp) hp (by decide) (Nat.zero_le _) rfl))
  rintro _ _ ⟨w, rfl, hw⟩
  have hattribute : Succeeds (doIf s.binaryStream.isSome
      (xml (writeAttributeString (xmlText "z") (xmlText "binary") s.binaryPath)))
      { s with writingHeader := false, xmlWriter := w } fun s' => ∃ w',
        s' = { s with writingHeader := false, xmlWriter := w' } ∧
          Writes nl w' (documentStart nl) [⟨xmlText "segments", s.segmentsAttributes, []⟩,
            ⟨xmlText "layer", layerAttributes, s.headerContent⟩] := by
    unfold segmentsAttributes
    by_cases hb : s.binaryStream.isSome = true
    · rw [doIf, if_pos hb, if_pos hb]
      refine (xml_succeeds (s := { s with writingHeader := false, xmlWriter := w })
        (writes_attribute hw rfl (by decide) (by decide) (hfits h.header hb))).mono ?_
      rintro _ ⟨w', rfl, hw'⟩
      exact ⟨w', rfl, hw'⟩
    · rw [if_neg hb]
      exact .of_ok (doIf_of_neg hb _ _) ⟨w, rfl, hw⟩
  apply Succeeds.bind hattribute
  rintro _ _ ⟨w, rfl, hw⟩
  exact .of_ok rfl ⟨w, rfl, hw⟩

/-- **Data is written** from the header on. -/
theorem beginData_header (h : InHeader nl s) (hfits : HeaderFits s) :
    Succeeds beginData s fun s' =>
      InData nl s' s.headerContent s.segmentsAttributes [] ∧
        ∃ w, s' = { s with xmlWriter := w, writingHeader := false, writingData := true } := by
  unfold beginData
  show Succeeds (doIf _ _ >>= _) s _
  rw [doIf, if_pos h.header]
  apply Succeeds.bind (finishHeader_succeeds h hfits)
  rintro _ _ ⟨w, rfl, hw⟩
  refine ⟨(), { s with xmlWriter := w, writingHeader := false, writingData := true }, rfl, ?_⟩
  exact ⟨⟨rfl, rfl, h.finished, hw, plain_headerContent s, by simp, h.attachments⟩, w, rfl⟩

theorem beginData_data (hh : s.writingHeader = false) (hd : s.writingData = true) :
    beginData s = .ok () s := by
  unfold beginData
  rw [get_bind, doIf_bind_of_neg (by simp [hh]), get_bind, require_of_pos hd]

theorem beginData_finished (hh : s.writingHeader = false) (hd : s.writingData = false) :
    beginData s = .error .toolpathNotWritingData s := by
  unfold beginData
  rw [get_bind, doIf_bind_of_neg (by simp [hh]), get_bind, require_of_neg (by simp [hd])]

/-- What a layer that is not finished has written before more data. -/
theorem beginData_succeeds (h : Sound nl s) (hf : s.writingFinished = false)
    (hfits : HeaderFits s) : Succeeds beginData s fun s' =>
      (∃ content attributes segments, InData nl s' content attributes segments) ∧
        s'.binaryStream = s.binaryStream := by
  cases h with
  | header h =>
    refine (beginData_header h hfits).mono ?_
    rintro _ ⟨hd, w, rfl⟩
    exact ⟨⟨_, _, _, hd⟩, rfl⟩
  | data content attributes segments h =>
    exact .of_ok (beginData_data h.header h.data) ⟨⟨_, _, _, h⟩, rfl⟩
  | finished h => exact absurd (h.finished.symm.trans hf) nofun

/-- **A segment is written** as a plain element. -/
theorem writeSegment_succeeds {type : List UInt8} {names keys : List (List UInt8)} {count : Nat}
    {arrays : List (Fin count → BitVec 32)} {profileID partID : UInt32} (h : Sound nl s)
    (hf : s.writingFinished = false) (hfits : HeaderFits s) (hstream : StreamTakes s count)
    (htype : type.length ≤ 1000) (hname : name.length ≤ nativeXMLMaxStringLength)
    (hnames : ∀ n ∈ names, n.length ≤ nativeXMLMaxStringLength)
    (hkeys : ∀ n ∈ keys, n.length ≤ nativeXMLMaxStringLength)
    (hplain : ∀ attributes, Plain (.mk (nodeName [] name) attributes false []) ∧
      Plain (.mk (nodeName (xmlText "z") name) attributes false [])) :
    Succeeds (writeSegment lzma uninit type profileID partID name names keys arrays) s fun s' =>
      ∃ content attributes segments, InData nl s' content attributes segments := by
  have hsegment : (xmlText "segment").length ≤ nativeXMLMaxStringLength := by decide
  unfold writeSegment
  apply Succeeds.bind (beginData_succeeds h hf hfits)
  rintro _ s₁ ⟨⟨content, attributes, segments, h₁⟩, hb⟩
  apply Succeeds.bind (xml_succeeds (writes_startSegment h₁.writes (by simp)
    (fits_of_length htype) profileID partID))
  rintro _ _ ⟨w, rfl, hw⟩
  have hstream₁ : StreamTakes { s₁ with xmlWriter := w } count := by
    intro path stream hs
    exact hstream path stream (hb.symm.trans hs)
  apply Succeeds.bind (writes_points (s := { s₁ with xmlWriter := w }) hw (by simp) hstream₁
    hname hnames hkeys hplain)
  rintro _ _ ⟨w, stream, cs, rfl, hw, hcs⟩
  refine (xml_succeeds (s := { s₁ with xmlWriter := w, binaryStream := stream })
    (writes_fullEndElement hw hsegment)).mono ?_
  rintro _ ⟨w, rfl, hw⟩
  refine ⟨content, attributes, segments ++ [_], h₁.header, h₁.data, h₁.finished, hw, h₁.content,
    ?_, h₁.attachments⟩
  intro c hc
  rcases List.mem_append.1 hc with hc | hc
  · exact h₁.segments c hc
  · rw [List.mem_singleton.1 hc]
    exact plain_mk (show xmlText "segment" ≠ _ ∧ xmlText "segment" ≠ _ by decide) hcs

/-! ## The end of the document -/

/-- The layer element closed. -/
def layerElement (content : List XmlElement) (attributes : List (List UInt8 × List UInt8))
    (segments : List XmlElement) : XmlElement :=
  .mk (xmlText "layer") layerAttributes true
    (content ++ [.mk (xmlText "segments") attributes true segments])

/-- The document that is finished in a state. -/
def finishedDocument (s : ToolpathLayerWriteData) : List UInt8 :=
  let nl := s.xmlWriter.lineEnding
  if s.writingHeader then
    documentStart nl ++ (layerElement s.headerContent s.segmentsAttributes []).render nl 0
  else
    s.xmlWriter.output ++ (if s.xmlWriter.elementIsOpen then xmlText ">" else [nativeXMLSpacing]) ++
      renderEnd (xmlText "segments") nl ++ renderEnd (xmlText "layer") nl

theorem isLayerDocument_layerElement (nl : List UInt8) {content segments : List XmlElement}
    {attributes : List (List UInt8 × List UInt8)} (hc : ∀ c ∈ content, Plain c)
    (hs : ∀ c ∈ segments, Plain c) :
    IsLayerDocument nl (documentStart nl ++ (layerElement content attributes segments).render nl 0) := by
  refine ⟨_, rfl, rfl, ⟨.mk (xmlText "segments") attributes true segments, ?_, rfl⟩, ?_, ?_⟩
  · show _ ∈ content ++ [_]
    simp
  · rw [layerElement, count, if_pos rfl, countAll_append, countAll_eq_zero fun c h => (hc c h).1,
      countAll, count, if_neg (by decide), countAll_eq_zero fun c h => (hs c h).1]
    rfl
  · rw [layerElement, count, if_neg (by decide), countAll_append,
      countAll_eq_zero fun c h => (hc c h).2, countAll, count, if_pos rfl,
      countAll_eq_zero fun c h => (hs c h).2]
    rfl

/-- What the end tags complete. -/
theorem finishedDocument_data {content segments : List XmlElement}
    {attributes : List (List UInt8 × List UInt8)} (h : InData nl s content attributes segments) :
    s.finishedDocument =
      documentStart nl ++ (layerElement content attributes segments).render nl 0 := by
  have hsegments := renderOpen_end nl ⟨xmlText "segments", attributes, segments⟩
    [⟨xmlText "layer", layerAttributes, content⟩]
  have hlayer := renderOpen_end nl ((⟨xmlText "layer", layerAttributes, content⟩ : OpenElement).add
    (.mk (xmlText "segments") attributes true segments)) []
  have hclosed : tagIsOpen [(⟨xmlText "layer", layerAttributes, content⟩ : OpenElement).add
      (.mk (xmlText "segments") attributes true segments)] = false := by
    simp [tagIsOpen, add]
  rw [hclosed, renderOpen_add] at hlayer
  have hlayer : renderOuter nl [⟨xmlText "layer", layerAttributes, content⟩] ++
      (XmlElement.mk (xmlText "segments") attributes true segments).render nl 1 ++
        renderEnd (xmlText "layer") nl = (layerElement content attributes segments).render nl 0 := by
    rw [← List.append_nil (renderOuter nl _ ++ _)]
    exact hlayer
  unfold finishedDocument
  dsimp only
  rw [h.header, if_neg Bool.false_ne_true, h.writes.output, h.writes.elementIsOpen, h.writes.lineEnding,
    ← hlayer, List.append_assoc (documentStart nl), List.append_assoc (documentStart nl),
    List.append_assoc (documentStart nl)]
  exact congrArg (fun x => documentStart nl ++ (x ++ renderEnd (xmlText "layer") nl)) hsegments

/-- **`createStream`** of a layer that writes data. -/
theorem createStream_data {content segments : List XmlElement}
    {attributes : List (List UInt8 × List UInt8)} (h : InData nl s content attributes segments)
    (hlen : s.finishedDocument.length ≤ importStreamMaxMemStreamSize) :
    ∃ w, createStream s = .ok s.finishedDocument
      { s with xmlWriter := w, writingData := false, writingFinished := true } := by
  obtain ⟨_, w₁, h₁, hw₁⟩ := writes_fullEndElement h.writes
    (show (xmlText "segments").length ≤ _ by decide)
  obtain ⟨_, w₂, h₂, hw₂⟩ := writes_lastEndElement hw₁
    (show (xmlText "layer").length ≤ _ by decide)
  refine ⟨w₂, ?_⟩
  have hout : w₂.output = s.finishedDocument := by
    rw [hw₂.output, finishedDocument_data h]
    exact List.append_nil _
  have hx₁ : xml writeFullEndElement { s with writingData := false, writingFinished := true } =
      .ok () { s with writingData := false, writingFinished := true, xmlWriter := w₁ } := by
    unfold xml
    rw [h₁]
  have hx₂ : xml writeFullEndElement
      { s with writingData := false, writingFinished := true, xmlWriter := w₁ } =
        .ok () { s with writingData := false, writingFinished := true, xmlWriter := w₂ } := by
    unfold xml
    rw [h₂]
  have hstream : importStreamSharedMemory w₂.output = .ok s.finishedDocument := by
    rw [hout, importStreamSharedMemory, if_neg (Nat.not_lt.2 hlen)]
  unfold createStream
  rw [bind_of_ok (beginData_data h.header h.data), get_bind]
  show (require (s.writingFinished = false) _ >>= _) { s with writingData := false } = _
  rw [require_bind h.finished, modify_bind, bind_of_ok hx₁, bind_of_ok hx₂, get_bind]
  dsimp only
  rw [hstream]
  rfl

/-- **`finishWriting`** adds the document. -/
theorem finishWriting_succeeds (h : Sound nl s) (hf : s.writingFinished = false)
    (hfits : HeaderFits s) (hlen : s.finishedDocument.length ≤ importStreamMaxMemStreamSize) :
    Succeeds finishWriting s (InFinished nl) := by
  -- the document does not depend on where the header ends
  have hbegin : ∃ s₁ content attributes segments, beginData s = .ok () s₁ ∧
      InData nl s₁ content attributes segments ∧ s₁.finishedDocument = s.finishedDocument := by
    cases h with
    | header h =>
      obtain ⟨_, s₁, h₁, hd, w, rfl⟩ := beginData_header h hfits
      refine ⟨_, _, _, _, h₁, hd, ?_⟩
      rw [finishedDocument_data hd, finishedDocument, if_pos h.header, h.writes.lineEnding]
    | data content attributes segments h =>
      exact ⟨s, content, attributes, segments, beginData_data h.header h.data, h, rfl⟩
    | finished h => exact absurd (h.finished.symm.trans hf) nofun
  obtain ⟨s₁, content, attributes, segments, hb, hd, hdoc⟩ := hbegin
  obtain ⟨w, hc⟩ := createStream_data hd (by rw [hdoc]; exact hlen)
  have hcreate : createStream s = .ok s₁.finishedDocument
      { s₁ with xmlWriter := w, writingData := false, writingFinished := true } := by
    rw [← hc]
    unfold createStream
    rw [bind_of_ok hb, bind_of_ok (beginData_data hd.header hd.data)]
  unfold finishWriting
  show Succeeds (doIf _ _) s _
  rw [doIf, if_pos hf]
  refine .of_ok ((bind_of_ok hcreate).trans rfl)
    ⟨hd.header, rfl, rfl, s₁.finishedDocument, ?_, ?_⟩
  · rw [finishedDocument_data hd]
    exact isLayerDocument_layerElement nl hd.content hd.segments
  · show s₁.additionalAttachments ++ _ = _
    rw [hd.attachments]
    rfl

/-! ## The calls -/

variable (lzma uninit)

/-- The number of points of a call that writes a segment and passes its checks for null. -/
def pointCount : LayerDataCall → Option UInt32
  | .writeHatchData _ _ count (some _) (some _) (some _) (some _) => some count
  | .writeLoop _ _ count (some _) (some _) => some count
  | .writePolyline _ _ count (some _) (some _) => some count
  | _ => none

/-- A binary stream that is assigned takes the points of the call, and its path and the document
have a length that the writers take. -/
def Allowed (s : ToolpathLayerWriteData) (c : LayerDataCall) : Prop :=
  s.writingFinished = false →
    (∀ count, pointCount c = some count → HeaderFits s ∧ StreamTakes s count.toNat) ∧
    (c = .finishWriting →
      HeaderFits s ∧ s.finishedDocument.length ≤ importStreamMaxMemStreamSize)

/-- The call succeeds. -/
def Returns (s : ToolpathLayerWriteData) (c : LayerDataCall) : Prop :=
  ∃ s', call lzma uninit c s = .ok () s'

/-- A call that registers a profile or a part. -/
def Registers : LayerDataCall → Prop
  | .registerProfile _ | .registerPart _ => True
  | _ => False

/-- A call that writes a segment. -/
def WritesSegment : LayerDataCall → Prop
  | .writeHatchData .. | .writeLoop .. | .writePolyline .. => True
  | _ => False

/-- What a call does: the phase never goes back, registrations succeed in the header only and
segments are not written when the layer is finished, what throws leaves the open elements as they
are, and `finishWriting` finishes. -/
structure Lawful (s : ToolpathLayerWriteData) (c : LayerDataCall) : Prop where
  forward : ∀ p p', s.phase = some p → (next lzma uninit s c).phase = some p' → p.rank ≤ p'.rank
  registers : Registers c → Returns lzma uninit s c → s.phase = some .header
  writes : WritesSegment c → Returns lzma uninit s c → s.phase ≠ some .finished
  throws : ¬ Returns lzma uninit s c →
    (next lzma uninit s c).xmlWriter.nodeStack = s.xmlWriter.nodeStack
  finishes : c = .finishWriting →
    Returns lzma uninit s c ∧ (next lzma uninit s c).phase = some .finished

/-- What holds in every state: there is one phase, and the layer has added its document, which is
balanced, when it is finished. -/
structure Consistent (nl : List UInt8) (s : ToolpathLayerWriteData) : Prop where
  phase : ∃ p, s.phase = some p
  unfinished : s.phase ≠ some .finished → s.additionalAttachments = []
  finished : s.phase = some .finished → ∃ document, IsLayerDocument nl document ∧
    s.additionalAttachments = [(s.packagePath, document, packageToolpathRelationshipType)]

theorem InHeader.phase (h : InHeader nl s) : s.phase = some .header := by
  unfold ToolpathLayerWriteData.phase
  rw [h.header, h.data, h.finished]

theorem InData.phase {content segments : List XmlElement}
    {attributes : List (List UInt8 × List UInt8)} (h : InData nl s content attributes segments) :
    s.phase = some .data := by
  unfold ToolpathLayerWriteData.phase
  rw [h.header, h.data, h.finished]

theorem InFinished.phase (h : InFinished nl s) : s.phase = some .finished := by
  unfold ToolpathLayerWriteData.phase
  rw [h.header, h.data, h.finished]

/-- **A sound state is consistent.** -/
theorem Sound.consistent (h : Sound nl s) : Consistent nl s := by
  cases h with
  | header h =>
    exact ⟨⟨_, h.phase⟩, fun _ => h.attachments, fun hp => absurd (h.phase.symm.trans hp) nofun⟩
  | data content attributes segments h =>
    exact ⟨⟨_, h.phase⟩, fun _ => h.attachments, fun hp => absurd (h.phase.symm.trans hp) nofun⟩
  | finished h => exact ⟨⟨_, h.phase⟩, fun hp => absurd h.phase hp, fun _ => h.attachments⟩

theorem Sound.unfinished (h : Sound nl s) (hf : s.writingFinished = false) :
    s.phase ≠ some .finished := by
  cases h with
  | header h =>
    rw [h.phase]
    nofun
  | data content attributes segments h =>
    rw [h.phase]
    nofun
  | finished h => exact absurd (h.finished.symm.trans hf) nofun

variable {lzma uninit} {c : LayerDataCall}

/-- **A call that throws at once.** -/
theorem step_throws {e : Error} (h : Sound nl s) (hcall : call lzma uninit c s = .error e s)
    (hc : c ≠ .finishWriting) : Lawful lzma uninit s c ∧ Sound nl (next lzma uninit s c) := by
  have hnext : next lzma uninit s c = s := by
    unfold next
    rw [hcall]
    rfl
  have hret : ¬ Returns lzma uninit s c := by
    rintro ⟨s', hs'⟩
    exact absurd (hcall.symm.trans hs') nofun
  refine ⟨⟨fun p p' hp hp' => ?_, fun _ hr => absurd hr hret, fun _ hr => absurd hr hret,
    fun _ => by rw [hnext], fun hf => absurd hf hc⟩, by rw [hnext]; exact h⟩
  rw [hnext, hp] at hp'
  cases hp'
  exact Nat.le_refl _

/-- A call that returns and leaves the phase, or takes it forward. -/
theorem lawful_of_returns (h : call lzma uninit c s = .ok () s')
    (hp : ∀ p p', s.phase = some p → s'.phase = some p' → p.rank ≤ p'.rank)
    (hr : Registers c → s.phase = some .header) (hw : WritesSegment c → s.phase ≠ some .finished)
    (hf : c = .finishWriting → s'.phase = some .finished) :
    Lawful lzma uninit s c ∧ next lzma uninit s c = s' := by
  have hnext : next lzma uninit s c = s' := by
    unfold next
    rw [h]
    rfl
  refine ⟨⟨?_, fun hc _ => hr hc, fun hc _ => hw hc, fun hn => absurd ⟨s', h⟩ hn, fun hc => ?_⟩,
    hnext⟩
  · rw [hnext]
    exact hp
  · rw [hnext]
    exact ⟨⟨s', h⟩, hf hc⟩

theorem rank_refl_of_phase (h : s'.phase = s.phase) :
    ∀ p p', s.phase = some p → s'.phase = some p' → p.rank ≤ p'.rank := by
  intro p p' hp hp'
  rw [h, hp] at hp'
  cases hp'
  exact Nat.le_refl _

/-- **Registrations.** -/
theorem step_register {f : ToolpathLayerWriteData → ToolpathLayerWriteData} (h : Sound nl s)
    (hcall : call lzma uninit c s =
      if s.writingHeader then .ok () (f s) else .error .toolpathNotWritingHeader s)
    (hf : InHeader nl s → InHeader nl (f s)) (hw : ¬ WritesSegment c) (hc : c ≠ .finishWriting) :
    Lawful lzma uninit s c ∧ Sound nl (next lzma uninit s c) := by
  by_cases hh : s.writingHeader = true
  · rw [if_pos hh] at hcall
    cases h with
    | header h =>
      obtain ⟨hl, hn⟩ := lawful_of_returns hcall
        (rank_refl_of_phase ((hf h).phase.trans h.phase.symm)) (fun _ => h.phase)
        (fun hc => absurd hc hw) (fun h => absurd h hc)
      exact ⟨hl, by rw [hn]; exact .header (hf h)⟩
    | data content attributes segments h => exact absurd (hh.symm.trans h.header) nofun
    | finished h => exact absurd (hh.symm.trans h.header) nofun
  · rw [if_neg hh] at hcall
    exact step_throws h hcall hc

/-- **Segments.** -/
theorem step_segment {type : List UInt8} {names keys : List (List UInt8)} {count : UInt32}
    {arrays : List (Fin count.toNat → BitVec 32)} {profileID partID : UInt32} (h : Sound nl s)
    (ha : Allowed s c) (hcount : pointCount c = some count)
    (hcall : call lzma uninit c =
      writeSegment lzma uninit type profileID partID name names keys arrays)
    (htype : type.length ≤ 1000) (hname : name.length ≤ nativeXMLMaxStringLength)
    (hnames : ∀ n ∈ names, n.length ≤ nativeXMLMaxStringLength)
    (hkeys : ∀ n ∈ keys, n.length ≤ nativeXMLMaxStringLength)
    (hplain : ∀ attributes, Plain (.mk (nodeName [] name) attributes false []) ∧
      Plain (.mk (nodeName (xmlText "z") name) attributes false []))
    (hr : ¬ Registers c) (hc : c ≠ .finishWriting) :
    Lawful lzma uninit s c ∧ Sound nl (next lzma uninit s c) := by
  by_cases hf : s.writingFinished = true
  · cases h with
    | header h => exact absurd (hf.symm.trans h.finished) nofun
    | data content attributes segments h => exact absurd (hf.symm.trans h.finished) nofun
    | finished h =>
      have hthrow : call lzma uninit c s = .error .toolpathNotWritingData s := by
        rw [hcall]
        exact bind_of_error (beginData_finished h.header h.data)
      exact step_throws (.finished h) hthrow hc
  · have hf : s.writingFinished = false := Bool.eq_false_iff.2 hf
    obtain ⟨hfits, hstream⟩ := (ha hf).1 count hcount
    have hok : Succeeds (call lzma uninit c) s fun s' =>
        ∃ content attributes segments, InData nl s' content attributes segments := by
      rw [hcall]
      exact writeSegment_succeeds h hf hfits hstream htype hname hnames hkeys hplain
    obtain ⟨_, s', hs', content, attributes, segments, hd⟩ := hok
    have hrank : ∀ p p', s.phase = some p → s'.phase = some p' → p.rank ≤ p'.rank := by
      intro p p' hp hp'
      rw [hd.phase] at hp'
      cases hp'
      have hne := h.unfinished hf
      rw [hp] at hne
      cases p with
      | header => exact Nat.zero_le _
      | data => exact Nat.le_refl _
      | finished => exact absurd rfl hne
    obtain ⟨hl, hn⟩ := lawful_of_returns hs' hrank (fun h => absurd h hr)
      (fun _ => h.unfinished hf) (fun h => absurd h hc)
    exact ⟨hl, by rw [hn]; exact .data content attributes segments hd⟩

/-- **`finishWriting`.** -/
theorem step_finishWriting (h : Sound nl s) (ha : Allowed s .finishWriting) :
    Lawful lzma uninit s .finishWriting ∧ Sound nl (next lzma uninit s .finishWriting) := by
  have hok : Succeeds (call lzma uninit .finishWriting) s (InFinished nl) := by
    by_cases hf : s.writingFinished = true
    · cases h with
      | header h => exact absurd (hf.symm.trans h.finished) nofun
      | data content attributes segments h => exact absurd (hf.symm.trans h.finished) nofun
      | finished h =>
        refine @Succeeds.of_ok _ _ _ _ s s () _ ?_ h
        show (doIf (s.writingFinished = false) _) s = _
        rw [doIf_of_neg (by simp [hf])]
    · have hf : s.writingFinished = false := Bool.eq_false_iff.2 hf
      obtain ⟨hfits, hlen⟩ := (ha hf).2 rfl
      exact finishWriting_succeeds h hf hfits hlen
  obtain ⟨_, s', hs', hfin⟩ := hok
  have hrank : ∀ p p', s.phase = some p → s'.phase = some p' → p.rank ≤ p'.rank := by
    intro p p' _ hp'
    rw [hfin.phase] at hp'
    cases hp'
    cases p <;> decide
  obtain ⟨hl, hn⟩ := lawful_of_returns hs' hrank nofun nofun fun _ => hfin.phase
  exact ⟨hl, by rw [hn]; exact .finished hfin⟩

/-- **What others do** is not part of the document. -/
theorem step_others (h : Sound nl s) (binaryStream : Option (List UInt8 × ChunkedBinaryStreamWriter))
    (objectUUIDs : Nat → UUIDText) :
    Lawful lzma uninit s (.others binaryStream objectUUIDs) ∧
      Sound nl (next lzma uninit s (.others binaryStream objectUUIDs)) := by
  obtain ⟨hl, hn⟩ := @lawful_of_returns s _ lzma uninit (.others binaryStream objectUUIDs) rfl
    (rank_refl_of_phase rfl) nofun nofun nofun
  refine ⟨hl, ?_⟩
  rw [hn]
  cases h with
  | header h => exact .header ⟨h.header, h.data, h.finished, h.writes, h.attachments⟩
  | data content attributes segments h =>
    exact .data content attributes segments ⟨h.header, h.data, h.finished, h.writes, h.content,
      h.segments, h.attachments⟩
  | finished h => exact .finished ⟨h.header, h.data, h.finished, h.attachments⟩

/-- **Every call** that is allowed in a sound state is lawful and leaves a sound state. -/
theorem step_sound (h : Sound nl s) (c : LayerDataCall) (ha : Allowed s c) :
    Lawful lzma uninit s c ∧ Sound nl (next lzma uninit s c) := by
  have hnames : ∀ n ∈ [xmlText "x1", xmlText "y1", xmlText "x2", xmlText "y2"],
      n.length ≤ nativeXMLMaxStringLength := by decide
  have hplain (name : List UInt8) (h₁ : nodeName [] name ≠ xmlText "layer" ∧
      nodeName [] name ≠ xmlText "segments") (h₂ : nodeName (xmlText "z") name ≠ xmlText "layer" ∧
        nodeName (xmlText "z") name ≠ xmlText "segments") (attributes : List (List UInt8 × List UInt8)) :
      Plain (.mk (nodeName [] name) attributes false []) ∧
        Plain (.mk (nodeName (xmlText "z") name) attributes false []) :=
    ⟨plain_mk h₁ nofun, plain_mk h₂ nofun⟩
  cases c with
  | registerProfile profile =>
    refine step_register (f := fun s => { s with
      idCounter := s.idCounter + 1
      profiles := s.profiles.insert s.idCounter.toFin profile }) h ?_
      (fun h => ⟨h.header, h.data, h.finished, h.writes, h.attachments⟩) id nofun
    show EStateM.bind (registerProfile profile) _ s = _
    unfold registerProfile EStateM.bind
    dsimp only
    split_ifs <;> rfl
  | registerPart object =>
    refine step_register (f := fun s => { s with
      idCounter := s.idCounter + 1
      parts := s.parts.insert s.idCounter.toFin object }) h ?_
      (fun h => ⟨h.header, h.data, h.finished, h.writes, h.attachments⟩) id nofun
    show EStateM.bind (registerPart object) _ s = _
    unfold registerPart EStateM.bind
    dsimp only
    split_ifs <;> rfl
  | writeHatchData profileID partID count x1 y1 x2 y2 =>
    match x1, y1, x2, y2 with
    | some x1, some y1, some x2, some y2 =>
      exact step_segment h ha rfl rfl (by decide) (by decide) hnames hnames
        (hplain (xmlText "hatch") (by decide) (by decide)) id nofun
    | none, _, _, _ | some _, none, _, _ | some _, some _, none, _ | some _, some _, some _, none =>
      exact step_throws (e := .invalidParam) h rfl nofun
  | writeLoop profileID partID count x y =>
    match x, y with
    | some x, some y =>
      exact step_segment h ha rfl rfl (by decide) (by decide) (by decide) (by decide)
        (hplain (xmlText "point") (by decide) (by decide)) id nofun
    | none, _ | some _, none =>
      exact step_throws (e := .invalidParam) h rfl nofun
  | writePolyline profileID partID count x y =>
    match x, y with
    | some x, some y =>
      exact step_segment h ha rfl rfl (by decide) (by decide) (by decide) (by decide)
        (hplain (xmlText "point") (by decide) (by decide)) id nofun
    | none, _ | some _, none =>
      exact step_throws (e := .invalidParam) h rfl nofun
  | finishWriting => exact step_finishWriting h ha
  | others binaryStream objectUUIDs => exact step_others h binaryStream objectUUIDs

/-- **A layer goes through its phases**: in a run of allowed calls every state is consistent and
every call is lawful. -/
theorem layer_lawful (lzma : Lzma) (uninit : Nat → BitVec 32) (nl packagePath : List UInt8)
    (objectUUIDs : Nat → UUIDText) (calls : List LayerDataCall)
    (h : Guarded (next lzma uninit) Allowed (create nl packagePath objectUUIDs) calls) :
    (∀ s, Reaches (next lzma uninit) (create nl packagePath objectUUIDs) calls s →
      Consistent nl s) ∧
      Guarded (next lzma uninit) (Lawful lzma uninit) (create nl packagePath objectUUIDs) calls := by
  have h0 : Sound nl (create nl packagePath objectUUIDs) :=
    .header (inHeader_create nl packagePath objectUUIDs)
  refine ⟨fun s hs => ?_, h.good (Sound nl) h0 fun s c hs ha => step_sound hs c ha⟩
  have hsound : Sound nl s :=
    hs.inv (Sound nl) h0 (fun s c hs ha => (step_sound hs c ha).2) h
  exact hsound.consistent

/-- The UUID with the digits of zero. -/
def zeroUUID : UUIDText :=
  ⟨"00000000-0000-0000-0000-000000000000", "00000000000000000000000000000000", by decide +kernel⟩

/-- A compression that leaves the data as it is. -/
def storeLzma : Lzma := ⟨fun _ _ data => some (data, [0]), fun _ src _ => some src⟩

/-- A layer with a profile only. -/
theorem layer_lawful_short :
    (∀ s, Reaches (next storeLzma fun _ => 0) (create [10] [] fun _ => zeroUUID)
      [.registerProfile zeroUUID, .finishWriting] s → Consistent [10] s) ∧
      Guarded (next storeLzma fun _ => 0) (Lawful storeLzma fun _ => 0)
        (create [10] [] fun _ => zeroUUID) [.registerProfile zeroUUID, .finishWriting] := by
  have hnl : (create [10] [] fun _ => zeroUUID).xmlWriter.lineEnding = [10] :=
    (inHeader_create [10] [] fun _ => zeroUUID).writes.lineEnding
  have hnext : next storeLzma (fun _ => 0) (create [10] [] fun _ => zeroUUID)
      (.registerProfile zeroUUID) = { create [10] [] fun _ => zeroUUID with
        idCounter := 2, profiles := SortedMap.empty.insert 1 zeroUUID } := rfl
  refine layer_lawful _ _ _ _ _ _ ⟨fun _ => ⟨nofun, nofun⟩, ?_, trivial⟩
  rw [hnext]
  refine fun _ => ⟨nofun, fun _ => ⟨fun _ h => ?_, ?_⟩⟩
  · exact absurd h (by show ¬ (false = true); nofun)
  · unfold finishedDocument
    dsimp only
    rw [hnl, if_pos (show (create [10] [] fun _ => zeroUUID).writingHeader = true from rfl)]
    show (documentStart [10] ++ (layerElement [registeredElement (xmlText "parts") (xmlText "part") [],
      registeredElement (xmlText "profiles") (xmlText "profile") [(1, zeroUUID)]] [] []).render
        [10] 0).length ≤ _
    decide +kernel

/-- A segment whose points a finished stream refuses stays open. -/
theorem writeSegment_streamFinished {type path : List UInt8} {names keys : List (List UInt8)}
    {count : Nat} {array : Fin count → BitVec 32} {arrays : List (Fin count → BitVec 32)}
    {profileID partID : UInt32} {stream : ChunkedBinaryStreamWriter} (h : InHeader nl s)
    (hfits : HeaderFits s) (hs : s.binaryStream = some (path, stream))
    (hf : stream.isFinished = true) (htype : type.length ≤ 1000) :
    ∃ s', writeSegment lzma uninit type profileID partID name names keys (array :: arrays) s =
        .error .streamWriterAlreadyFinished s' ∧
      s'.xmlWriter.nodeStack = [xmlText "segment", xmlText "segments", xmlText "layer"] := by
  obtain ⟨_, _, hbegin, hd, w, rfl⟩ := beginData_header h hfits
  obtain ⟨_, _, hstart, w', rfl, hw⟩ := xml_succeeds (writes_startSegment hd.writes (by simp)
    (fits_of_length htype) profileID partID)
  refine ⟨{ s with xmlWriter := w', writingHeader := false, writingData := true }, ?_,
    hw.nodeStack⟩
  have hadd (data : List (BitVec 32)) : stream.addIntArray lzma uninit data .deltaPrediction =
      .error .streamWriterAlreadyFinished := by
    unfold ChunkedBinaryStreamWriter.addIntArray
    rw [hf]
    rfl
  have harray (t : ToolpathLayerWriteData) (ht : t.binaryStream = some (path, stream)) :
      addIntArray lzma uninit (List.ofFn array) t = .error .streamWriterAlreadyFinished t := by
    unfold addIntArray
    rw [ht]
    dsimp only
    rw [hadd]
  unfold writeSegment
  rw [bind_of_ok hbegin, bind_of_ok hstart]
  refine bind_of_error ?_
  unfold writePoints
  rw [get_bind]
  dsimp only
  rw [hs, Option.isSome_some, if_pos rfl]
  refine bind_of_error ?_
  show addIntArrays lzma uninit (List.ofFn array :: arrays.map List.ofFn) _ = _
  unfold addIntArrays
  exact bind_of_error (harray _ rfl)

/-- A binary stream that has been finished, as an export of the model does. -/
def finishedStream : ChunkedBinaryStreamWriter := ⟨.new, 1, true, 0, false, [], none, [], []⟩

/-- Such a stream is assigned, and a loop of one point written. -/
def loopAfterExport : List LayerDataCall :=
  [.others (some ([], finishedStream)) fun _ => zeroUUID,
    .writeLoop 1 1 1 (some fun _ => 5) (some fun _ => 7)]

/-- A loop behind an export of the model leaves its segment open. -/
theorem exported_stream_breaks_layer :
    ¬ ((∀ s, Reaches (next storeLzma fun _ => 0) (create [10] [] fun _ => zeroUUID)
        loopAfterExport s → Consistent [10] s) ∧
      Guarded (next storeLzma fun _ => 0) (Lawful storeLzma fun _ => 0)
        (create [10] [] fun _ => zeroUUID) loopAfterExport) := by
  rintro ⟨-, -, hlawful, -⟩
  have hc := inHeader_create [10] [] fun _ => zeroUUID
  have h : InHeader [10] (next storeLzma (fun _ => 0) (create [10] [] fun _ => zeroUUID)
      (.others (some ([], finishedStream)) fun _ => zeroUUID)) :=
    ⟨hc.header, hc.data, hc.finished, hc.writes, hc.attachments⟩
  have hcall : ∃ s', call storeLzma (fun _ => 0)
      (.writeLoop 1 1 1 (some fun _ => 5) (some fun _ => 7)) (next storeLzma (fun _ => 0)
        (create [10] [] fun _ => zeroUUID) (.others (some ([], finishedStream)) fun _ => zeroUUID)) =
          .error .streamWriterAlreadyFinished s' ∧
        s'.xmlWriter.nodeStack = [xmlText "segment", xmlText "segments", xmlText "layer"] :=
    writeSegment_streamFinished h (fun _ _ => fits_of_length (Nat.zero_le _)) rfl rfl (by decide)
  obtain ⟨s', hs', hstack⟩ := hcall
  have hthrows := hlawful.throws fun ⟨t, ht⟩ => absurd (hs'.symm.trans ht) nofun
  rw [show next _ _ _ _ = s' from congrArg finalState hs'] at hthrows
  have hsame := hstack.symm.trans (hthrows.trans h.writes.nodeStack)
  exact absurd (congrArg List.length hsame) (by decide)

end ToolpathLayerWriteData

end NMR
