import Lib3MF.Common.Platform.Proof.XmlReading
import Lib3MF.Common.Platform.Proof.XmlStructure
import Lib3MF.Lib.Run

/-!
# What is written is read

`XmlLayout.next` says what a call of the writer adds to a document: chunks, and a tag that stays
open for attributes. A writer writes what its calls lay out (`Lays.call`), so the reader
shows, for every document that the writer was able to write, the elements, attributes and texts
that were written, with the white space between them (`written_reads`).
-/

namespace NMR

open Lib

/-- A document while it is written: what is complete, and the text behind it. A start tag is open
while `tag` is there; `names` are the elements that are not ended, the innermost first. -/
structure XmlLayout where
  chunks : List XmlChunk
  text : List UInt8
  tag : Option (XmlQName × List XmlChunkAttribute)
  names : List XmlQName
  freshLine : Bool
  deriving DecidableEq

namespace XmlLayout

/-- Nothing is written yet. -/
def empty : XmlLayout := ⟨[], [], none, [], true⟩

/-- The declaration that `WriteStartDocument` writes. -/
def declaration : XmlChunk :=
  ⟨[], .start .instruction ⟨[], xmlText "xml"⟩
    [⟨⟨[], xmlText "version"⟩, xmlText "1.0"⟩, ⟨⟨[], xmlText "encoding"⟩, xmlText "utf-8"⟩]⟩

/-- A document with its declaration. -/
def declared (nl : List UInt8) : XmlLayout := ⟨[declaration], nl, none, [], true⟩

/-- The open tag gets its bracket. -/
def closeTag (nl : List UInt8) (newLine : Bool) (l : XmlLayout) : XmlLayout :=
  match l.tag with
  | none => l
  | some (q, as) => { l with
    chunks := l.chunks ++ [⟨l.text, .start .opens q as⟩]
    text := if newLine then nl else []
    tag := none
    freshLine := newLine }

/-- The innermost element ends with a tag of its own. -/
def fullEnd (nl : List UInt8) (l : XmlLayout) : XmlLayout :=
  match l.names with
  | [] => l
  | q :: names => { l with
    chunks := l.chunks ++ [⟨l.text ++
      (if l.freshLine then List.replicate names.length nativeXMLSpacing else []), .ends q⟩]
    text := nl
    names := names
    freshLine := true }

/-- What a call adds. -/
def next (nl : List UInt8) (l : XmlLayout) : XmlWriterCall → XmlLayout
  | .startElement nsPrefix localName nameSpace =>
    let l := l.closeTag nl true
    { l with
      text := l.text ++ List.replicate l.names.length nativeXMLSpacing
      tag := some (⟨nsPrefix, localName⟩,
        if nameSpace = [] then [] else [⟨⟨[], xmlText "xmlns"⟩, nameSpace⟩])
      names := ⟨nsPrefix, localName⟩ :: l.names
      freshLine := false }
  | .attributeString nsPrefix localName value =>
    { l with tag := l.tag.map fun t => (t.1, t.2 ++ [⟨⟨nsPrefix, localName⟩, value⟩]) }
  | .text content =>
    let l := l.closeTag nl false
    { l with text := l.text ++ content, freshLine := l.freshLine && content.isEmpty }
  | .endElement =>
    match l.tag with
    | none => l.fullEnd nl
    | some (q, as) => { l with
      chunks := l.chunks ++ [⟨l.text, .start .empty q as⟩]
      text := nl
      tag := none
      names := l.names.tail
      freshLine := true }
  | .fullEndElement => (l.closeTag nl false).fullEnd nl

/-- The call is one the writer can make: its names are names, its strings fit in the buffer, and
an element is open that it may end. -/
def Allowed (l : XmlLayout) : XmlWriterCall → Prop
  | .startElement nsPrefix localName nameSpace =>
    (XmlQName.mk nsPrefix localName).Valid ∧
      (XmlQName.mk nsPrefix localName).text.length ≤ nativeXMLMaxStringLength ∧
      nameSpace.length ≤ nativeXMLMaxStringLength ∧ escapeXMLString nameSpace = nameSpace ∧
      0 ∉ nameSpace ∧ l.names.length + 1 < 2 ^ 32
  | .attributeString nsPrefix localName value =>
    (XmlQName.mk nsPrefix localName).Valid ∧
      (XmlQName.mk nsPrefix localName).text.length ≤ nativeXMLMaxStringLength ∧
      XmlWriter.Fits value ∧ 0 ∉ value
  | .text content => XmlWriter.Fits content ∧ 0 ∉ content
  | .endElement | .fullEndElement => l.names ≠ []

instance (l : XmlLayout) : DecidablePred l.Allowed
  | .startElement nsPrefix localName nameSpace =>
    inferInstanceAs (Decidable ((XmlQName.mk nsPrefix localName).Valid ∧
      (XmlQName.mk nsPrefix localName).text.length ≤ nativeXMLMaxStringLength ∧
      nameSpace.length ≤ nativeXMLMaxStringLength ∧ escapeXMLString nameSpace = nameSpace ∧
      0 ∉ nameSpace ∧ l.names.length + 1 < 2 ^ 32))
  | .attributeString nsPrefix localName value =>
    inferInstanceAs (Decidable ((XmlQName.mk nsPrefix localName).Valid ∧
      (XmlQName.mk nsPrefix localName).text.length ≤ nativeXMLMaxStringLength ∧
      (escapeXMLString value).length ≤ nativeXMLMaxStringLength ∧ 0 ∉ value))
  | .text content =>
    inferInstanceAs (Decidable ((escapeXMLString content).length ≤ nativeXMLMaxStringLength ∧
      0 ∉ content))
  | .endElement | .fullEndElement => inferInstanceAs (Decidable (l.names ≠ []))

/-- The text of a document. -/
def render (l : XmlLayout) : List UInt8 :=
  l.chunks.flatMap XmlChunk.render ++ (escapeXMLString l.text ++
    match l.tag with
    | none => []
    | some (q, as) => 60 :: (q.text ++ as.flatMap fun a => 32 :: a.render))

/-! ## What a layout keeps -/

/-- What is laid out may be read: its strings are strings, and its names are names. Outside of all
elements the last tag is one that ends. -/
structure Sound (l : XmlLayout) : Prop where
  chunks : ∀ c ∈ l.chunks, c.Valid
  text : 0 ∉ l.text
  tag : ∀ t ∈ l.tag, t.1.Valid ∧ (∀ a ∈ t.2, a.Valid) ∧ l.names.head? = some t.1 ∧
    l.freshLine = false
  names : ∀ q ∈ l.names, q.Valid ∧ q.text.length ≤ nativeXMLMaxStringLength
  last : l.names = [] → ∀ c, l.chunks.getLast? = some c → c.tag.Closes

variable {l : XmlLayout} {nl : List UInt8}

theorem zero_notMem_spaces (n : Nat) : (0 : UInt8) ∉ List.replicate n nativeXMLSpacing := fun h =>
  absurd (List.eq_of_mem_replicate h) (by decide)

theorem escape_spaces (n : Nat) :
    escapeXMLString (List.replicate n nativeXMLSpacing) = List.replicate n nativeXMLSpacing := by
  refine escapeXMLString_eq fun c hc => ?_
  rw [List.eq_of_mem_replicate hc]
  decide

theorem valid_concat {cs : List XmlChunk} {c : XmlChunk} (h : ∀ c ∈ cs, c.Valid) (hc : c.Valid) :
    ∀ d ∈ cs ++ [c], d.Valid := by
  intro d hd
  rcases List.mem_append.1 hd with hd | hd
  · exact h d hd
  · rw [List.mem_singleton.1 hd]
    exact hc

theorem zero_notMem_append {s t : List UInt8} (hs : 0 ∉ s) (ht : 0 ∉ t) : 0 ∉ s ++ t := fun h =>
  (List.mem_append.1 h).elim hs ht

theorem names_closeTag (newLine : Bool) : (l.closeTag nl newLine).names = l.names := by
  unfold closeTag
  cases l.tag <;> rfl

theorem tag_closeTag (newLine : Bool) : (l.closeTag nl newLine).tag = none := by
  unfold closeTag
  cases h : l.tag with
  | none => exact h
  | some t => rfl

theorem Sound.closeTag (h : l.Sound) (hnl : 0 ∉ nl) (newLine : Bool) : (l.closeTag nl newLine).Sound := by
  unfold XmlLayout.closeTag
  cases ht : l.tag with
  | none => exact h
  | some t =>
    obtain ⟨hq, ha, hne, -⟩ := h.tag t ht
    refine ⟨valid_concat h.chunks ⟨h.text, hq, ha⟩, ?_, ?_, h.names, fun h0 => ?_⟩
    · dsimp only
      split_ifs
      · exact hnl
      · exact List.not_mem_nil
    · intro t ht
      cases ht
    · have h0' : l.names = [] := h0
      rw [h0'] at hne
      cases hne

theorem closes_concat {cs : List XmlChunk} {c : XmlChunk} (hc : c.tag.Closes) :
    ∀ d, (cs ++ [c]).getLast? = some d → d.tag.Closes := by
  intro d hd
  rw [List.getLast?_concat] at hd
  cases hd
  exact hc

theorem Sound.fullEnd (h : l.Sound) (hnl : 0 ∉ nl) (ht : l.tag = none) : (l.fullEnd nl).Sound := by
  unfold XmlLayout.fullEnd
  cases hn : l.names with
  | nil => exact h
  | cons q names =>
    have hnames := h.names
    rw [hn] at hnames
    refine ⟨valid_concat h.chunks ⟨zero_notMem_append h.text ?_, (hnames q List.mem_cons_self).1⟩,
      hnl, ?_, fun q hq => hnames q (List.mem_cons_of_mem _ hq), fun _ => closes_concat trivial⟩
    · split_ifs
      · exact zero_notMem_spaces _
      · exact List.not_mem_nil
    · intro t ht'
      rw [ht] at ht'
      cases ht'

/-- **Each call keeps a layout sound.** -/
theorem Sound.next (h : l.Sound) (hnl : 0 ∉ nl) {c : XmlWriterCall} (hc : l.Allowed c) :
    (l.next nl c).Sound := by
  cases c with
  | startElement nsPrefix localName nameSpace =>
    obtain ⟨hq, hlen, -, -, hzero, -⟩ := hc
    have h₁ := h.closeTag hnl true
    refine ⟨h₁.chunks, zero_notMem_append h₁.text (zero_notMem_spaces _), ?_, ?_, fun h0 => ?_⟩
    · intro t ht
      cases ht
      refine ⟨hq, fun a ha => ?_, rfl, rfl⟩
      dsimp only at ha
      split_ifs at ha
      · cases ha
      · rw [List.mem_singleton.1 ha]
        have hcolon : ':'.toUInt8 ∉ xmlText "xmlns" := by decide
        exact ⟨⟨.inl rfl, XmlWriter.isName_xmlns, hcolon⟩, hzero⟩
    · intro q hq'
      rcases List.mem_cons.1 hq' with rfl | hq'
      · exact ⟨hq, hlen⟩
      · exact h₁.names q hq'
    · cases h0
  | attributeString nsPrefix localName value =>
    obtain ⟨hq, -, -, hzero⟩ := hc
    refine ⟨h.chunks, h.text, ?_, h.names, h.last⟩
    intro t ht
    obtain ⟨t', ht', rfl⟩ := Option.map_eq_some_iff.1 ht
    obtain ⟨hn, ha, hopen⟩ := h.tag t' ht'
    refine ⟨hn, fun a ha' => ?_, hopen⟩
    rcases List.mem_append.1 ha' with ha' | ha'
    · exact ha a ha'
    · rw [List.mem_singleton.1 ha']
      exact ⟨hq, hzero⟩
  | text content =>
    have h₁ := h.closeTag hnl false
    refine ⟨h₁.chunks, zero_notMem_append h₁.text hc.2, ?_, h₁.names, h₁.last⟩
    intro t ht
    rw [XmlLayout.next, tag_closeTag] at ht
    cases ht
  | endElement =>
    unfold XmlLayout.next
    cases ht : l.tag with
    | none => exact h.fullEnd hnl ht
    | some t =>
      obtain ⟨hq, ha, -⟩ := h.tag t ht
      refine ⟨valid_concat h.chunks ⟨h.text, hq, ha⟩, hnl, ?_,
        fun q hq => h.names q (List.mem_of_mem_tail hq),
        fun _ => closes_concat (c := ⟨l.text, .start .empty t.1 t.2⟩) XmlTagKind.noConfusion⟩
      intro t ht
      cases ht
  | fullEndElement => exact (h.closeTag hnl false).fullEnd hnl (tag_closeTag false)

theorem sound_empty : empty.Sound := by
  refine ⟨?_, List.not_mem_nil, ?_, ?_, fun _ => ?_⟩
  · intro c hc
    cases hc
  · intro t ht
    cases ht
  · intro q hq
    cases hq
  · intro c hc
    cases hc

theorem render_closeTag (l : XmlLayout) (newLine : Bool) (hesc : escapeXMLString nl = nl) :
    (l.closeTag nl newLine).render =
      l.render ++ if l.tag.isSome then 62 :: (if newLine then nl else []) else [] := by
  unfold closeTag
  cases ht : l.tag with
  | none => simp
  | some t =>
    have hnl : escapeXMLString (if newLine then nl else []) = if newLine then nl else [] := by
      split_ifs
      · exact hesc
      · rfl
    simp [render, ht, hnl, XmlChunk.render, XmlTag.render, XmlTagKind.opening, XmlTagKind.closing]

theorem render_fullEnd {q : XmlQName} {names : List XmlQName} (hesc : escapeXMLString nl = nl)
    (ht : l.tag = none) (hn : l.names = q :: names) :
    (l.fullEnd nl).render = l.render ++
      (if l.freshLine then List.replicate names.length nativeXMLSpacing else []) ++
      XmlElement.renderEnd q.text nl := by
  have hspaces : escapeXMLString (if l.freshLine then
        List.replicate names.length nativeXMLSpacing else []) =
      if l.freshLine then List.replicate names.length nativeXMLSpacing else [] := by
    split_ifs
    · exact escape_spaces _
    · rfl
  have hlt : xmlText "</" = [60, 47] := by decide
  have hgt : xmlText ">" = [62] := by decide
  unfold fullEnd
  rw [hn]
  dsimp only
  rw [render, render, ht, List.flatMap_append, List.flatMap_singleton, XmlChunk.render, XmlTag.render,
    escapeXMLString_append, hspaces, hesc, XmlElement.renderEnd, hlt, hgt]
  simp

end XmlLayout

namespace XmlWriter

open XmlLayout

/-- The writer has written the layout. -/
structure Lays (nl : List UInt8) (w : XmlWriter) (l : XmlLayout) : Prop where
  lineEnding : w.lineEnding = nl
  output : w.output = l.render
  nodeStack : w.nodeStack = l.names.map XmlQName.text
  layer : w.layer.toNat = l.names.length
  elementIsOpen : w.elementIsOpen = l.tag.isSome
  isFreshLine : w.isFreshLine = l.freshLine

variable {w : XmlWriter} {l : XmlLayout} {nl : List UInt8}

theorem escape_lineEnding (h : IsLineEnding nl) : escapeXMLString nl = nl := by
  rcases h with rfl | rfl <;> decide

theorem zero_notMem_lineEnding (h : IsLineEnding nl) : 0 ∉ nl := by
  rcases h with rfl | rfl <;> decide

/-- The parts of a name fit where the name does. -/
theorem length_nodeName {nsPrefix localName : List UInt8}
    (h : (nodeName nsPrefix localName).length ≤ nativeXMLMaxStringLength) :
    (nsPrefix ++ xmlText ":").length ≤ nativeXMLMaxStringLength ∧
      nsPrefix.length ≤ nativeXMLMaxStringLength ∧ localName.length ≤ nativeXMLMaxStringLength := by
  unfold nodeName at h
  by_cases hp : nsPrefix = []
  · rw [if_pos hp, List.nil_append] at h
    rw [hp]
    exact ⟨by decide, by decide, h⟩
  · rw [if_neg hp, List.length_append] at h
    have hlen : (nsPrefix ++ xmlText ":").length = nsPrefix.length + (xmlText ":").length :=
      List.length_append
    exact ⟨by omega, by omega, by omega⟩

/-- `WriteStartElement` lays out a tag. -/
theorem Lays.startElement {nsPrefix localName nameSpace : List UInt8} (h : Lays nl w l)
    (hnl : IsLineEnding nl) (hc : l.Allowed (.startElement nsPrefix localName nameSpace)) :
    ∃ w', writeStartElement nsPrefix localName nameSpace w = .ok () w' ∧
      Lays nl w' (l.next nl (.startElement nsPrefix localName nameSpace)) := by
  obtain ⟨-, hlen, hns, hesc, -, hdepth⟩ := hc
  obtain ⟨hp, -, hn⟩ := length_nodeName hlen
  refine ⟨_, writeStartElement_ok hp hn hns, h.lineEnding, ?_, ?_, ?_, rfl, rfl⟩
  · have hx : xmlText " xmlns=\"" = 32 :: (xmlText "xmlns" ++ [61, 34]) := by decide
    have hq : xmlText "\"" = [34] := by decide
    have hlt : xmlText "<" = [60] := by decide
    have hgt : xmlText ">" = [62] := by decide
    have hopen : l.render ++ (if l.tag.isSome then xmlText ">" ++ nl else []) =
        (l.closeTag nl true).render := by
      rw [render_closeTag l true (escape_lineEnding hnl), hgt]
      rfl
    show w.output ++ (if w.elementIsOpen then xmlText ">" ++ w.lineEnding else []) ++ _ ++ _ = _
    rw [h.output, h.elementIsOpen, h.lineEnding, hopen, h.layer]
    simp only [XmlLayout.next, XmlLayout.render, tag_closeTag, names_closeTag, escapeXMLString_append,
      escape_spaces, XmlQName.text, hlt, hq, hx]
    by_cases hne : nameSpace = []
    · simp [hne]
    · simp [hne, XmlChunkAttribute.render, XmlQName.text, nodeName, hesc]
  · show _ :: w.nodeStack = _
    rw [h.nodeStack, XmlLayout.next]
    simp only [names_closeTag, List.map_cons]
    rfl
  · show (w.layer + 1).toNat = _
    have hlayer := h.layer
    rw [BitVec.toNat_add, hlayer, XmlLayout.next]
    simp only [names_closeTag, List.length_cons]
    exact Nat.mod_eq_of_lt hdepth

/-- A string where a line may begin. -/
theorem writeXMLString_fresh {s : List UInt8} (hs : Fits s) :
    writeXMLString s w = .ok () { w with
      output := w.output ++ escapeXMLString s, isFreshLine := w.isFreshLine && s.isEmpty } := by
  by_cases hf : w.isFreshLine = false
  · rw [writeXMLString_ok hs hf, hf, Bool.false_and]
  · cases s with
    | nil =>
      rw [List.isEmpty_nil, Bool.and_true, show escapeXMLString [] = [] from rfl, List.append_nil]
      rfl
    | cons c s =>
      have hlen := Nat.le_trans (length_le_escapeXMLString (c :: s)) hs
      have hne : escapeXMLString (c :: s) ≠ [] := fun h0 => by
        have hle := length_le_escapeXMLString (c :: s)
        rw [h0] at hle
        cases hle
      rw [List.isEmpty_cons, Bool.and_false]
      unfold writeXMLString
      by_cases h : (c :: s).length < nativeXMLFixedEncodingLength
      · rw [if_pos h]
        exact writeUTF8_text hs (.inl hne)
      · rw [if_neg h, require_bind hlen]
        exact writeUTF8_text hs (.inl hne)

/-- `WriteAttributeString` adds to the tag that is open, and does nothing where none is. -/
theorem Lays.attributeString {nsPrefix localName value : List UInt8} (h : Lays nl w l)
    (hl : l.Sound) (hc : l.Allowed (.attributeString nsPrefix localName value)) :
    ∃ w', writeAttributeString nsPrefix localName value w = .ok () w' ∧
      Lays nl w' (l.next nl (.attributeString nsPrefix localName value)) := by
  obtain ⟨-, hlen, hfits, -⟩ := hc
  obtain ⟨-, hp, hn⟩ := length_nodeName hlen
  have hopen := h.elementIsOpen
  cases ht : l.tag with
  | none =>
    rw [ht, Option.isSome_none] at hopen
    refine ⟨w, ?_, ?_⟩
    · unfold writeAttributeString
      rw [get_bind, doIf_of_neg (by simp [hopen])]
    · rw [XmlLayout.next, ht, Option.map_none, ← ht]
      exact h
  | some t =>
    obtain ⟨-, -, -, hfresh⟩ := hl.tag t ht
    rw [ht, Option.isSome_some] at hopen
    refine ⟨_, writeAttributeString_ok hopen hp hn hfits, h.lineEnding, ?_, h.nodeStack, h.layer,
      ?_, hfresh.symm⟩
    · have hq : xmlText "\"" = [34] := by decide
      have he : xmlText "=\"" = [61, 34] := by decide
      have hs : xmlText " " = [32] := by decide
      show w.output ++ XmlElement.renderAttribute _ = _
      rw [h.output]
      simp only [XmlLayout.next, XmlLayout.render, ht, Option.map_some, XmlElement.renderAttribute,
        XmlChunkAttribute.render, XmlQName.text, hq, he, hs]
      simp
    · show w.elementIsOpen = _
      rw [hopen, XmlLayout.next, ht]
      rfl

/-- Closing the open tag where a text follows. -/
theorem Lays.closeTag (h : Lays nl w l) (hnl : IsLineEnding nl) :
    ∃ w', closeCurrentElement false w = .ok () w' ∧ Lays nl w' (l.closeTag nl false) := by
  refine ⟨_, closeCurrentElement_text w, h.lineEnding, ?_, ?_, ?_, ?_, ?_⟩
  · have hgt : xmlText ">" = [62] := by decide
    rw [render_closeTag l false (escape_lineEnding hnl), ← h.output, h.elementIsOpen, hgt]
    rfl
  · rw [names_closeTag]
    exact h.nodeStack
  · rw [names_closeTag]
    exact h.layer
  · rw [tag_closeTag]
    rfl
  · show (!w.elementIsOpen && w.isFreshLine) = _
    rw [h.elementIsOpen, h.isFreshLine]
    unfold XmlLayout.closeTag
    cases l.tag with
    | none => rfl
    | some t => rfl

/-- `WriteText` lays out a text. -/
theorem Lays.text {content : List UInt8} (h : Lays nl w l) (hnl : IsLineEnding nl)
    (hc : l.Allowed (.text content)) :
    ∃ w', writeText content w = .ok () w' ∧ Lays nl w' (l.next nl (.text content)) := by
  obtain ⟨w₁, hclose, h₁⟩ := h.closeTag hnl
  refine ⟨_, (bind_of_ok hclose).trans (writeXMLString_fresh hc.1), h₁.lineEnding, ?_, h₁.nodeStack,
    h₁.layer, h₁.elementIsOpen, ?_⟩
  · show w₁.output ++ _ = _
    rw [h₁.output]
    simp [XmlLayout.next, XmlLayout.render, tag_closeTag, escapeXMLString_append]
  · show (w₁.isFreshLine && _) = _
    rw [h₁.isFreshLine]
    rfl

/-- `WriteFullEndElement` lays out the end of the innermost element. -/
theorem Lays.fullEndElement (h : Lays nl w l) (hl : l.Sound) (hnl : IsLineEnding nl)
    (hne : l.names ≠ []) : ∃ w', writeFullEndElement w = .ok () w' ∧
      Lays nl w' (l.next nl .fullEndElement) := by
  obtain ⟨q, names, hnames⟩ := List.exists_cons_of_ne_nil hne
  have hq := (hl.names q (hnames ▸ List.mem_cons_self)).2
  have hstack := h.nodeStack
  have hlayer := h.layer
  rw [hnames, List.map_cons] at hstack
  rw [hnames, List.length_cons] at hlayer
  have hl0 : w.layer ≠ 0 := by
    intro h0
    rw [h0] at hlayer
    cases hlayer
  have hl1 : (w.layer - 1).toNat = names.length := by bv_omega
  have hn := @names_closeTag l nl false
  have ht := @tag_closeTag l nl false
  have hrender := render_fullEnd (escape_lineEnding hnl) ht (hn.trans hnames)
  have hfull : l.next nl .fullEndElement = (l.closeTag nl false).fullEnd nl := rfl
  generalize hl₁ : l.closeTag nl false = l₁ at *
  have hnext : (l₁.fullEnd nl).names = names ∧ (l₁.fullEnd nl).tag = none ∧
      (l₁.fullEnd nl).freshLine = true := by
    unfold XmlLayout.fullEnd
    rw [hn, hnames]
    exact ⟨rfl, ht, rfl⟩
  refine ⟨_, writeFullEndElement_ok hstack hl0 hq, h.lineEnding, ?_, ?_, ?_, ?_, ?_⟩
  · have hopen := render_closeTag l false (escape_lineEnding hnl)
    have hgt : xmlText ">" = [62] := by decide
    show w.output ++ _ ++ XmlElement.renderEnd _ _ = _
    rw [hfull, hrender, h.lineEnding, h.output, h.elementIsOpen, h.isFreshLine, hl1, hgt, ← hl₁, hopen]
    congr 1
    unfold XmlLayout.closeTag
    cases htag : l.tag with
    | none => simp
    | some t => simp
  · rw [hfull, hnext.1]
  · rw [hfull, hnext.1]
    exact hl1
  · rw [hfull, hnext.2.1]
    rfl
  · rw [hfull, hnext.2.2]

/-- `WriteEndElement` lays out the end of the innermost element. -/
theorem Lays.endElement (h : Lays nl w l) (hl : l.Sound) (hnl : IsLineEnding nl)
    (hne : l.names ≠ []) : ∃ w', writeEndElement w = .ok () w' ∧
      Lays nl w' (l.next nl .endElement) := by
  have hopen := h.elementIsOpen
  cases ht : l.tag with
  | none =>
    rw [ht, Option.isSome_none] at hopen
    obtain ⟨w', hw, h'⟩ := h.fullEndElement hl hnl hne
    refine ⟨w', ?_, ?_⟩
    · unfold writeEndElement
      rw [get_bind, if_neg (by simp [hopen])]
      exact hw
    · have hnext : l.next nl .endElement = l.next nl .fullEndElement := by
        rw [XmlLayout.next, XmlLayout.next, ht, XmlLayout.closeTag, ht]
      rw [hnext]
      exact h'
  | some t =>
    obtain ⟨q, names, hnames⟩ := List.exists_cons_of_ne_nil hne
    have hstack := h.nodeStack
    have hlayer := h.layer
    rw [hnames, List.map_cons] at hstack
    rw [hnames, List.length_cons] at hlayer
    have hl0 : w.layer ≠ 0 := by
      intro h0
      rw [h0] at hlayer
      cases hlayer
    rw [ht, Option.isSome_some] at hopen
    refine ⟨_, writeEndElement_ok hstack hl0 hopen, h.lineEnding, ?_, ?_, ?_, ?_, ?_⟩
    · have hclose : xmlText "/>" = [47, 62] := by decide
      show w.output ++ _ = _
      rw [h.output, h.lineEnding, hclose, XmlLayout.next, ht]
      dsimp only
      rw [XmlLayout.render, XmlLayout.render, ht, List.flatMap_append, List.flatMap_singleton,
        XmlChunk.render, XmlTag.render, escape_lineEnding hnl]
      simp [XmlTagKind.opening, XmlTagKind.closing]
    · rw [XmlLayout.next, ht, hnames]
      rfl
    · rw [XmlLayout.next, ht, hnames]
      show (w.layer - 1).toNat = names.length
      bv_omega
    · rw [XmlLayout.next, ht]
      rfl
    · rw [XmlLayout.next, ht]

/-- **Each call** lays out what `next` says. -/
theorem Lays.call (h : Lays nl w l) (hl : l.Sound) (hnl : IsLineEnding nl) {c : XmlWriterCall}
    (hc : l.Allowed c) : ∃ w', call c w = .ok () w' ∧ Lays nl w' (l.next nl c) := by
  cases c with
  | startElement nsPrefix localName nameSpace => exact h.startElement hnl hc
  | attributeString nsPrefix localName value => exact h.attributeString hl hc
  | text content => exact h.text hnl hc
  | endElement => exact h.endElement hl hnl hc
  | fullEndElement => exact h.fullEndElement hl hnl hc

/-- **A run of calls.** -/
theorem Lays.calls {calls : List XmlWriterCall} (h : Lays nl w l) (hl : l.Sound)
    (hnl : IsLineEnding nl) (hg : Guarded (XmlLayout.next nl) Allowed l calls) :
    ∃ w', calls.forM XmlWriter.call w = .ok () w' ∧ Lays nl w' (run (XmlLayout.next nl) l calls) ∧
      (run (XmlLayout.next nl) l calls).Sound := by
  induction calls generalizing w l with
  | nil => exact ⟨w, rfl, h, hl⟩
  | cons c calls ih =>
    obtain ⟨w₁, hc, h₁⟩ := h.call hl hnl hg.1
    obtain ⟨w', hcalls, h'⟩ := ih h₁ (hl.next (zero_notMem_lineEnding hnl) hg.1) hg.2
    refine ⟨w', ?_, h'⟩
    exact (bind_of_ok hc).trans hcalls

end XmlWriter

open XmlLayout XmlWriter NativeReader

/-! ## The markup of a sequence of calls -/

/-- The event shows an element or an attribute. -/
def XmlEvent.isMarkup : XmlEvent → Bool
  | .startElement _ | .endElement _ | .attribute _ _ => true
  | .text _ | .unknown | .nothing => false

namespace XmlLayout

variable {l : XmlLayout} {nl : List UInt8}

/-- The elements and attributes of a sequence of calls, where the elements `names` are open, and the
tag of the innermost is where `opened` holds. -/
def markup (names : List XmlQName) (opened : Bool) : List XmlWriterCall → List XmlEvent
  | [] => []
  | .startElement nsPrefix localName nameSpace :: calls =>
    .startElement ⟨nsPrefix, localName⟩ ::
      ((if nameSpace = [] then []
        else [.attribute ⟨[], xmlText "xmlns"⟩ (valueWithLength nameSpace)]) ++
      markup (⟨nsPrefix, localName⟩ :: names) true calls)
  | .attributeString nsPrefix localName value :: calls =>
    (if opened then [.attribute ⟨nsPrefix, localName⟩ (valueWithLength value)] else []) ++
      markup names opened calls
  | .text _ :: calls => markup names false calls
  | .endElement :: calls | .fullEndElement :: calls =>
    names.head?.toList.map .endElement ++ markup names.tail false calls

/-- The elements and attributes that are laid out. -/
def shown (l : XmlLayout) : List XmlEvent :=
  (l.chunks.flatMap XmlChunk.events).filter XmlEvent.isMarkup ++
    l.tag.toList.flatMap fun t => .startElement t.1 ::
      t.2.map fun a => .attribute a.name (valueWithLength a.value)

theorem filter_attributes (as : List XmlChunkAttribute) :
    (as.map fun a => XmlEvent.attribute a.name (valueWithLength a.value)).filter XmlEvent.isMarkup =
      as.map fun a => .attribute a.name (valueWithLength a.value) := by
  rw [List.filter_eq_self]
  intro e he
  obtain ⟨a, -, rfl⟩ := List.mem_map.1 he
  rfl

/-- The markup of a chunk is that of its tag. -/
theorem filter_events (c : XmlChunk) :
    c.events.filter XmlEvent.isMarkup = c.tag.events.filter XmlEvent.isMarkup := by
  rw [XmlChunk.events]
  split_ifs <;> rfl

theorem filter_start (kind : XmlTagKind) (q : XmlQName) (as : List XmlChunkAttribute) :
    (XmlTag.start kind q as).events.filter XmlEvent.isMarkup = .startElement q ::
      ((as.map fun a => .attribute a.name (valueWithLength a.value)) ++
        if kind = .opens then [] else if kind = .empty then [.endElement q]
          else [.endElement ⟨[], []⟩]) := by
  have hall (rest : List XmlEvent) : (XmlEvent.startElement q ::
      ((as.map fun a => .attribute a.name (valueWithLength a.value)) ++ .nothing :: rest)).filter
        XmlEvent.isMarkup = .startElement q ::
      ((as.map fun a => .attribute a.name (valueWithLength a.value)) ++
        rest.filter XmlEvent.isMarkup) := by
    rw [List.filter_cons_of_pos rfl, List.filter_append, filter_attributes,
      List.filter_cons_of_neg Bool.false_ne_true]
  cases kind with
  | opens => exact hall []
  | empty => exact hall [.endElement q]
  | instruction => exact hall [.endElement ⟨[], []⟩]

theorem shown_closeTag (newLine : Bool) : (l.closeTag nl newLine).shown = l.shown := by
  unfold closeTag
  cases ht : l.tag with
  | none => rfl
  | some t => simp [shown, ht, filter_events, filter_start]

theorem shown_fullEnd (ht : l.tag = none) :
    (l.fullEnd nl).shown = l.shown ++ l.names.head?.toList.map .endElement := by
  unfold fullEnd
  cases hn : l.names with
  | nil => simp
  | cons q names => simp [shown, ht, filter_events, XmlTag.events, XmlEvent.isMarkup]

/-- What is shown after a call, and what the rest of the calls adds. -/
theorem shown_next (h : l.Sound) (c : XmlWriterCall) (calls : List XmlWriterCall) :
    (l.next nl c).shown ++ markup (l.next nl c).names (l.next nl c).tag.isSome calls =
      l.shown ++ markup l.names l.tag.isSome (c :: calls) := by
  have hend (l : XmlLayout) (ht : l.tag = none) :
      (l.fullEnd nl).names = l.names.tail ∧ (l.fullEnd nl).tag = none := by
    unfold fullEnd
    cases hn : l.names with
    | nil => exact ⟨hn, ht⟩
    | cons q names => exact ⟨rfl, ht⟩
  cases c with
  | startElement nsPrefix localName nameSpace =>
    have hclose := @shown_closeTag l nl true
    have htag := @tag_closeTag l nl true
    have hnames := @names_closeTag l nl true
    rw [← hclose, markup, next]
    simp only [shown, htag, hnames]
    by_cases hns : nameSpace = []
    · simp [hns]
    · simp [hns]
  | attributeString nsPrefix localName value =>
    rw [markup, next]
    cases ht : l.tag with
    | none => simp [shown, ht]
    | some t => simp [shown, ht]
  | text content =>
    have hclose := @shown_closeTag l nl false
    have htag := @tag_closeTag l nl false
    have hnames := @names_closeTag l nl false
    rw [← hclose, markup, next]
    simp only [shown, htag, hnames]
    rfl
  | endElement =>
    rw [markup, next]
    cases ht : l.tag with
    | none =>
      dsimp only
      rw [shown_fullEnd ht, (hend l ht).1, (hend l ht).2, List.append_assoc]
      rfl
    | some t =>
      obtain ⟨-, -, hhead, -⟩ := h.tag t ht
      simp [shown, ht, filter_events, filter_start, hhead]
  | fullEndElement =>
    have htag := @tag_closeTag l nl false
    rw [markup, next, shown_fullEnd htag, (hend _ htag).1, (hend _ htag).2, shown_closeTag,
      names_closeTag, List.append_assoc]
    rfl

/-- **A run of calls** shows the markup of the calls. -/
theorem shown_run (h : l.Sound) (hnl : 0 ∉ nl) {calls : List XmlWriterCall}
    (hg : Guarded (next nl) Allowed l calls) :
    (run (next nl) l calls).shown = l.shown ++ markup l.names l.tag.isSome calls := by
  induction calls generalizing l with
  | nil => exact (List.append_nil _).symm
  | cons c calls ih => rw [run_cons, ih (h.next hnl hg.1) hg.2, shown_next h]

/-- The layout a document begins with. -/
def start (declared : Bool) (nl : List UInt8) : XmlLayout :=
  if declared then XmlLayout.declared nl else empty

theorem sound_start (hnl : 0 ∉ nl) (declared : Bool) : (start declared nl).Sound := by
  cases declared with
  | false => exact sound_empty
  | true =>
    refine ⟨?_, hnl, ?_, ?_, fun _ => ?_⟩
    · intro c hc
      rw [List.mem_singleton.1 hc]
      decide +kernel
    · intro t ht
      cases ht
    · intro q hq
      cases hq
    · intro c hc
      cases hc
      exact XmlTagKind.noConfusion

theorem render_declared (hnl : IsLineEnding nl) :
    (XmlLayout.declared nl).render = nativeXMLEncoding ++ nl := by
  have hdecl : declaration.render = nativeXMLEncoding := by decide
  rw [render, declared, List.flatMap_singleton, hdecl, escape_lineEnding hnl]
  exact congrArg _ (List.append_nil nl)

theorem lays_start (hnl : IsLineEnding nl) (declared : Bool) :
    ∃ w, doIf declared writeStartDocument (XmlWriter.create nl) = .ok () w ∧
      Lays nl w (start declared nl) := by
  cases declared with
  | false => exact ⟨_, rfl, rfl, rfl, rfl, rfl, rfl, rfl⟩
  | true =>
    have hlen : nativeXMLEncoding.length ≤ nativeXMLMaxStringLength := by decide
    refine ⟨_, (doIf_of_pos rfl _ _).trans (writeUTF8_line hlen), rfl, ?_, rfl, rfl, rfl, rfl⟩
    exact (render_declared hnl).symm

end XmlLayout

/-- A reader whose buffer takes a written document stands in front of its chunks. -/
theorem written_filled {capacity : Nat} {nl : List UInt8} {calls : List XmlWriterCall}
    {l : XmlLayout} (declared : Bool) (hnl : IsLineEnding nl)
    (hg : Guarded (XmlLayout.next nl) Allowed (start declared nl) calls)
    (hl : run (XmlLayout.next nl) (start declared nl) calls = l)
    (hends : l.names = []) (hne : l.chunks ≠ [])
    (hmin : minBufferCapacity ≤ capacity) (hmax : capacity ≤ maxBufferCapacity)
    (hfits : l.render.length + bufferMargin ≤ capacity) :
    l.tag = none ∧ (∃ c, l.chunks.getLast? = some c ∧ c.tag.Closes) ∧
      ∃ w r r₁, writeDocument declared calls (XmlWriter.create nl) = .ok () w ∧
        w.output = l.render ∧ NativeReader.create ⟨w.output, []⟩ capacity = .ok r ∧
        r.ensureFilledBuffer = .ok (r₁, true) ∧
        Stands r₁ [] (l.chunks.flatMap XmlChunk.items) (escapeXMLString l.text) := by
  have hzero := zero_notMem_lineEnding hnl
  obtain ⟨w₀, hstart, h₀⟩ := lays_start hnl declared
  obtain ⟨w, hcalls, hw, hsound⟩ := h₀.calls (sound_start hzero declared) hnl hg
  rw [hl] at hw hsound
  -- no tag is left open
  have htag : l.tag = none := by
    cases ht : l.tag with
    | none => rfl
    | some t =>
      obtain ⟨-, -, hhead, -⟩ := hsound.tag t ht
      rw [hends] at hhead
      cases hhead
  have hrender : l.render = l.chunks.flatMap XmlChunk.render ++ escapeXMLString l.text := by
    rw [render, htag, List.append_nil]
  have hc := List.getLast?_eq_some_getLast hne
  have hlast : ∃ c, l.chunks.getLast? = some c ∧ c.tag.Closes := ⟨_, hc, hsound.last hends _ hc⟩
  rw [hrender] at hfits
  obtain ⟨r, r₁, hcreate, hfilled, h₁⟩ :=
    filled_create hmin hmax hsound.chunks hlast (lt_notMem_escape l.text) hfits
  refine ⟨htag, hlast, w, r, r₁, (bind_of_ok hstart).trans hcalls, hw.output, ?_, hfilled, h₁⟩
  rw [hw.output, hrender]
  exact hcreate

/-- **What is written is read.** Whatever calls the writer can make, once all elements are ended: the
calls succeed, and a reader whose buffer takes the document shows the chunks that were laid out, then
nothing. The elements and attributes among them are those of the calls, in their order. -/
theorem written_reads {capacity : Nat} {nl : List UInt8} {calls : List XmlWriterCall}
    {l : XmlLayout} (declared : Bool) (hnl : IsLineEnding nl)
    (hg : Guarded (XmlLayout.next nl) Allowed (start declared nl) calls)
    (hl : run (XmlLayout.next nl) (start declared nl) calls = l)
    (hends : l.names = []) (hne : l.chunks ≠ [])
    (hmin : minBufferCapacity ≤ capacity) (hmax : capacity ≤ maxBufferCapacity)
    (hfits : l.render.length + bufferMargin ≤ capacity) :
    ∃ w r r', writeDocument declared calls (XmlWriter.create nl) = .ok () w ∧
      w.output = l.render ∧ NativeReader.create ⟨w.output, []⟩ capacity = .ok r ∧
      r.observeAll (l.chunks.flatMap XmlChunk.calls ++ [.read]) =
        .ok (r', l.chunks.flatMap XmlChunk.events ++ [.nothing]) ∧
      (l.chunks.flatMap XmlChunk.events).filter XmlEvent.isMarkup =
        (start declared nl).shown ++ markup [] false calls := by
  have hzero := zero_notMem_lineEnding hnl
  obtain ⟨htag, hlast, w, r, r₁, hwrite, hout, hcreate, hfilled, h₁⟩ :=
    written_filled declared hnl hg hl hends hne hmin hmax hfits
  obtain ⟨r', hall⟩ := Stands.document hfilled h₁ hlast (lt_notMem_escape l.text)
  have hshown := shown_run (sound_start hzero declared) hzero hg
  have hnone : (start declared nl).names = [] ∧ (start declared nl).tag = none := by
    cases declared <;> exact ⟨rfl, rfl⟩
  rw [hl, hnone.1, hnone.2, Option.isSome_none, XmlLayout.shown, htag, Option.toList_none,
    List.flatMap_nil, List.append_nil] at hshown
  exact ⟨w, r, r', hwrite, hout, hcreate, hall, hshown⟩

/-- An element with an attribute and a text, in an element with a name space. -/
def nestedCalls : List XmlWriterCall :=
  [.startElement [] (xmlText "model") (xmlText "urn:m"), .startElement (xmlText "s") (xmlText "m") [],
    .attributeString [] (xmlText "unit") (xmlText "a\"b"), .text (xmlText "1 < 2"),
    .fullEndElement, .endElement]

theorem written_reads_nested : ∃ w r r',
    writeDocument false nestedCalls (XmlWriter.create [10]) = .ok () w ∧
      w.output = xmlText
        "<model xmlns=\"urn:m\">\n\t<s:m unit=\"a&quot;b\">1 &lt; 2</s:m>\n</model>\n" ∧
      NativeReader.create ⟨w.output, []⟩ 1024 = .ok r ∧
      r.observeAll [.read, .moveToNextAttribute, .moveToNextAttribute, .read, .read,
        .moveToNextAttribute, .moveToNextAttribute, .read, .read, .read, .read, .read] =
        .ok (r', [.startElement ⟨[], xmlText "model"⟩,
          .attribute ⟨[], xmlText "xmlns"⟩ (.ok (xmlText "urn:m")), .nothing,
          .text (.ok (xmlText "\n\t")), .startElement ⟨xmlText "s", xmlText "m"⟩,
          .attribute ⟨[], xmlText "unit"⟩ (.ok (xmlText "a\"b")), .nothing,
          .text (.ok (xmlText "1 < 2")), .endElement ⟨xmlText "s", xmlText "m"⟩,
          .text (.ok (xmlText "\n")), .endElement ⟨[], xmlText "model"⟩, .nothing]) := by
  let l := run (XmlLayout.next [10]) (start false [10]) nestedCalls
  have hg : Guarded (XmlLayout.next [10]) Allowed (start false [10]) nestedCalls :=
    ⟨by decide +kernel, by decide +kernel, by decide +kernel, by decide, by decide, by decide, trivial⟩
  have hout : l.render = xmlText
      "<model xmlns=\"urn:m\">\n\t<s:m unit=\"a&quot;b\">1 &lt; 2</s:m>\n</model>\n" := by decide
  have hlen : (xmlText
      "<model xmlns=\"urn:m\">\n\t<s:m unit=\"a&quot;b\">1 &lt; 2</s:m>\n</model>\n").length +
        bufferMargin ≤ 1024 := by decide
  obtain ⟨w, r, r', hw, houtput, hcreate, hall, -⟩ := @written_reads 1024 [10] nestedCalls l false
    (.inl rfl) hg rfl (by decide) (by decide) (by decide) (by decide) (by rw [hout]; exact hlen)
  refine ⟨w, r, r', hw, houtput.trans hout, hcreate, ?_⟩
  have hcalls : l.chunks.flatMap XmlChunk.calls ++ [.read] =
      [.read, .moveToNextAttribute, .moveToNextAttribute, .read, .read,
        .moveToNextAttribute, .moveToNextAttribute, .read, .read, .read, .read, .read] := by decide
  have hevents : l.chunks.flatMap XmlChunk.events ++ [.nothing] =
      [.startElement ⟨[], xmlText "model"⟩,
        .attribute ⟨[], xmlText "xmlns"⟩ (.ok (xmlText "urn:m")), .nothing,
        .text (.ok (xmlText "\n\t")), .startElement ⟨xmlText "s", xmlText "m"⟩,
        .attribute ⟨[], xmlText "unit"⟩ (.ok (xmlText "a\"b")), .nothing,
        .text (.ok (xmlText "1 < 2")), .endElement ⟨xmlText "s", xmlText "m"⟩,
        .text (.ok (xmlText "\n")), .endElement ⟨[], xmlText "model"⟩, .nothing] := by decide
  rw [hcalls, hevents] at hall
  exact hall

end NMR
