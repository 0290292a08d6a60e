import Mathlib.Order.Basic
import Lib3MF.Common.Platform.XmlWriter

/-!
# Elements and the text the writer makes of them

An `XmlElement` is what a start tag and its end tag enclose, and `render` its text. `Writes w
before es` says what a writer has written when the elements `es` are open, the innermost first,
and everything before them is `before`. Each call of the writer is a step on the open elements:
`writes_startElement`, `writes_attribute`, `writes_endElement` and `writes_fullEndElement`.
-/

namespace NMR

open Lib

/-- An element, its attributes by their written names; `full` has an end tag of its own even where
there is no content. -/
inductive XmlElement where
  | mk (name : List UInt8) (attributes : List (List UInt8 × List UInt8)) (full : Bool)
      (content : List XmlElement)

namespace XmlElement

/-- The name. -/
def name : XmlElement → List UInt8
  | mk name _ _ _ => name

/-- The content. -/
def content : XmlElement → List XmlElement
  | mk _ _ _ content => content

/-- An attribute in a tag. -/
def renderAttribute (a : List UInt8 × List UInt8) : List UInt8 :=
  xmlText " " ++ a.1 ++ xmlText "=\"" ++ escapeXMLString a.2 ++ xmlText "\""

/-- The start tag, without the bracket that closes it. -/
def renderTag (depth : Nat) (name : List UInt8) (attributes : List (List UInt8 × List UInt8)) :
    List UInt8 :=
  List.replicate depth nativeXMLSpacing ++ (xmlText "<" ++ name) ++
    attributes.flatMap renderAttribute

/-- The end tag. -/
def renderEnd (name nl : List UInt8) : List UInt8 := xmlText "</" ++ name ++ xmlText ">" ++ nl

mutual

/-- The text of an element, with line ending `nl`. -/
def render (nl : List UInt8) (depth : Nat) : XmlElement → List UInt8
  | mk name attributes full [] =>
    renderTag depth name attributes ++
      if full then xmlText ">" ++ renderEnd name nl else xmlText "/>" ++ nl
  | mk name attributes _ (e :: es) =>
    renderTag depth name attributes ++ (xmlText ">" ++ nl) ++ renderAll nl (depth + 1) (e :: es) ++
      (List.replicate depth nativeXMLSpacing ++ renderEnd name nl)

/-- The text of elements one after the other. -/
def renderAll (nl : List UInt8) (depth : Nat) : List XmlElement → List UInt8
  | [] => []
  | e :: es => render nl depth e ++ renderAll nl depth es

end

mutual

/-- The number of elements with a name. -/
def count (name : List UInt8) : XmlElement → Nat
  | mk n _ _ es => (if n = name then 1 else 0) + countAll name es

/-- Their number in a content. -/
def countAll (name : List UInt8) : List XmlElement → Nat
  | [] => 0
  | e :: es => count name e + countAll name es

end

theorem renderAll_append (nl : List UInt8) (depth : Nat) (es es' : List XmlElement) :
    renderAll nl depth (es ++ es') = renderAll nl depth es ++ renderAll nl depth es' := by
  induction es with
  | nil => rfl
  | cons e es ih => rw [List.cons_append, renderAll, renderAll, ih, List.append_assoc]

theorem countAll_append (name : List UInt8) (es es' : List XmlElement) :
    countAll name (es ++ es') = countAll name es + countAll name es' := by
  induction es with
  | nil => simp [countAll]
  | cons e es ih => rw [List.cons_append, countAll, countAll, ih, Nat.add_assoc]

theorem countAll_eq_zero {name : List UInt8} {es : List XmlElement}
    (h : ∀ e ∈ es, count name e = 0) : countAll name es = 0 := by
  induction es with
  | nil => rfl
  | cons e es ih =>
    rw [countAll, h e List.mem_cons_self, ih fun e' he => h e' (List.mem_cons_of_mem _ he)]

end XmlElement

/-- An element that is not closed yet. -/
structure OpenElement where
  name : List UInt8
  attributes : List (List UInt8 × List UInt8)
  content : List XmlElement

namespace OpenElement

open XmlElement

/-- The element closed. -/
def close (e : OpenElement) (full : Bool) : XmlElement := .mk e.name e.attributes full e.content

/-- With an element in it. -/
def add (e : OpenElement) (child : XmlElement) : OpenElement :=
  { e with content := e.content ++ [child] }

/-- The text of an open element up to where an element in it is open. -/
def renderEntered (nl : List UInt8) (depth : Nat) (e : OpenElement) : List UInt8 :=
  renderTag depth e.name e.attributes ++ (xmlText ">" ++ nl) ++ renderAll nl (depth + 1) e.content

/-- The text of the elements around. -/
def renderOuter (nl : List UInt8) : List OpenElement → List UInt8
  | [] => []
  | e :: es => renderOuter nl es ++ e.renderEntered nl es.length

/-- The text of the open elements. The tag of the innermost stays open while it has no content. -/
def renderOpen (nl : List UInt8) : List OpenElement → List UInt8
  | [] => []
  | e :: es => renderOuter nl es ++
    if e.content = [] then renderTag es.length e.name e.attributes
    else e.renderEntered nl es.length

theorem renderOpen_add (nl : List UInt8) (e : OpenElement) (es : List OpenElement)
    (child : XmlElement) :
    renderOpen nl (e.add child :: es) = renderOuter nl (e :: es) ++ child.render nl (es.length + 1) := by
  rw [renderOpen, if_neg (by simp [add]), renderOuter, renderEntered, renderEntered, add,
    renderAll_append, renderAll, renderAll, List.append_nil]
  simp only [List.append_assoc]

end OpenElement

namespace XmlWriter

open XmlElement OpenElement

variable {w : XmlWriter} {s nsPrefix localName nameSpace value : List UInt8}

/-! ## The functions of the writer -/

theorem writeUTF8_line (hs : s.length ≤ nativeXMLMaxStringLength) :
    writeUTF8 s true w = .ok () { w with
      output := w.output ++ s ++ w.lineEnding, isFreshLine := true } := by
  unfold writeUTF8
  rw [require_bind hs]
  by_cases h : s ≠ []
  · rw [doIf_bind_of_pos h]
    rfl
  · rw [doIf_bind_of_neg h, doIf_of_pos rfl, not_not.1 h, List.append_nil]
    rfl

theorem writeUTF8_text (hs : s.length ≤ nativeXMLMaxStringLength)
    (hf : s ≠ [] ∨ w.isFreshLine = false) :
    writeUTF8 s false w = .ok () { w with output := w.output ++ s, isFreshLine := false } := by
  unfold writeUTF8
  rw [require_bind hs]
  by_cases h : s ≠ []
  · rw [doIf_bind_of_pos h]
    rfl
  · rw [doIf_bind_of_neg h, doIf_of_neg nofun, not_not.1 h, List.append_nil, ← hf.resolve_left h]

/-- The length of a string the writer takes. -/
def Fits (s : List UInt8) : Prop := (escapeXMLString s).length ≤ nativeXMLMaxStringLength

theorem length_escapeXMLChar_pos (c : UInt8) : 1 ≤ (escapeXMLChar c).length := by
  unfold escapeXMLChar
  split_ifs <;> simp [xmlBytes]

/-- Escaping makes no string shorter. -/
theorem length_le_escapeXMLString (s : List UInt8) : s.length ≤ (escapeXMLString s).length := by
  induction s with
  | nil => exact Nat.zero_le _
  | cons c s ih =>
    have hc := length_escapeXMLChar_pos c
    show _ ≤ (escapeXMLChar c ++ escapeXMLString s).length
    rw [List.length_cons, List.length_append]
    omega

/-- Escaping makes a string six times as long at most. -/
theorem length_escapeXMLString_le (s : List UInt8) :
    (escapeXMLString s).length ≤ 6 * s.length := by
  induction s with
  | nil => exact Nat.zero_le _
  | cons c s ih =>
    have hc : (escapeXMLChar c).length ≤ 6 := by
      unfold escapeXMLChar
      split_ifs <;> simp [xmlBytes]
    show (escapeXMLChar c ++ escapeXMLString s).length ≤ _
    rw [List.length_cons, List.length_append]
    omega

theorem writeXMLString_ok (hs : Fits s) (hf : w.isFreshLine = false) :
    writeXMLString s w = .ok () { w with
      output := w.output ++ escapeXMLString s, isFreshLine := false } := by
  have hlen : s.length ≤ nativeXMLMaxStringLength := Nat.le_trans (length_le_escapeXMLString s) hs
  unfold writeXMLString
  by_cases h : s.length < nativeXMLFixedEncodingLength
  · rw [if_pos h]
    exact writeUTF8_text hs (.inr hf)
  · rw [if_neg h, require_bind hlen]
    exact writeUTF8_text hs (.inr hf)

/-- An attribute in an open tag. -/
theorem writeAttributeString_ok (hopen : w.elementIsOpen = true)
    (hp : nsPrefix.length ≤ nativeXMLMaxStringLength)
    (hn : localName.length ≤ nativeXMLMaxStringLength) (hv : Fits value) :
    writeAttributeString nsPrefix localName value w = .ok () { w with
      output := w.output ++ renderAttribute (nodeName nsPrefix localName, value)
      isFreshLine := false } := by
  have h1 {t : String} (ht : xmlText t ≠ []) (hl : (xmlText t).length ≤ nativeXMLMaxStringLength)
      (w : XmlWriter) : writeUTF8 (xmlText t) false w =
        .ok () { w with output := w.output ++ xmlText t, isFreshLine := false } :=
    writeUTF8_text hl (.inl ht)
  unfold writeAttributeString
  rw [get_bind, doIf_of_pos hopen,
    bind_of_ok (h1 (by decide) (by decide) w)]
  by_cases hne : nsPrefix ≠ []
  · rw [doIf_bind_of_pos hne, bind_of_ok ((bind_of_ok (writeUTF8_text hp (.inl hne))).trans
        (h1 (by decide) (by decide) _)), bind_of_ok (writeUTF8_text hn (.inr rfl)),
      bind_of_ok (h1 (by decide) (by decide) _), bind_of_ok (writeXMLString_ok hv rfl),
      h1 (by decide) (by decide) _]
    simp only [renderAttribute, nodeName, if_neg hne, List.append_assoc]
  · rw [doIf_bind_of_neg hne, bind_of_ok (writeUTF8_text hn (.inr rfl)),
      bind_of_ok (h1 (by decide) (by decide) _), bind_of_ok (writeXMLString_ok hv rfl),
      h1 (by decide) (by decide) _]
    simp only [renderAttribute, nodeName, if_pos (not_not.1 hne), List.nil_append,
      List.append_assoc]

theorem closeCurrentElement_line (w : XmlWriter) : closeCurrentElement true w = .ok () { w with
    output := w.output ++ if w.elementIsOpen then xmlText ">" ++ w.lineEnding else []
    isFreshLine := w.elementIsOpen || w.isFreshLine
    elementIsOpen := false } := by
  unfold closeCurrentElement
  rw [get_bind]
  cases h : w.elementIsOpen with
  | true =>
    rw [doIf_of_pos rfl, bind_of_ok (writeUTF8_line (by decide)), if_pos rfl,
      show w.output ++ (xmlText ">" ++ w.lineEnding) = w.output ++ xmlText ">" ++ w.lineEnding from
        (List.append_assoc _ _ _).symm]
    rfl
  | false =>
    rw [doIf_of_neg nofun]
    cases w
    cases h
    simp

theorem closeCurrentElement_text (w : XmlWriter) : closeCurrentElement false w = .ok () { w with
    output := w.output ++ if w.elementIsOpen then xmlText ">" else []
    isFreshLine := !w.elementIsOpen && w.isFreshLine
    elementIsOpen := false } := by
  unfold closeCurrentElement
  rw [get_bind]
  cases h : w.elementIsOpen with
  | true =>
    rw [doIf_of_pos rfl, bind_of_ok (writeUTF8_text (by decide) (.inl (by decide)))]
    rfl
  | false =>
    rw [doIf_of_neg nofun]
    cases w
    cases h
    simp

/-- The start tag of an element. -/
theorem writeStartElement_ok (hp : (nsPrefix ++ xmlText ":").length ≤ nativeXMLMaxStringLength)
    (hn : localName.length ≤ nativeXMLMaxStringLength)
    (hns : nameSpace.length ≤ nativeXMLMaxStringLength) :
    writeStartElement nsPrefix localName nameSpace w = .ok () { w with
      output := w.output ++ (if w.elementIsOpen then xmlText ">" ++ w.lineEnding else []) ++
        (List.replicate w.layer.toNat nativeXMLSpacing ++
          (xmlText "<" ++ nodeName nsPrefix localName)) ++
        if nameSpace = [] then [] else xmlText " xmlns=\"" ++ nameSpace ++ xmlText "\""
      isFreshLine := false
      elementIsOpen := true
      nodeStack := nodeName nsPrefix localName :: w.nodeStack
      layer := w.layer + 1 } := by
  have h1 {t : String} (ht : xmlText t ≠ []) (hl : (xmlText t).length ≤ nativeXMLMaxStringLength)
      (w : XmlWriter) : writeUTF8 (xmlText t) false w =
        .ok () { w with output := w.output ++ xmlText t, isFreshLine := false } :=
    writeUTF8_text hl (.inl ht)
  have hname (w : XmlWriter) (hw : w.isFreshLine = false) (f : Unit → XmlWriterM Unit) :
      (doIf (nsPrefix ≠ []) (writeUTF8 (nsPrefix ++ xmlText ":") false) >>= fun _ =>
        writeUTF8 localName false >>= f) w = f () { w with
          output := w.output ++ nodeName nsPrefix localName, isFreshLine := false } := by
    by_cases hne : nsPrefix ≠ []
    · rw [doIf_bind_of_pos hne, bind_of_ok (writeUTF8_text hp (.inl (by simp [hne]))),
        bind_of_ok (writeUTF8_text hn (.inr rfl)), nodeName, if_neg hne]
      simp only [List.append_assoc]
    · rw [doIf_bind_of_neg hne, bind_of_ok (writeUTF8_text hn (.inr hw)), nodeName,
        if_pos (not_not.1 hne), List.nil_append]
  unfold writeStartElement writeSpaces writeData
  rw [bind_of_ok (closeCurrentElement_line w), get_bind, modify_bind]
  dsimp only
  rw [bind_of_ok (h1 (by decide) (by decide) _), modify_bind]
  dsimp only
  rw [hname _ rfl, modify_bind]
  dsimp only
  by_cases hne : nameSpace ≠ []
  · rw [doIf_of_pos hne, bind_of_ok (h1 (by decide) (by decide) _),
      bind_of_ok (writeUTF8_text hns (.inl hne)), h1 (by decide) (by decide) _, if_neg hne]
    simp only [List.append_assoc]
  · rw [doIf_of_neg hne, if_pos (not_not.1 hne)]
    simp only [List.append_assoc, List.append_nil]

theorem popNode_ok {name : List UInt8} {names : List (List UInt8)}
    (hs : w.nodeStack = name :: names) (hl : w.layer ≠ 0) :
    popNode w = .ok name { w with nodeStack := names, layer := w.layer - 1 } := by
  unfold popNode
  rw [hs]
  exact if_neg hl

/-- The end tag of an element. -/
theorem writeFullEndElement_ok {name : List UInt8} {names : List (List UInt8)}
    (hs : w.nodeStack = name :: names) (hl : w.layer ≠ 0)
    (hn : name.length ≤ nativeXMLMaxStringLength) :
    writeFullEndElement w = .ok () { w with
      output := w.output ++ (if w.elementIsOpen then xmlText ">" else
        if w.isFreshLine then List.replicate (w.layer - 1).toNat nativeXMLSpacing else []) ++
        renderEnd name w.lineEnding
      isFreshLine := true
      elementIsOpen := false
      nodeStack := names
      layer := w.layer - 1 } := by
  have hend (w : XmlWriter) : (writeUTF8 (xmlText "</") false >>= fun _ =>
      writeUTF8 name false >>= fun _ => writeUTF8 (xmlText ">") true) w = .ok () { w with
        output := w.output ++ renderEnd name w.lineEnding, isFreshLine := true } := by
    rw [bind_of_ok (writeUTF8_text (by decide) (.inl (by decide))),
      bind_of_ok (writeUTF8_text hn (.inr rfl)), writeUTF8_line (by decide)]
    simp only [renderEnd, List.append_assoc]
  unfold writeFullEndElement writeSpaces writeData
  rw [bind_of_ok (closeCurrentElement_text w),
    bind_of_ok (@popNode_ok _ name names (by exact hs) (by exact hl)), get_bind]
  dsimp only
  cases ho : w.elementIsOpen with
  | true =>
    rw [doIf_bind_of_neg nofun, hend]
    rfl
  | false =>
    by_cases hf : w.isFreshLine = true
    · rw [doIf_bind_of_pos (by simp [hf]), modify_bind, hend]
      simp [hf]
    · rw [doIf_bind_of_neg (by simp [hf]), hend]
      simp [hf]

/-- An element without content. -/
theorem writeEndElement_ok {name : List UInt8} {names : List (List UInt8)}
    (hs : w.nodeStack = name :: names) (hl : w.layer ≠ 0) (ho : w.elementIsOpen = true) :
    writeEndElement w = .ok () { w with
      output := w.output ++ (xmlText "/>" ++ w.lineEnding)
      isFreshLine := true
      elementIsOpen := false
      nodeStack := names
      layer := w.layer - 1 } := by
  unfold writeEndElement
  rw [get_bind, if_pos ho, bind_of_ok (writeUTF8_line (by decide)), modify_bind]
  dsimp only
  rw [bind_of_ok (@popNode_ok _ name names (by exact hs) (by exact hl)),
    List.append_assoc]
  rfl

/-! ## What is written -/

/-- The tag of the innermost element is open. -/
def tagIsOpen : List OpenElement → Bool
  | [] => false
  | e :: _ => e.content.isEmpty

/-- The writer is inside of the elements `es`, the innermost first, with `before` in front. -/
structure Writes (nl : List UInt8) (w : XmlWriter) (before : List UInt8) (es : List OpenElement) :
    Prop where
  lineEnding : w.lineEnding = nl
  output : w.output = before ++ renderOpen nl es
  nodeStack : w.nodeStack = es.map (·.name)
  layer : w.layer.toNat = es.length
  elementIsOpen : w.elementIsOpen = tagIsOpen es
  isFreshLine : w.isFreshLine = !tagIsOpen es

variable {nl before : List UInt8} {e e' : OpenElement} {es : List OpenElement}

/-- Going on inside of the innermost element closes its tag. -/
theorem renderOpen_closeTag (nl : List UInt8) (es : List OpenElement) :
    renderOpen nl es ++ (if tagIsOpen es then xmlText ">" ++ nl else []) = renderOuter nl es := by
  cases es with
  | nil => rfl
  | cons e es =>
    rw [renderOpen, renderOuter, tagIsOpen, renderEntered]
    cases he : e.content with
    | nil => simp [renderAll]
    | cons c cs => simp

/-- The end tag completes the element. -/
theorem renderOpen_end (nl : List UInt8) (e : OpenElement) (es : List OpenElement) :
    renderOpen nl (e :: es) ++ (if tagIsOpen (e :: es) then xmlText ">" else
      List.replicate es.length nativeXMLSpacing) ++ renderEnd e.name nl =
    renderOuter nl es ++ (e.close true).render nl es.length := by
  rw [renderOpen, tagIsOpen, close, renderEntered]
  cases he : e.content with
  | nil => simp [render]
  | cons c cs => simp [render]

/-- **`WriteStartElement`** opens an element. -/
theorem writes_startElement (h : Writes nl w before es) (hdepth : es.length + 1 < 2 ^ 32)
    (hp : (nsPrefix ++ xmlText ":").length ≤ nativeXMLMaxStringLength)
    (hn : localName.length ≤ nativeXMLMaxStringLength)
    (hns : nameSpace.length ≤ nativeXMLMaxStringLength)
    (hesc : escapeXMLString nameSpace = nameSpace) :
    Succeeds (writeStartElement nsPrefix localName nameSpace) w fun w' => Writes nl w' before
      (⟨nodeName nsPrefix localName, if nameSpace = [] then [] else [(xmlText "xmlns", nameSpace)],
        []⟩ :: es) := by
  refine .of_ok (writeStartElement_ok hp hn hns) ?_
  constructor
  · exact h.lineEnding
  · show w.output ++ _ ++ _ ++ _ = _
    rw [h.output, h.elementIsOpen, h.lineEnding, h.layer, List.append_assoc before,
      renderOpen_closeTag, renderOpen, if_pos rfl, renderTag]
    by_cases hne : nameSpace = []
    · simp [hne]
    · have hx : xmlText " xmlns=\"" = xmlText " " ++ xmlText "xmlns" ++ xmlText "=\"" := by decide
      simp [hne, renderAttribute, hesc, hx]
  · show _ :: w.nodeStack = _
    rw [h.nodeStack]
    rfl
  · show (w.layer + 1).toNat = _
    have hl := h.layer
    rw [BitVec.toNat_add, hl]
    exact Nat.mod_eq_of_lt hdepth
  · rfl
  · rfl

/-- **`WriteAttributeString`** adds to the tag that is open. -/
theorem writes_attribute (h : Writes nl w before (e :: es)) (he : e.content = [])
    (hp : nsPrefix.length ≤ nativeXMLMaxStringLength)
    (hn : localName.length ≤ nativeXMLMaxStringLength) (hv : Fits value) :
    Succeeds (writeAttributeString nsPrefix localName value) w fun w' => Writes nl w' before
      ({ e with attributes := e.attributes ++ [(nodeName nsPrefix localName, value)] } :: es) := by
  have hopen : tagIsOpen (e :: es) = true := by rw [tagIsOpen, he]; rfl
  refine .of_ok (writeAttributeString_ok (h.elementIsOpen.trans hopen) hp hn hv) ?_
  constructor
  · exact h.lineEnding
  · show w.output ++ _ = _
    rw [h.output, renderOpen, renderOpen, if_pos he, if_pos he]
    simp [renderTag]
  · exact h.nodeStack
  · exact h.layer
  · exact h.elementIsOpen
  · exact (congrArg not hopen).symm

/-- **`WriteEndElement`** closes an element without content. -/
theorem writes_endElement (h : Writes nl w before (e :: e' :: es)) (he : e.content = []) :
    Succeeds writeEndElement w fun w' => Writes nl w' before (e'.add (e.close false) :: es) := by
  have hl := h.layer
  have hopen : tagIsOpen (e :: e' :: es) = true := by rw [tagIsOpen, he]; rfl
  have hne : tagIsOpen (e'.add (e.close false) :: es) = false := by simp [tagIsOpen, add]
  have hl0 : w.layer ≠ 0 := by
    intro h0
    rw [h0] at hl
    cases hl
  refine .of_ok (writeEndElement_ok h.nodeStack hl0 (h.elementIsOpen.trans hopen)) ?_
  constructor
  · exact h.lineEnding
  · show w.output ++ _ = _
    rw [h.output, renderOpen_add, renderOpen, if_pos he, close, he, render, h.lineEnding]
    simp [renderOuter]
  · rfl
  · show (w.layer - 1).toNat = _
    rw [List.length_cons, List.length_cons] at hl
    rw [List.length_cons]
    bv_omega
  · exact hne.symm
  · rw [hne]
    rfl

/-- What `WriteFullEndElement` does to the innermost element. -/
theorem writeFullEndElement_of_writes (h : Writes nl w before (e :: es))
    (hn : e.name.length ≤ nativeXMLMaxStringLength) :
    writeFullEndElement w = .ok () { w with
      output := before ++ renderOuter nl es ++ (e.close true).render nl es.length
      isFreshLine := true
      elementIsOpen := false
      nodeStack := es.map (·.name)
      layer := w.layer - 1 } ∧ (w.layer - 1).toNat = es.length := by
  have hl := h.layer
  rw [List.length_cons] at hl
  have hl0 : w.layer ≠ 0 := by
    intro h0
    rw [h0] at hl
    cases hl
  have hl1 : (w.layer - 1).toNat = es.length := by bv_omega
  refine ⟨?_, hl1⟩
  rw [writeFullEndElement_ok h.nodeStack hl0 hn, h.output, h.elementIsOpen, h.isFreshLine,
    h.lineEnding, hl1]
  have hend := renderOpen_end nl e es
  have hspaces : (if tagIsOpen (e :: es) then xmlText ">" else
      if (!tagIsOpen (e :: es)) = true then List.replicate es.length nativeXMLSpacing else []) =
      if tagIsOpen (e :: es) then xmlText ">" else List.replicate es.length nativeXMLSpacing := by
    cases tagIsOpen (e :: es) <;> rfl
  rw [hspaces, List.append_assoc before, List.append_assoc before, hend, ← List.append_assoc]

/-- **`WriteFullEndElement`** closes an element. -/
theorem writes_fullEndElement (h : Writes nl w before (e :: e' :: es))
    (hn : e.name.length ≤ nativeXMLMaxStringLength) :
    Succeeds writeFullEndElement w fun w' =>
      Writes nl w' before (e'.add (e.close true) :: es) := by
  obtain ⟨hw, hl⟩ := writeFullEndElement_of_writes h hn
  have hne : tagIsOpen (e'.add (e.close true) :: es) = false := by simp [tagIsOpen, add]
  refine .of_ok hw ⟨h.lineEnding, ?_, rfl, hl, hne.symm, by rw [hne]; rfl⟩
  show before ++ _ ++ _ = _
  rw [renderOpen_add, List.append_assoc]
  rfl

/-- It completes the document with the outermost element. -/
theorem writes_lastEndElement (h : Writes nl w before [e])
    (hn : e.name.length ≤ nativeXMLMaxStringLength) :
    Succeeds writeFullEndElement w fun w' =>
      Writes nl w' (before ++ (e.close true).render nl 0) [] := by
  obtain ⟨hw, hl⟩ := writeFullEndElement_of_writes h hn
  refine .of_ok hw ⟨h.lineEnding, ?_, rfl, hl, rfl, rfl⟩
  show before ++ _ ++ _ = _
  simp [renderOuter, renderOpen]

end XmlWriter

end NMR
