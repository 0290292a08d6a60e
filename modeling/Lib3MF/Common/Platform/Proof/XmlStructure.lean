import Lib3MF.Common.Platform.XmlSession
import Lib3MF.Common.Platform.Proof.XmlWriter
import Lib3MF.Lib.Markup

/-!
# The markup the writer makes

Whatever is called, as long as no call throws: what the writer has written is the text of the
elements on its stack and of the items in them (`Keeps`), so the beginning of well-formed markup.
Raw lines are written as they are; a name space is written without escaping.
-/

namespace NMR

open Lib Markup

/-- The calls of the writer, with raw lines. -/
inductive XmlMarkupCall where
  | call (c : XmlWriterCall)
  | rawLine (bytes : List UInt8)
  deriving DecidableEq

namespace XmlWriter

/-- One call. -/
def markupCall : XmlMarkupCall → XmlWriterM Unit
  | .call c => call c
  | .rawLine bytes => writeRawLine bytes

/-- The names of a call are names, and its name space may stand in an attribute. -/
def ValidNames : XmlMarkupCall → Prop
  | .call (.startElement nsPrefix localName nameSpace) =>
    (nsPrefix = [] ∨ IsName nsPrefix) ∧ IsName localName ∧ IsValue nameSpace
  | .call (.attributeString nsPrefix localName _) =>
    (nsPrefix = [] ∨ IsName nsPrefix) ∧ IsName localName
  | _ => True

/-- A raw line is well-formed markup. -/
def ValidLine : XmlMarkupCall → Prop
  | .rawLine bytes => ∃ is, AllWellFormed is ∧ renderAll is = bytes
  | _ => True

/-- The names of the elements that are open, the innermost first. -/
def openNames (names : List (List UInt8)) : XmlMarkupCall → List (List UInt8)
  | .call (.startElement nsPrefix localName _) => nodeName nsPrefix localName :: names
  | .call .endElement | .call .fullEndElement => names.tail
  | _ => names

variable {w w' w'' : XmlWriter} {s t nl : List UInt8} {u : Unit}

/-! ## Bytes that are appended -/

/-- From `w` to `w'` the bytes `s` were written, and the elements are as they were. -/
structure Wrote (s : List UInt8) (w w' : XmlWriter) : Prop where
  output : w'.output = w.output ++ s
  lineEnding : w'.lineEnding = w.lineEnding
  layer : w'.layer = w.layer
  nodeStack : w'.nodeStack = w.nodeStack
  elementIsOpen : w'.elementIsOpen = w.elementIsOpen

theorem Wrote.refl (w : XmlWriter) : Wrote [] w w := ⟨by simp, rfl, rfl, rfl, rfl⟩

theorem Wrote.trans (h : Wrote s w w') (h' : Wrote t w' w'') : Wrote (s ++ t) w w'' where
  output := by rw [h'.output, h.output, List.append_assoc]
  lineEnding := h'.lineEnding.trans h.lineEnding
  layer := h'.layer.trans h.layer
  nodeStack := h'.nodeStack.trans h.nodeStack
  elementIsOpen := h'.elementIsOpen.trans h.elementIsOpen

/-- A computation that, where it succeeds with the line ending `nl`, writes `s`. -/
def Writing (nl : List UInt8) (x : XmlWriterM Unit) (s : List UInt8) : Prop :=
  ∀ w u w', w.lineEnding = nl → x w = .ok u w' → Wrote s w w'

theorem Writing.bind {x : XmlWriterM Unit} {f : Unit → XmlWriterM Unit} (hx : Writing nl x s)
    (hf : ∀ u, Writing nl (f u) t) : Writing nl (x >>= f) (s ++ t) := by
  intro w u w' hnl h
  obtain ⟨a, v, h1, h2⟩ := bind_state_ok.1 h
  have hw := hx w a v hnl h1
  exact hw.trans (hf a v u w' (hw.lineEnding.trans hnl) h2)

theorem Writing.congr {x : XmlWriterM Unit} (hx : Writing nl x s) (h : s = t) :
    Writing nl x t := h ▸ hx

theorem writing_writeData (bytes : List UInt8) : Writing nl (writeData bytes) bytes := by
  intro w u w' _ h
  cases h
  exact ⟨rfl, rfl, rfl, rfl, rfl⟩

theorem writing_fresh (b : Bool) :
    Writing nl (modify fun w => { w with isFreshLine := b }) [] := by
  intro w u w' _ h
  cases h
  exact ⟨by simp, rfl, rfl, rfl, rfl⟩

theorem writing_require (c : Prop) [Decidable c] (e : Error) : Writing nl (require c e) [] := by
  intro w u w' _ h
  unfold require at h
  split_ifs at h
  · cases h
    exact Wrote.refl w
  · cases h

theorem writing_doIf {c : Prop} [Decidable c] {x : XmlWriterM Unit} (hx : Writing nl x s) :
    Writing nl (doIf c x) (if c then s else []) := by
  intro w u w' hnl h
  by_cases hc : c
  · rw [doIf_of_pos hc] at h
    rw [if_pos hc]
    exact hx w u w' hnl h
  · rw [doIf_of_neg hc] at h
    cases h
    rw [if_neg hc]
    exact Wrote.refl w

theorem writing_lineEnding (f : XmlWriterM Unit) (hf : Writing nl f []) :
    Writing nl (do
      let w ← get
      writeData w.lineEnding
      f) nl := by
  intro w u w' hnl h
  rw [get_bind] at h
  have hw := ((writing_writeData w.lineEnding).bind fun _ => hf) w u w' hnl h
  rwa [List.append_nil, hnl] at hw

theorem writing_writeUTF8 (s : List UInt8) (newLine : Bool) :
    Writing nl (writeUTF8 s newLine) (s ++ if newLine then nl else []) := by
  refine ((writing_require _ _).bind fun _ =>
    (writing_doIf ((writing_writeData s).bind fun _ => writing_fresh false)).bind fun _ =>
      writing_doIf (writing_lineEnding _ (writing_fresh true))).congr ?_
  by_cases hs : s = [] <;> simp [hs]

theorem writing_writeXMLString (s : List UInt8) :
    Writing nl (writeXMLString s) (escapeXMLString s) := by
  unfold writeXMLString
  split_ifs
  · exact (writing_writeUTF8 _ false).congr (by simp)
  · exact ((writing_require _ _).bind fun _ => writing_writeUTF8 _ false).congr (by simp)

/-- The prefix and the name. -/
theorem writing_nodeName (nsPrefix localName : List UInt8) :
    Writing nl (doIf (nsPrefix ≠ []) (writeUTF8 (nsPrefix ++ xmlText ":") false) >>= fun _ =>
      writeUTF8 localName false) (nodeName nsPrefix localName) := by
  refine ((writing_doIf (writing_writeUTF8 _ false)).bind fun _ =>
    writing_writeUTF8 localName false).congr ?_
  by_cases hp : nsPrefix = [] <;> simp [hp, nodeName]

/-- The name space of an element, as it is written. -/
theorem writing_nameSpace (nameSpace : List UInt8) :
    Writing nl (doIf (nameSpace ≠ []) do
      writeUTF8 (xmlText " xmlns=\"") false
      writeUTF8 nameSpace false
      writeUTF8 (xmlText "\"") false)
      ((if nameSpace = [] then [] else [(xmlText "xmlns", nameSpace)]).flatMap renderAttribute) := by
  refine (writing_doIf ((writing_writeUTF8 _ false).bind fun _ =>
    (writing_writeUTF8 _ false).bind fun _ => writing_writeUTF8 _ false)).congr ?_
  have hx : xmlText " xmlns=\"" = 32 :: xmlText "xmlns" ++ [61, 34] := by decide
  have hq : xmlText "\"" = [34] := by decide
  by_cases hn : nameSpace = [] <;> simp [hn, renderAttribute, hx, hq]

/-- An attribute, where a tag is open. -/
theorem wrote_attribute {nsPrefix localName value : List UInt8} (ho : w.elementIsOpen = true)
    (h : writeAttributeString nsPrefix localName value w = .ok u w') :
    Wrote (renderAttribute (nodeName nsPrefix localName, escapeXMLString value)) w w' := by
  unfold writeAttributeString at h
  rw [get_bind, doIf_of_pos ho] at h
  have hw := ((@writing_writeUTF8 w.lineEnding (xmlText " ") false).bind fun _ =>
    (writing_doIf ((writing_writeUTF8 nsPrefix false).bind fun _ =>
      writing_writeUTF8 (xmlText ":") false)).bind fun _ =>
    (writing_writeUTF8 localName false).bind fun _ =>
    (writing_writeUTF8 (xmlText "=\"") false).bind fun _ =>
    (writing_writeXMLString value).bind fun _ =>
      writing_writeUTF8 (xmlText "\"") false) w u w' rfl h
  have hsp : xmlText " " = [32] := by decide
  have he : xmlText "=\"" = [61, 34] := by decide
  have hq : xmlText "\"" = [34] := by decide
  by_cases hp : nsPrefix = [] <;>
    simpa [hp, renderAttribute, nodeName, hsp, he, hq] using hw

/-! ## Names and values -/

theorem isName_xmlns : IsName (xmlText "xmlns") := by
  have hx : xmlText "xmlns" = [120, 109, 108, 110, 115] := by decide
  rw [hx]
  exact And.intro (by decide) (by simp [isNameByte, isNameStart])

theorem isName_nodeName {nsPrefix localName : List UInt8} (hp : nsPrefix = [] ∨ IsName nsPrefix)
    (hn : IsName localName) : IsName (nodeName nsPrefix localName) := by
  rcases hp with rfl | hp
  · exact hn
  · have hne : nsPrefix ≠ [] := by
      rintro rfl
      exact hp
    rw [nodeName, if_neg hne, List.append_assoc]
    exact hp.join hn

/-- What is escaped may stand in a value. -/
theorem isValue_escapeXMLChar (c : UInt8) : IsValue (escapeXMLChar c) := by
  have hent {e : List UInt8} (he : e ∈ entities) : IsValue (38 :: e) := isValue_entity he
  unfold escapeXMLChar
  split_ifs with h1 h2 h3 h4 h5
  · exact hent (e := [113, 117, 111, 116, 59]) (by decide)
  · exact hent (e := [97, 109, 112, 59]) (by decide)
  · exact hent (e := [97, 112, 111, 115, 59]) (by decide)
  · exact hent (e := [108, 116, 59]) (by decide)
  · exact hent (e := [103, 116, 59]) (by decide)
  · refine ⟨?_, isData_of_plain ?_ ?_⟩
    · exact fun h => h1 (List.mem_singleton.1 h).symm
    · exact fun h => h4 (List.mem_singleton.1 h).symm
    · exact fun h => h2 (List.mem_singleton.1 h).symm

theorem isValue_escapeXMLString (s : List UInt8) : IsValue (escapeXMLString s) := by
  induction s with
  | nil => exact ⟨List.not_mem_nil, isData_nil⟩
  | cons c s ih => exact (isValue_escapeXMLChar c).append ih

/-! ## What a writer keeps -/

/-- What is written is the text of the items before and of the elements that are open. -/
structure Keeps (nl : List UInt8) (w : XmlWriter) (top : List Item) (path : List Open) : Prop where
  lineEnding : w.lineEnding = nl
  output : w.output = written top path w.elementIsOpen
  nodeStack : w.nodeStack = path.map Open.name
  layer : w.layer = BitVec.ofNat 32 path.length
  tag : w.elementIsOpen = true → ∃ e es, path = e :: es ∧ e.content = []
  top_wellFormed : AllWellFormed top
  path_wellFormed : ∀ e ∈ path, e.WellFormed

variable {top is : List Item} {path : List Open}

theorem keeps_create (nl : List UInt8) : Keeps nl (create nl) [] [] :=
  ⟨rfl, rfl, rfl, rfl, nofun, trivial, nofun⟩

/-- Items that are written inside of the path. -/
theorem Keeps.add (h : Keeps nl w top path) (ho : w.elementIsOpen = false)
    (hw : Wrote (renderAll is) w w') (hi : AllWellFormed is) :
    Keeps nl w' (addTop top is path) (addPath is path) where
  lineEnding := hw.lineEnding.trans h.lineEnding
  output := by rw [hw.output, hw.elementIsOpen, h.output, ho, written_add]
  nodeStack := by rw [hw.nodeStack, h.nodeStack, names_addPath]
  layer := by rw [hw.layer, h.layer, length_addPath]
  tag ht := by rw [hw.elementIsOpen, ho] at ht; cases ht
  top_wellFormed := allWellFormed_addTop h.top_wellFormed hi path
  path_wellFormed := wellFormed_addPath h.path_wellFormed hi

/-- White space. -/
theorem wellFormed_text {s : List UInt8} (hs : IsData s) : AllWellFormed [.text s] :=
  allWellFormed_singleton.2 hs

theorem isData_spaces (n : Nat) : IsData (List.replicate n nativeXMLSpacing) := by
  refine isData_of_plain (fun h => ?_) fun h => ?_
  · exact absurd (List.eq_of_mem_replicate h) (by decide)
  · exact absurd (List.eq_of_mem_replicate h) (by decide)

/-- The line endings of the compilers. -/
def IsLineEnding (nl : List UInt8) : Prop := nl = [10] ∨ nl = [13, 10]

theorem IsLineEnding.isData (h : IsLineEnding nl) : IsData nl := by
  rcases h with rfl | rfl <;> exact isData_of_plain (by decide) (by decide)

/-- What is not markup does not matter. -/
theorem Keeps.congr (h : Keeps nl w top path) (hw : Wrote [] w w') : Keeps nl w' top path where
  lineEnding := hw.lineEnding.trans h.lineEnding
  output := by rw [hw.output, hw.elementIsOpen, h.output, List.append_nil]
  nodeStack := hw.nodeStack.trans h.nodeStack
  layer := hw.layer.trans h.layer
  tag ht := h.tag (hw.elementIsOpen ▸ ht)
  top_wellFormed := h.top_wellFormed
  path_wellFormed := h.path_wellFormed

/-- The bracket of a start tag. -/
theorem Keeps.bracket (h : Keeps nl w top path) (ho : w.elementIsOpen = true)
    (hl : w'.lineEnding = w.lineEnding) (hout : w'.output = w.output ++ [62])
    (hs : w'.nodeStack = w.nodeStack) (hlay : w'.layer = w.layer)
    (hc : w'.elementIsOpen = false) : Keeps nl w' top path where
  lineEnding := hl.trans h.lineEnding
  output := by
    obtain ⟨e, es, rfl, he⟩ := h.tag ho
    rw [hout, hc, h.output, ho, written_bracket top he]
  nodeStack := hs.trans h.nodeStack
  layer := hlay.trans h.layer
  tag ht := by rw [hc] at ht; cases ht
  top_wellFormed := h.top_wellFormed
  path_wellFormed := h.path_wellFormed

/-- The start tag of the innermost element gets its bracket, where that is missing. -/
theorem Keeps.closeTag (h : Keeps nl w top path) (hnl : IsLineEnding nl) {newLine : Bool}
    (hc : closeCurrentElement newLine w = .ok u w') :
    w'.elementIsOpen = false ∧ ∃ top' path', Keeps nl w' top' path' ∧
      path'.map Open.name = path.map Open.name := by
  cases newLine with
  | false =>
    rw [closeCurrentElement_text] at hc
    cases hc
    refine ⟨rfl, top, path, ?_, rfl⟩
    cases ho : w.elementIsOpen with
    | true => exact h.bracket ho rfl rfl rfl rfl rfl
    | false => exact h.congr ⟨rfl, rfl, rfl, rfl, ho.symm⟩
  | true =>
    rw [closeCurrentElement_line] at hc
    cases hc
    refine ⟨rfl, ?_⟩
    cases ho : w.elementIsOpen with
    | true =>
      let v : XmlWriter := { w with output := w.output ++ [62], elementIsOpen := false }
      have hv : Keeps nl v top path := h.bracket ho rfl rfl rfl rfl rfl
      refine ⟨_, _, hv.add rfl ⟨?_, rfl, rfl, rfl, rfl⟩ (wellFormed_text hnl.isData),
        names_addPath ..⟩
      show w.output ++ ([62] ++ w.lineEnding) = w.output ++ [62] ++ renderAll [.text nl]
      rw [renderAll_singleton, render, h.lineEnding, List.append_assoc]
    | false => exact ⟨top, path, h.congr ⟨rfl, rfl, rfl, rfl, ho.symm⟩, rfl⟩

/-! ## Calls -/

/-- What `WriteStartElement` has written behind the tag before: white space, and its own tag. -/
theorem startElement_inv {nsPrefix localName nameSpace : List UInt8}
    (hc : writeStartElement nsPrefix localName nameSpace w = .ok u w') :
    ∃ w1 w2, closeCurrentElement true w = .ok () w1 ∧
      Wrote (List.replicate w1.layer.toNat nativeXMLSpacing) w1 w2 ∧
      w'.lineEnding = w2.lineEnding ∧
      w'.output = w2.output ++ renderTag (nodeName nsPrefix localName)
        (if nameSpace = [] then [] else [(xmlText "xmlns", nameSpace)]) ∧
      w'.nodeStack = nodeName nsPrefix localName :: w2.nodeStack ∧
      w'.layer = w2.layer + 1 ∧ w'.elementIsOpen = true := by
  unfold writeStartElement at hc
  obtain ⟨_, w1, h1, hc⟩ := bind_state_ok.1 hc
  rw [get_bind] at hc
  obtain ⟨_, w2, h2, hc⟩ := bind_state_ok.1 hc
  obtain ⟨_, w3, h3, hc⟩ := bind_state_ok.1 hc
  rw [modify_bind] at hc
  obtain ⟨_, w4, h4, hc⟩ := bind_state_ok.1 hc
  obtain ⟨_, w5, h5, hc⟩ := bind_state_ok.1 hc
  rw [modify_bind] at hc
  have hw3 := writing_writeUTF8 (xmlText "<") false w2 _ w3 rfl h3
  have hw5 := writing_nodeName nsPrefix localName _ _ w5 rfl ((bind_of_ok h4).trans h5)
  have hw := writing_nameSpace nameSpace _ _ w' rfl hc
  refine ⟨w1, w2, h1, writing_writeData _ w1 _ w2 rfl h2, ?_, ?_, ?_, ?_,
    hw.elementIsOpen.trans hw5.elementIsOpen⟩
  · exact hw.lineEnding.trans (hw5.lineEnding.trans hw3.lineEnding)
  · have hlt : xmlText "<" = [60] := by decide
    rw [hw.output]
    show w5.output ++ _ = _
    rw [hw5.output]
    show w3.output ++ _ ++ _ = _
    rw [hw3.output, renderTag, hlt]
    simp
  · rw [hw.nodeStack]
    show _ :: w5.nodeStack = _
    rw [hw5.nodeStack]
    show _ :: w3.nodeStack = _
    rw [hw3.nodeStack]
  · rw [hw.layer]
    show w5.layer + 1 = _
    rw [hw5.layer]
    show w3.layer + 1 = _
    rw [hw3.layer]

/-- `WriteStartElement` opens an element. -/
theorem Keeps.startElement {nsPrefix localName nameSpace : List UInt8} (h : Keeps nl w top path)
    (hnl : IsLineEnding nl)
    (hn : ValidNames (.call (.startElement nsPrefix localName nameSpace)))
    (hc : writeStartElement nsPrefix localName nameSpace w = .ok u w') :
    ∃ top' path', Keeps nl w' top' path' ∧
      path'.map Open.name = nodeName nsPrefix localName :: path.map Open.name := by
  obtain ⟨hp, hname, hns⟩ := hn
  obtain ⟨w1, w2, h1, hw, hle, hout, hstack, hlayer, hopen⟩ := startElement_inv hc
  obtain ⟨ho, top', path', hk, hnames⟩ := h.closeTag hnl h1
  -- the indentation is white space in the content
  have hspaces : Wrote (renderAll [.text (List.replicate w1.layer.toNat nativeXMLSpacing)]) w1 w2 := by
    rw [renderAll_singleton, render]
    exact hw
  obtain ⟨top2, path2, hk2, hnames2⟩ : ∃ top2 path2, Keeps nl w2 top2 path2 ∧
      path2.map Open.name = path.map Open.name :=
    ⟨_, _, hk.add ho hspaces (wellFormed_text (isData_spaces _)), (names_addPath ..).trans hnames⟩
  refine ⟨top2, ⟨nodeName nsPrefix localName,
    if nameSpace = [] then [] else [(xmlText "xmlns", nameSpace)], []⟩ :: path2, ?_,
    congrArg _ hnames2⟩
  have ho2 : w2.elementIsOpen = false := hspaces.elementIsOpen.trans ho
  refine ⟨hle.trans hk2.lineEnding, ?_, ?_, ?_, fun _ => ⟨_, _, rfl, rfl⟩, hk2.top_wellFormed, ?_⟩
  · rw [hopen, written_push, hout, hk2.output, ho2]
  · rw [hstack, hk2.nodeStack]
    rfl
  · rw [hlayer, hk2.layer, List.length_cons, BitVec.ofNat_add]
    rfl
  · intro e he
    rcases List.mem_cons.1 he with rfl | he
    · refine ⟨⟨isName_nodeName hp hname, fun a ha => ?_⟩, trivial⟩
      split_ifs at ha
      · cases ha
      · obtain rfl := List.mem_singleton.1 ha
        exact ⟨isName_xmlns, hns⟩
    · exact hk2.path_wellFormed e he

/-- `WriteAttributeString` adds to the tag that is open, and does nothing elsewhere. -/
theorem Keeps.attributeString {nsPrefix localName value : List UInt8} (h : Keeps nl w top path)
    (hn : ValidNames (.call (.attributeString nsPrefix localName value)))
    (hc : writeAttributeString nsPrefix localName value w = .ok u w') :
    ∃ top' path', Keeps nl w' top' path' ∧ path'.map Open.name = path.map Open.name := by
  cases ho : w.elementIsOpen with
  | false =>
    unfold writeAttributeString at hc
    rw [get_bind, doIf_of_neg (by simp [ho])] at hc
    cases hc
    exact ⟨top, path, h, rfl⟩
  | true =>
    have hw := wrote_attribute ho hc
    obtain ⟨e, es, rfl, he⟩ := h.tag ho
    have hopen : w'.elementIsOpen = true := hw.elementIsOpen.trans ho
    obtain ⟨⟨hname, hattr⟩, hcont⟩ := h.path_wellFormed e List.mem_cons_self
    refine ⟨top, { e with attributes := e.attributes ++
      [(nodeName nsPrefix localName, escapeXMLString value)] } :: es,
      ⟨hw.lineEnding.trans h.lineEnding, ?_, hw.nodeStack.trans h.nodeStack,
        hw.layer.trans h.layer, fun _ => ⟨_, _, rfl, he⟩, h.top_wellFormed, ?_⟩, rfl⟩
    · rw [hopen, written_attribute, hw.output, h.output, ho]
    · intro x hx
      rcases List.mem_cons.1 hx with rfl | hx
      · refine ⟨⟨hname, fun a ha => ?_⟩, hcont⟩
        rcases List.mem_append.1 ha with ha | ha
        · exact hattr a ha
        · obtain rfl := List.mem_singleton.1 ha
          exact ⟨isName_nodeName hn.1 hn.2, isValue_escapeXMLString value⟩
      · exact h.path_wellFormed x (List.mem_cons_of_mem _ hx)

/-- `WriteText` adds data. -/
theorem Keeps.text {content : List UInt8} (h : Keeps nl w top path) (hnl : IsLineEnding nl)
    (hc : writeText content w = .ok u w') :
    ∃ top' path', Keeps nl w' top' path' ∧ path'.map Open.name = path.map Open.name := by
  unfold writeText at hc
  obtain ⟨_, w1, h1, h2⟩ := bind_state_ok.1 hc
  obtain ⟨ho, top', path', hk, hnames⟩ := h.closeTag hnl h1
  have hw : Wrote (renderAll [.text (escapeXMLString content)]) w1 w' := by
    rw [renderAll_singleton, render]
    exact writing_writeXMLString content w1 _ w' rfl h2
  exact ⟨_, _, hk.add ho hw (wellFormed_text (isValue_escapeXMLString content).2),
    (names_addPath ..).trans hnames⟩

/-- `WriteRawLine` adds the items of the line. -/
theorem Keeps.rawLine {bytes : List UInt8} (h : Keeps nl w top path) (hnl : IsLineEnding nl)
    (hl : ValidLine (.rawLine bytes)) (hc : writeRawLine bytes w = .ok u w') :
    ∃ top' path', Keeps nl w' top' path' ∧ path'.map Open.name = path.map Open.name := by
  obtain ⟨is, his, rfl⟩ := hl
  unfold writeRawLine at hc
  rw [get_bind] at hc
  obtain ⟨_, w1, h1, h2⟩ := bind_state_ok.1 hc
  have hclose : closeCurrentElement true w = .ok () w1 := by
    by_cases ho : w.elementIsOpen = true
    · rwa [doIf_of_pos ho] at h1
    · rw [doIf_of_neg ho] at h1
      cases h1
      unfold closeCurrentElement
      rw [get_bind, doIf_of_neg ho]
  obtain ⟨ho, top', path', hk, hnames⟩ := h.closeTag hnl hclose
  have hle : w.lineEnding = nl := h.lineEnding
  have hw := ((writing_writeData (List.replicate w.layer.toNat nativeXMLSpacing)).bind fun _ =>
    (writing_writeData (renderAll is)).bind fun _ =>
      writing_writeData w.lineEnding) w1 _ w' rfl h2
  have hrender : Wrote (renderAll ([.text (List.replicate w.layer.toNat nativeXMLSpacing)] ++ is ++
      [.text nl])) w1 w' := by
    rw [renderAll_append, renderAll_append, renderAll_singleton, renderAll_singleton, render, render,
      List.append_assoc, ← hle]
    exact hw
  refine ⟨_, _, hk.add ho hrender ?_, (names_addPath ..).trans hnames⟩
  exact allWellFormed_append.2 ⟨allWellFormed_append.2 ⟨wellFormed_text (isData_spaces _), his⟩,
    wellFormed_text hnl.isData⟩

/-- What is taken from the stack. -/
theorem popNode_inv {name : List UInt8} (h : popNode w = .ok name w') :
    ∃ names, w.nodeStack = name :: names ∧
      w' = { w with nodeStack := names, layer := w.layer - 1 } := by
  unfold popNode at h
  split at h
  · cases h
  · rename_i n names hs
    split_ifs at h
    cases h
    exact ⟨names, hs, rfl⟩

/-- Nothing is taken from an empty stack. -/
theorem popNode_nil (h : w.nodeStack = []) : popNode w = .error .xmlWriterCloseNodeError w := by
  unfold popNode
  rw [h]

/-- The tag that is open becomes an empty tag. -/
theorem endElement_inv (ho : w.elementIsOpen = true) (hc : writeEndElement w = .ok u w') :
    ∃ name names v, w.nodeStack = name :: names ∧ Wrote ([47, 62] ++ w.lineEnding) w v ∧
      w' = { v with elementIsOpen := false, nodeStack := names, layer := v.layer - 1 } := by
  unfold writeEndElement at hc
  rw [get_bind, if_pos ho] at hc
  obtain ⟨_, v, h1, hc⟩ := bind_state_ok.1 hc
  rw [modify_bind] at hc
  obtain ⟨name, v2, h2, hc⟩ := bind_state_ok.1 hc
  cases hc
  obtain ⟨names, hs, rfl⟩ := popNode_inv h2
  have hw := writing_writeUTF8 (xmlText "/>") true w _ v rfl h1
  exact ⟨name, names, v, hw.nodeStack.symm.trans hs, hw, rfl⟩

/-- The end tag of the innermost element is written. -/
theorem fullEndElement_inv (hc : writeFullEndElement w = .ok u w') :
    ∃ w1 name names, closeCurrentElement false w = .ok () w1 ∧ w1.nodeStack = name :: names ∧
      Wrote ((if w1.isFreshLine then List.replicate (w1.layer - 1).toNat nativeXMLSpacing else []) ++
        (renderEnd name ++ w1.lineEnding))
        { w1 with nodeStack := names, layer := w1.layer - 1 } w' := by
  unfold writeFullEndElement at hc
  obtain ⟨_, w1, h1, hc⟩ := bind_state_ok.1 hc
  obtain ⟨name, w2, h2, hc⟩ := bind_state_ok.1 hc
  rw [get_bind] at hc
  obtain ⟨names, hs, rfl⟩ := popNode_inv h2
  refine ⟨w1, name, names, h1, hs, ?_⟩
  have hw := ((writing_doIf (writing_writeData _)).bind fun _ =>
    (writing_writeUTF8 (xmlText "</") false).bind fun _ =>
    (writing_writeUTF8 name false).bind fun _ =>
      writing_writeUTF8 (xmlText ">") true) _ _ w' rfl hc
  have hlt : xmlText "</" = [60, 47] := by decide
  have hgt : xmlText ">" = [62] := by decide
  simpa [renderEnd, hlt, hgt] using hw

/-- An element that is complete, and the line ending behind it. -/
theorem Keeps.ended {e : Open} {es : List Open} {i : Item} (h : Keeps nl w top (e :: es))
    (hnl : IsLineEnding nl) (hi : i.WellFormed) (hle : w'.lineEnding = nl)
    (hout : w'.output = written (addTop top [i] es) (addPath [i] es) false ++ nl)
    (hs : w'.nodeStack = es.map Open.name) (hl : w'.layer = w.layer - 1)
    (ho : w'.elementIsOpen = false) :
    ∃ top' path', Keeps nl w' top' path' ∧ path'.map Open.name = es.map Open.name := by
  let v : XmlWriter := { w' with output := written (addTop top [i] es) (addPath [i] es) false }
  have hv : Keeps nl v (addTop top [i] es) (addPath [i] es) := by
    refine ⟨hle, ?_, ?_, ?_, ?_, ?_, ?_⟩
    · show _ = written _ _ w'.elementIsOpen
      rw [ho]
    · rw [names_addPath]
      exact hs
    · show w'.layer = _
      rw [hl, h.layer, length_addPath, List.length_cons, BitVec.ofNat_add]
      exact BitVec.add_sub_cancel _ _
    · intro ht
      have hfalse : w'.elementIsOpen = true := ht
      rw [ho] at hfalse
      cases hfalse
    · exact allWellFormed_addTop h.top_wellFormed (allWellFormed_singleton.2 hi) es
    · exact wellFormed_addPath (fun x hx => h.path_wellFormed x (List.mem_cons_of_mem _ hx))
        (allWellFormed_singleton.2 hi)
  refine ⟨_, _, hv.add ho ⟨?_, rfl, rfl, rfl, rfl⟩ (wellFormed_text hnl.isData),
    (names_addPath ..).trans (names_addPath ..)⟩
  rw [renderAll_singleton, render]
  exact hout

/-- `WriteFullEndElement` ends the innermost element. -/
theorem Keeps.fullEndElement (h : Keeps nl w top path) (hnl : IsLineEnding nl)
    (hc : writeFullEndElement w = .ok u w') :
    ∃ top' path', Keeps nl w' top' path' ∧
      path'.map Open.name = (path.map Open.name).tail := by
  obtain ⟨w1, name, names, h1, hs, hw⟩ := fullEndElement_inv hc
  obtain ⟨ho, top1, path1, hk, hnames⟩ := h.closeTag hnl h1
  rw [← hnames]
  -- what is in front of the end tag is white space in the content
  have hspaces : IsData
      (if w1.isFreshLine then List.replicate (w1.layer - 1).toNat nativeXMLSpacing else []) := by
    split_ifs
    · exact isData_spaces _
    · exact isData_nil
  obtain ⟨s, hs'⟩ : ∃ s, s =
      if w1.isFreshLine then List.replicate (w1.layer - 1).toNat nativeXMLSpacing else [] := ⟨_, rfl⟩
  rw [← hs'] at hspaces hw
  have hstack := hk.nodeStack
  rw [hs] at hstack
  cases path1 with
  | nil => cases hstack
  | cons e es =>
    obtain ⟨rfl, rfl⟩ := List.cons_eq_cons.1 hstack
    let v : XmlWriter := { w1 with output := w1.output ++ s }
    have hv : Keeps nl v top1 (e.add [.text s] :: es) :=
      hk.add ho ⟨by rw [renderAll_singleton, render], rfl, rfl, rfl, rfl⟩ (wellFormed_text hspaces)
    have hwf := hv.path_wellFormed _ List.mem_cons_self
    refine hv.ended hnl (i := (e.add [.text s]).ended) hwf (hw.lineEnding.trans hk.lineEnding) ?_
      hw.nodeStack hw.layer (hw.elementIsOpen.trans ho)
    have hout := hv.output
    have hvo : v.elementIsOpen = false := ho
    rw [hvo] at hout
    rw [written_ended, ← hout, hw.output, ← hk.lineEnding]
    simp [v, Open.add]

/-- `WriteEndElement` ends the innermost element, with an empty tag where its tag is open. -/
theorem Keeps.endElement (h : Keeps nl w top path) (hnl : IsLineEnding nl)
    (hc : writeEndElement w = .ok u w') :
    ∃ top' path', Keeps nl w' top' path' ∧
      path'.map Open.name = (path.map Open.name).tail := by
  cases ho : w.elementIsOpen with
  | false =>
    unfold writeEndElement at hc
    rw [get_bind, if_neg (by simp [ho])] at hc
    exact h.fullEndElement hnl hc
  | true =>
    obtain ⟨name, names, v, hs, hw, rfl⟩ := endElement_inv ho hc
    obtain ⟨e, es, rfl, he⟩ := h.tag ho
    have hstack := h.nodeStack
    rw [hs] at hstack
    obtain ⟨rfl, rfl⟩ := List.cons_eq_cons.1 hstack
    have hwf := h.path_wellFormed _ List.mem_cons_self
    refine h.ended hnl (i := e.asEmpty) hwf.1 (hw.lineEnding.trans h.lineEnding) ?_ rfl
      (congrArg (· - 1) hw.layer) rfl
    show v.output = _
    rw [written_asEmpty, hw.output, h.output, ho, h.lineEnding, List.append_assoc]

/-- **One call** keeps the markup. -/
theorem Keeps.markupCall {c : XmlMarkupCall} (h : Keeps nl w top path) (hnl : IsLineEnding nl)
    (hn : ValidNames c) (hl : ValidLine c) (hc : markupCall c w = .ok u w') :
    ∃ top' path', Keeps nl w' top' path' ∧
      path'.map Open.name = openNames (path.map Open.name) c := by
  cases c with
  | rawLine bytes => exact h.rawLine hnl hl hc
  | call c =>
    cases c with
    | startElement nsPrefix localName nameSpace => exact h.startElement hnl hn hc
    | attributeString nsPrefix localName value => exact h.attributeString hn hc
    | text content => exact h.text hnl hc
    | endElement => exact h.endElement hnl hc
    | fullEndElement => exact h.fullEndElement hnl hc

/-- **Any calls** keep the markup. -/
theorem Keeps.run {calls : List XmlMarkupCall} (h : Keeps nl w top path) (hnl : IsLineEnding nl)
    (hn : ∀ c ∈ calls, ValidNames c) (hl : ∀ c ∈ calls, ValidLine c)
    (hc : calls.forM XmlWriter.markupCall w = .ok u w') :
    ∃ top' path', Keeps nl w' top' path' ∧
      path'.map Open.name = calls.foldl openNames (path.map Open.name) := by
  induction calls generalizing w top path with
  | nil =>
    cases hc
    exact ⟨top, path, h, rfl⟩
  | cons c calls ih =>
    change (XmlWriter.markupCall c >>= fun _ => calls.forM XmlWriter.markupCall) w = _ at hc
    obtain ⟨_, w1, h1, h2⟩ := bind_state_ok.1 hc
    obtain ⟨top1, path1, hk, hnames⟩ :=
      h.markupCall hnl (hn c List.mem_cons_self) (hl c List.mem_cons_self) h1
    rw [List.foldl_cons, ← hnames]
    exact ih hk (fun d hd => hn d (List.mem_cons_of_mem _ hd))
      (fun d hd => hl d (List.mem_cons_of_mem _ hd)) h2

/-! ## What the calls come to -/

/-- From `w` to `w'` the innermost element was ended: as an empty tag, or with an end tag of its
name behind the bracket of its start tag or white space. -/
def ClosesInnermost (w w' : XmlWriter) : Prop :=
  ∃ name names, w.nodeStack = name :: names ∧ w'.nodeStack = names ∧
    (w.elementIsOpen = true ∧ w'.output = w.output ++ ([47, 62] ++ w.lineEnding) ∨
      ∃ s, (w.elementIsOpen = true ∧ s = [62] ∨
          w.elementIsOpen = false ∧ ∀ c ∈ s, c = nativeXMLSpacing) ∧
        w'.output = w.output ++ (s ++ (renderEnd name ++ w.lineEnding)))

theorem closesInnermost_fullEndElement (hc : writeFullEndElement w = .ok u w') :
    ClosesInnermost w w' := by
  obtain ⟨w1, name, names, h1, hs, hw⟩ := fullEndElement_inv hc
  rw [closeCurrentElement_text] at h1
  cases h1
  refine ⟨name, names, hs, hw.nodeStack, .inr ?_⟩
  have hout := hw.output
  cases ho : w.elementIsOpen with
  | true =>
    have hgt : xmlText ">" = [62] := by decide
    exact ⟨[62], .inl ⟨rfl, rfl⟩, by simpa [ho, hgt] using hout⟩
  | false =>
    refine ⟨_, .inr ⟨rfl, ?_⟩, by simpa [ho] using hout⟩
    intro c hc
    split_ifs at hc
    · exact List.eq_of_mem_replicate hc
    · cases hc

theorem closesInnermost_endElement (hc : writeEndElement w = .ok u w') : ClosesInnermost w w' := by
  cases ho : w.elementIsOpen with
  | false =>
    unfold writeEndElement at hc
    rw [get_bind, if_neg (by simp [ho])] at hc
    exact closesInnermost_fullEndElement hc
  | true =>
    obtain ⟨name, names, v, hs, hw, rfl⟩ := endElement_inv ho hc
    exact ⟨name, names, hs, rfl, .inl ⟨ho, hw.output⟩⟩

/-- Nothing is ended where nothing is open. -/
theorem writeFullEndElement_nil (hs : w.nodeStack = []) :
    ∃ w', writeFullEndElement w = .error .xmlWriterCloseNodeError w' := by
  unfold writeFullEndElement
  rw [bind_of_ok (closeCurrentElement_text w)]
  exact ⟨_, bind_of_error (popNode_nil (by exact hs))⟩

theorem writeEndElement_nil (ho : w.elementIsOpen = false) (hs : w.nodeStack = []) :
    ∃ w', writeEndElement w = .error .xmlWriterCloseNodeError w' := by
  unfold writeEndElement
  rw [get_bind, if_neg (by simp [ho])]
  exact writeFullEndElement_nil hs

/-- **What the calls write is well-formed** as far as it goes. With valid names and well-formed raw
lines, where no call throws: the stack holds the names of the open elements, the layer counts them
modulo `2 ^ 32`, the output is the beginning of a well-formed sequence and the whole of one when
the stack is empty, and from there an end throws while any other ends the innermost element. -/
theorem output_wellFormed (hnl : IsLineEnding nl) {calls : List XmlMarkupCall}
    (hn : ∀ c ∈ calls, ValidNames c) (hl : ∀ c ∈ calls, ValidLine c)
    (hc : calls.forM markupCall (create nl) = .ok () w) :
    w.nodeStack = calls.foldl openNames [] ∧
    w.layer = BitVec.ofNat 32 w.nodeStack.length ∧
    (w.nodeStack.length < 2 ^ 32 → w.layer.toNat = w.nodeStack.length) ∧
    (∃ is, AllWellFormed is ∧ w.output <+: renderAll is) ∧
    (w.nodeStack = [] → ∃ is, AllWellFormed is ∧ w.output = renderAll is) ∧
    ∀ c : XmlWriterCall, c = .endElement ∨ c = .fullEndElement →
      (w.nodeStack = [] → ∃ w', call c w = .error .xmlWriterCloseNodeError w') ∧
      ∀ w', call c w = .ok () w' → ClosesInnermost w w' := by
  obtain ⟨top, path, hk, hnames⟩ := (keeps_create nl).run hnl hn hl hc
  have hlen : w.nodeStack.length = path.length := by rw [hk.nodeStack, List.length_map]
  have hpath (h : w.nodeStack = []) : path = [] := by
    rw [hk.nodeStack] at h
    exact List.map_eq_nil_iff.1 h
  have hclosed (h : w.nodeStack = []) : w.elementIsOpen = false := by
    by_contra ho
    obtain ⟨e, es, he, -⟩ := hk.tag (by simpa using ho)
    rw [hpath h] at he
    cases he
  refine ⟨hk.nodeStack.trans hnames, ?_, ?_, ?_, ?_, ?_⟩
  · rw [hk.layer, hlen]
  · intro hlt
    rw [hk.layer, BitVec.toNat_ofNat, ← hlen]
    exact Nat.mod_eq_of_lt hlt
  · rw [hk.output]
    exact written_prefix hk.top_wellFormed hk.path_wellFormed
  · intro h
    refine ⟨top, hk.top_wellFormed, ?_⟩
    rw [hk.output, hpath h, written]
  · rintro c (rfl | rfl)
    · exact ⟨fun h => writeEndElement_nil (hclosed h) h,
        fun w' hw => closesInnermost_endElement hw⟩
    · exact ⟨writeFullEndElement_nil,
        fun w' hw => closesInnermost_fullEndElement hw⟩

/-- `<a>`, the raw line `<b/>`, and the end. -/
theorem output_wellFormed_element : ∃ is, AllWellFormed is ∧
    [60, 97, 62, 10, 9, 60, 98, 47, 62, 10, 60, 47, 97, 62, 10] = renderAll is := by
  have hb : AllWellFormed [.empty [98] []] :=
    allWellFormed_singleton.2 ⟨And.intro (by decide) nofun, nofun⟩
  have hc : ([.call (.startElement [] [97] []), .rawLine [60, 98, 47, 62], .call .fullEndElement] :
      List XmlMarkupCall).forM markupCall (create [10]) = .ok () ⟨[10],
        [60, 97, 62, 10, 9, 60, 98, 47, 62, 10, 60, 47, 97, 62, 10], true, 0, [], false⟩ := by rfl
  refine (output_wellFormed (.inl rfl) ?_ ?_ hc).2.2.2.2.1 rfl
  · simp [ValidNames, IsName, IsValue, isData_nil]
    decide
  · simpa [ValidLine] using ⟨_, hb, by decide⟩

/-- A raw line is written as it is: an end tag that no start tag belongs to. -/
theorem rawLine_unbalanced :
    (∀ c ∈ [XmlMarkupCall.rawLine (xmlText "</a>")], ValidNames c) ∧
    ∃ w, [XmlMarkupCall.rawLine (xmlText "</a>")].forM markupCall (create [10]) = .ok () w ∧
      ¬ ∃ is, AllWellFormed is ∧ w.output <+: renderAll is := by
  refine ⟨by simp [ValidNames], _, rfl, ?_⟩
  rintro ⟨is, his, hp⟩
  exact not_endTag_prefix his (List.IsPrefix.trans ⟨_, rfl⟩ hp)

end XmlWriter

end NMR
