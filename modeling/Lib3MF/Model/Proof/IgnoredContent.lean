import Lib3MF.Lib.Keeps
import Lib3MF.Model.Reader.ModelReaderNodes
import Lib3MF.Model.Reader.ModelReaderStream

/-!
# The content of an element that is left unread

An element that `OnNSChildElement` leaves is not skipped: its attributes go by, but its children,
its texts and its end tags reach the node reader that left it. They go by as well exactly where
every one of them is left unread in turn and none has the local name of that node reader
(`Inert`); then the content can be replaced without a difference to what is read
(`ignoredContent_iff`).
-/

namespace NMR

open Lib

namespace NodeReaders

variable {ν ω : Type} {R : NodeReaders ν ω} {K K' : NodeStack ν ω} {f : NodeFrame ν}
  {fs : List (NodeFrame ν)}

/-- The name space of the child elements of a node reader. -/
def elementURI (K : NodeStack ν ω) (nsPrefix : String) : Option String :=
  if nsPrefix = "" then some K.reader.defaultNameSpace else K.reader.namespaceURI nsPrefix

/-- The node readers are where they were, with the model they read into; only the place of the XML
reader may differ. -/
structure Beside (K K' : NodeStack ν ω) : Prop where
  frames : K'.frames = K.frames
  world : K'.world = K.world
  nameSpaces : K'.reader.nameSpaces = K.reader.nameSpaces
  default : K'.reader.defaultNameSpace = K.reader.defaultNameSpace
  isEOF : K'.reader.isEOF = K.reader.isEOF

theorem Beside.refl (K : NodeStack ν ω) : Beside K K := ⟨rfl, rfl, rfl, rfl, rfl⟩

/-- No node reader takes anything of the entities. -/
def Untouched (R : NodeReaders ν ω) (K : NodeStack ν ω) (es : List XmlEntity) : Prop :=
  Keeps R.step (Beside K) K es

/-- The node reader `f` leaves a child element with this name, and stays as it is. -/
def Leaves (R : NodeReaders ν ω) (K : NodeStack ν ω) (f : NodeFrame ν) (nsPrefix name : String) :
    Prop :=
  name.utf8ByteSize ≤ maxXMLStringLength ∧ ∃ uri, elementURI K nsPrefix = some uri ∧
    (name = "" ∨ R.onNSChildElement f.node K.world name uri = .ok (f.node, K.world, none))

/-- The end tag of such an element is not that of `f`. -/
def LeavesEnd (f : NodeFrame ν) (name : String) : Prop :=
  name.utf8ByteSize ≤ maxXMLStringLength ∧ name ≠ f.name

/-- The node reader `f` leaves everything in the content: the elements at any depth, whose local
names are not its own, the instructions and the texts. -/
def Inert (R : NodeReaders ν ω) (K : NodeStack ν ω) (f : NodeFrame ν) : XmlContent → Prop
  | .nil => True
  | .text value rest =>
    (value = "" ∨ value.utf8ByteSize ≤ maxXMLStringLength ∧
      R.onText f.node K.world value = .ok (f.node, K.world)) ∧ Inert R K f rest
  | .instruction target _ rest => Leaves R K f "" target ∧ Inert R K f rest
  | .element nsPrefix name _ children rest =>
    Leaves R K f nsPrefix name ∧ Inert R K f children ∧ LeavesEnd f name ∧ Inert R K f rest
  | .emptyElement nsPrefix name _ rest =>
    Leaves R K f nsPrefix name ∧ LeavesEnd f name ∧ Inert R K f rest

theorem feed_append (K : NodeStack ν ω) (es es' : List XmlEntity) :
    R.feed K (es ++ es') = R.feed K es >>= fun K => R.feed K es' := List.foldlM_append

/-! ## One entity -/

theorem step_content (hK : K.frames = f :: fs) (hf : f.phase = .content) (e : XmlEntity) :
    R.step K e = R.contentTurn K f fs (K.reader.readEntity e) := by
  simp only [step, hK, hf]

variable (hK : K.frames = f :: fs) (hf : f.phase = .content)

include hK hf

/-- An attribute goes by. -/
theorem step_attribute (hb : Beside K K') {e : XmlEntity}
    (ht : e.type = .attribName ∨ e.type = .attribValue) : R.step K' e = .ok K' := by
  rw [step_content (hb.frames.trans hK) hf]
  rcases ht with ht | ht <;> simp [contentTurn, XmlReader.readEntity, ht]

omit hK hf in
/-- The reader on a start tag. -/
def startReader (r : XmlReader) (e : XmlEntity) : XmlReader :=
  { r with currentValue := "", currentPrefix := e.nsPrefix, currentName := e.name,
           currentElementName := e.name, currentElementPrefix := e.nsPrefix,
           nameSpaceIsAttribute := false }

omit hK hf in
theorem readEntity_start (r : XmlReader) {e : XmlEntity}
    (ht : e.type = .element ∨ e.type = .processingInstruction) :
    r.readEntity e = (.startElement, startReader r e) := by
  rcases ht with ht | ht <;> simp [XmlReader.readEntity, ht, startReader]

/-- What a child element or an instruction does. -/
theorem step_start_eq (hb : Beside K K') {e : XmlEntity}
    (ht : e.type = .element ∨ e.type = .processingInstruction) :
    R.step K' e = (do
      let count ← nfStrLen e.name
      match elementURI K e.nsPrefix with
      | none => .error .couldNotGetNamespace
      | some uri =>
        if count > 0 then
          let (node, world, child) ← R.onNSChildElement f.node K.world e.name uri
          let K₁ := ⟨{ f with node := node } :: fs, world, startReader K'.reader e⟩
          match child with
          | none => .ok K₁
          | some child => push K₁ child
        else .ok ⟨K.frames, K.world, startReader K'.reader e⟩) := by
  have hu : (startReader K'.reader e).getNamespaceURI = elementURI K e.nsPrefix := by
    simp [startReader, XmlReader.getNamespaceURI, elementURI, XmlReader.namespaceURI,
      hb.nameSpaces, hb.default]
  rw [step_content (hb.frames.trans hK) hf]
  simp only [contentTurn, readEntity_start _ ht, hu, hb.frames, hb.world]
  rfl

/-- A child element or an instruction that leaves everything as it was made no node reader. -/
theorem start_unread (hb : Beside K K') {e : XmlEntity} {K₁ : NodeStack ν ω}
    (ht : e.type = .element ∨ e.type = .processingInstruction) (h : R.step K' e = .ok K₁)
    (hb₁ : Beside K K₁) :
    Leaves R K f e.nsPrefix e.name ∧ K₁.reader = startReader K'.reader e := by
  rw [step_start_eq hK hf hb ht] at h
  obtain ⟨count, hc, h⟩ := bind_eq_ok.1 h
  obtain ⟨hle, rfl⟩ := nfStrLen_ok.1 hc
  cases huri : elementURI K e.nsPrefix with
  | none => simp [huri] at h
  | some uri =>
    simp only [huri] at h
    split_ifs at h with hpos
    · obtain ⟨⟨node, world, child⟩, hchild, h⟩ := bind_eq_ok.1 h
      cases child with
      | none =>
        obtain rfl := Except.ok.inj h
        have hnode : node = f.node := by
          have := hb₁.frames
          rw [hK] at this
          exact congrArg NodeFrame.node (List.cons.inj this).1
        refine ⟨⟨hle, uri, huri, .inr ?_⟩, rfl⟩
        rw [hchild, hnode, show world = K.world from hb₁.world]
      | some child =>
        -- a new node reader stands on top of the others
        exfalso
        simp only [push] at h
        split_ifs at h
        obtain rfl := Except.ok.inj h
        have := congrArg List.length hb₁.frames
        simp [hK] at this
    · have he : e.name = "" := by
        rw [← String.utf8ByteSize_eq_zero_iff]
        omega
      obtain rfl := Except.ok.inj h
      exact ⟨⟨hle, uri, huri, .inl he⟩, rfl⟩

/-- A child element or an instruction goes by where the node reader leaves it. -/
theorem step_start (hb : Beside K K') {e : XmlEntity}
    (ht : e.type = .element ∨ e.type = .processingInstruction) :
    (∃ K₁, R.step K' e = .ok K₁ ∧ Beside K K₁) ↔ Leaves R K f e.nsPrefix e.name := by
  constructor
  · intro ⟨K₁, h, hb₁⟩
    exact (start_unread hK hf hb ht h hb₁).1
  · intro ⟨hle, uri, huri, h⟩
    rw [step_start_eq hK hf hb ht, nfStrLen_ok.2 ⟨hle, rfl⟩, huri]
    by_cases he : e.name = ""
    · have h0 : ¬ e.name.utf8ByteSize > 0 := by simp [he]
      simp only [bind, Except.bind, h0, if_false]
      exact ⟨_, rfl, rfl, rfl, hb.nameSpaces, hb.default, hb.isEOF⟩
    · have hpos : e.name.utf8ByteSize > 0 := by
        apply Nat.pos_of_ne_zero
        rwa [ne_eq, String.utf8ByteSize_eq_zero_iff]
      simp only [bind, Except.bind, hpos, if_true, h.resolve_left he]
      exact ⟨_, rfl, hK.symm, rfl, hb.nameSpaces, hb.default, hb.isEOF⟩

/-- What an end tag with the name `n` does. -/
theorem step_end_name (hb : Beside K K') {e : XmlEntity} (reader : XmlReader) {n : String}
    (hr : K'.reader.readEntity e = (.endElement, reader)) (hn : reader.currentName = n)
    (hs : reader.nameSpaces = K'.reader.nameSpaces ∧
      reader.defaultNameSpace = K'.reader.defaultNameSpace ∧ reader.isEOF = K'.reader.isEOF) :
    ((∃ K₁, R.step K' e = .ok K₁ ∧ Beside K K₁) ↔ LeavesEnd f n) ∧
      (LeavesEnd f n → R.step K' e = .ok { K' with reader := reader }) := by
  have hstep : R.step K' e = (do
      let _ ← nfStrLen n
      if n = f.name then R.pop { K' with reader := reader } f fs
      else .ok { K' with reader := reader }) := by
    rw [step_content (hb.frames.trans hK) hf]
    simp only [contentTurn, hr, hn]
  have hok : LeavesEnd f n → R.step K' e = .ok { K' with reader := reader } := by
    intro ⟨hle, hne⟩
    rw [hstep, nfStrLen_ok.2 ⟨hle, rfl⟩]
    simp only [bind, Except.bind, if_neg hne]
  refine ⟨⟨fun ⟨K₁, h, hb₁⟩ => ?_, fun h => ?_⟩, hok⟩
  · rw [hstep] at h
    obtain ⟨count, hc, h⟩ := bind_eq_ok.1 h
    refine ⟨(nfStrLen_ok.1 hc).1, fun he => ?_⟩
    -- the node reader has ended: one frame less
    rw [if_pos he] at h
    simp only [pop] at h
    obtain ⟨⟨node, world⟩, -, h⟩ := bind_eq_ok.1 h
    cases fs with
    | nil =>
      obtain ⟨world', -, h⟩ := bind_eq_ok.1 h
      obtain rfl := Except.ok.inj h
      have := congrArg List.length hb₁.frames
      simp [hK] at this
    | cons p ps =>
      obtain ⟨⟨parent, world'⟩, -, h⟩ := bind_eq_ok.1 h
      obtain rfl := Except.ok.inj h
      have := congrArg List.length hb₁.frames
      simp [hK] at this
  · exact ⟨_, hok h, hb.frames, hb.world, hs.1.trans hb.nameSpaces, hs.2.1.trans hb.default,
      hs.2.2.trans hb.isEOF⟩

omit hK hf in
/-- The reader on an end tag. -/
def endReader (r : XmlReader) (nsPrefix name : String) : XmlReader :=
  { r with currentValue := "", currentPrefix := nsPrefix, currentName := name,
           currentElementName := name, currentElementPrefix := nsPrefix,
           nameSpaceIsAttribute := false }

/-- An end tag goes by where it is not that of the node reader. -/
theorem step_end (hb : Beside K K') (nsPrefix name : String) :
    ((∃ K₁, R.step K' ⟨.elementEnd, nsPrefix, name⟩ = .ok K₁ ∧ Beside K K₁) ↔ LeavesEnd f name) :=
  (step_end_name hK hf hb (endReader K'.reader nsPrefix name) rfl rfl ⟨rfl, rfl, rfl⟩).1

/-- The end of an instruction goes by: a node reader has a name. -/
theorem step_instructionEnd (hb : Beside K K') :
    ∃ K₁, R.step K' ⟨.processingInstructionEnd, "", ""⟩ = .ok K₁ ∧ Beside K K₁ :=
  (step_end_name hK hf hb (endReader K'.reader "" "") rfl rfl ⟨rfl, rfl, rfl⟩).1.2
    ⟨Nat.zero_le _, f.named.symm⟩

/-- The end of an empty element goes by where its name is not that of the node reader. -/
theorem step_close (hb : Beside K K') {name : String} (hn : K'.reader.currentElementName = name) :
    (∃ K₁, R.step K' ⟨.closeElement, "", ""⟩ = .ok K₁ ∧ Beside K K₁) ↔ LeavesEnd f name :=
  (step_end_name hK hf hb { K'.reader with
    currentValue := "", currentPrefix := K'.reader.currentElementPrefix,
    currentName := K'.reader.currentElementName, currentElementName := "",
    currentElementPrefix := "" } rfl hn ⟨rfl, rfl, rfl⟩).1

/-- A text goes by where `OnText` does nothing with it. -/
theorem step_text (hb : Beside K K') {value : String} (hv : value ≠ "") :
    (∃ K₁, R.step K' ⟨.text, "", value⟩ = .ok K₁ ∧ Beside K K₁) ↔
      value.utf8ByteSize ≤ maxXMLStringLength ∧
        R.onText f.node K.world value = .ok (f.node, K.world) := by
  have hpos : value.utf8ByteSize > 0 := by
    apply Nat.pos_of_ne_zero
    rwa [ne_eq, String.utf8ByteSize_eq_zero_iff]
  rw [step_content (hb.frames.trans hK) hf]
  simp only [contentTurn, XmlReader.readEntity]
  constructor
  · intro h
    obtain ⟨K₁, h, hb₁⟩ := h
    obtain ⟨count, hc, h⟩ := bind_eq_ok.1 h
    obtain ⟨hle, rfl⟩ := nfStrLen_ok.1 hc
    simp only [hpos, if_true] at h
    obtain ⟨⟨node, world⟩, ht, h⟩ := bind_eq_ok.1 h
    obtain rfl := Except.ok.inj h
    have hnode : node = f.node := by
      have := hb₁.frames
      rw [hK] at this
      exact congrArg NodeFrame.node (List.cons.inj this).1
    rw [hb.world] at ht
    rw [ht, hnode, show world = K.world from hb₁.world]
    exact ⟨hle, rfl⟩
  · intro h
    obtain ⟨hle, ht⟩ := h
    rw [← hb.world] at ht
    simp only [nfStrLen_ok.2 ⟨hle, rfl⟩, bind, Except.bind, hpos, if_true, ht]
    exact ⟨_, rfl, hK.symm, hb.world, hb.nameSpaces, hb.default, hb.isEOF⟩

/-! ## Contents -/

/-- The attributes of an element that is left go by. -/
theorem keeps_attributes (hb : Beside K K') (attributes : List XmlAttribute)
    (es : List XmlEntity) :
    Keeps R.step (Beside K) K' (attributes.flatMap XmlAttribute.entities ++ es) ↔
      Keeps R.step (Beside K) K' es := by
  have hgo : ∀ (e : XmlEntity) (es : List XmlEntity),
      e.type = .attribName ∨ e.type = .attribValue →
      (Keeps R.step (Beside K) K' (e :: es) ↔ Keeps R.step (Beside K) K' es) := by
    intro e es ht
    have hs := step_attribute (R := R) hK hf hb ht
    rw [keeps_cons_iff (Q := Keeps R.step (Beside K) K' es) hb]
    · exact and_iff_right ⟨K', hs, hb⟩
    · intro t h _
      rw [Except.ok.inj (hs.symm.trans h)]
  induction attributes with
  | nil => exact Iff.rfl
  | cons a attributes ih =>
    simp only [List.flatMap_cons, XmlAttribute.entities, List.cons_append, List.nil_append]
    rw [hgo _ _ (.inl rfl), hgo _ _ (.inr rfl)]
    exact ih

/-- **The content of an element that is left goes by exactly where it is inert.** The induction is
on the content; every entity either goes by or is taken by a node reader. -/
theorem keeps_content (c : XmlContent) (hb : Beside K K') :
    Keeps R.step (Beside K) K' c.entities ↔ Inert R K f c := by
  induction c generalizing K' with
  | nil => exact ⟨fun _ => trivial, fun _ => keeps_nil.2 hb⟩
  | text value rest ih =>
    simp only [XmlContent.entities, Inert]
    by_cases hv : value = ""
    · simpa [hv] using ih hb
    · rw [if_neg hv, List.singleton_append, keeps_cons_iff hb fun t _ ht => ih ht,
        step_text hK hf hb hv]
      simp [hv]
  | instruction target attributes rest ih =>
    simp only [XmlContent.entities, Inert, List.cons_append]
    rw [keeps_cons_iff (Q := Inert R K f rest) hb, step_start hK hf hb (.inr rfl)]
    intro t _ ht
    rw [keeps_attributes hK hf ht, keeps_cons_iff ht fun u _ hu => ih hu]
    exact and_iff_right (step_instructionEnd hK hf ht)
  | element nsPrefix name attributes children rest ihc ih =>
    simp only [XmlContent.entities, Inert, List.cons_append, List.append_assoc]
    rw [keeps_cons_iff (Q := Inert R K f children ∧ LeavesEnd f name ∧ Inert R K f rest) hb,
      step_start hK hf hb (.inl rfl)]
    intro t _ ht
    rw [keeps_attributes hK hf ht,
      keeps_append_iff (Q := LeavesEnd f name ∧ Inert R K f rest), ihc ht]
    intro u _ hu
    rw [keeps_cons_iff hu fun v _ hv => ih hv, step_end hK hf hu]
  | emptyElement nsPrefix name attributes rest ih =>
    simp only [XmlContent.entities, Inert, List.cons_append]
    rw [keeps_cons_iff (Q := LeavesEnd f name ∧ Inert R K f rest) hb,
      step_start hK hf hb (.inl rfl)]
    intro t hs ht
    have hn : t.reader.currentElementName = name := by
      rw [(start_unread hK hf hb (.inl rfl) hs ht).2]
      rfl
    rw [keeps_attributes hK hf ht, keeps_cons_iff ht fun u _ hu => ih hu,
      step_close hK hf ht hn]

/-- With its end tag, such an element leaves the node readers and the XML reader in one and the
same state, whatever its content. -/
theorem feed_content {c : XmlContent} {nsPrefix name : String}
    (hi : Inert R K f c) (he : LeavesEnd f name) :
    R.feed K (c.entities ++ [⟨.elementEnd, nsPrefix, name⟩]) =
      .ok { K with reader := endReader K.reader nsPrefix name } := by
  obtain ⟨K₁, h₁, hb⟩ := ((keeps_content hK hf c (Beside.refl K)).2 hi).run
  have h₂ : R.step K₁ ⟨.elementEnd, nsPrefix, name⟩ =
      .ok { K₁ with reader := endReader K₁.reader nsPrefix name } :=
    (step_end_name hK hf hb (endReader K₁.reader nsPrefix name) rfl rfl ⟨rfl, rfl, rfl⟩).2 he
  rw [feed_append, show R.feed K c.entities = .ok K₁ from h₁]
  simp only [feed, bind, Except.bind, List.foldlM_cons, List.foldlM_nil, h₂, pure, Except.pure,
    endReader, hb.frames, hb.world, hb.nameSpaces, hb.default,
    hb.isEOF]

/-- An element that is left is untouched, and its end tag with it. -/
theorem untouched_iff (c : XmlContent) (nsPrefix name : String) :
    Untouched R K (c.entities ++ [⟨.elementEnd, nsPrefix, name⟩]) ↔
      Inert R K f c ∧ LeavesEnd f name := by
  rw [Untouched, keeps_append_iff (Q := LeavesEnd f name), keeps_content hK hf c (.refl K)]
  intro t _ ht
  rw [keeps_cons_iff (Q := True) ht, step_end hK hf ht, and_true]
  intro u _ hu
  exact ⟨fun _ => trivial, fun _ => keeps_nil.2 hu⟩

end NodeReaders

/-! ## Documents with an element taken out -/

/-- Content with a place in it, and what is around that place. -/
inductive XmlContext where
  | here (rest : XmlContent)
  | text (value : String) (rest : XmlContext)
  | instruction (target : String) (attributes : List XmlAttribute) (rest : XmlContext)
  | inside (nsPrefix name : String) (attributes : List XmlAttribute) (children : XmlContext)
      (rest : XmlContent)
  | element (nsPrefix name : String) (attributes : List XmlAttribute) (children : XmlContent)
      (rest : XmlContext)
  | emptyElement (nsPrefix name : String) (attributes : List XmlAttribute) (rest : XmlContext)

namespace XmlContext

/-- The content with a node at the place. -/
def fill (node : XmlContent → XmlContent) : XmlContext → XmlContent
  | .here rest => node rest
  | .text value rest => .text value (rest.fill node)
  | .instruction target attributes rest => .instruction target attributes (rest.fill node)
  | .inside nsPrefix name attributes children rest =>
    .element nsPrefix name attributes (children.fill node) rest
  | .element nsPrefix name attributes children rest =>
    .element nsPrefix name attributes children (rest.fill node)
  | .emptyElement nsPrefix name attributes rest =>
    .emptyElement nsPrefix name attributes (rest.fill node)

/-- The entities in front of the place. -/
def before : XmlContext → List XmlEntity
  | .here _ => []
  | .text value rest => (XmlContent.text value .nil).entities ++ rest.before
  | .instruction target attributes rest =>
    (XmlContent.instruction target attributes .nil).entities ++ rest.before
  | .inside nsPrefix name attributes children _ =>
    ⟨.element, nsPrefix, name⟩ :: attributes.flatMap XmlAttribute.entities ++ children.before
  | .element nsPrefix name attributes children rest =>
    (XmlContent.element nsPrefix name attributes children .nil).entities ++ rest.before
  | .emptyElement nsPrefix name attributes rest =>
    (XmlContent.emptyElement nsPrefix name attributes .nil).entities ++ rest.before

/-- The entities behind the place. -/
def after : XmlContext → List XmlEntity
  | .here rest => rest.entities
  | .text _ rest => rest.after
  | .instruction _ _ rest => rest.after
  | .inside nsPrefix name _ children rest =>
    children.after ++ ⟨.elementEnd, nsPrefix, name⟩ :: rest.entities
  | .element _ _ _ _ rest => rest.after
  | .emptyElement _ _ _ rest => rest.after

/-- The document with an element at the place. -/
def withElement (ctx : XmlContext) (nsPrefix name : String) (attributes : List XmlAttribute)
    (content : XmlContent) : XmlContent :=
  ctx.fill fun rest => .element nsPrefix name attributes content rest

/-- The entities of the document are those around the element and its own. -/
theorem entities_withElement (ctx : XmlContext) (nsPrefix name : String)
    (attributes : List XmlAttribute) (content : XmlContent) :
    (ctx.withElement nsPrefix name attributes content).entities =
      (ctx.before ++ ⟨.element, nsPrefix, name⟩ :: attributes.flatMap XmlAttribute.entities) ++
        ((content.entities ++ [⟨.elementEnd, nsPrefix, name⟩]) ++ ctx.after) := by
  unfold withElement
  induction ctx with
  | here rest => simp [fill, before, after, XmlContent.entities]
  | text value rest ih => simp [fill, before, after, XmlContent.entities, ih]
  | instruction target as rest ih => simp [fill, before, after, XmlContent.entities, ih]
  | inside p n as children rest ih => simp [fill, before, after, XmlContent.entities, ih]
  | element p n as children rest ih => simp [fill, before, after, XmlContent.entities, ih]
  | emptyElement p n as rest ih => simp [fill, before, after, XmlContent.entities, ih]

end XmlContext

namespace NodeReaders

variable {ν ω : Type} {R : NodeReaders ν ω} {K : NodeStack ν ω} {f : NodeFrame ν}
  {fs : List (NodeFrame ν)}

/-- The node readers, standing at `K` in an element that was left with the content `c`, do not
notice when it is replaced by `c'`: they take nothing of either content, and the bytes of the two
documents are read alike. -/
def ReplacementUnnoticed (R : NodeReaders ν ω) (world : ω) (K : NodeStack ν ω) (ctx : XmlContext)
    (nsPrefix name : String) (attributes : List XmlAttribute) (c c' : XmlContent)
    (tail : List UInt8) : Prop :=
  Untouched R K (c.entities ++ [⟨.elementEnd, nsPrefix, name⟩]) ∧
    Untouched R K (c'.entities ++ [⟨.elementEnd, nsPrefix, name⟩]) ∧
    ∃ result,
      StreamReads R world ((ctx.withElement nsPrefix name attributes c).render ++ tail) result ∧
      StreamReads R world ((ctx.withElement nsPrefix name attributes c').render ++ tail) result

/-- A document is read up to the content of one of its elements first. -/
theorem readDocument_withElement {world : ω} {ctx : XmlContext} {nsPrefix name : String}
    {attributes : List XmlAttribute}
    (hpre : R.feed (start world) (ctx.before ++ ⟨.element, nsPrefix, name⟩ ::
      attributes.flatMap XmlAttribute.entities) = .ok K) (c : XmlContent) :
    R.readDocument world (ctx.withElement nsPrefix name attributes c).entities =
      R.feed K (c.entities ++ [⟨.elementEnd, nsPrefix, name⟩]) >>= fun K =>
        R.feed K ctx.after >>= fun K => R.endDocument K := by
  rw [readDocument, XmlContext.entities_withElement, feed_append, hpre, ok_bind, feed_append,
    bind_assoc]

/-- A replacement goes unnoticed exactly where both contents are inert and the element has not the
local name of the node reader that left it. -/
theorem replacementUnnoticed_iff {world : ω} {ctx : XmlContext} {nsPrefix name : String}
    {attributes : List XmlAttribute} {c c' : XmlContent} {tail : List UInt8}
    (hc : (ctx.withElement nsPrefix name attributes c).FitsBuffer tail xmlReaderBufferSize)
    (hc' : (ctx.withElement nsPrefix name attributes c').FitsBuffer tail xmlReaderBufferSize)
    (hpre : R.feed (start world) (ctx.before ++ ⟨.element, nsPrefix, name⟩ ::
      attributes.flatMap XmlAttribute.entities) = .ok K)
    (hK : K.frames = f :: fs) (hf : f.phase = .content) :
    ReplacementUnnoticed R world K ctx nsPrefix name attributes c c' tail ↔
      (Inert R K f c ∧ Inert R K f c') ∧ LeavesEnd f name := by
  constructor
  · intro ⟨h, h', _⟩
    obtain ⟨hi, he⟩ := (untouched_iff hK hf c nsPrefix name).1 h
    exact ⟨⟨hi, ((untouched_iff hK hf c' nsPrefix name).1 h').1⟩, he⟩
  · intro ⟨⟨hi, hi'⟩, he⟩
    have hread := streamReads_document (R := R) hc world
    have hread' := streamReads_document (R := R) hc' world
    rw [readDocument_withElement hpre, feed_content hK hf hi he] at hread
    rw [readDocument_withElement hpre, feed_content hK hf hi' he] at hread'
    exact ⟨(untouched_iff hK hf c nsPrefix name).2 ⟨hi, he⟩,
      (untouched_iff hK hf c' nsPrefix name).2 ⟨hi', he⟩, _, hread, hread'⟩

end NodeReaders

namespace ModelDocumentParts

open NodeReaders

variable {μ κ : Type} (D : ModelDocumentParts μ κ)

/-- An element of a foreign name space is left by the model node. -/
theorem leaves_foreign {K : NodeStack (ReaderNode κ) (ReadModel μ)} {f : NodeFrame (ReaderNode κ)}
    {n : ModelNode} (hf : f.node = .model n) {nsPrefix name uri : String}
    (hu : elementURI K nsPrefix = some uri) (hlen : name.utf8ByteSize ≤ maxXMLStringLength)
    (h : uri ≠ xmlns100 ∧ uri ≠ xmlns093 ∧ uri ≠ "") :
    Leaves D.nodeReaders K f nsPrefix name := by
  refine ⟨hlen, uri, hu, .inr ?_⟩
  have hm : D.modelOnNSChildElement n name uri = .ok (n, none) := by
    simp [modelOnNSChildElement, h]
  show D.nodeOnNSChildElement f.node K.world name uri = _
  rw [hf, nodeOnNSChildElement, hm]
  rfl

/-- **The content of an element that is left can be replaced exactly where nothing in it is
read.** In every model document that is laid out and fits the buffer, the content `c` of an element
that a node reader `f` leaves can be replaced by `c'` unnoticed if and only if in both contents every
element at any depth is one that `f` leaves as well and does not have the local name of `f`, the
instructions and texts are left by `f`, and the element itself has not the local name of `f`. -/
theorem ignoredContent_iff (w : ReadModel μ) (ctx : XmlContext) (nsPrefix name : String)
    (attributes : List XmlAttribute) (c c' : XmlContent) (tail : List UInt8)
    (hc : (ctx.withElement nsPrefix name attributes c).FitsBuffer tail xmlReaderBufferSize)
    (hc' : (ctx.withElement nsPrefix name attributes c').FitsBuffer tail xmlReaderBufferSize)
    {K : NodeStack (ReaderNode κ) (ReadModel μ)} {f : NodeFrame (ReaderNode κ)}
    {fs : List (NodeFrame (ReaderNode κ))}
    (hpre : D.nodeReaders.feed (start w) (ctx.before ++ ⟨.element, nsPrefix, name⟩ ::
      attributes.flatMap XmlAttribute.entities) = .ok K)
    (hK : K.frames = f :: fs) (hf : f.phase = .content) :
    ReplacementUnnoticed D.nodeReaders w K ctx nsPrefix name attributes c c' tail ↔
      (Inert D.nodeReaders K f c ∧ Inert D.nodeReaders K f c') ∧ LeavesEnd f name :=
  replacementUnnoticed_iff hc hc' hpre hK hf

/-- A reader of a root part that keeps nothing but the metadata. -/
def metaDataOnly : ModelDocumentParts Unit Unit where
  criticalWarningLevel := .fatal
  ignoreBuild := false
  ignoreMetaData := false
  supportsBinaryStreams := false
  stringToUint32 _ := .ok 1
  uuid s := .ok s
  setUnitString _ _ := .ok ()
  setLanguage _ _ := ()
  beginModel _ := ()
  resources := ()
  resources093 := ()
  build := ()
  build093 := ()
  mesh _ _ := ()
  components := ()
  createMeshObject _ _ := .ok ()
  addMeshObject _ _ _ := .ok ()
  createComponentsObject _ _ := .ok ()
  addComponentsObject _ _ _ := .ok ()
  assignSliceStack _ _ := .ok ()
  setObjectParameters _ _ _ := .ok ()
  onAttribute _ _ _ _ := .ok ((), ())
  onNSAttribute _ _ _ _ _ := .ok ((), ())
  afterAttributes _ _ _ := .ok ((), ())
  onNSChildElement _ _ _ _ := .ok ((), (), none)
  afterChild _ _ _ _ := .ok ((), ())
  afterContent _ _ _ := .ok ((), ())

/-- `<model xmlns="…" xmlns:x="urn:x"><resources/><build/>`, and `</model>` behind the place. -/
def insideModel : XmlContext :=
  .inside "" "model" [⟨"", "xmlns", xmlns100⟩, ⟨"xmlns", "x", "urn:x"⟩]
    (.emptyElement "" "resources" [] (.emptyElement "" "build" [] (.here .nil))) .nil

/-- The node readers inside a foreign element of that model. -/
def insideForeign : NodeStack (ReaderNode Unit) (ReadModel Unit) where
  frames := [⟨"model", by decide, .model
    { requiredExtensions := "", listedExtensions := [("x", "urn:x")], hasResources := true,
      hasBuild := true, ignoreBuild := false, ignoreMetaData := false,
      withinIgnoredElement := false }, .content⟩]
  world := ⟨.empty, (), true⟩
  reader :=
    { nameSpaces := builtInNameSpaces ++ [("x", "urn:x")], defaultNameSpace := xmlns100,
      nameSpaceIsAttribute := false, currentName := "a", currentPrefix := "x",
      currentValue := "", currentElementName := "a", currentElementPrefix := "x",
      isEOF := false }

theorem feed_insideModel :
    metaDataOnly.nodeReaders.feed (start ⟨.empty, (), false⟩)
      (insideModel.before ++ [⟨.element, "x", "a"⟩]) = .ok insideForeign := by
  rfl

/-- The foreign element with some content, as long as that is short. -/
theorem fitsBuffer_insideModel {c : XmlContent} (hl : c.Laid false) (hlen : c.render.length ≤ 1000) :
    (insideModel.withElement "x" "a" [] c).FitsBuffer [10] xmlReaderBufferSize where
  laid := ⟨by decide +kernel, ⟨by decide +kernel, by decide +kernel,
    ⟨by decide +kernel, hl, trivial⟩⟩, trivial⟩
  isTag := ⟨nofun, id⟩
  noTag := by decide
  fits := by
    have hshell : (insideModel.withElement "x" "a" [] .nil).render.length ≤ 1000 := by decide +kernel
    have hrender : (insideModel.withElement "x" "a" [] c).render.length =
        (insideModel.withElement "x" "a" [] .nil).render.length + c.render.length := by
      simp only [XmlContext.withElement, insideModel, XmlContext.fill, XmlContent.render,
        List.length_append, List.length_cons, List.length_nil]
      omega
    rw [List.length_append, hrender, List.length_singleton, bufferMargin, xmlReaderBufferSize]
    omega
  min := by decide
  max := by decide

/-- The content of a foreign element, read and left. -/
theorem ignoredContent_iff_foreign :
    ReplacementUnnoticed metaDataOnly.nodeReaders ⟨.empty, (), false⟩ insideForeign insideModel
        "x" "a" [] (.emptyElement "x" "b" [] .nil) .nil [10] ↔
      (Inert metaDataOnly.nodeReaders insideForeign (insideForeign.frames.head (by decide))
          (.emptyElement "x" "b" [] .nil) ∧
        Inert metaDataOnly.nodeReaders insideForeign (insideForeign.frames.head (by decide)) .nil) ∧
      LeavesEnd (insideForeign.frames.head (by decide)) "a" :=
  metaDataOnly.ignoredContent_iff _ _ _ _ _ _ _ _
    (@fitsBuffer_insideModel (.emptyElement "x" "b" [] .nil) ⟨by decide +kernel, trivial⟩
      (by decide))
    (@fitsBuffer_insideModel .nil trivial (by decide)) feed_insideModel rfl rfl

/-- A metadata entry inside a foreign element is read as one of the model. -/
def nestedMetaData : XmlContent :=
  .element "" "metadata" [⟨"", "name", "Title"⟩] (.text "t" .nil) .nil

theorem fitsBuffer_nestedMetaData :
    (insideModel.withElement "x" "a" [] nestedMetaData).FitsBuffer [10] xmlReaderBufferSize :=
  @fitsBuffer_insideModel nestedMetaData
    ⟨by decide +kernel, ⟨rfl, by decide, trivial⟩, trivial⟩ (by decide)

/-- Replacing it by nothing changes the model that is read. -/
theorem nestedMetaData_noticed :
    ¬ ∀ (w : ReadModel Unit) (ctx : XmlContext) (nsPrefix name : String)
      (attributes : List XmlAttribute) (c c' : XmlContent) (tail : List UInt8)
      (K : NodeStack (ReaderNode Unit) (ReadModel Unit)) (f : NodeFrame (ReaderNode Unit))
      (fs : List (NodeFrame (ReaderNode Unit))),
      (ctx.withElement nsPrefix name attributes c).FitsBuffer tail xmlReaderBufferSize →
      (ctx.withElement nsPrefix name attributes c').FitsBuffer tail xmlReaderBufferSize →
      metaDataOnly.nodeReaders.feed (start w) (ctx.before ++ ⟨.element, nsPrefix, name⟩ ::
        attributes.flatMap XmlAttribute.entities) = .ok K →
      K.frames = f :: fs → f.phase = .content → ∃ result,
        StreamReads metaDataOnly.nodeReaders w
          ((ctx.withElement nsPrefix name attributes c).render ++ tail) result ∧
        StreamReads metaDataOnly.nodeReaders w
          ((ctx.withElement nsPrefix name attributes c').render ++ tail) result := by
  intro h
  have hnil := @fitsBuffer_insideModel .nil trivial (by decide)
  obtain ⟨result, hread, hread'⟩ := h ⟨.empty, (), false⟩ insideModel "x" "a" [] nestedMetaData .nil
    [10] insideForeign _ _ fitsBuffer_nestedMetaData hnil feed_insideModel rfl rfl
  have heq := (streamReads_document fitsBuffer_nestedMetaData _).unique hread
  have heq' := (streamReads_document hnil _).unique hread'
  have hn := congrArg (fun r => r.toOption.map fun w => w.metaDataGroup.metaData.length)
    (heq.trans heq'.symm)
  exact absurd hn (by decide)

end ModelDocumentParts

end NMR
