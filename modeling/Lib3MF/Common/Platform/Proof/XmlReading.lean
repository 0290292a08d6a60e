import Lib3MF.Common.Platform.Proof.XmlChunks

/-!
# Reading a document

What a caller sees who asks for the attributes of each element until there are none: the events of
the chunks of a document, and at its end nothing (`reads_chunks`). While it reads, `Stands r seen
ahead` says which entities of the buffer are behind the reader and which are ahead; those ahead
are decoded but for their texts.
-/

namespace NMR

open Lib

/-- What a call of the reader shows its caller. -/
inductive XmlEvent where
  | startElement (name : XmlQName)
  | endElement (name : XmlQName)
  | text (value : Except Error (List UInt8))
  | attribute (name : XmlQName) (value : Except Error (List UInt8))
  | unknown
  | nothing
  deriving DecidableEq

namespace NativeReader

/-- The name that `GetLocalName` and the name space calls work on. -/
def currentQName (r : NativeReader) : XmlQName := ⟨r.currentPrefix, r.currentName⟩

/-- What `Read` shows. -/
def shown (r : NativeReader) : Option XmlReaderNodeType → XmlEvent
  | some .startElement => .startElement r.currentQName
  | some .endElement => .endElement r.currentQName
  | some .text => .text r.getValue
  | some .unknown => .unknown
  | none => .nothing

/-- One call, and what it shows. -/
def observe (r : NativeReader) : NativeReaderCall → Except XmlFault (NativeReader × XmlEvent)
  | .read =>
    match r.read with
    | .error e => .error e
    | .ok (r, type) => .ok (r, r.shown type)
  | .moveToNextAttribute =>
    match r.moveToNextAttribute with
    | .error e => .error e
    | .ok (r, true) => .ok (r, .attribute r.currentQName r.getValue)
    | .ok (r, false) => .ok (r, .nothing)

/-- A sequence of calls, and what they show. -/
def observeAll (r : NativeReader) :
    List NativeReaderCall → Except XmlFault (NativeReader × List XmlEvent)
  | [] => .ok (r, [])
  | c :: cs =>
    match r.observe c with
    | .error e => .error e
    | .ok (r, event) =>
      match r.observeAll cs with
      | .error e => .error e
      | .ok (r, events) => .ok (r, event :: events)

end NativeReader

open NativeReader

/-! ## What a document is to its reader -/

namespace XmlTag

/-- The calls of a caller who asks for all attributes. -/
def calls : XmlTag → List NativeReaderCall
  | .start kind _ attributes =>
    .read :: (List.replicate (attributes.length + 1) .moveToNextAttribute ++
      if kind = .opens then [] else [.read])
  | .ends _ => [.read]

/-- What these calls show. A processing instruction ends without a name. -/
def events : XmlTag → List XmlEvent
  | .start kind name attributes =>
    .startElement name :: (attributes.map (fun a => .attribute a.name (valueWithLength a.value)) ++
      .nothing :: match kind with
        | .opens => []
        | .empty => [.endElement name]
        | .instruction => [.endElement ⟨[], []⟩])
  | .ends name => [.endElement name]

/-- The tag ends an element or an instruction. -/
def Closes : XmlTag → Prop
  | .start kind _ _ => kind ≠ .opens
  | .ends _ => True

end XmlTag

namespace XmlChunk

def calls (c : XmlChunk) : List NativeReaderCall := (if c.text = [] then [] else [.read]) ++ c.tag.calls

def events (c : XmlChunk) : List XmlEvent :=
  (if c.text = [] then [] else [.text (valueWithLength c.text)]) ++ c.tag.events

end XmlChunk

/-! ## Laid entities -/

namespace Laid

variable {p : Nat} {chars : List UInt8} {i : EntityItem} {items items' : List EntityItem}
  {es : List NativeEntity}

/-- The characters of the entities before. -/
theorem split (h : Laid p chars (items ++ items') es) : ∃ a b es₁ es₂, chars = a ++ b ∧
    es = es₁ ++ es₂ ∧ Laid p a items es₁ ∧ Laid (p + a.length) b items' es₂ := by
  induction items generalizing p chars es with
  | nil => exact ⟨[], chars, [], es, rfl, rfl, .nil _ _, h⟩
  | cons i items ih =>
    cases h with
    | @cons _ gap tail _ _ e es htype hname hpfx h =>
      obtain ⟨a, b, es₁, es₂, rfl, rfl, h₁, h₂⟩ := ih h
      refine ⟨gap ++ (i.content ++ 0 :: a), b, e :: es₁, es₂, ?_, rfl, .cons htype hname hpfx h₁, ?_⟩
      · simp only [List.append_assoc, List.cons_append]
      · have hlen : p + (gap ++ (i.content ++ 0 :: a)).length =
            p + gap.length + (i.content.length + 1) + a.length := by
          simp only [List.length_append, List.length_cons]
          omega
        rw [hlen]
        exact h₂

/-- **Decoding an entity in the middle.** -/
theorem decodeAt_middle {seen ahead : List EntityItem} (h : Laid 0 chars (seen ++ i.escaped :: ahead) es)
    (tail : List UInt8) (hz : 0 ∉ i.content) : ∃ e chars', es[seen.length]? = some e ∧
      e.type = i.type ∧ chars'.length = chars.length ∧
      decodeAt (chars ++ tail) e.name = .ok (chars' ++ tail) ∧
      Laid 0 chars' (seen ++ i :: ahead) es := by
  obtain ⟨a, b, es₁, es₂, rfl, rfl, h₁, h₂⟩ := h.split
  obtain ⟨e, es₃, gap, rest, rfl, hname, hdec, hlen, hrest, htype, hpfx⟩ :=
    h₂.decodeAt_head (Nat.zero_add _).symm tail hz
  refine ⟨e, a ++ (gap ++ (i.content ++ 0 :: (residue i.content ++ rest))), ?_, htype, ?_, ?_, ?_⟩
  · rw [← h₁.length_eq, List.getElem?_append_right le_rfl, Nat.sub_self]
    rfl
  · rw [List.length_append, ← hlen, List.length_append]
  · rw [List.append_assoc, hdec, List.append_assoc a]
  · exact h₁.append (.cons htype hname hpfx (pad hrest))

end Laid

theorem zeroFree_pushed {seen ahead : List EntityItem} (h : ∀ j ∈ seen ++ ahead, j.ZeroFree) :
    ∀ j ∈ seen ++ ahead.map EntityItem.pushed, j.ZeroFree := by
  intro j hj
  rcases List.mem_append.1 hj with hj | hj
  · exact h j (List.mem_append_left _ hj)
  · obtain ⟨k, hk, rfl⟩ := List.mem_map.1 hj
    have hk := h k (List.mem_append_right _ hk)
    unfold EntityItem.pushed
    split_ifs
    · exact hk.escaped
    · exact hk

/-! ## Where the reader stands -/

/-- The entities `seen` are behind the reader, those of `ahead` ahead, and behind them there is the
text `tail`, which is no entity. -/
structure Stands (r : NativeReader) (seen ahead : List EntityItem) (tail : List UInt8) : Prop where
  laid : ∃ a, r.buffer.chars = a ++ tail ∧
    Laid 0 a (seen ++ ahead.map EntityItem.pushed) r.buffer.entities
  index : r.entityIndex = seen.length
  full : r.buffer.fullEntityCount = r.buffer.entities.length
  zeroFree : ∀ i ∈ seen ++ ahead, i.ZeroFree
  overflow : r.overflowSize = tail.length
  room : tail.length + bufferMargin ≤ r.buffer.capacity
  stream : r.stream.data = []

namespace Stands

variable {r : NativeReader} {seen ahead : List EntityItem} {tail : List UInt8} {i j : EntityItem}

theorem filled (h : Stands r seen (i :: ahead) tail) : r.ensureFilledBuffer = .ok (r, true) := by
  obtain ⟨a, -, hlaid⟩ := h.laid
  have hlen := hlaid.length_eq
  have hindex := h.index
  have hfull := h.full
  simp only [List.length_append, List.length_map, List.length_cons] at hlen
  rw [ensureFilledBuffer, if_neg (by omega)]

/-- The entity the reader stands on. -/
theorem entity (h : Stands r seen (i :: ahead) tail) : ∃ e,
    r.buffer.entities[r.entityIndex]? = some e ∧ e.type = i.type ∧ r.nameOf e = i.pushed.content ∧
      r.prefixOf e = i.nsPrefix := by
  obtain ⟨a, hchars, hlaid⟩ := h.laid
  have hat : (seen ++ (i :: ahead).map EntityItem.pushed)[seen.length]? = some i.pushed := by
    rw [List.getElem?_append_right le_rfl, Nat.sub_self]
    rfl
  obtain ⟨e, he, htype, hname, hpfx⟩ := @Laid.getElem? [] 0 _ _ _ _ hlaid rfl tail (zeroFree_pushed h.zeroFree) _ hat
  have hpushed : i.pushed.type = i.type ∧ i.pushed.nsPrefix = i.nsPrefix := by
    unfold EntityItem.pushed
    split_ifs
    · exact ⟨rfl, rfl⟩
    · exact ⟨rfl, rfl⟩
  rw [List.nil_append, ← hchars] at hname hpfx
  rw [hpushed.2] at hpfx
  exact ⟨e, by rw [h.index, he], htype.trans hpushed.1, hname, hpfx⟩

/-- The reader passes an entity that is no text. -/
theorem pass (h : Stands r seen (i :: ahead) tail) (ht : i.type ≠ .text) {r' : NativeReader}
    (hb : r'.buffer = r.buffer) (hi : r'.entityIndex = r.entityIndex + 1)
    (ho : r'.overflowSize = r.overflowSize) (hs : r'.stream = r.stream) :
    Stands r' (seen ++ [i]) ahead tail := by
  obtain ⟨a, hchars, hlaid⟩ := h.laid
  refine ⟨⟨a, hb ▸ hchars, ?_⟩, ?_, by rw [hb]; exact h.full, ?_, ho.trans h.overflow,
    by rw [hb]; exact h.room, hs ▸ h.stream⟩
  · have hpushed : i.pushed = i := if_neg ht
    rw [hb, List.append_assoc, List.singleton_append]
    rw [List.map_cons, hpushed] at hlaid
    exact hlaid
  · rw [hi, h.index, List.length_append, List.length_singleton]
  · rw [List.append_assoc, List.singleton_append]
    exact h.zeroFree

/-- The reader once it has read a text. -/
def onText (r : NativeReader) (i : EntityItem) (chars : List UInt8) : NativeReader :=
  { r with
    buffer := { r.buffer with chars := chars }, currentValue := i.content
    currentPrefix := [], currentName := [], entityIndex := r.entityIndex + 1 }

/-- **`Read` of a text** decodes it. -/
theorem read_text (h : Stands r seen (i :: ahead) tail) (ht : i.type = .text) :
    ∃ chars, r.read = .ok (onText r i chars, some .text) ∧
      Stands (onText r i chars) (seen ++ [i]) ahead tail := by
  obtain ⟨a, hchars, hlaid⟩ := h.laid
  have hz := (h.zeroFree i (List.mem_append_right _ List.mem_cons_self)).2
  have hpushed : i.pushed = i.escaped := if_pos ht
  rw [List.map_cons, hpushed] at hlaid
  obtain ⟨e, a', he, htype, -, hdec, hlaid'⟩ := hlaid.decodeAt_middle tail hz
  rw [← hchars] at hdec
  have hstring : cString (a' ++ tail) e.name = i.content := by
    have hat : (seen ++ i :: ahead.map EntityItem.pushed)[seen.length]? = some i := by
      rw [List.getElem?_append_right le_rfl, Nat.sub_self]
      rfl
    have hzero : ∀ j ∈ seen ++ i :: ahead.map EntityItem.pushed, j.ZeroFree := by
      rw [← List.singleton_append, ← List.append_assoc]
      refine zeroFree_pushed ?_
      rw [List.append_assoc, List.singleton_append]
      exact h.zeroFree
    obtain ⟨e', he', -, hname, -⟩ := @Laid.getElem? [] 0 _ _ _ _ hlaid' rfl tail hzero _ hat
    cases he.symm.trans he'
    exact hname
  have hread : r.read = .ok (onText r i (a' ++ tail), some .text) := by
    unfold NativeReader.read
    rw [h.filled]
    dsimp only
    rw [h.index, he]
    dsimp only
    rw [readEntity, htype, ht]
    dsimp only
    rw [hdec]
    dsimp only
    rw [hstring, onText, h.index]
  refine ⟨a' ++ tail, hread, ⟨a', rfl, ?_⟩, ?_, h.full, ?_, h.overflow, h.room, h.stream⟩
  · rw [List.append_assoc]
    exact hlaid'
  · show r.entityIndex + 1 = _
    rw [h.index, List.length_append, List.length_singleton]
  · rw [List.append_assoc, List.singleton_append]
    exact h.zeroFree

/-- The reader once it has read the name of a tag. -/
def onTag (r : NativeReader) (i : EntityItem) : NativeReader :=
  { r with
    currentValue := [], currentPrefix := i.nsPrefix, currentName := i.content
    currentElementName := i.content, currentElementPrefix := i.nsPrefix
    entityIndex := r.entityIndex + 1 }

/-- **`Read` of the name of a tag.** -/
theorem read_name {type : XmlReaderNodeType} (h : Stands r seen (i :: ahead) tail)
    (ht : (i.type = .element ∨ i.type = .processingInstruction) ∧ type = .startElement ∨
      (i.type = .elementEnd ∨ i.type = .processingInstructionEnd) ∧ type = .endElement) :
    r.read = .ok (onTag r i, some type) ∧ Stands (onTag r i) (seen ++ [i]) ahead tail := by
  have hne : i.type ≠ .text := by
    rcases ht with ⟨ht | ht, -⟩ | ⟨ht | ht, -⟩ <;> simp [ht]
  obtain ⟨e, he, htype, hname, hpfx⟩ := h.entity
  rw [EntityItem.pushed, if_neg hne] at hname
  refine ⟨?_, h.pass hne rfl rfl rfl rfl⟩
  unfold NativeReader.read
  rw [h.filled]
  dsimp only
  rw [he]
  dsimp only
  rw [readEntity, htype, onTag, ← hname, ← hpfx]
  rcases ht with ⟨ht | ht, rfl⟩ | ⟨ht | ht, rfl⟩ <;> rw [ht]

/-- The reader once it has read the end of an empty tag. -/
def onClose (r : NativeReader) : NativeReader :=
  { r with
    currentValue := []
    currentPrefix := r.currentElementPrefix, currentName := r.currentElementName
    currentElementName := [], currentElementPrefix := [], entityIndex := r.entityIndex + 1 }

/-- **`Read` of the end of an empty tag** shows the name of the tag. -/
theorem read_close (h : Stands r seen (i :: ahead) tail) (ht : i.type = .closeElement) :
    r.read = .ok (onClose r, some .endElement) ∧ Stands (onClose r) (seen ++ [i]) ahead tail := by
  have hne : i.type ≠ .text := by simp [ht]
  obtain ⟨e, he, htype, -, -⟩ := h.entity
  refine ⟨?_, h.pass hne rfl rfl rfl rfl⟩
  unfold NativeReader.read
  rw [h.filled]
  dsimp only
  rw [he]
  dsimp only
  rw [readEntity, htype, ht, onClose]

/-- The reader once it has read an attribute. -/
def onAttribute (r : NativeReader) (i j : EntityItem) : NativeReader :=
  { r with
    currentPrefix := i.nsPrefix, currentName := i.content, currentValue := j.content
    entityIndex := r.entityIndex + 1 + 1 }

/-- **`MoveToNextAttribute`** on an attribute. -/
theorem nextAttribute (h : Stands r seen (i :: j :: ahead) tail) (hi : i.type = .attribName)
    (hj : j.type = .attribValue) : r.moveToNextAttribute = .ok (onAttribute r i j, true) ∧
      Stands (onAttribute r i j) (seen ++ [i, j]) ahead tail := by
  have hi' : i.type ≠ .text := by simp [hi]
  have hj' : j.type ≠ .text := by simp [hj]
  obtain ⟨e, he, htype, hname, hpfx⟩ := h.entity
  rw [EntityItem.pushed, if_neg hi'] at hname
  let r₁ : NativeReader := { r with
    currentPrefix := r.prefixOf e, currentName := r.nameOf e, entityIndex := r.entityIndex + 1 }
  have h₁ : Stands r₁ (seen ++ [i]) (j :: ahead) tail := h.pass hi' rfl rfl rfl rfl
  obtain ⟨e₁, he₁, htype₁, hname₁, -⟩ := h₁.entity
  rw [EntityItem.pushed, if_neg hj'] at hname₁
  have h₂ : Stands (onAttribute r i j) (seen ++ [i] ++ [j]) ahead tail := h₁.pass hj' rfl rfl rfl rfl
  rw [List.append_assoc] at h₂
  refine ⟨?_, h₂⟩
  unfold moveToNextAttribute
  rw [h.filled]
  dsimp only
  rw [he]
  dsimp only
  rw [if_pos (htype.trans hi)]
  rw [show ensureFilledBuffer _ = _ from h₁.filled]
  dsimp only
  rw [show r₁.buffer.entities[r₁.entityIndex]? = some e₁ from he₁]
  dsimp only
  rw [if_pos (htype₁.trans hj), onAttribute, ← hname, ← hpfx, ← hname₁]

/-- `MoveToNextAttribute` elsewhere. -/
theorem noAttribute (h : Stands r seen (i :: ahead) tail) (hi : i.type ≠ .attribName) :
    r.moveToNextAttribute = .ok (r, false) := by
  obtain ⟨e, he, htype, -, -⟩ := h.entity
  unfold moveToNextAttribute
  rw [h.filled]
  dsimp only
  rw [he]
  dsimp only
  rw [if_neg (by rw [htype]; exact hi)]

end Stands

/-! ## Sequences of calls -/

section

variable {r r' r'' : NativeReader} {c : NativeReaderCall} {cs cs' : List NativeReaderCall}
  {event : XmlEvent} {events events' : List XmlEvent} {seen ahead : List EntityItem}
  {tail : List UInt8} {i : EntityItem}

theorem observeAll_cons (h : r.observe c = .ok (r', event)) (h' : r'.observeAll cs = .ok (r'', events)) :
    r.observeAll (c :: cs) = .ok (r'', event :: events) := by
  rw [observeAll, h]
  dsimp only
  rw [h']

theorem observeAll_append (h : r.observeAll cs = .ok (r', events))
    (h' : r'.observeAll cs' = .ok (r'', events')) :
    r.observeAll (cs ++ cs') = .ok (r'', events ++ events') := by
  induction cs generalizing r events with
  | nil =>
    cases h
    exact h'
  | cons c cs ih =>
    rw [observeAll] at h
    cases hc : r.observe c with
    | error e =>
      rw [hc] at h
      cases h
    | ok x =>
      rw [hc] at h
      dsimp only at h
      cases hcs : x.1.observeAll cs with
      | error e =>
        rw [hcs] at h
        cases h
      | ok y =>
        rw [hcs] at h
        cases h
        exact observeAll_cons hc (ih hcs)

theorem observeAll_singleton (h : r.observe c = .ok (r', event)) :
    r.observeAll [c] = .ok (r', [event]) := observeAll_cons h rfl

/-- What a `Read` shows. -/
theorem observe_read {type : Option XmlReaderNodeType} (h : r.read = .ok (r', type)) :
    r.observe .read = .ok (r', r'.shown type) := by
  rw [observe, h]

theorem observe_attribute (h : r.moveToNextAttribute = .ok (r', true)) :
    r.observe .moveToNextAttribute = .ok (r', .attribute r'.currentQName r'.getValue) := by
  rw [observe, h]

theorem observe_noAttribute (h : r.moveToNextAttribute = .ok (r', false)) :
    r.observe .moveToNextAttribute = .ok (r', .nothing) := by
  rw [observe, h]

/-- **The attributes of a tag**, until there are none. -/
theorem Stands.attributes {as : List XmlChunkAttribute}
    (h : Stands r seen (as.flatMap XmlChunkAttribute.items ++ i :: ahead) tail)
    (hi : i.type ≠ .attribName) : ∃ r',
      r.observeAll (List.replicate (as.length + 1) .moveToNextAttribute) =
        .ok (r', as.map (fun a => .attribute a.name (valueWithLength a.value)) ++ [.nothing]) ∧
      Stands r' (seen ++ as.flatMap XmlChunkAttribute.items) (i :: ahead) tail ∧
      r'.currentElementName = r.currentElementName ∧
      r'.currentElementPrefix = r.currentElementPrefix := by
  induction as generalizing r seen with
  | nil =>
    refine ⟨r, observeAll_singleton (observe_noAttribute (Stands.noAttribute h hi)), ?_, rfl, rfl⟩
    rw [List.flatMap_nil, List.append_nil]
    exact h
  | cons a as ih =>
    rw [List.flatMap_cons, List.append_assoc] at h
    obtain ⟨hmove, h₁⟩ := Stands.nextAttribute h rfl rfl
    obtain ⟨r₂, hall, h₂, hname₂, hpfx₂⟩ := ih h₁
    refine ⟨r₂, ?_, ?_, hname₂, hpfx₂⟩
    · rw [List.length_cons, List.replicate_succ, List.map_cons, List.cons_append]
      exact observeAll_cons (observe_attribute hmove) hall
    · rw [List.flatMap_cons, ← List.append_assoc]
      exact h₂

/-- **A tag** shows its events. -/
theorem Stands.tag {t : XmlTag} (h : Stands r seen (t.items ++ ahead) tail)
    (hnext : t.Closes ∨ ∃ i rest, ahead = i :: rest ∧ i.type ≠ .attribName) : ∃ r',
      r.observeAll t.calls = .ok (r', t.events) ∧ Stands r' (seen ++ t.items) ahead tail := by
  cases t with
  | ends q =>
    obtain ⟨hread, h'⟩ := Stands.read_name h (.inr ⟨.inl rfl, rfl⟩)
    exact ⟨_, observeAll_singleton (observe_read hread), h'⟩
  | start kind q as =>
    have hname : (q.item kind.nameType).type = .element ∨
        (q.item kind.nameType).type = .processingInstruction := by
      cases kind <;> simp [XmlTagKind.nameType]
    rw [XmlTag.items, List.cons_append, List.append_assoc] at h
    obtain ⟨hread, h₁⟩ := Stands.read_name h (.inl ⟨hname, rfl⟩)
    replace hread := observe_read hread
    cases kind with
    | opens =>
      obtain ⟨i, rest, rfl, hi⟩ := hnext.resolve_left fun hc => hc rfl
      obtain ⟨r', hall, h', -, -⟩ := Stands.attributes h₁ hi
      refine ⟨r', ?_, ?_⟩
      · rw [XmlTag.calls, if_pos rfl, List.append_nil]
        exact observeAll_cons hread hall
      · rw [XmlTag.items, XmlTagKind.closingItems, List.append_nil, ← List.singleton_append,
          ← List.append_assoc]
        exact h'
    | empty =>
      obtain ⟨r₂, hall, h₂, helement, hprefix⟩ := Stands.attributes h₁ (by simp)
      obtain ⟨hclose, h'⟩ := Stands.read_close h₂ rfl
      have hevent : (Stands.onClose r₂).shown (some .endElement) = .endElement q := by
        show XmlEvent.endElement ⟨r₂.currentElementPrefix, r₂.currentElementName⟩ = _
        rw [helement, hprefix]
        rfl
      replace hclose := observe_read hclose
      rw [hevent] at hclose
      refine ⟨Stands.onClose r₂, ?_, ?_⟩
      · have hrest := observeAll_append hall (observeAll_singleton hclose)
        rw [List.append_assoc] at hrest
        exact observeAll_cons hread hrest
      · rw [XmlTag.items, ← List.singleton_append, ← List.append_assoc, ← List.append_assoc]
        exact h'
    | instruction =>
      obtain ⟨r₂, hall, h₂, -, -⟩ := Stands.attributes h₁ (by simp)
      obtain ⟨hclose, h'⟩ := Stands.read_name h₂ (.inr ⟨.inr rfl, rfl⟩)
      refine ⟨Stands.onTag r₂ ⟨.processingInstructionEnd, [], []⟩, ?_, ?_⟩
      · have hrest := observeAll_append hall (observeAll_singleton (observe_read hclose))
        rw [List.append_assoc] at hrest
        exact observeAll_cons hread hrest
      · rw [XmlTag.items, ← List.singleton_append, ← List.append_assoc, ← List.append_assoc]
        exact h'

/-- **A chunk** shows its events. -/
theorem Stands.chunk {c : XmlChunk} (h : Stands r seen (c.items ++ ahead) tail)
    (hnext : c.tag.Closes ∨ ∃ i rest, ahead = i :: rest ∧ i.type ≠ .attribName) : ∃ r',
      r.observeAll c.calls = .ok (r', c.events) ∧ Stands r' (seen ++ c.items) ahead tail := by
  rw [XmlChunk.items, List.append_assoc] at h
  rw [XmlChunk.calls, XmlChunk.events, XmlChunk.items]
  unfold XmlChunk.textItems at h ⊢
  by_cases ht : c.text = []
  · rw [if_pos ht] at h ⊢
    rw [if_pos ht, if_pos ht]
    exact Stands.tag h hnext
  · rw [if_neg ht] at h ⊢
    rw [if_neg ht, if_neg ht]
    obtain ⟨chars, hread, h₁⟩ := Stands.read_text h rfl
    obtain ⟨r', hall, h'⟩ := Stands.tag h₁ hnext
    refine ⟨r', observeAll_append (observeAll_singleton (observe_read hread)) hall, ?_⟩
    rw [← List.append_assoc]
    exact h'

/-- No chunk begins with an attribute. -/
theorem XmlChunk.items_head (c : XmlChunk) : ∃ i rest, c.items = i :: rest ∧ i.type ≠ .attribName := by
  unfold XmlChunk.items XmlChunk.textItems
  split_ifs with ht
  · cases c.tag with
    | start kind q as =>
      refine ⟨_, _, rfl, ?_⟩
      cases kind <;> simp [XmlTagKind.nameType]
    | ends q => exact ⟨_, _, rfl, by simp⟩
  · exact ⟨_, _, rfl, by simp⟩

/-- **Chunks** show their events. -/
theorem Stands.chunks {l : List XmlChunk} (h : Stands r seen (l.flatMap XmlChunk.items) tail)
    (hlast : ∀ c, l.getLast? = some c → c.tag.Closes) : ∃ r',
      r.observeAll (l.flatMap XmlChunk.calls) = .ok (r', l.flatMap XmlChunk.events) ∧
      Stands r' (seen ++ l.flatMap XmlChunk.items) [] tail := by
  induction l generalizing r seen with
  | nil =>
    refine ⟨r, rfl, ?_⟩
    rw [List.flatMap_nil, List.append_nil]
    exact h
  | cons c l ih =>
    rw [List.flatMap_cons] at h
    have hnext : c.tag.Closes ∨
        ∃ i rest, l.flatMap XmlChunk.items = i :: rest ∧ i.type ≠ .attribName := by
      cases l with
      | nil => exact .inl (hlast c rfl)
      | cons c' l =>
        obtain ⟨i, rest, heq, hi⟩ := c'.items_head
        exact .inr ⟨i, rest ++ l.flatMap XmlChunk.items, by rw [List.flatMap_cons, heq]; rfl, hi⟩
    obtain ⟨r₁, hc, h₁⟩ := Stands.chunk h hnext
    have hlast' : ∀ c, l.getLast? = some c → c.tag.Closes := by
      intro d hd
      cases l with
      | nil => cases hd
      | cons c' l => exact hlast d hd
    obtain ⟨r', hall, h'⟩ := ih h₁ hlast'
    refine ⟨r', ?_, ?_⟩
    · rw [List.flatMap_cons, List.flatMap_cons]
      exact observeAll_append hc hall
    · rw [List.flatMap_cons, ← List.append_assoc]
      exact h'

/-- The tail of a document is no entity. -/
theorem parseUnknown_tail {capacity : Nat} (ht : '<'.toUInt8 ∉ tail) :
    XmlBuffer.parseUnknown capacity tail = .ok ⟨capacity, tail, [], [], 0, 0, none⟩ := by
  have hstay := @XmlBuffer.parseFrom_stay ⟨capacity, tail, [], [], 0, 0, none⟩ (.text 0) 0 tail []
    fun c hc q ahead => if_neg ?_
  · rw [List.append_nil] at hstay
    exact hstay
  · rintro rfl
    exact ht hc

/-- At the end of the document no entity is found, whenever one is asked for. -/
theorem Stands.ended (h : Stands r seen [] tail) (ht : '<'.toUInt8 ∉ tail) : ∃ r',
    r.ensureFilledBuffer = .ok (r', false) ∧ r'.isEOF = true ∧ Stands r' [] [] [] := by
  obtain ⟨a, hchars, hlaid⟩ := h.laid
  have hlen := hlaid.length_eq
  rw [List.map_nil, List.append_nil] at hlen
  have hroom := h.room
  have hoverflow := h.overflow
  have hindex := h.index
  have hfull := h.full
  have hdrop : r.buffer.chars.drop (r.buffer.chars.length - r.overflowSize) = tail := by
    rw [hchars, hoverflow, List.length_append, Nat.add_sub_cancel, List.drop_left]
  have hfits : ¬ (r.buffer.capacity - bufferMargin < r.overflowSize ∨
      r.buffer.chars.length < r.overflowSize) := by
    rw [hchars, List.length_append]
    omega
  unfold ensureFilledBuffer readNextBufferFromStream NativeStream.readBuffer
  rw [if_pos (by omega), if_neg hfits, h.stream, hdrop]
  dsimp only
  rw [List.take_nil, List.append_nil, parseUnknown_tail ht]
  refine ⟨_, rfl, rfl, ⟨tail, (List.append_nil _).symm, .nil _ _⟩, rfl, rfl, ?_, rfl, ?_, List.drop_nil⟩
  · exact fun i hi => absurd hi List.not_mem_nil
  · show 0 + bufferMargin ≤ r.buffer.capacity
    omega

/-- **At the end of the document** there is nothing. -/
theorem Stands.nothing (h : Stands r seen [] tail) (ht : '<'.toUInt8 ∉ tail) :
    ∃ r', r.observe .read = .ok (r', .nothing) := by
  obtain ⟨r', hended, -, -⟩ := h.ended ht
  refine ⟨r', ?_⟩
  unfold observe NativeReader.read
  rw [hended]
  rfl

end

/-! ## Whole documents -/

/-- Filling the buffer in front of `Read`. -/
theorem read_of_filled {r r' : NativeReader} (h : r.ensureFilledBuffer = .ok (r', true))
    (h' : r'.ensureFilledBuffer = .ok (r', true)) : r.read = r'.read := by
  unfold NativeReader.read
  rw [h, h']

theorem XmlTag.Closes.finishes {t : XmlTag} (h : t.Closes) : t.Finishes := by
  cases t with
  | start kind q as => exact fun hk => absurd hk h
  | ends q => trivial

theorem items_ne_nil {cs : List XmlChunk} {l : XmlChunk} (hl : cs.getLast? = some l) :
    cs.flatMap XmlChunk.items ≠ [] := by
  obtain ⟨i, rest, heq, -⟩ := l.items_head
  have hmem : i ∈ cs.flatMap XmlChunk.items :=
    List.mem_flatMap.2 ⟨l, List.mem_of_getLast? hl, heq ▸ List.mem_cons_self⟩
  exact List.ne_nil_of_mem hmem

/-- The buffer of a new reader takes the document. -/
theorem filled_create {capacity : Nat} {cs : List XmlChunk} {tail : List UInt8}
    (hmin : minBufferCapacity ≤ capacity) (hmax : capacity ≤ maxBufferCapacity)
    (hc : ∀ c ∈ cs, c.Valid) (hlast : ∃ c, cs.getLast? = some c ∧ c.tag.Closes)
    (htail : '<'.toUInt8 ∉ tail)
    (hfits : (cs.flatMap XmlChunk.render ++ tail).length + bufferMargin ≤ capacity) :
    ∃ r r', NativeReader.create ⟨cs.flatMap XmlChunk.render ++ tail, []⟩ capacity = .ok r ∧
      r.ensureFilledBuffer = .ok (r', true) ∧
      Stands r' [] (cs.flatMap XmlChunk.items) tail := by
  obtain ⟨l, hl, hcloses⟩ := hlast
  obtain ⟨b, a, hparse, hchars, hlaid, hfull, hpointer, hroom, hzero⟩ :=
    XmlBuffer.parseUnknown_chunks hc ⟨l, hl, hcloses.finishes⟩ htail hfits
  generalize cs.flatMap XmlChunk.render ++ tail = doc at *
  have hsize : doc.length ≤ capacity - bufferMargin := by omega
  let r : NativeReader :=
    ⟨⟨doc, []⟩, ⟨capacity, [], [], [], 0, 0, none⟩, 0, 0, false, [], [], [], [], []⟩
  let r' : NativeReader := { r with
    stream := ⟨doc.drop (capacity - bufferMargin), []⟩, buffer := b, overflowSize := tail.length
    entityIndex := 0 }
  have hnext : r.readNextBufferFromStream = .ok r' := by
    unfold readNextBufferFromStream NativeStream.readBuffer
    rw [if_neg (by simp [r])]
    simp only [r, List.headD_nil, Nat.min_self, List.length_nil, Nat.sub_zero, List.drop_nil,
      List.nil_append, List.take_of_length_le hsize, List.tail_nil]
    rw [hparse]
    dsimp only
    rw [hpointer, hchars, Option.map_some, Option.getD_some, List.length_append,
      Nat.add_sub_cancel_left]
  have hcount : b.fullEntityCount ≠ 0 := by
    rw [hfull, hlaid.length_eq, List.length_map]
    exact fun h0 => items_ne_nil hl (List.length_eq_zero_iff.1 h0)
  refine ⟨r, r', ?_, ?_, ⟨a, hchars, ?_⟩, rfl, hfull, ?_, rfl, hroom, ?_⟩
  · rw [create, if_neg (by omega)]
  · rw [ensureFilledBuffer, if_pos le_rfl, hnext]
    exact if_neg hcount
  · rw [List.nil_append]
    exact hlaid
  · rw [List.nil_append]
    exact hzero
  · exact List.drop_of_length_le hsize

/-- A reader that fills its buffer with the document shows its chunks, and then nothing. -/
theorem Stands.document {r r₁ : NativeReader} {cs : List XmlChunk} {tail : List UInt8}
    (hfilled : r.ensureFilledBuffer = .ok (r₁, true))
    (h₁ : Stands r₁ [] (cs.flatMap XmlChunk.items) tail)
    (hlast : ∃ c, cs.getLast? = some c ∧ c.tag.Closes) (htail : '<'.toUInt8 ∉ tail) :
    ∃ r', r.observeAll (cs.flatMap XmlChunk.calls ++ [.read]) =
      .ok (r', cs.flatMap XmlChunk.events ++ [.nothing]) := by
  obtain ⟨l, hl, hcloses⟩ := hlast
  obtain ⟨r₂, hall, h₂⟩ := Stands.chunks h₁ fun d hd => by
    rw [hl] at hd
    cases hd
    exact hcloses
  obtain ⟨r₃, hnothing⟩ := Stands.nothing h₂ htail
  have hrun := observeAll_append hall (observeAll_singleton hnothing)
  -- the first call fills the buffer
  obtain ⟨calls, hcalls⟩ : ∃ calls, cs.flatMap XmlChunk.calls = .read :: calls := by
    cases cs with
    | nil => cases hl
    | cons c cs =>
      rw [List.flatMap_cons, XmlChunk.calls]
      split_ifs with ht
      · cases c.tag <;> exact ⟨_, rfl⟩
      · exact ⟨_, rfl⟩
  have hread : r.read = r₁.read := by
    refine read_of_filled hfilled ?_
    cases hcs : cs.flatMap XmlChunk.items with
    | nil => exact absurd hcs (items_ne_nil hl)
    | cons i rest =>
      rw [hcs] at h₁
      exact h₁.filled
  refine ⟨r₃, ?_⟩
  rw [hcalls, List.cons_append] at hrun ⊢
  rw [← hrun, observeAll, observeAll, observe, observe, hread]

/-- **The reader shows the events of a document**, where its buffer takes all of it: for each chunk
its text, decoded, and its tag with all attributes, and behind the last tag nothing. -/
theorem reads_chunks {capacity : Nat} {cs : List XmlChunk} {tail : List UInt8}
    (hmin : minBufferCapacity ≤ capacity) (hmax : capacity ≤ maxBufferCapacity)
    (hc : ∀ c ∈ cs, c.Valid) (hlast : ∃ c, cs.getLast? = some c ∧ c.tag.Closes)
    (htail : '<'.toUInt8 ∉ tail)
    (hfits : (cs.flatMap XmlChunk.render ++ tail).length + bufferMargin ≤ capacity) :
    ∃ r r', NativeReader.create ⟨cs.flatMap XmlChunk.render ++ tail, []⟩ capacity = .ok r ∧
      r.observeAll (cs.flatMap XmlChunk.calls ++ [.read]) =
        .ok (r', cs.flatMap XmlChunk.events ++ [.nothing]) := by
  obtain ⟨r, r₁, hcreate, hfilled, h₁⟩ := filled_create hmin hmax hc hlast htail hfits
  obtain ⟨r', hall⟩ := Stands.document hfilled h₁ hlast htail
  exact ⟨r, r', hcreate, hall⟩

/-- An instruction, and an empty element behind a text. -/
def instructionChunks : List XmlChunk :=
  [⟨[], .start .instruction ⟨[], xmlText "xml"⟩ [⟨⟨[], xmlText "version"⟩, xmlText "1.0"⟩]⟩,
    ⟨xmlText "a & b", .start .empty ⟨xmlText "p", xmlText "item"⟩ []⟩]

theorem reads_chunks_instruction : ∃ r r',
    NativeReader.create ⟨xmlText "<?xml version=\"1.0\"?>a &amp; b<p:item/>\n", []⟩ 1024 = .ok r ∧
      r.observeAll [.read, .moveToNextAttribute, .moveToNextAttribute, .read, .read, .read,
        .moveToNextAttribute, .read, .read] =
        .ok (r', [.startElement ⟨[], xmlText "xml"⟩,
          .attribute ⟨[], xmlText "version"⟩ (.ok (xmlText "1.0")), .nothing, .endElement ⟨[], []⟩,
          .text (.ok (xmlText "a & b")), .startElement ⟨xmlText "p", xmlText "item"⟩, .nothing,
          .endElement ⟨xmlText "p", xmlText "item"⟩, .nothing]) := by
  have hrender : instructionChunks.flatMap XmlChunk.render ++ xmlText "\n" =
      xmlText "<?xml version=\"1.0\"?>a &amp; b<p:item/>\n" := by decide
  have hcalls : instructionChunks.flatMap XmlChunk.calls ++ [.read] =
      [.read, .moveToNextAttribute, .moveToNextAttribute, .read, .read, .read,
        .moveToNextAttribute, .read, .read] := by decide
  have hevents : instructionChunks.flatMap XmlChunk.events ++ [.nothing] =
      [.startElement ⟨[], xmlText "xml"⟩,
        .attribute ⟨[], xmlText "version"⟩ (.ok (xmlText "1.0")), .nothing, .endElement ⟨[], []⟩,
        .text (.ok (xmlText "a & b")), .startElement ⟨xmlText "p", xmlText "item"⟩, .nothing,
        .endElement ⟨xmlText "p", xmlText "item"⟩, .nothing] := by decide
  have hlen : (xmlText "<?xml version=\"1.0\"?>a &amp; b<p:item/>\n").length + bufferMargin ≤ 1024 := by
    decide
  have h := @reads_chunks 1024 instructionChunks (xmlText "\n") (by decide) (by decide)
    (by decide +kernel) ⟨_, rfl, XmlTagKind.noConfusion⟩ (by decide) (by rw [hrender]; exact hlen)
  rw [hrender, hcalls, hevents] at h
  exact h

end NMR
