import Lib3MF.Common.Platform.XmlReader
import Lib3MF.Common.Platform.Proof.XmlReading

/-!
# Documents as bytes

How a tree of elements is laid out in UTF-8: an attribute stands behind one space and in double
quotes, nothing stands between the parts of a tag, and `escapeXMLString` escapes the values and the
texts. Two texts do not follow each other. Behind the last tag there may be anything but a tag. A
tree that is laid out so is a sequence of chunks (`render_chunks`), and their entities are those of
the tree (`items_chunks`).
-/

namespace NMR

open Lib

/-- The bytes of a string. -/
def utf8 (s : String) : List UInt8 := s.toByteArray.data.toList

theorem utf8_injective : Function.Injective utf8 := fun _ _ h =>
  String.toByteArray_inj.1 (ByteArray.ext (Array.ext' h))

@[simp] theorem utf8_inj {s t : String} : utf8 s = utf8 t ↔ s = t := utf8_injective.eq_iff

@[simp] theorem length_utf8 (s : String) : (utf8 s).length = s.utf8ByteSize := by
  simp [utf8]

@[simp] theorem utf8_empty : utf8 "" = [] := rfl

@[simp] theorem utf8_eq_nil {s : String} : utf8 s = [] ↔ s = "" := by
  rw [← utf8_empty, utf8_inj]

/-- The string of some bytes; the empty one where they are not UTF-8. -/
def ofUtf8 (bytes : List UInt8) : String := (String.fromUTF8? ⟨bytes.toArray⟩).getD ""

@[simp] theorem ofUtf8_utf8 (s : String) : ofUtf8 (utf8 s) = s := by
  unfold ofUtf8 utf8 String.fromUTF8?
  simp [s.isValidUTF8]
  rfl

/-! ## Layout -/

/-- The name of an element or attribute. -/
def qName (nsPrefix name : String) : XmlQName := ⟨utf8 nsPrefix, utf8 name⟩

def XmlAttribute.chunk (a : XmlAttribute) : XmlChunkAttribute := ⟨qName a.nsPrefix a.name, utf8 a.value⟩

/-- The entity in bytes. -/
def XmlEntity.item (e : XmlEntity) : EntityItem := ⟨e.type, utf8 e.nsPrefix, utf8 e.name⟩

namespace XmlContent

/-- The start tag of an element or an instruction. -/
def startTag (kind : XmlTagKind) (nsPrefix name : String) (attributes : List XmlAttribute) : XmlTag :=
  .start kind (qName nsPrefix name) (attributes.map XmlAttribute.chunk)

/-- The content as bytes. -/
def render : XmlContent → List UInt8
  | .nil => []
  | .text value rest => escapeXMLString (utf8 value) ++ rest.render
  | .instruction target attributes rest =>
    60 :: (startTag .instruction "" target attributes).render ++ rest.render
  | .element nsPrefix name attributes children rest =>
    60 :: (startTag .opens nsPrefix name attributes).render ++ children.render ++
      60 :: (XmlTag.ends (qName nsPrefix name)).render ++ rest.render
  | .emptyElement nsPrefix name attributes rest =>
    60 :: (startTag .empty nsPrefix name attributes).render ++ rest.render

/-- The names are names, no string has a zero, and two texts do not follow each other. -/
def Laid : (behindText : Bool) → XmlContent → Prop
  | _, .nil => True
  | behindText, .text value rest => behindText = false ∧ 0 ∉ utf8 value ∧ rest.Laid true
  | _, .instruction target attributes rest =>
    (startTag .instruction "" target attributes).Valid ∧ rest.Laid false
  | _, .element nsPrefix name attributes children rest =>
    (startTag .opens nsPrefix name attributes).Valid ∧ children.Laid false ∧ rest.Laid false
  | _, .emptyElement nsPrefix name attributes rest =>
    (startTag .empty nsPrefix name attributes).Valid ∧ rest.Laid false

/-- The last node is a text. -/
def EndsInText : XmlContent → Prop
  | .nil => False
  | .text _ rest => rest = .nil ∨ rest.EndsInText
  | .instruction _ _ rest => rest.EndsInText
  | .element _ _ _ _ rest => rest.EndsInText
  | .emptyElement _ _ _ rest => rest.EndsInText

/-! ## Chunks -/

/-- A text in front of chunks; one without a tag behind it is no chunk. -/
def addText (text : List UInt8) : List XmlChunk → List XmlChunk
  | [] => []
  | c :: cs => ⟨text ++ c.text, c.tag⟩ :: cs

/-- The chunks of some content, with those that follow it. -/
def chunks : XmlContent → List XmlChunk → List XmlChunk
  | .nil, behind => behind
  | .text value rest, behind => addText (utf8 value) (rest.chunks behind)
  | .instruction target attributes rest, behind =>
    ⟨[], startTag .instruction "" target attributes⟩ :: rest.chunks behind
  | .element nsPrefix name attributes children rest, behind =>
    ⟨[], startTag .opens nsPrefix name attributes⟩ ::
      children.chunks (⟨[], .ends (qName nsPrefix name)⟩ :: rest.chunks behind)
  | .emptyElement nsPrefix name attributes rest, behind =>
    ⟨[], startTag .empty nsPrefix name attributes⟩ :: rest.chunks behind

/-- No text stands in front of the chunks. -/
def Bare (cs : List XmlChunk) : Prop := ∀ c ∈ cs.head?, c.text = []

variable {c : XmlContent} {cs : List XmlChunk} {behindText : Bool}

theorem render_addText (text : List UInt8) (hcs : cs ≠ []) :
    (addText text cs).flatMap XmlChunk.render =
      escapeXMLString text ++ cs.flatMap XmlChunk.render := by
  cases cs with
  | nil => exact absurd rfl hcs
  | cons c cs => simp [addText, XmlChunk.render, escapeXMLString]

theorem items_addText (text : List UInt8) (hcs : cs ≠ []) (hb : Bare cs) :
    (addText text cs).flatMap XmlChunk.items =
      XmlChunk.textItems text ++ cs.flatMap XmlChunk.items := by
  cases cs with
  | nil => exact absurd rfl hcs
  | cons c cs =>
    have hc : c.text = [] := hb c rfl
    simp [addText, XmlChunk.items, hc, XmlChunk.textItems]

theorem bare_cons (t : XmlTag) (cs : List XmlChunk) : Bare (⟨[], t⟩ :: cs) := fun c hc => by
  cases hc
  rfl

/-- Some content with chunks behind it, or with a tag at its end, is chunks. -/
theorem chunks_ne_nil (h : cs ≠ [] ∨ c ≠ .nil ∧ ¬ c.EndsInText) : c.chunks cs ≠ [] := by
  induction c with
  | nil => exact h.resolve_right fun h => h.1 rfl
  | text value rest ih =>
    have hrest : rest.chunks cs ≠ [] :=
      ih (h.imp_right fun h => ⟨fun h0 => h.2 (.inl h0), fun h0 => h.2 (.inr h0)⟩)
    rw [chunks]
    cases hcs : rest.chunks cs with
    | nil => exact absurd hcs hrest
    | cons c cs => exact List.cons_ne_nil _ _
  | instruction => exact List.cons_ne_nil _ _
  | element => exact List.cons_ne_nil _ _
  | emptyElement => exact List.cons_ne_nil _ _

/-- No text stands in front of content that follows one. -/
theorem bare_chunks (h : c.Laid true) (hb : Bare cs) : Bare (c.chunks cs) := by
  cases c with
  | nil => exact hb
  | text value rest => cases h.1
  | instruction => exact bare_cons _ _
  | element => exact bare_cons _ _
  | emptyElement => exact bare_cons _ _

/-- **The chunks of some content are its bytes.** -/
theorem render_chunks (h : cs ≠ [] ∨ ¬ c.EndsInText) :
    (c.chunks cs).flatMap XmlChunk.render = c.render ++ cs.flatMap XmlChunk.render := by
  induction c generalizing cs with
  | nil => rfl
  | text value rest ih =>
    have hrest : cs ≠ [] ∨ rest ≠ .nil ∧ ¬ rest.EndsInText :=
      h.imp_right fun h => ⟨fun h0 => h (.inl h0), fun h0 => h (.inr h0)⟩
    rw [chunks, render_addText _ (chunks_ne_nil hrest), ih (hrest.imp_right And.right), render,
      List.append_assoc]
  | instruction target attributes rest ih =>
    rw [chunks, List.flatMap_cons, ih h, render]
    simp [XmlChunk.render, escapeXMLString]
  | element nsPrefix name attributes children rest ihc ih =>
    rw [chunks, List.flatMap_cons, ihc (.inl (List.cons_ne_nil _ _)), List.flatMap_cons, ih h, render]
    simp [XmlChunk.render, escapeXMLString]
  | emptyElement nsPrefix name attributes rest ih =>
    rw [chunks, List.flatMap_cons, ih h, render]
    simp [XmlChunk.render, escapeXMLString]

theorem items_attributes (attributes : List XmlAttribute) :
    (attributes.map XmlAttribute.chunk).flatMap XmlChunkAttribute.items =
      (attributes.flatMap XmlAttribute.entities).map XmlEntity.item := by
  induction attributes with
  | nil => rfl
  | cons a as ih =>
    rw [List.map_cons, List.flatMap_cons, ih, List.flatMap_cons, List.map_append]
    rfl

theorem textItems_utf8 (value : String) :
    XmlChunk.textItems (utf8 value) =
      (if value = "" then [] else [(⟨.text, "", value⟩ : XmlEntity)]).map XmlEntity.item := by
  unfold XmlChunk.textItems
  by_cases hv : value = ""
  · rw [if_pos (utf8_eq_nil.2 hv), if_pos hv]
    rfl
  · rw [if_neg (mt utf8_eq_nil.1 hv), if_neg hv]
    rfl

/-- **The entities of the chunks are those of the content.** -/
theorem items_chunks (hl : c.Laid behindText) (hb : Bare cs) (h : cs ≠ [] ∨ ¬ c.EndsInText) :
    (c.chunks cs).flatMap XmlChunk.items =
      c.entities.map XmlEntity.item ++ cs.flatMap XmlChunk.items := by
  induction c generalizing cs behindText with
  | nil => rfl
  | text value rest ih =>
    have hrest : cs ≠ [] ∨ rest ≠ .nil ∧ ¬ rest.EndsInText :=
      h.imp_right fun h => ⟨fun h0 => h (.inl h0), fun h0 => h (.inr h0)⟩
    obtain ⟨-, -, hlrest⟩ := hl
    rw [chunks, items_addText _ (chunks_ne_nil hrest) (bare_chunks hlrest hb),
      ih hlrest hb (hrest.imp_right And.right), entities, textItems_utf8, List.map_append,
      List.append_assoc]
  | instruction target attributes rest ih =>
    rw [chunks, List.flatMap_cons, ih hl.2 hb h]
    simp [XmlChunk.items, XmlChunk.textItems, startTag, XmlTag.items, items_attributes, entities,
      XmlTagKind.closingItems]
    exact ⟨rfl, rfl⟩
  | element nsPrefix name attributes children rest ihc ih =>
    rw [chunks, List.flatMap_cons, ihc hl.2.1 (bare_cons _ _) (.inl (List.cons_ne_nil _ _)),
      List.flatMap_cons, ih hl.2.2 hb h]
    simp [XmlChunk.items, XmlChunk.textItems, startTag, XmlTag.items, items_attributes, entities,
      XmlTagKind.closingItems]
    exact ⟨rfl, rfl⟩
  | emptyElement nsPrefix name attributes rest ih =>
    rw [chunks, List.flatMap_cons, ih hl.2 hb h]
    simp [XmlChunk.items, XmlChunk.textItems, startTag, XmlTag.items, items_attributes, entities,
      XmlTagKind.closingItems]
    exact ⟨rfl, rfl⟩

/-- **The chunks of content that is laid out may be read.** -/
theorem valid_chunks (hl : c.Laid behindText) (hcs : ∀ d ∈ cs, d.Valid) :
    ∀ d ∈ c.chunks cs, d.Valid := by
  induction c generalizing cs behindText with
  | nil => exact hcs
  | text value rest ih =>
    obtain ⟨-, hv, hlrest⟩ := hl
    have hrest := ih hlrest hcs
    rw [chunks]
    cases hr : rest.chunks cs with
    | nil => exact fun c hc => absurd hc List.not_mem_nil
    | cons c cs =>
      rw [hr] at hrest
      obtain ⟨⟨ht, htag⟩, hrest⟩ := List.forall_mem_cons.1 hrest
      refine List.forall_mem_cons.2 ⟨⟨fun h0 => ?_, htag⟩, hrest⟩
      exact (List.mem_append.1 h0).elim hv ht
  | instruction target attributes rest ih =>
    exact List.forall_mem_cons.2 ⟨⟨List.not_mem_nil, hl.1⟩, ih hl.2 hcs⟩
  | element nsPrefix name attributes children rest ihc ih =>
    refine List.forall_mem_cons.2 ⟨⟨List.not_mem_nil, hl.1⟩, ihc hl.2.1 ?_⟩
    exact List.forall_mem_cons.2 ⟨⟨List.not_mem_nil, hl.1.1⟩, ih hl.2.2 hcs⟩
  | emptyElement nsPrefix name attributes rest ih =>
    exact List.forall_mem_cons.2 ⟨⟨List.not_mem_nil, hl.1⟩, ih hl.2 hcs⟩

theorem closes_addText (text : List UInt8) (h : ∀ d ∈ cs.getLast?, d.tag.Closes) :
    ∀ d ∈ (addText text cs).getLast?, d.tag.Closes := by
  cases cs with
  | nil => exact h
  | cons c cs =>
    cases cs with
    | nil =>
      intro d hd
      cases hd
      exact h c rfl
    | cons c' cs => exact h

theorem closes_cons {d : XmlChunk} (hd : cs = [] → d.tag.Closes)
    (h : ∀ d ∈ cs.getLast?, d.tag.Closes) : ∀ e ∈ (d :: cs).getLast?, e.tag.Closes := by
  cases cs with
  | nil =>
    intro e he
    cases he
    exact hd rfl
  | cons c cs => exact h

/-- The last tag closes an element or an instruction. -/
theorem closes_chunks (h : ∀ d ∈ cs.getLast?, d.tag.Closes) :
    ∀ d ∈ (c.chunks cs).getLast?, d.tag.Closes := by
  induction c generalizing cs with
  | nil => exact h
  | text value rest ih => exact closes_addText _ (ih h)
  | instruction target attributes rest ih => exact closes_cons (fun _ => by simp [startTag, XmlTag.Closes]) (ih h)
  | element nsPrefix name attributes children rest ihc ih =>
    refine closes_cons (fun h0 => absurd h0 (chunks_ne_nil (.inl (List.cons_ne_nil _ _)))) (ihc ?_)
    exact closes_cons (fun _ => trivial) (ih h)
  | emptyElement nsPrefix name attributes rest ih =>
    exact closes_cons (fun _ => by simp [startTag, XmlTag.Closes]) (ih h)

end XmlContent

end NMR
