import Lib3MF.Common.Platform.Proof.XmlTracking
import Lib3MF.Lib.Markup

/-!
# Parsing tags

A document is a sequence of chunks: a text, which may be empty, and the tag behind it. `render` is
how a chunk is written, with its strings escaped, and `items` are the entities it is to become. The
parse functions take a rendered chunk to these entities, whatever was parsed before
(`parse_chunk`), so a rendered document to the entities of its chunks (`parseUnknown_chunks`).
-/

namespace NMR

open Lib Markup

/-- A name without a colon. -/
def IsNCName (s : List UInt8) : Prop := IsName s ∧ ':'.toUInt8 ∉ s

instance : DecidablePred IsNCName := fun s => inferInstanceAs (Decidable (IsName s ∧ _))

/-- A name with its prefix. -/
structure XmlQName where
  nsPrefix : List UInt8
  localName : List UInt8
  deriving DecidableEq

namespace XmlQName

/-- The name as it is written. -/
def text (q : XmlQName) : List UInt8 := XmlWriter.nodeName q.nsPrefix q.localName

/-- The prefix and the name are names. -/
def Valid (q : XmlQName) : Prop := (q.nsPrefix = [] ∨ IsNCName q.nsPrefix) ∧ IsNCName q.localName

instance : DecidablePred Valid := fun q =>
  inferInstanceAs (Decidable ((q.nsPrefix = [] ∨ IsNCName q.nsPrefix) ∧ IsNCName q.localName))

/-- The name as an entity. -/
def item (type : XmlEntityType) (q : XmlQName) : EntityItem := ⟨type, q.nsPrefix, q.localName⟩

end XmlQName

/-- An attribute with its value. -/
structure XmlChunkAttribute where
  name : XmlQName
  value : List UInt8
  deriving DecidableEq

/-- How a start tag is closed: by `>`, by `/>`, or, as a processing instruction, by `?>`. -/
inductive XmlTagKind where
  | opens
  | empty
  | instruction
  deriving DecidableEq

/-- A tag. -/
inductive XmlTag where
  | start (kind : XmlTagKind) (name : XmlQName) (attributes : List XmlChunkAttribute)
  | ends (name : XmlQName)
  deriving DecidableEq

/-- A text and the tag behind it. -/
structure XmlChunk where
  text : List UInt8
  tag : XmlTag
  deriving DecidableEq

namespace XmlChunkAttribute

/-- The attribute behind its space. -/
def render (a : XmlChunkAttribute) : List UInt8 :=
  a.name.text ++ (61 :: 34 :: (escapeXMLString a.value ++ [34]))

def items (a : XmlChunkAttribute) : List EntityItem :=
  [a.name.item .attribName, ⟨.attribValue, [], a.value⟩]

def Valid (a : XmlChunkAttribute) : Prop := a.name.Valid ∧ 0 ∉ a.value

instance : DecidablePred Valid := fun a => inferInstanceAs (Decidable (a.name.Valid ∧ 0 ∉ a.value))

end XmlChunkAttribute

namespace XmlTagKind

/-- What is between the `<` and the name. -/
def opening : XmlTagKind → List UInt8
  | .instruction => [63]
  | _ => []

/-- What closes the tag. -/
def closing : XmlTagKind → List UInt8
  | .opens => [62]
  | .empty => [47, 62]
  | .instruction => [63, 62]

/-- The entity of the name. -/
def nameType : XmlTagKind → XmlEntityType
  | .instruction => .processingInstruction
  | _ => .element

/-- The entity that closes the tag. -/
def closingItems : XmlTagKind → List EntityItem
  | .opens => []
  | .empty => [⟨.closeElement, [], []⟩]
  | .instruction => [⟨.processingInstructionEnd, [], []⟩]

end XmlTagKind

namespace XmlTag

/-- The tag behind its `<`. -/
def render : XmlTag → List UInt8
  | .start kind name attributes =>
    kind.opening ++ (name.text ++ (attributes.flatMap (fun a => 32 :: a.render) ++ kind.closing))
  | .ends name => 47 :: (name.text ++ [62])

def items : XmlTag → List EntityItem
  | .start kind name attributes =>
    name.item kind.nameType :: (attributes.flatMap XmlChunkAttribute.items ++ kind.closingItems)
  | .ends name => [name.item .elementEnd]

def Valid : XmlTag → Prop
  | .start _ name attributes => name.Valid ∧ ∀ a ∈ attributes, a.Valid
  | .ends name => name.Valid

instance : DecidablePred Valid
  | .start _ name attributes =>
    inferInstanceAs (Decidable (name.Valid ∧ ∀ a ∈ attributes, a.Valid))
  | .ends name => inferInstanceAs (Decidable name.Valid)

/-- All of its entities are full as soon as it is parsed. -/
def Finishes : XmlTag → Prop
  | .start kind _ attributes => kind = .opens → attributes = []
  | .ends _ => True

end XmlTag

namespace XmlChunk

def render (c : XmlChunk) : List UInt8 := escapeXMLString c.text ++ 60 :: c.tag.render

/-- The entity of a text; there is none for the empty text. -/
def textItems (t : List UInt8) : List EntityItem := if t = [] then [] else [⟨.text, [], t⟩]

def items (c : XmlChunk) : List EntityItem := textItems c.text ++ c.tag.items

def Valid (c : XmlChunk) : Prop := 0 ∉ c.text ∧ c.tag.Valid

instance : DecidablePred Valid := fun c => inferInstanceAs (Decidable (0 ∉ c.text ∧ c.tag.Valid))

end XmlChunk

/-! ## Names -/

theorem isNameByte_ne {c d : UInt8} (hc : isNameByte c = true) (hd : isNameByte d = false) :
    c ≠ d := by
  rintro rfl
  rw [hc] at hd
  cases hd

theorem isNameByte_of_isName {s : List UInt8} (h : IsName s) : ∀ c ∈ s, isNameByte c = true := by
  cases s with
  | nil => exact h.elim
  | cons d s =>
    intro c hc
    rcases List.mem_cons.1 hc with rfl | hc
    · rw [isNameByte, h.1]
      rfl
    · exact h.2 c hc

theorem escapeXMLChar_name {c : UInt8} (hc : isNameByte c = true) : escapeXMLChar c = [c] := by
  have hne (d : UInt8) (hd : isNameByte d = false) : c ≠ d := isNameByte_ne hc hd
  rw [escapeXMLChar, if_neg (hne _ (by decide)), if_neg (hne _ (by decide)),
    if_neg (hne _ (by decide)), if_neg (hne _ (by decide)), if_neg (hne _ (by decide))]

namespace XmlQName

variable {q : XmlQName}

@[simp] theorem type_item (type : XmlEntityType) (q : XmlQName) : (q.item type).type = type := rfl

theorem Valid.zeroFree (h : q.Valid) (type : XmlEntityType) : (q.item type).ZeroFree := by
  have hname {s : List UInt8} (hs : IsNCName s) : 0 ∉ s := fun h0 =>
    absurd (isNameByte_of_isName hs.1 0 h0) (by decide)
  refine ⟨?_, hname h.2⟩
  rcases h.1 with hp | hp
  · show 0 ∉ q.nsPrefix
    rw [hp]
    exact List.not_mem_nil
  · exact hname hp

theorem Valid.escaped (h : q.Valid) (type : XmlEntityType) : (q.item type).escaped = q.item type := by
  unfold EntityItem.escaped item
  rw [escapeXMLString_eq fun c hc => escapeXMLChar_name (isNameByte_of_isName h.2.1 c hc)]

/-- A name that is written is a name. -/
theorem Valid.isName (h : q.Valid) : IsName q.text := by
  obtain ⟨hp, hn, -⟩ := h
  rw [text, XmlWriter.nodeName]
  rcases hp with hp | ⟨hp, -⟩
  · rw [if_pos hp]
    exact hn
  · have hne : q.nsPrefix ≠ [] := fun h0 => by
      rw [h0] at hp
      exact hp
    have hcolon : xmlText ":" = [58] := by decide
    rw [if_neg hne, List.append_assoc, hcolon]
    exact hp.join hn

theorem Valid.text_ne_nil (h : q.Valid) : q.text ≠ [] := fun h0 => by
  have hn := h.isName
  rw [h0] at hn
  exact hn

theorem Valid.spells (h : q.Valid) (type : XmlEntityType) (p : Nat) :
    XmlBuffer.Spells p q.text true (q.item type) := by
  refine XmlBuffer.spells_name (h.zeroFree type) (h.escaped type) ?_ h.2.2
  rcases h.1 with hp | hp
  · show ':'.toUInt8 ∉ q.nsPrefix
    rw [hp]
    exact List.not_mem_nil
  · exact hp.2

end XmlQName

namespace XmlBuffer

variable {s s' : XmlBuffer} {mode mode' : ParseMode} {p : Nat} {c : UInt8} {r rest : List UInt8}
  {actions : List ParseAction} {done pend : List EntityItem}

/-! ## Parsing on -/

/-- One character. -/
theorem parseFrom_cons (hc : parseChar mode p c rest = .ok (actions, mode'))
    (ha : actions.foldlM perform s = .ok s') :
    parseFrom mode p (c :: rest) s = parseFrom mode' (p + 1) rest s' := by
  rw [parseFrom, hc]
  dsimp only
  rw [ha]

/-- Characters that leave the loop where it is. -/
theorem parseFrom_stay (h : ∀ c ∈ r, ∀ p ahead, parseChar mode p c ahead = .ok ([], mode)) :
    parseFrom mode p (r ++ rest) s = parseFrom mode (p + r.length) rest s := by
  induction r generalizing p with
  | nil => rfl
  | cons c r ih =>
    rw [List.cons_append, parseFrom_cons (h c List.mem_cons_self p _) rfl,
      ih fun d hd => h d (List.mem_cons_of_mem _ hd), List.length_cons, Nat.add_assoc,
      Nat.add_comm 1]

/-- The bytes that end names and spaces are no name bytes. -/
theorem name_stays {c : UInt8} (hc : isNameByte c = true) (start p : Nat) (ahead : List UInt8) :
    parseChar (.element start) p c ahead = .ok ([], .element start) ∧
    parseChar (.instruction start) p c ahead = .ok ([], .instruction start) ∧
    parseChar (.endElement start) p c ahead = .ok ([], .endElement start) ∧
    parseChar (.attributeName start false) p c ahead = .ok ([], .attributeName start false) ∧
    parseChar .attributes p c ahead = .ok ([], .attributeName p false) := by
  have hne (d : UInt8) (hd : isNameByte d = false) : c ≠ d := isNameByte_ne hc hd
  have hspace : isXmlSpace c = false := by
    simp [isXmlSpace, hne 9 (by decide), hne 10 (by decide), hne 13 (by decide), hne 32 (by decide)]
  have hask : c ≠ '?'.toUInt8 := hne _ (by decide)
  have hgt : c ≠ '>'.toUInt8 := hne _ (by decide)
  have hslash : c ≠ '/'.toUInt8 := hne _ (by decide)
  have heq : c ≠ '='.toUInt8 := hne _ (by decide)
  have hquot : c ≠ '"'.toUInt8 := hne _ (by decide)
  have hapos : c ≠ '\''.toUInt8 := hne _ (by decide)
  simp [parseChar, parseAttributeNameChar, hspace, hask, hgt, hslash, heq, hquot, hapos]

/-- A name in a tag. -/
theorem parseFrom_name (h : IsName r) (start : Nat)
    (hm : mode = .element start ∨ mode = .instruction start ∨ mode = .endElement start ∨
      mode = .attributeName start false) :
    parseFrom mode p (r ++ rest) s = parseFrom mode (p + r.length) rest s := by
  refine parseFrom_stay fun c hc p ahead => ?_
  obtain ⟨helement, hinstr, hend, hattr, -⟩ := name_stays (isNameByte_of_isName h c hc) start p ahead
  rcases hm with rfl | rfl | rfl | rfl
  · exact helement
  · exact hinstr
  · exact hend
  · exact hattr

/-! ## Attributes -/

/-- **An attribute**, behind its space. -/
theorem parse_attribute {a : XmlChunkAttribute} (ha : a.Valid)
    (h : Tracks s p (a.render ++ rest) done pend) : ∃ s',
      parseFrom .attributes p (a.render ++ rest) s =
        parseFrom .attributes (p + a.render.length) rest s' ∧
      Tracks s' (p + a.render.length) rest done (pend ++ a.items) := by
  obtain ⟨hname, hvalue⟩ := ha
  have hshape : a.render ++ rest =
      a.name.text ++ 61 :: 34 :: (escapeXMLString a.value ++ 34 :: rest) := by
    simp [XmlChunkAttribute.render]
  rw [hshape] at h ⊢
  -- the name, up to the equals sign
  obtain ⟨s₁, hp₁, h₁⟩ := h.push (p + a.name.text.length + 1) (hname.spells .attribName p)
    (by simp) (.inl rfl)
  have hstart : parseFrom .attributes p
        (a.name.text ++ 61 :: 34 :: (escapeXMLString a.value ++ 34 :: rest)) s =
      parseFrom (.attributeName p false) (p + a.name.text.length)
        (61 :: 34 :: (escapeXMLString a.value ++ 34 :: rest)) s := by
    have hn := hname.isName
    cases ht : a.name.text with
    | nil =>
      rw [ht] at hn
      exact hn.elim
    | cons c cs =>
      rw [ht] at hn
      have hc := isNameByte_of_isName hn c List.mem_cons_self
      rw [List.cons_append, parseFrom_cons (name_stays hc p p _).2.2.2.2 rfl, parseFrom_stay
        fun d hd q ahead => (name_stays (isNameByte_of_isName hn d (List.mem_cons_of_mem _ hd)) p q
          ahead).2.2.2.1, List.length_cons, Nat.add_assoc, Nat.add_comm 1]
  have hequals : parseFrom (.attributeName p false) (p + a.name.text.length)
        (61 :: 34 :: (escapeXMLString a.value ++ 34 :: rest)) s =
      parseFrom .attributeValueStart (p + a.name.text.length + 1)
        (34 :: (escapeXMLString a.value ++ 34 :: rest)) s₁ := by
    refine parseFrom_cons ?_ hp₁
    rfl
  have hquote : parseFrom .attributeValueStart (p + a.name.text.length + 1)
        (34 :: (escapeXMLString a.value ++ 34 :: rest)) s₁ =
      parseFrom (.quoted (p + a.name.text.length + 2) 34) (p + a.name.text.length + 2)
        (escapeXMLString a.value ++ 34 :: rest) s₁ := parseFrom_cons rfl rfl
  have hstay : parseFrom (.quoted (p + a.name.text.length + 2) 34) (p + a.name.text.length + 2)
        (escapeXMLString a.value ++ 34 :: rest) s₁ =
      parseFrom (.quoted (p + a.name.text.length + 2) 34)
        (p + a.name.text.length + 2 + (escapeXMLString a.value).length) (34 :: rest) s₁ := by
    refine parseFrom_stay fun c hc q ahead => if_neg ?_
    rintro rfl
    exact quot_notMem_escape a.value hc
  -- the value, up to the quote
  have h₂ := @Tracks.skip s₁ _ [34] _ _ _ h₁
  rw [List.length_singleton] at h₂
  obtain ⟨s₂, hp₂, h₃⟩ := h₂.push (p + a.name.text.length + 2 + (escapeXMLString a.value).length + 1)
    (spells_plain (i := ⟨.attribValue, [], a.value⟩) ⟨List.not_mem_nil, hvalue⟩ rfl) (by simp) (.inr rfl)
  have hclose : parseFrom (.quoted (p + a.name.text.length + 2) 34)
        (p + a.name.text.length + 2 + (escapeXMLString a.value).length) (34 :: rest) s₁ =
      parseFrom .attributes
        (p + a.name.text.length + 2 + (escapeXMLString a.value).length + 1) rest s₂ := by
    refine parseFrom_cons ?_ hp₂
    rfl
  have hlen : p + a.render.length =
      p + a.name.text.length + 2 + (escapeXMLString a.value).length + 1 := by
    simp only [XmlChunkAttribute.render, List.length_append, List.length_cons, List.length_nil]
    omega
  refine ⟨s₂, ?_, ?_⟩
  · rw [hlen, hstart, hequals, hquote, hstay, hclose]
  · rw [hlen]
    rw [List.append_assoc] at h₃
    exact h₃

/-- **The attributes behind the first space.** -/
theorem parse_attributes {as : List XmlChunkAttribute} (ha : ∀ a ∈ as, a.Valid)
    (h : Tracks s p (as.flatMap (fun a => 32 :: a.render) ++ rest) done pend) : ∃ s',
      parseFrom .attributes p (as.flatMap (fun a => 32 :: a.render) ++ rest) s =
        parseFrom .attributes (p + (as.flatMap fun a => 32 :: a.render).length) rest s' ∧
      Tracks s' (p + (as.flatMap fun a => 32 :: a.render).length) rest done
        (pend ++ as.flatMap XmlChunkAttribute.items) := by
  induction as generalizing s p pend with
  | nil =>
    refine ⟨s, rfl, ?_⟩
    rw [List.flatMap_nil, List.flatMap_nil, List.append_nil]
    exact h
  | cons a as ih =>
    have hshape : (a :: as).flatMap (fun a => 32 :: a.render) ++ rest =
        32 :: (a.render ++ (as.flatMap (fun a => 32 :: a.render) ++ rest)) := by
      simp
    have hlen : p + ((a :: as).flatMap fun a => 32 :: a.render).length =
        p + 1 + a.render.length + (as.flatMap fun a => 32 :: a.render).length := by
      simp only [List.flatMap_cons, List.length_append, List.length_cons]
      omega
    rw [hshape] at h
    obtain ⟨s₁, hp₁, h₁⟩ := parse_attribute (ha a List.mem_cons_self) (@Tracks.skip s p [32] _ _ _ h)
    obtain ⟨s₂, hp₂, h₂⟩ := ih (fun b hb => ha b (List.mem_cons_of_mem _ hb)) h₁
    refine ⟨s₂, ?_, ?_⟩
    · rw [hshape, hlen, parseFrom_cons (by rfl) rfl]
      exact hp₁.trans hp₂
    · rw [hlen, List.flatMap_cons, ← List.append_assoc]
      exact h₂

/-! ## Tags -/

/-- The end of a tag that leaves an entity of its own. -/
theorem Tracks.close {type : XmlEntityType} (h : Tracks s p (c :: rest) done pend)
    (ht : type ≠ .text) : ∃ s',
      [ParseAction.zeroInsert p, .entity p p (p + 1) type false true].foldlM perform s = .ok s' ∧
      Tracks s' (p + 1) rest (done ++ pend ++ [⟨type, [], []⟩]) [] ∧
      s'.entityPointer = some (p + 1) ∧ s'.zeroInserts = [] := by
  have hspells : Spells p (escapeXMLString []) false ⟨type, [], []⟩ :=
    @spells_plain p ⟨type, [], []⟩ ⟨List.not_mem_nil, List.not_mem_nil⟩ rfl
  exact @Tracks.finish s p c [] rest done pend ⟨type, [], []⟩ false (p + 1) h hspells ht rfl

/-- Parsing `r` in `mode`, at `p`, gives the entities `items` and goes on behind it with a text. All
entities are full if the last call finishes them. -/
def ParsesTo (mode : ParseMode) (s : XmlBuffer) (p : Nat) (r rest : List UInt8)
    (done pend items : List EntityItem) (finishes : Prop) : Prop :=
  ∃ s' done' pend', parseFrom mode p (r ++ rest) s =
      parseFrom (.text (p + r.length)) (p + r.length) rest s' ∧
    Tracks s' (p + r.length) rest done' pend' ∧ done' ++ pend' = done ++ pend ++ items ∧
    (finishes → pend' = [] ∧ s'.entityPointer = some (p + r.length) ∧ s'.zeroInserts = [])

/-- Parsing a string first. -/
theorem ParsesTo.after {r₁ r₂ : List UInt8} {pend₁ items₁ items₂ : List EntityItem} {finishes : Prop}
    (hstep : parseFrom mode p (r₁ ++ (r₂ ++ rest)) s = parseFrom mode' (p + r₁.length) (r₂ ++ rest) s')
    (hitems : pend₁ = pend ++ items₁)
    (h : ParsesTo mode' s' (p + r₁.length) r₂ rest done pend₁ items₂ finishes) :
    ParsesTo mode s p (r₁ ++ r₂) rest done pend (items₁ ++ items₂) finishes := by
  obtain ⟨s₂, done', pend', hp, ht, hi, hf⟩ := h
  have hlen : p + (r₁ ++ r₂).length = p + r₁.length + r₂.length := by
    rw [List.length_append, Nat.add_assoc]
  refine ⟨s₂, done', pend', ?_, hlen ▸ ht, ?_, hlen ▸ hf⟩
  · rw [List.append_assoc, hstep, hp, hlen]
  · rw [hi, hitems]
    simp only [List.append_assoc]

/-- The closing character of a tag whose name is an entity of its own. -/
theorem parse_close {type : XmlEntityType} (h : Tracks s p (62 :: rest) done pend)
    (hm : mode = .closeElement ∧ type = .closeElement ∨
      mode = .closeInstruction ∧ type = .processingInstructionEnd) :
    ParsesTo mode s p [62] rest done pend [⟨type, [], []⟩] True := by
  have ht : type ≠ .text := by
    rcases hm with ⟨-, rfl⟩ | ⟨-, rfl⟩
    · simp
    · simp
  obtain ⟨s', hperform, htracks, hpointer, hzeros⟩ := h.close ht
  refine ⟨s', _, [], ?_, htracks, by rw [List.append_nil], fun _ => ⟨rfl, hpointer, hzeros⟩⟩
  refine parseFrom_cons ?_ hperform
  rcases hm with ⟨rfl, rfl⟩ | ⟨rfl, rfl⟩
  · rfl
  · rfl

/-- The end of a tag with attributes. -/
theorem parse_closing (kind : XmlTagKind) (h : Tracks s p (kind.closing ++ rest) done pend) :
    ParsesTo .attributes s p kind.closing rest done pend kind.closingItems (kind ≠ .opens) := by
  cases kind with
  | opens =>
    refine ⟨s, done, pend, parseFrom_cons (by rfl) rfl, @Tracks.skip s p [62] _ _ _ h, ?_,
      fun hne => absurd rfl hne⟩
    rw [XmlTagKind.closingItems, List.append_nil]
  | empty =>
    obtain ⟨s', done', pend', hp, ht, hi, hf⟩ :=
      parse_close (@Tracks.skip s p [47] _ _ _ h) (.inl ⟨rfl, rfl⟩)
    exact ⟨s', done', pend', (parseFrom_cons (by rfl) rfl).trans hp, ht, hi, fun _ => hf trivial⟩
  | instruction =>
    obtain ⟨s', done', pend', hp, ht, hi, hf⟩ :=
      parse_close (@Tracks.skip s p [63] _ _ _ h) (.inr ⟨rfl, rfl⟩)
    exact ⟨s', done', pend', (parseFrom_cons (by rfl) rfl).trans hp, ht, hi, fun _ => hf trivial⟩

/-- The loop that reads the name of a start tag. -/
def nameMode : XmlTagKind → Nat → ParseMode
  | .instruction, start => .instruction start
  | _, start => .element start

theorem parse_opening (kind : XmlTagKind) (s : XmlBuffer) (p : Nat) (rest : List UInt8) :
    parseFrom (.element p) p (kind.opening ++ rest) s =
      parseFrom (nameMode kind (p + kind.opening.length)) (p + kind.opening.length) rest s := by
  cases kind with
  | opens => rfl
  | empty => rfl
  | instruction =>
    have hask : parseChar (.element p) p 63 rest = .ok ([], .instruction (p + 1)) := by
      rw [parseChar, if_neg (by decide), if_pos (by decide), if_pos rfl]
    exact parseFrom_cons hask rfl

/-- The name of a start tag, up to the space behind it. -/
theorem parse_tagName {kind : XmlTagKind} {q : XmlQName} (hq : q.Valid)
    (h : Tracks s p (q.text ++ 32 :: rest) done pend) : ∃ s',
      parseFrom (nameMode kind p) p (q.text ++ 32 :: rest) s =
        parseFrom .attributes (p + (q.text.length + 1)) rest s' ∧
      Tracks s' (p + (q.text.length + 1)) rest done (pend ++ [q.item kind.nameType]) := by
  have ht : (q.item kind.nameType).type ≠ .text := by
    cases kind <;> simp [XmlTagKind.nameType]
  obtain ⟨s', hperform, htracks⟩ :=
    h.push (p + q.text.length) (hq.spells kind.nameType p) ht (.inl rfl)
  refine ⟨s', ?_, htracks⟩
  have hne : q.text ≠ [] := hq.text_ne_nil
  have hstay : parseFrom (nameMode kind p) p (q.text ++ 32 :: rest) s =
      parseFrom (nameMode kind p) (p + q.text.length) (32 :: rest) s := by
    refine parseFrom_name hq.isName p ?_
    cases kind
    · exact .inl rfl
    · exact .inl rfl
    · exact .inr (.inl rfl)
  rw [hstay]
  refine parseFrom_cons ?_ hperform
  cases kind <;> simp [parseChar, isXmlSpace, nameMode, XmlTagKind.nameType, hne]

/-- A name that is closed by `>`. -/
theorem parse_fullName {type : XmlEntityType} {q : XmlQName} (hq : q.Valid)
    (h : Tracks s p (q.text ++ 62 :: rest) done pend)
    (hm : mode = .element p ∧ type = .element ∨ mode = .endElement p ∧ type = .elementEnd) :
    ParsesTo mode s p (q.text ++ [62]) rest done pend [q.item type] True := by
  have hne : q.text ≠ [] := hq.text_ne_nil
  have ht : type ≠ .text := by
    rcases hm with ⟨-, rfl⟩ | ⟨-, rfl⟩
    · simp
    · simp
  obtain ⟨s', hperform, htracks, hpointer, hzeros⟩ :=
    h.finish (p + q.text.length + 1) (hq.spells type p) ht (hq.escaped type)
  have hlen : p + (q.text ++ [62]).length = p + q.text.length + 1 := by
    rw [List.length_append, List.length_singleton, Nat.add_assoc]
  have hstay : parseFrom mode p (q.text ++ 62 :: rest) s =
      parseFrom mode (p + q.text.length) (62 :: rest) s := by
    refine parseFrom_name hq.isName p ?_
    rcases hm with ⟨rfl, -⟩ | ⟨rfl, -⟩
    · exact .inl rfl
    · exact .inr (.inr (.inl rfl))
  have hgt : parseChar mode (p + q.text.length) 62 rest =
      .ok ([.zeroInsert (p + q.text.length), .entity p (p + q.text.length)
        (p + q.text.length + 1) type true true], .text (p + q.text.length + 1)) := by
    rcases hm with ⟨rfl, rfl⟩ | ⟨rfl, rfl⟩
    · rw [parseChar, if_neg (by decide), if_neg (by decide), if_pos (by decide)]
    · rw [parseChar, if_neg (by decide), if_neg (by decide), if_pos (by decide),
        if_neg (by simp [hne])]
  refine ⟨s', _, [], ?_, hlen ▸ htracks, by rw [List.append_nil],
    fun _ => ⟨rfl, by rw [hlen]; exact hpointer, hzeros⟩⟩
  rw [hlen, List.append_assoc]
  exact hstay.trans (parseFrom_cons hgt hperform)

/-- A name that is closed by `/>` or `?>`. -/
theorem parse_closedName {kind : XmlTagKind} {q : XmlQName} (hq : q.Valid) (hk : kind ≠ .opens)
    (h : Tracks s p (q.text ++ (kind.closing ++ rest)) done pend) :
    ParsesTo (nameMode kind p) s p (q.text ++ kind.closing) rest done pend
      (q.item kind.nameType :: kind.closingItems) True := by
  have hne : q.text ≠ [] := hq.text_ne_nil
  have hstay (rest : List UInt8) : parseFrom (nameMode kind p) p (q.text ++ rest) s =
      parseFrom (nameMode kind p) (p + q.text.length) rest s := by
    refine parseFrom_name hq.isName p ?_
    cases kind
    · exact .inl rfl
    · exact .inl rfl
    · exact .inr (.inl rfl)
  have hpos : p ≠ p + q.text.length := fun h0 => by
    have h1 := List.length_pos_iff.2 hne
    omega
  -- the first character of what closes the tag ends the name
  obtain ⟨d, next, closeMode, type, hclosing, hitems, hmode, hd⟩ : ∃ d next closeMode type,
      kind.closing = [d, 62] ∧ kind.closingItems = [⟨type, [], []⟩] ∧
      (closeMode = .closeElement ∧ type = .closeElement ∨
        closeMode = .closeInstruction ∧ type = .processingInstructionEnd) ∧
      parseChar (nameMode kind p) (p + q.text.length) d (62 :: rest) =
        .ok ([.entity p (p + q.text.length) next kind.nameType true false,
          .zeroInsert (p + q.text.length)], closeMode) := by
    cases kind with
    | opens => exact absurd rfl hk
    | empty =>
      refine ⟨47, p + q.text.length + 1, .closeElement, .closeElement, rfl, rfl, .inl ⟨rfl, rfl⟩, ?_⟩
      show parseChar (.element p) _ _ _ = _
      rw [parseChar, if_neg (by decide), if_neg (by decide), if_neg (by decide),
        if_pos (by decide), if_neg hpos]
      rfl
    | instruction =>
      refine ⟨63, p + q.text.length, .closeInstruction, .processingInstructionEnd, rfl, rfl,
        .inr ⟨rfl, rfl⟩, ?_⟩
      rw [nameMode, parseChar, if_neg (by decide), if_neg (by decide), if_pos (by decide),
        if_neg hpos]
      rfl
  rw [hclosing] at h
  rw [hclosing, hitems]
  have ht : (q.item kind.nameType).type ≠ .text := by
    cases kind <;> simp [XmlTagKind.nameType]
  obtain ⟨s', hperform, htracks⟩ := h.push next (hq.spells kind.nameType p) ht (.inl rfl)
  have hassoc : q.text ++ [d, 62] = q.text ++ [d] ++ [62] := by
    rw [List.append_assoc]
    rfl
  have hlen : p + (q.text ++ [d]).length = p + (q.text.length + 1) := by
    rw [List.length_append, List.length_singleton]
  rw [hassoc]
  refine @ParsesTo.after s s' (nameMode kind p) closeMode p rest done pend (q.text ++ [d]) [62]
    _ [q.item kind.nameType] [⟨type, [], []⟩] True ?_ rfl ?_
  · rw [hlen, List.append_assoc]
    exact (hstay _).trans (parseFrom_cons hd hperform)
  · rw [hlen]
    exact parse_close htracks hmode

/-- **A start tag**, from its name on. -/
theorem parse_startTag (kind : XmlTagKind) {q : XmlQName} {as : List XmlChunkAttribute}
    (hq : q.Valid) (ha : ∀ a ∈ as, a.Valid)
    (h : Tracks s p (q.text ++ (as.flatMap (fun a => 32 :: a.render) ++ (kind.closing ++ rest))) done
      pend) :
    ParsesTo (nameMode kind p) s p
      (q.text ++ (as.flatMap (fun a => 32 :: a.render) ++ kind.closing)) rest done pend
      (q.item kind.nameType :: (as.flatMap XmlChunkAttribute.items ++ kind.closingItems))
      (kind = .opens → as = []) := by
  cases as with
  | nil =>
    rw [List.flatMap_nil, List.nil_append] at h ⊢
    rw [List.flatMap_nil, List.nil_append]
    by_cases hk : kind = .opens
    · subst hk
      obtain ⟨s', done', pend', hp, ht, hi, hf⟩ := parse_fullName hq h (.inl ⟨rfl, rfl⟩)
      exact ⟨s', done', pend', hp, ht, hi, fun _ => hf trivial⟩
    · obtain ⟨s', done', pend', hp, ht, hi, hf⟩ := parse_closedName hq hk h
      exact ⟨s', done', pend', hp, ht, hi, fun _ => hf trivial⟩
  | cons a as =>
    obtain ⟨ha, has⟩ := List.forall_mem_cons.1 ha
    have hshape : q.text ++ ((a :: as).flatMap (fun a => 32 :: a.render) ++ kind.closing) =
        (q.text ++ [32]) ++ (a.render ++ (as.flatMap (fun a => 32 :: a.render) ++ kind.closing)) := by
      simp
    have hitems : q.item kind.nameType ::
          ((a :: as).flatMap XmlChunkAttribute.items ++ kind.closingItems) =
        [q.item kind.nameType] ++ (a.items ++ (as.flatMap XmlChunkAttribute.items ++
          kind.closingItems)) := by
      simp
    have hlen : (q.text ++ [32]).length = q.text.length + 1 := by
      rw [List.length_append, List.length_singleton]
    have h' : Tracks s p (q.text ++ 32 :: (a.render ++ (as.flatMap (fun a => 32 :: a.render) ++
        (kind.closing ++ rest)))) done pend := by
      simpa only [List.flatMap_cons, List.cons_append, List.append_assoc] using h
    obtain ⟨s₁, hp₁, h₁⟩ := @parse_tagName _ _ _ _ _ kind _ hq h'
    obtain ⟨s₂, hp₂, h₂⟩ := parse_attribute ha h₁
    obtain ⟨s₃, hp₃, h₃⟩ := parse_attributes has h₂
    -- from the last step back to the name
    have hattributes := ParsesTo.after hp₃ rfl (parse_closing kind h₃)
    rw [← List.append_assoc _ kind.closing rest] at hp₁ hp₂
    have hattribute := ParsesTo.after hp₂ rfl hattributes
    rw [← List.append_assoc a.render] at hp₁
    rw [hshape, hitems]
    rw [← hlen] at hp₁ hattribute
    have hname : parseFrom (nameMode kind p) p ((q.text ++ [32]) ++ (a.render ++
        (as.flatMap (fun a => 32 :: a.render) ++ kind.closing) ++ rest)) s =
        parseFrom .attributes (p + (q.text ++ [32]).length) (a.render ++
          (as.flatMap (fun a => 32 :: a.render) ++ kind.closing) ++ rest) s₁ := by
      rw [List.append_assoc q.text, List.singleton_append]
      exact hp₁
    obtain ⟨s', done', pend', hp, ht, hi, hf⟩ := ParsesTo.after hname rfl hattribute
    exact ⟨s', done', pend', hp, ht, hi, fun hno => hf fun hk => by cases hno hk⟩

/-- **A tag**, behind its `<`. -/
theorem parse_tag {t : XmlTag} (ht : t.Valid) (h : Tracks s p (t.render ++ rest) done pend) :
    ParsesTo (.element p) s p t.render rest done pend t.items t.Finishes := by
  cases t with
  | start kind q as =>
    obtain ⟨hq, ha⟩ := ht
    rw [XmlTag.render, List.append_assoc, List.append_assoc, List.append_assoc] at h
    have hopening := parse_opening kind s p
      (q.text ++ (as.flatMap (fun a => 32 :: a.render) ++ kind.closing) ++ rest)
    exact @ParsesTo.after s s _ _ p rest done pend kind.opening _ pend [] _ _ hopening
      (List.append_nil _).symm (parse_startTag kind hq ha h.skip)
  | ends q =>
    have hslash : parseChar (.element p) p 47 (q.text ++ [62] ++ rest) =
        .ok ([], .endElement (p + 1)) := by
      rw [parseChar, if_neg (by decide), if_neg (by decide), if_neg (by decide), if_pos (by decide),
        if_pos rfl]
    rw [XmlTag.render, List.cons_append, List.append_assoc] at h
    exact @ParsesTo.after s s _ _ p rest done pend [47] _ pend [] _ _ (parseFrom_cons hslash rfl)
      (List.append_nil _).symm
      (parse_fullName ht (@Tracks.skip s p [47] _ _ _ h) (.inr ⟨rfl, rfl⟩))

/-! ## Chunks -/

/-- The tag of a chunk is no comment. -/
theorem not_startsComment {t : XmlTag} (ht : t.Valid) (rest : List UInt8) :
    startsComment (t.render ++ rest) = false := by
  have hname {q : XmlQName} (hq : q.Valid) (rest : List UInt8) :
      ∃ c cs, q.text ++ rest = c :: cs ∧ c ≠ 33 := by
    have hn := hq.isName
    cases hcs : q.text with
    | nil =>
      rw [hcs] at hn
      exact hn.elim
    | cons c cs =>
      rw [hcs] at hn
      exact ⟨c, cs ++ rest, rfl,
        isNameByte_ne (isNameByte_of_isName hn c List.mem_cons_self) (by decide)⟩
  obtain ⟨c, cs, heq, hc⟩ : ∃ c cs, t.render ++ rest = c :: cs ∧ c ≠ 33 := by
    cases t with
    | start kind q as =>
      rw [XmlTag.render, List.append_assoc, List.append_assoc]
      cases kind with
      | opens => exact hname ht.1 _
      | empty => exact hname ht.1 _
      | instruction => exact ⟨63, _, rfl, by decide⟩
    | ends q => exact ⟨47, _, rfl, by decide⟩
  rw [startsComment, heq]
  have hbytes : xmlBytes ['!', '-', '-'] = [33, 45, 45] := by decide
  rw [hbytes, List.take_succ_cons]
  simp [hc]

/-- The text of a chunk, and the `<` behind it. -/
theorem parse_text {t : List UInt8} (ht : 0 ∉ t) (hrest : startsComment rest = false)
    (h : Tracks s p (escapeXMLString t ++ 60 :: rest) done pend) : ∃ s' done' pend',
      parseFrom (.text p) p (escapeXMLString t ++ 60 :: rest) s =
        parseFrom (.element (p + ((escapeXMLString t).length + 1)))
          (p + ((escapeXMLString t).length + 1)) rest s' ∧
      Tracks s' (p + ((escapeXMLString t).length + 1)) rest done' pend' ∧
      done' ++ pend' = done ++ pend ++ XmlChunk.textItems t := by
  by_cases ht0 : t = []
  · subst ht0
    obtain ⟨s', hzero, htracks, -⟩ := h.zeroInsert
    have hlt : parseChar (.text p) p 60 rest = .ok ([.zeroInsert p], .element (p + 1)) := by
      rw [parseChar, if_pos (by decide), if_neg (by simp [hrest]), if_pos rfl]
    refine ⟨s', done, pend, parseFrom_cons hlt ?_, htracks, (List.append_nil _).symm⟩
    rw [List.foldlM_cons, perform, hzero]
    rfl
  · obtain ⟨s', hperform, htracks⟩ := h.finishText ht
    have hpos : p ≠ p + (escapeXMLString t).length := fun h0 => by
      have hle := XmlWriter.length_le_escapeXMLString t
      have h1 := List.length_pos_iff.2 ht0
      omega
    have hstay : parseFrom (.text p) p (escapeXMLString t ++ 60 :: rest) s =
        parseFrom (.text p) (p + (escapeXMLString t).length) (60 :: rest) s := by
      refine parseFrom_stay fun c hc q ahead => if_neg ?_
      rintro rfl
      exact lt_notMem_escape t hc
    have hlt : parseChar (.text p) (p + (escapeXMLString t).length) 60 rest =
        .ok ([.entity p (p + (escapeXMLString t).length) (p + (escapeXMLString t).length) .text false
          true, .zeroInsert (p + (escapeXMLString t).length)],
          .element (p + (escapeXMLString t).length + 1)) := by
      rw [parseChar, if_pos (by decide), if_neg (by simp [hrest]), if_neg (Ne.symm hpos)]
    refine ⟨s', _, [], hstay.trans (parseFrom_cons hlt hperform), htracks, ?_⟩
    rw [XmlChunk.textItems, if_neg ht0, List.append_nil]

/-- **A chunk** becomes its entities. -/
theorem parse_chunk {c : XmlChunk} (hc : c.Valid) (h : Tracks s p (c.render ++ rest) done pend) :
    ParsesTo (.text p) s p c.render rest done pend c.items c.tag.Finishes := by
  rw [XmlChunk.render, List.append_assoc, List.cons_append] at h
  obtain ⟨s₁, done₁, pend₁, hp₁, h₁, hi₁⟩ := parse_text hc.1 (not_startsComment hc.2 rest) h
  obtain ⟨s₂, done₂, pend₂, hp₂, h₂, hi₂, hf₂⟩ := parse_tag hc.2 h₁
  have hlen : p + c.render.length = p + ((escapeXMLString c.text).length + 1) + c.tag.render.length := by
    rw [XmlChunk.render, List.length_append, List.length_cons]
    omega
  refine ⟨s₂, done₂, pend₂, ?_, hlen ▸ h₂, ?_, hlen ▸ hf₂⟩
  · rw [XmlChunk.render, List.append_assoc, List.cons_append, ← XmlChunk.render, hlen]
    exact hp₁.trans hp₂
  · rw [hi₂, hi₁, XmlChunk.items, List.append_assoc (done ++ pend)]

/-- **Chunks** become their entities. -/
theorem parse_chunks {cs : List XmlChunk} (hc : ∀ c ∈ cs, c.Valid)
    (h : Tracks s p (cs.flatMap XmlChunk.render ++ rest) done pend) :
    ParsesTo (.text p) s p (cs.flatMap XmlChunk.render) rest done pend (cs.flatMap XmlChunk.items)
      (∃ c, cs.getLast? = some c ∧ c.tag.Finishes) := by
  induction cs generalizing s p done pend with
  | nil =>
    refine ⟨s, done, pend, rfl, h, (List.append_nil _).symm, ?_⟩
    rintro ⟨c, hc, -⟩
    cases hc
  | cons c cs ih =>
    obtain ⟨hc', hcs⟩ := List.forall_mem_cons.1 hc
    cases cs with
    | nil =>
      rw [List.flatMap_singleton] at h ⊢
      rw [List.flatMap_singleton]
      obtain ⟨s', done', pend', hp, ht, hi, hf⟩ := parse_chunk hc' h
      refine ⟨s', done', pend', hp, ht, hi, ?_⟩
      rintro ⟨l, hl, hfin⟩
      cases hl
      exact hf hfin
    | cons c' cs =>
      rw [List.flatMap_cons, List.append_assoc] at h
      obtain ⟨s₁, done₁, pend₁, hp₁, h₁, hi₁, -⟩ := parse_chunk hc' h
      obtain ⟨s₂, done₂, pend₂, hp₂, h₂, hi₂, hf₂⟩ := ih hcs h₁
      have hlen : p + ((c :: c' :: cs).flatMap XmlChunk.render).length =
          p + c.render.length + ((c' :: cs).flatMap XmlChunk.render).length := by
        rw [List.flatMap_cons, List.length_append, Nat.add_assoc]
      refine ⟨s₂, done₂, pend₂, ?_, hlen ▸ h₂, ?_, hlen ▸ hf₂⟩
      · rw [hlen, List.flatMap_cons, List.append_assoc]
        exact hp₁.trans hp₂
      · rw [hi₂, hi₁, List.append_assoc (done ++ pend), ← List.flatMap_cons]

/-- **A document whose last tag finishes, with no tag behind it, becomes the entities of its
chunks.** -/
theorem parseUnknown_chunks {capacity : Nat} {cs : List XmlChunk} {tail : List UInt8}
    (hc : ∀ c ∈ cs, c.Valid) (hlast : ∃ c, cs.getLast? = some c ∧ c.tag.Finishes)
    (htail : '<'.toUInt8 ∉ tail)
    (hcap : (cs.flatMap XmlChunk.render ++ tail).length + bufferMargin ≤ capacity) :
    ∃ b a, parseUnknown capacity (cs.flatMap XmlChunk.render ++ tail) = .ok b ∧
      b.chars = a ++ tail ∧ Laid 0 a ((cs.flatMap XmlChunk.items).map EntityItem.pushed) b.entities ∧
      b.fullEntityCount = b.entities.length ∧ b.entityPointer = some a.length ∧
      tail.length + bufferMargin ≤ b.capacity ∧ ∀ i ∈ cs.flatMap XmlChunk.items, i.ZeroFree := by
  let s₀ : XmlBuffer := ⟨capacity, cs.flatMap XmlChunk.render ++ tail, [], [], 0, 0, none⟩
  have h₀ : Tracks s₀ 0 (cs.flatMap XmlChunk.render ++ tail) [] [] := by
    refine ⟨⟨[], rfl, rfl⟩, ⟨[], [], [], [], rfl, rfl, rfl, rfl, .nil _ _, .nil _ _⟩, rfl, ?_, ?_,
      le_rfl, le_rfl, by rw [Nat.zero_add]; exact hcap⟩
    · intro i hi
      cases hi
    · intro i hi
      cases hi
  obtain ⟨b, done, pend, hp, ht, hi, hf⟩ := parse_chunks hc h₀
  obtain ⟨rfl, hpointer, hzeros⟩ := hf hlast
  rw [List.append_nil, List.append_nil, List.nil_append] at hi
  subst hi
  have hfull := ht.full
  have hroom := ht.room
  obtain ⟨a, b', es, es', hlen, hz, hents, -, hdone, hpend⟩ := ht.laid
  have hchars : b.zeroed = b.chars := by
    rw [zeroed, hzeros]
    rfl
  cases hpend with
  | nil =>
    rw [List.append_nil] at hents
    refine ⟨b, a ++ b', ?_, ?_, ?_, ?_, ?_, by omega, fun i hi => ht.zeroFree i (by simpa using hi)⟩
    · refine hp.trans ?_
      have hstay := @parseFrom_stay b (.text (0 + (cs.flatMap XmlChunk.render).length))
        (0 + (cs.flatMap XmlChunk.render).length) tail [] fun c hc q ahead => if_neg ?_
      · rw [List.append_nil] at hstay
        exact hstay
      · rintro rfl
        exact htail hc
    · rw [← hchars, hz, List.append_assoc]
    · rw [hents]
      exact hdone.extend b'
    · rw [hfull, hents, hdone.length_eq, List.length_map]
    · rw [hpointer, List.length_append, hlen]

end XmlBuffer

end NMR
