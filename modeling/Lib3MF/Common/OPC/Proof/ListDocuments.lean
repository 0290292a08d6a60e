import Lib3MF.Common.Platform.Proof.XmlLayout
import Lib3MF.Common.Platform.Proof.XmlScopedReading
import Lib3MF.Common.OPC.OpcPackageReaders

/-!
# Documents that list elements

A list of elements with attributes is written below a root with a default name space, one line each
(`listCalls`). A `ListReader` for that root and name space does with each element, in their order,
what it does with its attributes, and nothing else (`ListReader.reads_written`).
-/

namespace NMR.Opc

open Lib XmlLayout XmlWriter ScopedReader NativeReader

/-- An element of a list. -/
structure ListElement where
  name : List UInt8
  attributes : List (List UInt8 × List UInt8)
  deriving DecidableEq

/-- A string that can be written and read. -/
def IsText (s : List UInt8) : Prop := XmlWriter.Fits s ∧ 0 ∉ s ∧ s.length ≤ maxXmlStringLength

instance : DecidablePred IsText := fun s => inferInstanceAs (Decidable
  ((escapeXMLString s).length ≤ nativeXMLMaxStringLength ∧ 0 ∉ s ∧ s.length ≤ maxXmlStringLength))

/-- The writer can write the attribute and the reader read it, and it declares no name space. -/
def IsListAttribute (a : List UInt8 × List UInt8) : Prop :=
  IsNCName a.1 ∧ a.1.length ≤ maxXmlStringLength ∧ a.1 ≠ xmlText "xmlns" ∧
    IsText a.2

theorem isListAttribute_of {names : List (List UInt8)} {a : List UInt8 × List UInt8}
    (hnames : ∀ name ∈ names, IsNCName name ∧ name.length ≤ maxXmlStringLength ∧
      name ≠ xmlText "xmlns") (hname : a.1 ∈ names) (ht : IsText a.2) : IsListAttribute a := by
  obtain ⟨hnc, hshort, hne⟩ := hnames a.1 hname
  exact ⟨hnc, hshort, hne, ht⟩

namespace ListElement

/-- The calls that write an element. -/
def calls (e : ListElement) : List XmlWriterCall :=
  .startElement [] e.name [] :: ((e.attributes.map fun a => .attributeString [] a.1 a.2) ++
    [.endElement])

/-- An attribute of a chunk. -/
def chunkAttribute (a : List UInt8 × List UInt8) : XmlChunkAttribute := ⟨⟨[], a.1⟩, a.2⟩

/-- The element as it is laid out on its line. -/
def chunk (nl : List UInt8) (e : ListElement) : XmlChunk :=
  ⟨nl ++ [nativeXMLSpacing], .start .empty ⟨[], e.name⟩ (e.attributes.map chunkAttribute)⟩

/-- The element has a name and attributes that can be written and read. -/
structure Valid (e : ListElement) : Prop where
  name : IsNCName e.name
  short : e.name.length ≤ maxXmlStringLength
  attributes_ne : e.attributes ≠ []
  attributes : ∀ a ∈ e.attributes, IsListAttribute a

end ListElement

/-- The calls that write a document with the root `container` and the name space `schema`. -/
def listCalls (container schema : List UInt8) (es : List ListElement) : List XmlWriterCall :=
  .startElement [] container [] :: .attributeString [] (xmlText "xmlns") schema ::
    (es.flatMap ListElement.calls ++ [.fullEndElement])

/-- The root tag of the document. -/
def rootChunk (nl container schema : List UInt8) : XmlChunk :=
  ⟨nl, .start .opens ⟨[], container⟩ [⟨⟨[], xmlText "xmlns"⟩, schema⟩]⟩

/-- The end tag of the document, on a line of its own unless the list is empty. -/
def endChunk (nl container : List UInt8) (es : List ListElement) : XmlChunk :=
  ⟨if es = [] then [] else nl, .ends ⟨[], container⟩⟩

/-- The chunks of the document. -/
def listChunks (nl container schema : List UInt8) (es : List ListElement) : List XmlChunk :=
  declaration :: rootChunk nl container schema ::
    (es.map (ListElement.chunk nl) ++ [endChunk nl container es])

/-- The document. -/
def listDocument (nl container schema : List UInt8) (es : List ListElement) : List UInt8 :=
  (XmlLayout.mk (listChunks nl container schema es) nl none [] true).render

/-! ## Writing -/

/-- The calls can be made, and lead from one layout to another. -/
def Leads (nl : List UInt8) (l : XmlLayout) (calls : List XmlWriterCall) (l' : XmlLayout) : Prop :=
  Guarded (XmlLayout.next nl) XmlLayout.Allowed l calls ∧ run (XmlLayout.next nl) l calls = l'

section

variable {nl : List UInt8} {l l' l'' : XmlLayout} {c : XmlWriterCall}
  {calls calls' : List XmlWriterCall} {container schema : List UInt8}

theorem Leads.nil : Leads nl l [] l := ⟨trivial, rfl⟩

theorem Leads.cons (hc : l.Allowed c) (h : Leads nl (l.next nl c) calls l') :
    Leads nl l (c :: calls) l' := ⟨⟨hc, h.1⟩, h.2⟩

theorem Leads.append (h : Leads nl l calls l') (h' : Leads nl l' calls' l'') :
    Leads nl l (calls ++ calls') l'' := by
  obtain ⟨hg, rfl⟩ := h
  exact ⟨(guarded_append ..).2 ⟨hg, h'.1⟩, (run_append ..).trans h'.2⟩

theorem maxXmlStringLength_le : maxXmlStringLength ≤ nativeXMLMaxStringLength := by decide

/-- A name without a prefix. -/
theorem valid_local {name : List UInt8} (h : IsNCName name) : (XmlQName.mk [] name).Valid :=
  ⟨.inl rfl, h⟩

theorem allowed_start {name : List UInt8} (h : IsNCName name) (hs : name.length ≤ maxXmlStringLength)
    (hl : l.names.length ≤ 1) : l.Allowed (.startElement [] name []) :=
  ⟨valid_local h, hs.trans maxXmlStringLength_le, Nat.zero_le _, rfl, List.not_mem_nil, by omega⟩

/-- The attributes of an element go to its tag. -/
theorem leads_attributes {q : XmlQName} {as : List XmlChunkAttribute}
    {attributes : List (List UInt8 × List UInt8)} (hl : l.tag = some (q, as))
    (ha : ∀ a ∈ attributes, IsListAttribute a) :
    Leads nl l (attributes.map fun a => .attributeString [] a.1 a.2)
      { l with tag := some (q, as ++ attributes.map ListElement.chunkAttribute) } := by
  induction attributes generalizing l as with
  | nil =>
    rw [List.map_nil, List.map_nil, List.append_nil, ← hl]
    exact .nil
  | cons a attributes ih =>
    obtain ⟨⟨hname, hshort, -, hfits, hzero, -⟩, ha⟩ := List.forall_mem_cons.1 ha
    refine .cons ⟨valid_local hname, hshort.trans maxXmlStringLength_le, hfits, hzero⟩ ?_
    have hnext : (l.next nl (.attributeString [] a.1 a.2)).tag =
        some (q, as ++ [ListElement.chunkAttribute a]) := by
      rw [XmlLayout.next, hl]
      rfl
    have h := ih hnext ha
    rw [List.append_assoc] at h
    exact h

/-- **An element** becomes a chunk. -/
theorem leads_element {e : ListElement} (he : e.Valid) (ht : l.tag = none) (hl : l.names.length = 1)
    (htext : l.text = nl) :
    Leads nl l e.calls { l with chunks := l.chunks ++ [e.chunk nl], freshLine := true } := by
  have hclose : l.closeTag nl true = l := by
    unfold closeTag
    rw [ht]
  refine .cons (allowed_start he.name he.short hl.le) ?_
  have htag : (l.next nl (.startElement [] e.name [])).tag = some (⟨[], e.name⟩, []) := rfl
  refine (leads_attributes htag he.attributes).append (.cons (List.cons_ne_nil _ _) ?_)
  refine ⟨trivial, ?_⟩
  rw [run_nil, XmlLayout.next, XmlLayout.next, hclose, htext, hl, List.nil_append, ListElement.chunk]
  rw [← htext, ← ht]
  rfl

/-- **The elements** become their chunks. -/
theorem leads_elements {es : List ListElement} (he : ∀ e ∈ es, e.Valid) (ht : l.tag = none)
    (hl : l.names.length = 1) (htext : l.text = nl) (hfresh : l.freshLine = true) :
    Leads nl l (es.flatMap ListElement.calls)
      { l with chunks := l.chunks ++ es.map (ListElement.chunk nl) } := by
  induction es generalizing l with
  | nil =>
    rw [List.map_nil, List.append_nil]
    exact .nil
  | cons e es ih =>
    obtain ⟨he, hes⟩ := List.forall_mem_cons.1 he
    have hrest := @ih { l with chunks := l.chunks ++ [e.chunk nl], freshLine := true } hes ht hl htext
      rfl
    have h := (leads_element he ht hl htext).append hrest
    rw [List.append_assoc, ← hfresh] at h
    exact h

/-- A start tag closes the tag before it. -/
theorem leads_closeTag {name : List UInt8}
    (h : Leads nl (l.closeTag nl true) (.startElement [] name [] :: calls) l') :
    Leads nl l (.startElement [] name [] :: calls) l' := by
  have hnext : (l.closeTag nl true).next nl (.startElement [] name []) =
      l.next nl (.startElement [] name []) := by
    have hclose : (l.closeTag nl true).closeTag nl true = l.closeTag nl true := by
      rw [closeTag.eq_def, @tag_closeTag l nl true]
    rw [XmlLayout.next, XmlLayout.next, hclose]
  obtain ⟨⟨hc, hg⟩, hrun⟩ := h
  rw [run_cons] at hrun
  rw [hnext] at hg hrun
  refine ⟨⟨?_, hg⟩, hrun⟩
  rw [XmlLayout.Allowed, @names_closeTag l nl true] at hc
  exact hc

/-- **The document** becomes its chunks. -/
theorem leads_list {es : List ListElement} (hcontainer : IsNCName container)
    (hshort : container.length ≤ maxXmlStringLength) (hschema : XmlWriter.Fits schema ∧ 0 ∉ schema)
    (he : ∀ e ∈ es, e.Valid) :
    Leads nl (start true nl) (listCalls container schema es)
      ⟨listChunks nl container schema es, nl, none, [], true⟩ := by
  have hxmlns : IsNCName (xmlText "xmlns") := by decide +kernel
  refine .cons (allowed_start hcontainer hshort (Nat.zero_le _)) ?_
  refine .cons ⟨valid_local hxmlns, by decide +kernel, hschema⟩ ?_
  have hopen : ((start true nl).next nl (.startElement [] container [])).next nl
      (.attributeString [] (xmlText "xmlns") schema) = ⟨[declaration], nl,
        some (⟨[], container⟩, [⟨⟨[], xmlText "xmlns"⟩, schema⟩]), [⟨[], container⟩], false⟩ := by
    show XmlLayout.mk [declaration] (nl ++ []) _ _ _ = _
    rw [List.append_nil]
    rfl
  rw [hopen]
  cases es with
  | nil => exact .cons (List.cons_ne_nil _ _) .nil
  | cons e es =>
    let l : XmlLayout :=
      ⟨[declaration, rootChunk nl container schema], nl, none, [⟨[], container⟩], true⟩
    let l' : XmlLayout := { l with chunks := l.chunks ++ (e :: es).map (ListElement.chunk nl) }
    have h : Leads nl l _ l' := leads_elements he rfl rfl rfl rfl
    have hlast : l'.next nl .fullEndElement =
        ⟨listChunks nl container schema (e :: es), nl, none, [], true⟩ := by
      show XmlLayout.mk (_ ++ [⟨nl ++ [], .ends ⟨[], container⟩⟩]) _ _ _ _ = _
      rw [List.append_nil, listChunks, endChunk, if_neg (List.cons_ne_nil e es)]
      rfl
    have hend : Leads nl l' [.fullEndElement] (l'.next nl .fullEndElement) :=
      .cons (List.cons_ne_nil _ _) .nil
    rw [hlast] at hend
    exact leads_closeTag (h.append hend)

/-- A list is written element by element. -/
theorem writeDocument_list {γ : Type} (container schema : List UInt8) {write : γ → XmlWriterM Unit}
    (element : γ → ListElement) (h : ∀ x, (element x).calls.forM call = write x) (l : List γ) :
    (do
      writeStartDocument
      writeStartElement [] container []
      writeAttributeString [] (xmlText "xmlns") schema
      l.forM write
      writeFullEndElement) = writeDocument true (listCalls container schema (l.map element)) := by
  have hlist : ((l.map element).flatMap ListElement.calls).forM call = l.forM write := by
    induction l with
    | nil => rfl
    | cons x l ih =>
      rw [List.map_cons, List.flatMap_cons, List.forM_eq_forM, List.forM_append,
        ← List.forM_eq_forM, ih, h]
      rfl
  have hcalls : (listCalls container schema (l.map element)).forM call = (do
      writeStartElement [] container []
      writeAttributeString [] (xmlText "xmlns") schema
      l.forM write
      writeFullEndElement) := by
    rw [← hlist, listCalls]
    simp only [List.forM_eq_forM, List.forM_cons, List.forM_append, List.forM_nil,
      XmlWriter.call]
    simp
  rw [writeDocument, doIf, if_pos rfl, hcalls]

end

/-! ## Reading -/

namespace Reading

variable {α β : Type}

@[simp] theorem call_ok_bind (a : α) (f : α → Reading β) : (call (.ok a) >>= f) = f a := rfl

@[simp] theorem throwing_ok_bind (a : α) (f : α → Reading β) : (throwing (.ok a) >>= f) = f a := rfl

end Reading

/-- A name is not empty. -/
theorem ncName_ne_nil {name : List UInt8} (h : IsNCName name) : name ≠ [] := fun hnil => by
  rw [hnil] at h
  exact h.1

theorem nfStrLen_short {s : List UInt8} (h : s.length ≤ maxXmlStringLength) :
    NativeReader.nfStrLen s = .ok s.length := if_neg (by omega)

section

variable {r : ScopedReader} {seen ahead : List EntityItem} {tail : List UInt8} {i : EntityItem}

/-- The reader once it has read an attribute. -/
def onListAttribute (r : ScopedReader) (a : List UInt8 × List UInt8) : ScopedReader :=
  { r with
    native := Stands.onAttribute r.native (XmlQName.item .attribName ⟨[], a.1⟩)
      ⟨.attribValue, [], a.2⟩
    nameSpaceIsAttribute := true }

/-- An attribute that is no declaration. -/
theorem nextListAttribute {a : List UInt8 × List UInt8}
    (h : StandsOn r seen ((ListElement.chunkAttribute a).items ++ ahead) tail)
    (ha : a.1 ≠ xmlText "xmlns") : r.moveToNextAttribute = .ok (onListAttribute r a, true) ∧
      StandsOn (onListAttribute r a) (seen ++ (ListElement.chunkAttribute a).items) ahead tail := by
  obtain ⟨hmove, hstands⟩ := StandsOn.nextAttribute h rfl rfl
  have hentered : r.entered (XmlQName.item .attribName ⟨[], a.1⟩) ⟨.attribValue, [], a.2⟩ =
      onListAttribute r a := (StandsOn.registerAttribute_local rfl).trans (if_neg ha)
  rw [← hentered]
  exact ⟨hmove, hstands⟩

/-- **The rest of the attributes of an element**, from one of them on. -/
theorem foldAttributes_eq {β : Type} (assign : List UInt8 → List UInt8 → β → β)
    {as : List (List UInt8 × List UInt8)}
    (h : StandsOn r seen ((as.map ListElement.chunkAttribute).flatMap XmlChunkAttribute.items ++
      i :: ahead) tail) (hi : i.type ≠ .attribName) (ha : ∀ a ∈ as, IsListAttribute a)
    (hpfx : r.native.currentPrefix = []) (hflag : r.nameSpaceIsAttribute = true)
    (hname : r.native.currentName.length ≤ maxXmlStringLength)
    (hvalue : r.native.currentValue.length ≤ maxXmlStringLength) {fuel : Nat}
    (hfuel : as.length < fuel) (b : β) : ∃ r',
      ListReader.foldAttributes assign fuel r b = pure (r', as.foldl (fun b a => assign a.1 a.2 b)
        (assign r.native.currentName r.native.currentValue b)) ∧
      StandsOn r' (seen ++ (as.map ListElement.chunkAttribute).flatMap XmlChunkAttribute.items)
        (i :: ahead) tail ∧ r'.defaultNameSpace = r.defaultNameSpace ∧
      r'.native.currentElementName = r.native.currentElementName := by
  have huri : r.getNamespaceURI = some [] := by
    rw [getNamespaceURI, if_pos hpfx, hflag]
    rfl
  induction as generalizing r seen fuel b with
  | nil =>
    obtain ⟨fuel, rfl⟩ := Nat.exists_eq_add_of_lt hfuel
    refine ⟨{ r with nameSpaceIsAttribute := true }, ?_, ?_, rfl, rfl⟩
    · rw [ListReader.foldAttributes, huri, nfStrLen_short hname, nfStrLen_short hvalue,
        h.noAttribute hi]
      rfl
    · rw [List.map_nil, List.flatMap_nil, List.append_nil]
      exact ⟨h.native, h.isEOF⟩
  | cons a as ih =>
    obtain ⟨⟨-, hshort, hxmlns, -, -, hlong⟩, has⟩ := List.forall_mem_cons.1 ha
    obtain ⟨fuel, rfl⟩ : ∃ n, fuel = n + 1 := ⟨fuel - 1, by omega⟩
    rw [List.map_cons, List.flatMap_cons, List.append_assoc] at h
    obtain ⟨hmove, h₁⟩ := nextListAttribute h hxmlns
    have hfuel' : as.length < fuel := Nat.lt_of_succ_lt_succ hfuel
    obtain ⟨r', hfold, h', hdefault, helement⟩ := ih h₁ has rfl rfl hshort hlong hfuel'
      (assign r.native.currentName r.native.currentValue b) rfl
    refine ⟨r', ?_, ?_, hdefault, helement⟩
    · rw [ListReader.foldAttributes, huri, nfStrLen_short hname, nfStrLen_short hvalue, hmove]
      exact hfold
    · rw [List.map_cons, List.flatMap_cons, ← List.append_assoc]
      exact h'

/-- Behind a text. -/
theorem textBehind (h : StandsOn r seen (i :: ahead) tail) (ht : i.type = .text) : ∃ r',
    r.read = .ok (r', some .text) ∧ StandsOn r' (seen ++ [i]) ahead tail ∧
      r'.defaultNameSpace = r.defaultNameSpace ∧ r'.native.currentName = [] := by
  obtain ⟨chars, hread, hstands⟩ := h.read_text ht
  exact ⟨_, hread, hstands, rfl, rfl⟩

/-- Behind the name of a tag. -/
theorem nameBehind {type : XmlReaderNodeType} (h : StandsOn r seen (i :: ahead) tail)
    (ht : (i.type = .element ∨ i.type = .processingInstruction) ∧ type = .startElement ∨
      (i.type = .elementEnd ∨ i.type = .processingInstructionEnd) ∧ type = .endElement) : ∃ r',
    r.read = .ok (r', some type) ∧ StandsOn r' (seen ++ [i]) ahead tail ∧
      r'.defaultNameSpace = r.defaultNameSpace ∧ r'.native.currentName = i.content ∧
      r'.native.currentPrefix = i.nsPrefix ∧ r'.native.currentElementName = i.content ∧
      r'.nameSpaceIsAttribute = false := by
  obtain ⟨hread, hstands⟩ := h.read_name ht
  refine ⟨_, hread, hstands, rfl, rfl, rfl, rfl, ?_⟩
  have hends : endsAttributes i.type = true := by
    rcases ht with ⟨ht | ht, -⟩ | ⟨ht | ht, -⟩ <;> rw [ht] <;> rfl
  rw [passed, hends, Bool.not_true, Bool.and_false]

/-- Behind the end of an empty tag. -/
theorem closeBehind (h : StandsOn r seen (i :: ahead) tail) (ht : i.type = .closeElement) : ∃ r',
    r.read = .ok (r', some .endElement) ∧ StandsOn r' (seen ++ [i]) ahead tail ∧
      r'.defaultNameSpace = r.defaultNameSpace ∧
      r'.native.currentName = r.native.currentElementName := by
  obtain ⟨hread, hstands⟩ := h.read_close ht
  exact ⟨_, hread, hstands, rfl, rfl⟩

namespace ListReader

variable {β α : Type} (R : ListReader β α)

/-- The names of the root can be written and read. -/
structure Valid : Prop where
  container : IsNCName R.container
  xml_ne : R.container ≠ xmlText "xml"
  short : R.container.length ≤ maxXmlStringLength
  fits : XmlWriter.Fits R.schema
  zeroFree : 0 ∉ R.schema
  schema_short : R.schema.length ≤ maxXmlStringLength

/-- What is done with an element. -/
def addElement (a : α) (e : ListElement) : Except OpcFault α :=
  match R.child e.name with
  | none => .error (.throws .namespaceInvalidElement)
  | some add => add (e.attributes.foldl (fun b x => R.assign x.1 x.2 b) R.init) a

/-- **The attributes of an element** of the list. -/
theorem parseChildNode_eq {e : ListElement} (he : e.Valid)
    (h : StandsOn r seen ((e.attributes.map ListElement.chunkAttribute).flatMap
      XmlChunkAttribute.items ++ i :: ahead) tail) (hi : i.type ≠ .attribName) {fuel : Nat}
    (hfuel : e.attributes.length ≤ fuel) (add : β → α → Except OpcFault α) (a : α) : ∃ r',
      R.parseChildNode fuel r add a = (Reading.lift
        (add (e.attributes.foldl (fun b x => R.assign x.1 x.2 b) R.init) a) >>= fun a =>
          pure (r', a)) ∧
      StandsOn r' (seen ++ (e.attributes.map ListElement.chunkAttribute).flatMap
        XmlChunkAttribute.items) (i :: ahead) tail ∧ r'.defaultNameSpace = r.defaultNameSpace ∧
      r'.native.currentElementName = r.native.currentElementName := by
  have hne := he.attributes_ne
  have hall := he.attributes
  generalize e.attributes = as at *
  cases as with
  | nil => exact absurd rfl hne
  | cons x as =>
    obtain ⟨⟨-, hshort, hxmlns, -, -, hlong⟩, has⟩ := List.forall_mem_cons.1 hall
    rw [List.map_cons, List.flatMap_cons, List.append_assoc] at h
    obtain ⟨hmove, h₁⟩ := nextListAttribute h hxmlns
    obtain ⟨r', hfold, h', hdefault, helement⟩ := foldAttributes_eq R.assign h₁ hi has rfl rfl hshort
      hlong (Nat.lt_of_succ_le hfuel) R.init
    refine ⟨r', ?_, ?_, hdefault, helement⟩
    · rw [parseChildNode, hmove]
      simp only [Reading.call_ok_bind, if_true]
      rw [hfold, pure_bind]
      rfl
    · rw [List.map_cons, List.flatMap_cons, ← List.append_assoc]
      exact h'

/-! ## Content of the root -/

theorem parseContent_read {r' : ScopedReader} {t : XmlReaderNodeType} (heof : r.native.isEOF = false)
    (hr : r.read = .ok (r', some t)) (ht : t = .text ∨ t = .endElement ∧
      r'.native.currentName.length ≤ maxXmlStringLength ∧ r'.native.currentName ≠ R.container)
    (fuel : Nat) (a : α) : R.parseContent (fuel + 1) r a = R.parseContent fuel r' a := by
  rw [parseContent, if_neg (by rw [heof]; exact Bool.false_ne_true), hr]
  rcases ht with rfl | ⟨rfl, hshort, hne⟩
  · rfl
  · simp only [Reading.call_ok_bind]
    rw [nfStrLen_short hshort, Reading.throwing_ok_bind, if_neg hne]

/-- A start tag with the name space of the list. -/
theorem parseStartElement_eq {name : List UInt8} (hname : r.native.currentName = name)
    (hne : name ≠ []) (hshort : name.length ≤ maxXmlStringLength)
    (huri : r.getNamespaceURI = some R.schema) (fuel : Nat) (a : α) :
    (R.child name = none → R.parseStartElement fuel r a =
      .lift (.error (.throws .namespaceInvalidElement))) ∧
    ∀ add, R.child name = some add → R.parseStartElement fuel r a = R.parseChildNode fuel r add a := by
  have hpos : name.length > 0 ∧ R.schema = R.schema := ⟨List.length_pos_of_ne_nil hne, rfl⟩
  rw [parseStartElement, hname, nfStrLen_short hshort, Reading.throwing_ok_bind, huri]
  dsimp only
  rw [if_pos hpos]
  refine ⟨fun h => ?_, fun add h => ?_⟩
  · rw [h]
    rfl
  · rw [h]

/-- **An element of the list**: its text, its tag with the attributes, and the end of the tag. -/
theorem parseContent_element {nl : List UInt8} {e : ListElement} (he : e.Valid)
    (hc : e.name ≠ R.container) (h : StandsOn r seen ((e.chunk nl).items ++ ahead) tail)
    (hdefault : r.defaultNameSpace = R.schema) {fuel : Nat} (hfuel : e.attributes.length ≤ fuel)
    (a : α) : ∃ r', StandsOn r' (seen ++ (e.chunk nl).items) ahead tail ∧
      r'.defaultNameSpace = R.schema ∧ R.parseContent (fuel + 3) r a =
        (Reading.lift (R.addElement a e) >>= fun a => R.parseContent fuel r' a) := by
  have hitems : (e.chunk nl).items = ⟨.text, [], nl ++ [nativeXMLSpacing]⟩ :: ⟨.element, [], e.name⟩ ::
      ((e.attributes.map ListElement.chunkAttribute).flatMap XmlChunkAttribute.items ++
        [⟨.closeElement, [], []⟩]) := by
    rw [ListElement.chunk, XmlChunk.items, XmlChunk.textItems,
      if_neg (List.append_ne_nil_of_right_ne_nil _ (List.cons_ne_nil _ _))]
    rfl
  rw [hitems] at h ⊢
  rw [List.cons_append, List.cons_append, List.append_assoc] at h
  obtain ⟨r₁, htext, h₁, hdefault₁, -⟩ := textBehind h rfl
  obtain ⟨r₂, hstart, h₂, hdefault₂, hname₂, hpfx₂, helement₂, hflag₂⟩ :=
    nameBehind h₁ (.inl ⟨.inl rfl, rfl⟩)
  have huri : r₂.getNamespaceURI = some R.schema := by
    rw [getNamespaceURI, if_pos hpfx₂, hflag₂, hdefault₂, hdefault₁, hdefault]
    rfl
  obtain ⟨hnone, hsome⟩ := R.parseStartElement_eq hname₂ (ncName_ne_nil he.name) he.short huri (fuel + 1) a
  have hstart' : R.parseContent (fuel + 3) r a =
      (R.parseStartElement (fuel + 1) r₂ a >>= fun s => R.parseContent (fuel + 1) s.1 s.2) := by
    rw [R.parseContent_read h.isEOF htext (.inl rfl) (fuel + 2) a, parseContent,
      if_neg (by rw [h₁.isEOF]; exact Bool.false_ne_true), hstart]
    rfl
  -- the attributes are read whatever is done with them
  have hchild : ∀ add, ∃ r₄, StandsOn r₄ (seen ++ ⟨.text, [], nl ++ [nativeXMLSpacing]⟩ ::
      ⟨.element, [], e.name⟩ :: ((e.attributes.map ListElement.chunkAttribute).flatMap
        XmlChunkAttribute.items ++ [⟨.closeElement, [], []⟩])) ahead tail ∧
      r₄.defaultNameSpace = R.schema ∧ (R.parseChildNode (fuel + 1) r₂ add a >>= fun s =>
        R.parseContent (fuel + 1) s.1 s.2) = (Reading.lift
          (add (e.attributes.foldl (fun b x => R.assign x.1 x.2 b) R.init) a) >>= fun a =>
            R.parseContent fuel r₄ a) := fun add => by
    obtain ⟨r₃, hparse, h₃, hdefault₃, helement₃⟩ :=
      R.parseChildNode_eq he h₂ (by simp) (Nat.le_succ_of_le hfuel) add a
    obtain ⟨r₄, hclose, h₄, hdefault₄, hname₄⟩ := closeBehind h₃ rfl
    have hname : r₄.native.currentName = e.name := hname₄.trans (helement₃.trans helement₂)
    refine ⟨r₄, ?_, hdefault₄.trans (hdefault₃.trans (hdefault₂.trans (hdefault₁.trans hdefault))), ?_⟩
    · simpa using h₄
    · rw [hparse, bind_assoc]
      refine bind_congr fun b => ?_
      rw [pure_bind]
      refine R.parseContent_read h₃.isEOF hclose (.inr ⟨rfl, ?_, ?_⟩) fuel b
      · rw [hname]
        exact he.short
      · rw [hname]
        exact hc
  rw [hstart', addElement]
  cases hfind : R.child e.name with
  | none =>
    obtain ⟨r₄, h₄, hdefault₄, -⟩ := hchild fun _ => .ok
    exact ⟨r₄, h₄, hdefault₄, by rw [hnone hfind]; rfl⟩
  | some add =>
    obtain ⟨r₄, h₄, hdefault₄, hparse⟩ := hchild add
    exact ⟨r₄, h₄, hdefault₄, by rw [hsome add hfind]; exact hparse⟩

/-- **The elements of the list**, in their order. -/
theorem parseContent_elements {nl : List UInt8} {es : List ListElement} (he : ∀ e ∈ es, e.Valid)
    (hc : ∀ e ∈ es, e.name ≠ R.container)
    (h : StandsOn r seen ((es.map (ListElement.chunk nl)).flatMap XmlChunk.items ++ ahead) tail)
    (hdefault : r.defaultNameSpace = R.schema) {fuel : Nat}
    (hfuel : ∀ e ∈ es, e.attributes.length ≤ fuel) (a : α) : ∃ r',
      StandsOn r' (seen ++ (es.map (ListElement.chunk nl)).flatMap XmlChunk.items) ahead tail ∧
      R.parseContent (fuel + 3 * es.length) r a =
        (Reading.lift (es.foldlM R.addElement a) >>= fun a => R.parseContent fuel r' a) := by
  induction es generalizing r seen a with
  | nil =>
    refine ⟨r, ?_, rfl⟩
    rw [List.map_nil, List.flatMap_nil, List.append_nil]
    exact h
  | cons e es ih =>
    obtain ⟨he, hes⟩ := List.forall_mem_cons.1 he
    obtain ⟨hc, hcs⟩ := List.forall_mem_cons.1 hc
    obtain ⟨hfuel, hfuels⟩ := List.forall_mem_cons.1 hfuel
    rw [List.map_cons, List.flatMap_cons, List.append_assoc] at h
    obtain ⟨r₁, h₁, hdefault₁, hparse⟩ :=
      R.parseContent_element he hc h hdefault (Nat.le_add_right_of_le (k := 3 * es.length) hfuel) a
    have hlen : fuel + 3 * (e :: es).length = fuel + 3 * es.length + 3 := by
      rw [List.length_cons]
      omega
    rw [List.map_cons, List.flatMap_cons, ← List.append_assoc, hlen, hparse, List.foldlM_cons]
    cases R.addElement a e with
    | error f =>
      obtain ⟨r', h', -⟩ := ih hes hcs h₁ hdefault₁ hfuels a
      exact ⟨r', h', rfl⟩
    | ok a' =>
      obtain ⟨r', h', hrest⟩ := ih hes hcs h₁ hdefault₁ hfuels a'
      exact ⟨r', h', hrest⟩

/-- **The end of the list.** -/
theorem parseContent_end {text : List UInt8}
    (h : StandsOn r seen (XmlChunk.items ⟨text, .ends ⟨[], R.container⟩⟩) tail)
    (hshort : R.container.length ≤ maxXmlStringLength) (fuel : Nat) : ∃ r',
      StandsOn r' (seen ++ XmlChunk.items ⟨text, .ends ⟨[], R.container⟩⟩) [] tail ∧
      ∀ a, R.parseContent (fuel + 2) r a = pure (r', a) := by
  -- the end tag, behind the text
  have hend : ∀ {r : ScopedReader} {seen : List EntityItem},
      StandsOn r seen [⟨.elementEnd, [], R.container⟩] tail → ∀ fuel, ∃ r',
        StandsOn r' (seen ++ [⟨.elementEnd, [], R.container⟩]) [] tail ∧
        ∀ a, R.parseContent (fuel + 1) r a = pure (r', a) := fun {r seen} h fuel => by
    obtain ⟨r', hread, h', -, hname, -⟩ := nameBehind h (.inr ⟨.inl rfl, rfl⟩)
    refine ⟨r', h', fun a => ?_⟩
    rw [parseContent, if_neg (by rw [h.isEOF]; exact Bool.false_ne_true), hread]
    simp only [Reading.call_ok_bind]
    rw [hname, nfStrLen_short hshort, Reading.throwing_ok_bind, if_pos rfl]
  by_cases htext : text = []
  · subst htext
    exact hend h (fuel + 1)
  · rw [XmlChunk.items, XmlChunk.textItems, if_neg htext] at h ⊢
    obtain ⟨r₁, hread, h₁, -⟩ := textBehind h rfl
    obtain ⟨r', h', hparse⟩ := hend h₁ fuel
    refine ⟨r', ?_, fun a =>
      (R.parseContent_read h.isEOF hread (.inl rfl) (fuel + 1) a).trans (hparse a)⟩
    rw [List.append_assoc] at h'
    exact h'

/-! ## The root and the document -/

/-- The declaration of the name space. -/
theorem parseAttributes_root {schema : List UInt8}
    (h : StandsOn r seen ((XmlChunkAttribute.mk ⟨[], xmlText "xmlns"⟩ schema).items ++ i :: ahead)
      tail) (hi : i.type ≠ .attribName) (hschema : schema.length ≤ maxXmlStringLength) (fuel : Nat) :
    ∃ seen' r', StandsOn r' seen' (i :: ahead) tail ∧ r'.defaultNameSpace = schema ∧
      parseAttributes (fuel + 1) r = pure r' := by
  have hxmlns : (xmlText "xmlns").length ≤ maxXmlStringLength := by decide
  obtain ⟨hmove, h₁⟩ := h.nextAttribute rfl rfl
  let r₁ : ScopedReader := { r with
    native := Stands.onAttribute r.native (XmlQName.item .attribName ⟨[], xmlText "xmlns"⟩)
      ⟨.attribValue, [], schema⟩
    defaultNameSpace := schema, nameSpaceIsAttribute := true }
  have hentered : r.entered (XmlQName.item .attribName ⟨[], xmlText "xmlns"⟩)
      ⟨.attribValue, [], schema⟩ = r₁ := (StandsOn.registerAttribute_local rfl).trans (if_pos rfl)
  rw [hentered] at hmove
  rw [show r.entered _ _ = r₁ from hentered] at h₁
  obtain ⟨r', hfold, h', hdefault, -⟩ := @foldAttributes_eq r₁ _ ahead tail i Unit (fun _ _ b => b) []
    h₁ hi (List.forall_mem_nil _) rfl rfl hxmlns hschema (fuel + 1) (Nat.zero_lt_succ _) ()
  refine ⟨_, r', h', hdefault, ?_⟩
  rw [parseAttributes, hmove]
  simp only [Reading.call_ok_bind, if_true]
  rw [hfold, pure_bind]

/-- **The root**: its name space and its content. -/
theorem parseRootNode_eq {nl : List UInt8} {es : List ListElement} (he : ∀ e ∈ es, e.Valid)
    (hc : ∀ e ∈ es, e.name ≠ R.container) (hshort : R.container.length ≤ maxXmlStringLength)
    (hschema : R.schema.length ≤ maxXmlStringLength)
    (h : StandsOn r seen ((XmlChunkAttribute.mk ⟨[], xmlText "xmlns"⟩ R.schema).items ++
      ((es.map (ListElement.chunk nl)).flatMap XmlChunk.items ++
        (endChunk nl R.container es).items)) tail) {fuel : Nat}
    (hfuel : ∀ e ∈ es, e.attributes.length ≤ fuel) (a : α) : ∃ seen' r', StandsOn r' seen' [] tail ∧
      R.parseRootNode (fuel + 2 + 3 * es.length) r a =
        (Reading.lift (es.foldlM R.addElement a) >>= fun a => pure (r', a)) := by
  obtain ⟨i, rest, hhead, hi⟩ : ∃ i rest, (es.map (ListElement.chunk nl)).flatMap XmlChunk.items ++
      (endChunk nl R.container es).items = i :: rest ∧ i.type ≠ .attribName := by
    cases es with
    | nil => exact XmlChunk.items_head _
    | cons e es =>
      obtain ⟨i, rest, hitems, hi⟩ := XmlChunk.items_head (e.chunk nl)
      rw [List.map_cons, List.flatMap_cons, hitems]
      exact ⟨i, _, rfl, hi⟩
  have hlen : fuel + 2 + 3 * es.length = fuel + 1 + 3 * es.length + 1 := by omega
  rw [hhead] at h
  obtain ⟨seen₁, r₁, h₁, hdefault, hattributes⟩ := parseAttributes_root h hi hschema _
  rw [← hhead] at h₁
  obtain ⟨r₂, h₂, hparse⟩ := R.parseContent_elements he hc h₁ hdefault
    (fun e he => Nat.le_add_right_of_le (k := 2) (hfuel e he)) a
  obtain ⟨r₃, h₃, hend⟩ := R.parseContent_end h₂ hshort fuel
  refine ⟨_, r₃, h₃, ?_⟩
  rw [parseRootNode, hlen, hattributes, pure_bind, ← hlen, hparse]
  exact bind_congr hend

/-! ## The document -/

theorem parseDocument_read {r' : ScopedReader} {t : XmlReaderNodeType} (heof : r.native.isEOF = false)
    (hr : r.read = .ok (r', some t)) (hne : r'.native.currentName ≠ R.container) (fuel : Nat)
    (a : α) : R.parseDocument (fuel + 1) r a = R.parseDocument fuel r' a := by
  rw [parseDocument, if_neg (by rw [heof]; exact Bool.false_ne_true), hr]
  simp only [Reading.call_ok_bind]
  rw [if_neg hne]

/-- The parts of an attribute show nothing here. -/
theorem parseDocument_attribute {x : XmlChunkAttribute}
    (h : StandsOn r seen (x.items ++ ahead) tail) (hne : r.native.currentName ≠ R.container) : ∃ r',
      StandsOn r' (seen ++ x.items) ahead tail ∧ r'.native.currentName = r.native.currentName ∧
      ∀ fuel a, R.parseDocument (fuel + 2) r a = R.parseDocument fuel r' a := by
  obtain ⟨hread₁, h₁⟩ := h.read_unknown (.inl rfl)
  obtain ⟨hread₂, h₂⟩ := StandsOn.read_unknown h₁ (.inr rfl)
  rw [List.append_assoc] at h₂
  refine ⟨_, h₂, rfl, fun fuel a => ?_⟩
  rw [R.parseDocument_read h.isEOF hread₁ hne (fuel + 1) a]
  exact R.parseDocument_read h₁.isEOF hread₂ hne fuel a

/-- The declaration in front of the root. -/
theorem parseDocument_declaration (h : StandsOn r seen (declaration.items ++ ahead) tail)
    (hempty : R.container ≠ []) (hxml : R.container ≠ xmlText "xml") : ∃ r',
      StandsOn r' (seen ++ declaration.items) ahead tail ∧
      ∀ fuel a, R.parseDocument (fuel + 6) r a = R.parseDocument fuel r' a := by
  obtain ⟨r₁, hread₁, h₁, -, hname₁, -⟩ := nameBehind h (.inl ⟨.inr rfl, rfl⟩)
  have hne₁ : r₁.native.currentName ≠ R.container := by
    rw [hname₁]
    exact hxml.symm
  obtain ⟨r₂, h₂, hname₂, hparse₂⟩ := R.parseDocument_attribute h₁ hne₁
  obtain ⟨r₃, h₃, -, hparse₃⟩ := R.parseDocument_attribute h₂ (hname₂ ▸ hne₁)
  obtain ⟨r₄, hread₄, h₄, -, hname₄, -⟩ := nameBehind h₃ (.inr ⟨.inr rfl, rfl⟩)
  have hne₄ : r₄.native.currentName ≠ R.container := by
    rw [hname₄]
    exact hempty.symm
  have hitems : declaration.items = XmlQName.item .processingInstruction ⟨[], xmlText "xml"⟩ ::
      ((XmlChunkAttribute.mk ⟨[], xmlText "version"⟩ (xmlText "1.0")).items ++
        ((XmlChunkAttribute.mk ⟨[], xmlText "encoding"⟩ (xmlText "utf-8")).items ++
          [⟨.processingInstructionEnd, [], []⟩])) := rfl
  refine ⟨r₄, ?_, fun fuel a => ?_⟩
  · rw [hitems]
    rw [List.append_assoc, List.append_assoc, List.append_assoc, List.singleton_append] at h₄
    exact h₄
  · rw [R.parseDocument_read h.isEOF hread₁ hne₁, hparse₂ (fuel + 3), hparse₃ (fuel + 1),
      R.parseDocument_read h₃.isEOF hread₄ hne₄]

/-- **The document**, up to its end. -/
theorem parseDocument_eq {nl : List UInt8} {es : List ListElement} (he : ∀ e ∈ es, e.Valid)
    (hc : ∀ e ∈ es, e.name ≠ R.container) (hR : R.Valid) (hnl : nl ≠ [])
    (h : StandsOn r [] ((listChunks nl R.container R.schema es).flatMap XmlChunk.items) tail)
    (htail : '<'.toUInt8 ∉ tail) {fuel : Nat} (hfuel : ∀ e ∈ es, e.attributes.length ≤ fuel) (a : α) :
    R.parseDocument (fuel + 3 * es.length + 10) r a = .lift (es.foldlM R.addElement a) := by
  have hroot : (rootChunk nl R.container R.schema).items = ⟨.text, [], nl⟩ ::
      ⟨.element, [], R.container⟩ ::
        (XmlChunkAttribute.mk ⟨[], xmlText "xmlns"⟩ R.schema).items := by
    rw [rootChunk, XmlChunk.items, XmlChunk.textItems, if_neg hnl]
    rfl
  rw [listChunks, List.flatMap_cons, List.flatMap_cons, List.flatMap_append, List.flatMap_singleton,
    hroot, List.cons_append, List.cons_append] at h
  obtain ⟨r₁, h₁, hdeclaration⟩ :=
    R.parseDocument_declaration h (ncName_ne_nil hR.container) hR.xml_ne
  obtain ⟨r₂, htext, h₂, -, hname₂⟩ := textBehind h₁ rfl
  obtain ⟨r₃, hstart, h₃, -, hname₃, -⟩ := nameBehind h₂ (.inl ⟨.inl rfl, rfl⟩)
  obtain ⟨seen', r₄, h₄, hparse⟩ := R.parseRootNode_eq he hc hR.short hR.schema_short h₃ hfuel a
  obtain ⟨r₅, hend⟩ := h₄.read_end htail
  have hne₂ : r₂.native.currentName ≠ R.container := by
    rw [hname₂]
    exact (ncName_ne_nil hR.container).symm
  have hfuel' : fuel + 3 * es.length + 10 = fuel + 2 + 3 * es.length + 2 + 6 := by omega
  rw [hfuel', hdeclaration, R.parseDocument_read h₁.isEOF htext hne₂, parseDocument,
    if_neg (by rw [h₂.isEOF]; exact Bool.false_ne_true), hstart]
  simp only [Reading.call_ok_bind]
  rw [if_pos hname₃, hparse, bind_assoc]
  have hrest : ∀ b, R.parseDocument (fuel + 2 + 3 * es.length) r₄ b = pure b := fun b => by
    rw [show fuel + 2 + 3 * es.length = fuel + 1 + 3 * es.length + 1 by omega, parseDocument,
      if_neg (by rw [h₄.isEOF]; exact Bool.false_ne_true), hend]
    rfl
  calc _ = (Reading.lift (es.foldlM R.addElement a) >>= pure) := bind_congr fun b => by
        rw [pure_bind]
        exact hrest b
    _ = _ := bind_pure _

/-- **What is written is read.** Where the buffer of the reader takes the document of a list, it does
with each element, in their order, what it does with the attributes of that element; it fails where
that fails, and otherwise reads what is left of the list then. -/
theorem reads_written {nl : List UInt8} {es : List ListElement} (he : ∀ e ∈ es, e.Valid)
    (hc : ∀ e ∈ es, e.name ≠ R.container) (hR : R.Valid) (hnl : IsLineEnding nl)
    (hfits : (listDocument nl R.container R.schema es).length + bufferMargin ≤ xmlReaderBufferSize) :
    ∃ w, writeDocument true (listCalls R.container R.schema es) (XmlWriter.create nl) = .ok () w ∧
      w.output = listDocument nl R.container R.schema es ∧
      ∀ fuel a, (∀ e ∈ es, e.attributes.length ≤ fuel) →
        R.readDocument (fuel + 3 * es.length + 10) w.output a = .lift (es.foldlM R.addElement a) := by
  obtain ⟨hguarded, hrun⟩ := @leads_list nl R.container R.schema es hR.container hR.short
    ⟨hR.fits, hR.zeroFree⟩ he
  obtain ⟨-, -, w, r, r₁, hwrite, hout, hcreate, hfilled, h₁⟩ := written_filled true hnl hguarded hrun
    rfl (List.cons_ne_nil _ _) (by decide) (by decide) hfits
  obtain ⟨i, rest, hitems⟩ : ∃ i rest,
      (listChunks nl R.container R.schema es).flatMap XmlChunk.items = i :: rest := ⟨_, _, rfl⟩
  rw [show (XmlLayout.chunks _).flatMap XmlChunk.items = _ from hitems] at h₁
  obtain ⟨s, hs, heof, hread, hstands⟩ := ScopedReader.read_create hcreate hfilled h₁
  have htail : '<'.toUInt8 ∉ escapeXMLString nl := lt_notMem_escape nl
  refine ⟨w, hwrite, hout, fun fuel a hfuel => ?_⟩
  rw [readDocument, hs, Reading.call_ok_bind]
  rw [← hitems] at hstands
  have hnl' : nl ≠ [] := by
    rcases hnl with rfl | rfl <;> exact List.cons_ne_nil _ _
  rw [← R.parseDocument_eq he hc hR hnl' hstands htail hfuel a, parseDocument, parseDocument, heof,
    hread, hstands.isEOF]

end ListReader

end

end NMR.Opc
