import Lib3MF.Common.Platform.XmlReader
import Lib3MF.Lib.Run

/-!
# The name space of an element or attribute

The scoping rules bind a prefix by the innermost declaration around a name, declarations on the
element itself included (`XmlScope`). The reader has one map for the whole document: it binds a
prefix by the first declaration the caller has walked over (`XmlWalk.firstURI`), and an unprefixed
element by the last default declaration: the reader follows the walk (`Follows.next`).
-/

namespace NMR

open Lib

/-! ## The scoping rules -/

/-- The prefixes some attributes declare, with their URIs. -/
def prefixBindings (attributes : List XmlAttribute) : List (String × String) :=
  attributes.filterMap fun a => if a.nsPrefix = "xmlns" then some (a.name, a.value) else none

/-- The default name spaces some attributes declare. -/
def defaultBindings (attributes : List XmlAttribute) : List String :=
  attributes.filterMap fun a =>
    if a.nsPrefix = "" ∧ a.name = "xmlns" then some a.value else none

theorem prefixBindings_append (as bs : List XmlAttribute) :
    prefixBindings (as ++ bs) = prefixBindings as ++ prefixBindings bs := List.filterMap_append

theorem defaultBindings_append (as bs : List XmlAttribute) :
    defaultBindings (as ++ bs) = defaultBindings as ++ defaultBindings bs := List.filterMap_append

/-- The declarations in scope: prefixes from the innermost outwards, and the default. -/
structure XmlScope where
  prefixes : List (String × String)
  default : String

namespace XmlScope

/-- The scope of a document. -/
def document : XmlScope := ⟨builtInNameSpaces, ""⟩

/-- The scope inside an element with these attributes. -/
def enter (s : XmlScope) (attributes : List XmlAttribute) : XmlScope :=
  ⟨prefixBindings attributes ++ s.prefixes, (defaultBindings attributes).head?.getD s.default⟩

/-- The name space of an element in the scope its own attributes open. -/
def elementURI (s : XmlScope) (nsPrefix : String) : Option String :=
  if nsPrefix = "" then some s.default else s.prefixes.lookup nsPrefix

/-- The name space of an attribute of such an element. -/
def attributeURI (s : XmlScope) (nsPrefix : String) : Option String :=
  if nsPrefix = "" then some "" else s.prefixes.lookup nsPrefix

end XmlScope

/-- An entity, with the name space of the element or attribute it names. -/
abbrev XmlItem := XmlEntity × Option (Option String)

/-- The entities of an attribute in a scope. -/
def XmlAttribute.items (s : XmlScope) (a : XmlAttribute) : List XmlItem :=
  [(⟨.attribName, a.nsPrefix, a.name⟩, some (s.attributeURI a.nsPrefix)),
    (⟨.attribValue, "", a.value⟩, none)]

/-- The entities of some content in a scope, with the name space of every element and attribute.
An instruction has none. -/
def XmlContent.items (s : XmlScope) : XmlContent → List XmlItem
  | .nil => []
  | .text value rest => (if value = "" then [] else [(⟨.text, "", value⟩, none)]) ++ rest.items s
  | .instruction target attributes rest =>
    (⟨.processingInstruction, "", target⟩, none) ::
      (attributes.flatMap XmlAttribute.entities).map (·, none) ++
      (⟨.processingInstructionEnd, "", ""⟩, none) :: rest.items s
  | .element nsPrefix name attributes children rest =>
    let inner := s.enter attributes
    (⟨.element, nsPrefix, name⟩, some (inner.elementURI nsPrefix)) ::
      attributes.flatMap (XmlAttribute.items inner) ++ children.items inner ++
      (⟨.elementEnd, nsPrefix, name⟩, none) :: rest.items s
  | .emptyElement nsPrefix name attributes rest =>
    let inner := s.enter attributes
    (⟨.element, nsPrefix, name⟩, some (inner.elementURI nsPrefix)) ::
      attributes.flatMap (XmlAttribute.items inner) ++
      (⟨.closeElement, "", ""⟩, none) :: rest.items s

/-- The attributes of an element are distinct, their prefixes and that of the element declared,
and no declaration binds a reserved prefix or the empty name space to a prefix. -/
def XmlScope.wellFormed (s : XmlScope) (nsPrefix : String) (attributes : List XmlAttribute) :
    Bool :=
  ((s.enter attributes).elementURI nsPrefix).isSome &&
    attributes.all (fun a => ((s.enter attributes).attributeURI a.nsPrefix).isSome) &&
    decide ((attributes.map fun a => (a.nsPrefix, a.name)).Nodup) &&
    (prefixBindings attributes).all fun b => b.1 ≠ "xml" && b.1 ≠ "xmlns" && b.2 ≠ ""

/-- The content is well formed with respect to name spaces. -/
def XmlContent.wellFormed (s : XmlScope) : XmlContent → Bool
  | .nil => true
  | .text _ rest => rest.wellFormed s
  | .instruction _ _ rest => rest.wellFormed s
  | .element nsPrefix _ attributes children rest =>
    s.wellFormed nsPrefix attributes && children.wellFormed (s.enter attributes) &&
      rest.wellFormed s
  | .emptyElement nsPrefix _ attributes rest =>
    s.wellFormed nsPrefix attributes && rest.wellFormed s

@[simp] theorem map_fst_items_attribute (s : XmlScope) (a : XmlAttribute) :
    (a.items s).map Prod.fst = a.entities := rfl

theorem map_fst_items_attributes (s : XmlScope) (attributes : List XmlAttribute) :
    (attributes.flatMap (XmlAttribute.items s)).map Prod.fst =
      attributes.flatMap XmlAttribute.entities := by
  simp [List.map_flatMap]

/-- The items of a document are its entities. -/
theorem map_fst_items (c : XmlContent) (s : XmlScope) : (c.items s).map Prod.fst = c.entities := by
  induction c generalizing s with
  | nil => rfl
  | text value rest ih =>
    simp only [XmlContent.items, XmlContent.entities, List.map_append, ih]
    split_ifs <;> rfl
  | instruction target attributes rest ih =>
    simp [XmlContent.items, XmlContent.entities, ih, Function.comp_def]
  | element nsPrefix name attributes children rest ihc ih =>
    simp [XmlContent.items, XmlContent.entities, ih, ihc, map_fst_items_attributes]
  | emptyElement nsPrefix name attributes rest ih =>
    simp [XmlContent.items, XmlContent.entities, ih, map_fst_items_attributes]

/-! ## Calls -/

/-- The calls that move the reader. -/
inductive XmlReaderCall where
  | read
  | moveToNextAttribute
  deriving DecidableEq, Repr

/-- The reader and the entities ahead of it. -/
abbrev XmlReading := XmlReader × List XmlEntity

namespace XmlReader

/-- The state after a call; a call that throws leaves the reader. -/
def next (r : XmlReading) : XmlReaderCall → XmlReading
  | .read => (r.1.read r.2).2
  | .moveToNextAttribute =>
    match r.1.moveToNextAttribute r.2 with
    | .ok (_, r') => r'
    | .error _ => r

end XmlReader

/-- The entities ahead of a caller, and the attributes its calls have walked over. -/
structure XmlWalk where
  ahead : List XmlEntity
  seen : List XmlAttribute

namespace XmlWalk

/-- The start of a document. -/
def start (entities : List XmlEntity) : XmlWalk := ⟨entities, []⟩

/-- `Read` passes one entity, `MoveToNextAttribute` an attribute. -/
def next (w : XmlWalk) : XmlReaderCall → XmlWalk
  | .read => { w with ahead := w.ahead.tail }
  | .moveToNextAttribute =>
    match w.ahead with
    | name :: value :: ahead =>
      if name.type = .attribName then
        ⟨ahead, w.seen ++ [⟨name.nsPrefix, name.name, value.name⟩]⟩
      else w
    | _ => w

/-- The first declaration of the prefix that was walked over. -/
def firstURI (w : XmlWalk) (nsPrefix : String) : Option String :=
  (builtInNameSpaces ++ prefixBindings w.seen).lookup nsPrefix

/-- The last default declaration that was walked over. -/
def lastDefault (w : XmlWalk) : String := (defaultBindings w.seen).getLast?.getD ""

/-- For an element: the first declaration of its prefix that was walked over, or without a prefix
the last default declaration, gives its name space. For an attribute with a prefix, its own
declaration included: the first declaration gives its name space. -/
def Agrees (items : List XmlItem) (w : XmlWalk) (c : XmlReaderCall) : Prop :=
  ∀ e uri, items[items.length - w.ahead.length]? = some (e, some uri) →
    match c with
    | .read => e.type = .element →
      (if e.nsPrefix = "" then some w.lastDefault else w.firstURI e.nsPrefix) = uri
    | .moveToNextAttribute => e.type = .attribName → e.nsPrefix ≠ "" →
      (w.next c).firstURI e.nsPrefix = uri

end XmlWalk

/-! ## The entities of a document -/

/-- An attribute name is followed by a value. -/
def AttributesPaired : List XmlEntity → Prop
  | [] => True
  | e :: es =>
    (e.type = .attribName → ∃ v, es.head? = some v ∧ v.type = .attribValue) ∧ AttributesPaired es

theorem AttributesPaired.cons {e : XmlEntity} {es : List XmlEntity} (h : AttributesPaired es)
    (he : e.type ≠ .attribName) : AttributesPaired (e :: es) :=
  ⟨fun h => absurd h he, h⟩

theorem AttributesPaired.attributes {es : List XmlEntity} (h : AttributesPaired es)
    (attributes : List XmlAttribute) :
    AttributesPaired (attributes.flatMap XmlAttribute.entities ++ es) := by
  induction attributes with
  | nil => exact h
  | cons a attributes ih =>
    have hv : AttributesPaired (⟨.attribValue, "", a.value⟩ ::
        (attributes.flatMap XmlAttribute.entities ++ es)) := ih.cons (by simp)
    exact ⟨fun _ => ⟨_, rfl, rfl⟩, hv⟩

theorem AttributesPaired.content (c : XmlContent) {es : List XmlEntity} (h : AttributesPaired es) :
    AttributesPaired (c.entities ++ es) := by
  induction c generalizing es with
  | nil => exact h
  | text value rest ih =>
    simp only [XmlContent.entities, List.append_assoc]
    split_ifs
    · exact ih h
    · exact (ih h).cons (by simp)
  | instruction target attributes rest ih =>
    simp only [XmlContent.entities, List.append_assoc, List.cons_append]
    exact (((ih h).cons (by simp)).attributes attributes).cons (by simp)
  | element nsPrefix name attributes children rest ihc ih =>
    simp only [XmlContent.entities, List.append_assoc, List.cons_append]
    exact ((ihc ((ih h).cons (by simp))).attributes attributes).cons (by simp)
  | emptyElement nsPrefix name attributes rest ih =>
    simp only [XmlContent.entities, List.append_assoc, List.cons_append]
    exact (((ih h).cons (by simp)).attributes attributes).cons (by simp)

theorem AttributesPaired.suffix {es es' : List XmlEntity} (h : AttributesPaired es)
    (hs : es' <:+ es) : AttributesPaired es' := by
  induction es with
  | nil => rw [List.suffix_nil.1 hs]; trivial
  | cons e es ih =>
    rcases List.suffix_cons_iff.1 hs with rfl | hs
    · exact h
    · exact ih h.2 hs

/-- Elements and attributes alone have a name space, and that of an attribute without a prefix is
empty. -/
def NamesOnly (items : List XmlItem) : Prop :=
  ∀ e uri, (e, some uri) ∈ items →
    e.type = .element ∨ e.type = .attribName ∧ (e.nsPrefix = "" → uri = some "")

theorem namesOnly_nil : NamesOnly [] := fun _ _ h => absurd h (by simp)

theorem namesOnly_append {l l' : List XmlItem} (h : NamesOnly l) (h' : NamesOnly l') :
    NamesOnly (l ++ l') := fun e uri hm => (List.mem_append.1 hm).elim (h e uri) (h' e uri)

theorem namesOnly_none {l : List XmlItem} (e : XmlEntity) (h : NamesOnly l) :
    NamesOnly ((e, none) :: l) := fun e' uri hm => by
  apply h e' uri
  simpa using hm

theorem namesOnly_element {l : List XmlItem} (nsPrefix name : String) (uri : Option String)
    (h : NamesOnly l) : NamesOnly ((⟨.element, nsPrefix, name⟩, some uri) :: l) :=
  fun e' uri' hm => by
    rcases List.mem_cons.1 hm with h' | h'
    · exact .inl (congrArg (fun i => i.1.type) h')
    · exact h e' uri' h'

theorem namesOnly_attributes (s : XmlScope) (attributes : List XmlAttribute) :
    NamesOnly (attributes.flatMap (XmlAttribute.items s)) := by
  intro e uri hm
  obtain ⟨a, _, ha⟩ := List.mem_flatMap.1 hm
  simp only [XmlAttribute.items, List.mem_cons, Prod.mk.injEq, Option.some.injEq, reduceCtorEq,
    and_false, List.not_mem_nil, or_false] at ha
  obtain ⟨rfl, rfl⟩ := ha
  exact .inr ⟨rfl, fun h => if_pos h⟩

theorem namesOnly_items (c : XmlContent) (s : XmlScope) : NamesOnly (c.items s) := by
  induction c generalizing s with
  | nil => exact namesOnly_nil
  | text value rest ih =>
    simp only [XmlContent.items]
    split_ifs
    · exact ih s
    · exact namesOnly_none _ (ih s)
  | instruction target attributes rest ih =>
    apply namesOnly_none
    apply namesOnly_append _ (namesOnly_none _ (ih s))
    intro e uri hm
    simp at hm
  | element nsPrefix name attributes children rest ihc ih =>
    simp only [XmlContent.items, List.cons_append, List.append_assoc]
    apply namesOnly_element
    apply namesOnly_append (namesOnly_attributes _ _)
    exact namesOnly_append (ihc _) (namesOnly_none _ (ih s))
  | emptyElement nsPrefix name attributes rest ih =>
    simp only [XmlContent.items, List.cons_append]
    apply namesOnly_element
    exact namesOnly_append (namesOnly_attributes _ _) (namesOnly_none _ (ih s))

/-! ## The reader follows the walk -/

namespace XmlReader

/-- The map of the reader binds a prefix by its first declaration, the default by the last. -/
structure Follows (entities : List XmlEntity) (r : XmlReading) (w : XmlWalk) : Prop where
  ahead : r.2 = w.ahead
  suffix : w.ahead <:+ entities
  prefixes : ∀ p, r.1.nameSpaces.lookup p = w.firstURI p
  default : r.1.defaultNameSpace = w.lastDefault

/-- `readEntity` leaves the name spaces. -/
@[simp] theorem readEntity_nameSpaces (r : XmlReader) (e : XmlEntity) :
    (r.readEntity e).2.nameSpaces = r.nameSpaces := by
  unfold readEntity
  cases e.type <;> simp

@[simp] theorem readEntity_defaultNameSpace (r : XmlReader) (e : XmlEntity) :
    (r.readEntity e).2.defaultNameSpace = r.defaultNameSpace := by
  unfold readEntity
  cases e.type <;> simp

theorem lookup_registerNameSpace (r : XmlReader) (nsPrefix uri p : String) :
    (r.registerNameSpace nsPrefix uri).nameSpaces.lookup p =
      (r.nameSpaces ++ [(nsPrefix, uri)]).lookup p := by
  unfold registerNameSpace
  split_ifs with h
  · rw [List.lookup_append]
    by_cases hp : p = nsPrefix
    · obtain ⟨u, hu⟩ := Option.isSome_iff_exists.1 h
      rw [hp, hu]; rfl
    · have hne : (p == nsPrefix) = false := by simpa using hp
      simp [hne]
  · rfl

@[simp] theorem registerNameSpace_frame (r : XmlReader) (nsPrefix uri : String) :
    (r.registerNameSpace nsPrefix uri).defaultNameSpace = r.defaultNameSpace ∧
      (r.registerNameSpace nsPrefix uri).currentPrefix = r.currentPrefix ∧
      (r.registerNameSpace nsPrefix uri).currentName = r.currentName ∧
      (r.registerNameSpace nsPrefix uri).nameSpaceIsAttribute = r.nameSpaceIsAttribute := by
  unfold registerNameSpace
  split_ifs <;> simp

/-- An attribute that is taken registers the prefix it declares, if it declares one. -/
theorem lookup_takeAttribute (r : XmlReader) (name value : XmlEntity) (p : String) :
    (r.takeAttribute name value).nameSpaces.lookup p =
      (r.nameSpaces ++ prefixBindings [⟨name.nsPrefix, name.name, value.name⟩]).lookup p := by
  unfold takeAttribute prefixBindings
  by_cases h : name.nsPrefix = "xmlns"
  · rw [if_pos h, lookup_registerNameSpace]
    split_ifs <;> simp [h]
  · rw [if_neg h]
    split_ifs <;> simp [h]

theorem takeAttribute_default (r : XmlReader) (name value : XmlEntity) :
    (r.takeAttribute name value).defaultNameSpace =
      ((defaultBindings [⟨name.nsPrefix, name.name, value.name⟩]).getLast?).getD
        r.defaultNameSpace := by
  unfold takeAttribute defaultBindings
  by_cases h : name.nsPrefix = "" ∧ name.name = "xmlns"
  · simp [h]
  · split_ifs <;> simp [h]

theorem takeAttribute_frame (r : XmlReader) (name value : XmlEntity) :
    (r.takeAttribute name value).currentPrefix = name.nsPrefix ∧
      (r.takeAttribute name value).currentName = name.name ∧
      (r.takeAttribute name value).nameSpaceIsAttribute = true := by
  unfold takeAttribute
  split_ifs <;> simp

variable {doc : XmlContent} {r : XmlReading} {w : XmlWalk}

theorem follows_create (entities : List XmlEntity) :
    Follows entities (create, entities) (XmlWalk.start entities) :=
  ⟨rfl, List.suffix_rfl,
    fun p => by simp [create, XmlWalk.firstURI, XmlWalk.start, prefixBindings], rfl⟩

/-- Taking an attribute and walking over it. -/
theorem Follows.takeAttribute {entities ahead : List XmlEntity} {name value : XmlEntity}
    (h : Follows entities r w) (ha : w.ahead = name :: value :: ahead) :
    Follows entities (r.1.takeAttribute name value, ahead)
      ⟨ahead, w.seen ++ [⟨name.nsPrefix, name.name, value.name⟩]⟩ where
  ahead := rfl
  suffix := by
    apply List.IsSuffix.trans _ h.suffix
    rw [ha]
    exact (List.suffix_cons value ahead).trans (List.suffix_cons name _)
  prefixes p := by
    have hw := h.prefixes p
    simp only [XmlWalk.firstURI, prefixBindings_append] at hw ⊢
    rw [lookup_takeAttribute, List.lookup_append, hw, ← List.append_assoc]
    exact List.lookup_append.symm
  default := by
    rw [takeAttribute_default, h.default]
    simp only [XmlWalk.lastDefault, defaultBindings_append, List.getLast?_append]
    cases (defaultBindings [_]).getLast? <;> simp

theorem moveToNextAttribute_attribute (r : XmlReader) {name value : XmlEntity}
    (ahead : List XmlEntity) (hn : name.type = .attribName) (hv : value.type = .attribValue) :
    r.moveToNextAttribute (name :: value :: ahead) = .ok (true, r.takeAttribute name value, ahead) := by
  unfold moveToNextAttribute
  simp only [hn, hv, if_true]

/-- What is ahead in a document. -/
theorem Follows.paired (h : Follows doc.entities r w) : AttributesPaired w.ahead := by
  have hp : AttributesPaired (doc.entities ++ []) := AttributesPaired.content doc trivial
  rw [List.append_nil] at hp
  exact hp.suffix h.suffix

/-- In a document a name that is taken has its value behind it. -/
theorem Follows.value (h : Follows doc.entities r w) {name : XmlEntity} {ahead : List XmlEntity}
    (ha : w.ahead = name :: ahead) (ht : name.type = .attribName) :
    ∃ value ahead', ahead = value :: ahead' ∧
      r.1.moveToNextAttribute r.2 = .ok (true, r.1.takeAttribute name value, ahead') := by
  have hs : AttributesPaired (name :: ahead) := ha ▸ h.paired
  obtain ⟨v, hv, hvt⟩ := hs.1 ht
  obtain ⟨ahead', rfl⟩ : ∃ ahead', ahead = v :: ahead' := by
    cases ahead with
    | nil => simp at hv
    | cons v' ahead' => exact ⟨ahead', by rw [Option.some.inj hv]⟩
  refine ⟨v, ahead', rfl, ?_⟩
  rw [h.ahead, ha]
  exact moveToNextAttribute_attribute r.1 ahead' ht hvt

theorem moveToNextAttribute_other (r : XmlReader) {e : XmlEntity} (ahead : List XmlEntity)
    (ht : e.type ≠ .attribName) :
    r.moveToNextAttribute (e :: ahead) =
      .ok (false, { r with nameSpaceIsAttribute := true }, e :: ahead) := by
  unfold moveToNextAttribute
  simp only [if_neg ht]

/-- **The step lemma**: a call keeps reader and walk together. -/
theorem Follows.next (h : Follows doc.entities r w) (c : XmlReaderCall) :
    Follows doc.entities (next r c) (w.next c) := by
  have ha := h.ahead
  cases c with
  | read =>
    simp only [XmlReader.next, read, XmlWalk.next, ha]
    cases he : w.ahead with
    | nil => exact ⟨rfl, List.nil_suffix, h.prefixes, h.default⟩
    | cons e ahead =>
      have hs : ahead <:+ doc.entities := (List.suffix_cons e ahead).trans (he ▸ h.suffix)
      refine ⟨rfl, hs, fun p => ?_, ?_⟩
      · show (r.1.readEntity e).2.nameSpaces.lookup p = w.firstURI p
        rw [readEntity_nameSpaces, h.prefixes]
      · show (r.1.readEntity e).2.defaultNameSpace = w.lastDefault
        rw [readEntity_defaultNameSpace, h.default]
  | moveToNextAttribute =>
    simp only [XmlReader.next, XmlWalk.next]
    cases he : w.ahead with
    | nil =>
      rw [ha, he, moveToNextAttribute]
      exact ⟨he.symm, h.suffix, h.prefixes, h.default⟩
    | cons name ahead =>
      by_cases ht : name.type = .attribName
      · obtain ⟨value, ahead', rfl, hm⟩ := h.value he ht
        simp only [hm, ht, if_true]
        exact h.takeAttribute he
      · have hm : r.1.moveToNextAttribute r.2 =
            .ok (false, { r.1 with nameSpaceIsAttribute := true }, r.2) := by
          rw [ha, he, moveToNextAttribute_other _ _ ht]
        have hw : (match name :: ahead with
            | name :: value :: ahead =>
              if name.type = .attribName then
                (⟨ahead, w.seen ++ [⟨name.nsPrefix, name.name, value.name⟩]⟩ : XmlWalk)
              else w
            | _ => w) = w := by
          cases ahead <;> simp [ht]
        rw [hm, hw]
        exact ⟨ha, h.suffix, h.prefixes, h.default⟩

/-- The name space of an element that is read. -/
theorem getNamespaceURI_element (h : Follows doc.entities r w) {e : XmlEntity} {ahead : List XmlEntity}
    (he : w.ahead = e :: ahead) (ht : e.type = .element) :
    (next r .read).1.getNamespaceURI =
      if e.nsPrefix = "" then some w.lastDefault else w.firstURI e.nsPrefix := by
  simp only [XmlReader.next, read, h.ahead, he, readEntity, ht, getNamespaceURI,
    Bool.false_eq_true, if_false]
  split_ifs
  · exact congrArg some h.default
  · exact h.prefixes _

/-- The name space of an attribute that is taken. -/
theorem getNamespaceURI_attribute (h : Follows doc.entities r w) {e : XmlEntity} {ahead : List XmlEntity}
    (he : w.ahead = e :: ahead) (ht : e.type = .attribName) :
    (next r .moveToNextAttribute).1.getNamespaceURI =
      if e.nsPrefix = "" then some "" else (w.next .moveToNextAttribute).firstURI e.nsPrefix := by
  obtain ⟨v, ahead', rfl, hm⟩ := h.value he ht
  have hn : next r .moveToNextAttribute = (r.1.takeAttribute e v, ahead') := by
    simp only [XmlReader.next, hm]
  have hf := (h.next .moveToNextAttribute).prefixes e.nsPrefix
  rw [hn] at hf ⊢
  simp only [getNamespaceURI, (takeAttribute_frame r.1 e v).1, (takeAttribute_frame r.1 e v).2.2,
    if_true]
  rw [hf]

/-- The item of a document that the reader stands on. -/
theorem Follows.item (h : Follows doc.entities r w) {e : XmlEntity} {uri : Option String}
    (he : (doc.items .document)[(doc.items .document).length - w.ahead.length]? =
      some (e, some uri)) :
    (∃ ahead, w.ahead = e :: ahead) ∧
      (e.type = .element ∨ e.type = .attribName ∧ (e.nsPrefix = "" → uri = some "")) := by
  have hfst := map_fst_items doc .document
  have hn := namesOnly_items doc .document e uri (List.mem_of_getElem? he)
  refine ⟨?_, hn⟩
  obtain ⟨pre, hpre⟩ := h.suffix
  have hlen : (doc.items .document).length = pre.length + w.ahead.length := by
    rw [← List.length_map (f := Prod.fst), hfst, ← hpre, List.length_append]
  have hent : doc.entities[pre.length]? = some e := by
    rw [show pre.length = (doc.items .document).length - w.ahead.length by omega, ← hfst,
      List.getElem?_map, he]
    rfl
  rw [← hpre, List.getElem?_append_right (Nat.le_refl _), Nat.sub_self] at hent
  cases ha : w.ahead with
  | nil => simp [ha] at hent
  | cons e' ahead => exact ⟨ahead, by simpa [ha] using hent⟩

end XmlReader

end NMR
