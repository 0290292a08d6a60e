import Mathlib.Data.List.Basic
import Mathlib.Data.List.Infix

/-!
# Markup as trees

An `Item` is character data, an element with an empty tag, or one with a start tag, its content
and an end tag; `renderAll` is the text of a sequence of items. A text that is being written is
the text of the items before (`top`) and of a path of elements that are not ended, the innermost
first (`written`). Whatever the path, ending its elements completes the text to one of items
(`written_prefix`), so that what is written is the beginning of well-formed markup.
-/

namespace Lib.Markup

/-! ## Bytes -/

/-- The bytes a name begins with: letters, `_`, `:`, and those of other alphabets. -/
def isNameStart (c : UInt8) : Bool :=
  (65 ≤ c && c ≤ 90) || (97 ≤ c && c ≤ 122) || c == 95 || c == 58 || 128 ≤ c

/-- The bytes of a name: digits, `-` and `.` too. -/
def isNameByte (c : UInt8) : Bool := isNameStart c || (48 ≤ c && c ≤ 57) || c == 45 || c == 46

/-- A name. -/
def IsName : List UInt8 → Prop
  | [] => False
  | c :: cs => isNameStart c = true ∧ ∀ d ∈ cs, isNameByte d = true

instance : DecidablePred IsName
  | [] => isFalse not_false
  | c :: cs => inferInstanceAs (Decidable (isNameStart c = true ∧ ∀ d ∈ cs, isNameByte d = true))

/-- `quot;`, `amp;`, `apos;`, `lt;`, `gt;`. -/
def entities : List (List UInt8) :=
  [[113, 117, 111, 116, 59], [97, 109, 112, 59], [97, 112, 111, 115, 59], [108, 116, 59],
    [103, 116, 59]]

/-- Character data: no `<`, and an `&` only in front of an entity. -/
def IsData (s : List UInt8) : Prop :=
  60 ∉ s ∧ ∀ p t, s = p ++ 38 :: t → ∃ e ∈ entities, e <+: t

/-- The value of an attribute: no quote either. -/
def IsValue (s : List UInt8) : Prop := 34 ∉ s ∧ IsData s

theorem isData_nil : IsData [] := ⟨List.not_mem_nil, by simp⟩

/-- Data without `&`. -/
theorem isData_of_plain {s : List UInt8} (h : 60 ∉ s) (h' : 38 ∉ s) : IsData s :=
  ⟨h, fun p _ hs => absurd (hs ▸ List.mem_append_right p List.mem_cons_self) h'⟩

/-- Data one after the other. -/
theorem IsData.append {s t : List UInt8} (hs : IsData s) (ht : IsData t) : IsData (s ++ t) := by
  refine ⟨fun h => (List.mem_append.1 h).elim hs.1 ht.1, fun p u h => ?_⟩
  rcases List.append_eq_append_iff.1 h with ⟨w, rfl, hw⟩ | ⟨w, rfl, hw⟩
  · exact ht.2 w u hw
  · cases w with
    | nil => exact ht.2 [] u hw.symm
    | cons c w =>
      obtain ⟨rfl, rfl⟩ := List.cons_eq_cons.1 hw
      obtain ⟨e, he, hp⟩ := hs.2 p w rfl
      exact ⟨e, he, hp.trans (List.prefix_append ..)⟩

/-- An entity is data, and may stand in a value. -/
theorem isValue_entity {e : List UInt8} (he : e ∈ entities) : IsValue (38 :: e) := by
  have hall : ∀ e ∈ entities, 34 ∉ (38 :: e : List UInt8) ∧ 60 ∉ (38 :: e : List UInt8) ∧
      (38 : UInt8) ∉ e := by decide
  obtain ⟨hquote, hlt, hamp⟩ := hall e he
  refine ⟨hquote, hlt, fun p t h => ?_⟩
  cases p with
  | nil => exact ⟨e, he, by simpa using (List.cons_eq_cons.1 h).2 ▸ List.prefix_rfl⟩
  | cons c p =>
    obtain ⟨rfl, rfl⟩ := List.cons_eq_cons.1 h
    simp at hamp

theorem IsValue.append {s t : List UInt8} (hs : IsValue s) (ht : IsValue t) : IsValue (s ++ t) :=
  ⟨fun h => (List.mem_append.1 h).elim hs.1 ht.1, hs.2.append ht.2⟩

/-- A name and another behind a colon. -/
theorem IsName.join {s t : List UInt8} (hs : IsName s) (ht : IsName t) :
    IsName (s ++ 58 :: t) := by
  cases s with
  | nil => exact hs.elim
  | cons c cs =>
    cases t with
    | nil => exact ht.elim
    | cons d ds =>
      refine ⟨hs.1, fun x hx => ?_⟩
      rcases List.mem_append.1 hx with hx | hx
      · exact hs.2 x hx
      · rcases List.mem_cons.1 hx with rfl | hx
        · decide
        · rcases List.mem_cons.1 hx with rfl | hx
          · simp [isNameByte, ht.1]
          · exact ht.2 x hx

/-! ## Items -/

/-- A piece of markup. -/
inductive Item where
  | text (s : List UInt8)
  | empty (name : List UInt8) (attributes : List (List UInt8 × List UInt8))
  | element (name : List UInt8) (attributes : List (List UInt8 × List UInt8))
      (content : List Item)

/-- `name="value"`, behind a space. -/
def renderAttribute (a : List UInt8 × List UInt8) : List UInt8 :=
  32 :: a.1 ++ [61, 34] ++ a.2 ++ [34]

/-- `<name` with the attributes. -/
def renderTag (name : List UInt8) (attributes : List (List UInt8 × List UInt8)) : List UInt8 :=
  60 :: name ++ attributes.flatMap renderAttribute

/-- `</name>`. -/
def renderEnd (name : List UInt8) : List UInt8 := [60, 47] ++ name ++ [62]

mutual

/-- The text of an item. -/
def render : Item → List UInt8
  | .text s => s
  | .empty name attributes => renderTag name attributes ++ [47, 62]
  | .element name attributes content =>
    renderTag name attributes ++ [62] ++ renderAll content ++ renderEnd name

/-- The text of items one after the other. -/
def renderAll : List Item → List UInt8
  | [] => []
  | i :: is => render i ++ renderAll is

end

/-- The name and the attributes of a tag. -/
def IsTag (name : List UInt8) (attributes : List (List UInt8 × List UInt8)) : Prop :=
  IsName name ∧ ∀ a ∈ attributes, IsName a.1 ∧ IsValue a.2

mutual

/-- Well-formed markup: names, values and data are what they have to be, at any depth. -/
def Item.WellFormed : Item → Prop
  | .text s => IsData s
  | .empty name attributes => IsTag name attributes
  | .element name attributes content => IsTag name attributes ∧ AllWellFormed content

/-- A well-formed sequence. -/
def AllWellFormed : List Item → Prop
  | [] => True
  | i :: is => i.WellFormed ∧ AllWellFormed is

end

variable {i : Item} {is js top : List Item} {name : List UInt8}
  {attributes : List (List UInt8 × List UInt8)}

theorem renderAll_append (is js : List Item) :
    renderAll (is ++ js) = renderAll is ++ renderAll js := by
  induction is with
  | nil => rfl
  | cons i is ih => rw [List.cons_append, renderAll, renderAll, ih, List.append_assoc]

theorem renderAll_singleton (i : Item) : renderAll [i] = render i := by
  rw [renderAll, renderAll, List.append_nil]

theorem allWellFormed_append : AllWellFormed (is ++ js) ↔ AllWellFormed is ∧ AllWellFormed js := by
  induction is with
  | nil => simp [AllWellFormed]
  | cons i is ih => rw [List.cons_append, AllWellFormed, AllWellFormed, ih, and_assoc]

theorem allWellFormed_singleton : AllWellFormed [i] ↔ i.WellFormed := by
  simp [AllWellFormed]

/-- The text of a well-formed sequence does not begin with an end tag. -/
theorem not_endTag_prefix (h : AllWellFormed is) : ¬ [60, 47] <+: renderAll is := by
  have htag : ∀ {name : List UInt8} {attributes : List (List UInt8 × List UInt8)}
      {rest : List UInt8}, IsTag name attributes → ¬ [60, 47] <+: renderTag name attributes ++ rest := by
    intro name attributes rest ht hp
    cases name with
    | nil => exact ht.1
    | cons c cs =>
      have hc : (47 : UInt8) = c := by simpa [renderTag] using hp
      subst hc
      exact absurd ht.1.1 (by decide)
  induction is with
  | nil => simp [renderAll]
  | cons i is ih =>
    obtain ⟨hi, his⟩ := h
    rw [renderAll]
    cases i with
    | text s =>
      intro hp
      cases s with
      | nil => exact ih his (by simpa [render] using hp)
      | cons c s =>
        have hc : (60 : UInt8) = c := by
          rw [render, List.cons_append] at hp
          exact (List.cons_prefix_cons.1 hp).1
        exact hi.1 (hc ▸ List.mem_cons_self)
    | empty name attributes =>
      rw [render, List.append_assoc]
      exact htag hi
    | element name attributes content =>
      rw [render, List.append_assoc, List.append_assoc, List.append_assoc]
      exact htag hi.1

/-! ## Elements that are not ended -/

/-- An element that is not ended. -/
structure Open where
  name : List UInt8
  attributes : List (List UInt8 × List UInt8)
  content : List Item

namespace Open

/-- From its start tag to the end of its content so far. -/
def entered (e : Open) : List UInt8 :=
  renderTag e.name e.attributes ++ [62] ++ renderAll e.content

/-- With more content. -/
def add (e : Open) (is : List Item) : Open := { e with content := e.content ++ is }

/-- The element with its end tag. -/
def ended (e : Open) : Item := .element e.name e.attributes e.content

/-- The element as an empty tag. -/
def asEmpty (e : Open) : Item := .empty e.name e.attributes

def WellFormed (e : Open) : Prop := IsTag e.name e.attributes ∧ AllWellFormed e.content

end Open

variable {e : Open} {path es : List Open}

/-- The text of a path. -/
def renderPath : List Open → List UInt8
  | [] => []
  | e :: es => renderPath es ++ e.entered

/-- What is written: the items before, and the path. The start tag of the innermost element lacks
its bracket while it `isOpen`. -/
def written (top : List Item) (path : List Open) (isOpen : Bool) : List UInt8 :=
  match path, isOpen with
  | [], _ => renderAll top
  | e :: es, true => renderAll top ++ renderPath es ++ renderTag e.name e.attributes
  | e :: es, false => renderAll top ++ renderPath (e :: es)

/-- The items before when items are added inside the path. -/
def addTop (top is : List Item) : List Open → List Item
  | [] => top ++ is
  | _ :: _ => top

/-- The path when items are added inside of it. -/
def addPath (is : List Item) : List Open → List Open
  | [] => []
  | e :: es => e.add is :: es

@[simp] theorem names_addPath (is : List Item) (path : List Open) :
    (addPath is path).map Open.name = path.map Open.name := by
  cases path <;> rfl

@[simp] theorem length_addPath (is : List Item) (path : List Open) :
    (addPath is path).length = path.length := by
  cases path <;> rfl

theorem allWellFormed_addTop (ht : AllWellFormed top) (hi : AllWellFormed is) (path : List Open) :
    AllWellFormed (addTop top is path) := by
  cases path with
  | nil => exact allWellFormed_append.2 ⟨ht, hi⟩
  | cons e es => exact ht

theorem wellFormed_addPath (hp : ∀ e ∈ path, e.WellFormed) (hi : AllWellFormed is) :
    ∀ e ∈ addPath is path, e.WellFormed := by
  cases path with
  | nil => exact hp
  | cons e es =>
    intro x hx
    rcases List.mem_cons.1 hx with rfl | hx
    · obtain ⟨ht, hc⟩ := hp e List.mem_cons_self
      exact ⟨ht, allWellFormed_append.2 ⟨hc, hi⟩⟩
    · exact hp x (List.mem_cons_of_mem _ hx)

theorem written_false (top : List Item) (path : List Open) :
    written top path false = renderAll top ++ renderPath path := by
  cases path with
  | nil => simp [written, renderPath]
  | cons e es => rfl

theorem written_add (top is : List Item) (path : List Open) :
    written (addTop top is path) (addPath is path) false =
      written top path false ++ renderAll is := by
  cases path with
  | nil => simp [addTop, addPath, written, renderAll_append]
  | cons e es => simp [addTop, addPath, written, renderPath, Open.entered, Open.add, renderAll_append]

/-- The bracket of a start tag. -/
theorem written_bracket (top : List Item) (he : e.content = []) :
    written top (e :: es) false = written top (e :: es) true ++ [62] := by
  simp [written, renderPath, Open.entered, he, renderAll]

/-- One more start tag. -/
theorem written_push (top : List Item) (path : List Open) (name : List UInt8)
    (attributes : List (List UInt8 × List UInt8)) :
    written top (⟨name, attributes, []⟩ :: path) true =
      written top path false ++ renderTag name attributes := by
  rw [written_false, written]

/-- One more attribute. -/
theorem written_attribute (top : List Item) (e : Open) (es : List Open)
    (a : List UInt8 × List UInt8) :
    written top ({ e with attributes := e.attributes ++ [a] } :: es) true =
      written top (e :: es) true ++ renderAttribute a := by
  simp [written, renderTag]

/-- An empty tag. -/
theorem written_asEmpty (top : List Item) (e : Open) (es : List Open) :
    written (addTop top [e.asEmpty] es) (addPath [e.asEmpty] es) false =
      written top (e :: es) true ++ [47, 62] := by
  rw [written_add, written_false, renderAll_singleton, Open.asEmpty, render]
  simp [written]

/-- An end tag. -/
theorem written_ended (top : List Item) (e : Open) (es : List Open) :
    written (addTop top [e.ended] es) (addPath [e.ended] es) false =
      written top (e :: es) false ++ renderEnd e.name := by
  rw [written_add, written_false, written_false, renderAll_singleton, Open.ended, render,
    renderPath, Open.entered]
  simp

/-! ## Completing -/

/-- The end tags of a path. -/
def endTags (path : List Open) : List UInt8 := path.flatMap fun e => renderEnd e.name

/-- The items a path comes to with `inner` in its innermost element, when all elements are ended. -/
def endAll (inner : List Item) : List Open → List Item
  | [] => inner
  | e :: es => endAll [.element e.name e.attributes (e.content ++ inner)] es

theorem renderPath_endTags (inner : List Item) (path : List Open) :
    renderPath path ++ renderAll inner ++ endTags path = renderAll (endAll inner path) := by
  induction path generalizing inner with
  | nil => simp [renderPath, endTags, endAll]
  | cons e es ih =>
    rw [endAll, ← ih, renderAll_singleton, render, renderPath, Open.entered, renderAll_append]
    simp [endTags]

theorem allWellFormed_endAll {inner : List Item} (hi : AllWellFormed inner)
    (hp : ∀ e ∈ path, e.WellFormed) : AllWellFormed (endAll inner path) := by
  induction path generalizing inner with
  | nil => exact hi
  | cons e es ih =>
    obtain ⟨ht, hc⟩ := hp e List.mem_cons_self
    refine ih (allWellFormed_singleton.2 ⟨ht, allWellFormed_append.2 ⟨hc, hi⟩⟩) ?_
    exact fun x hx => hp x (List.mem_cons_of_mem _ hx)

/-- **What is written** is the beginning of well-formed markup. -/
theorem written_prefix {isOpen : Bool} (ht : AllWellFormed top) (hp : ∀ e ∈ path, e.WellFormed) :
    ∃ is, AllWellFormed is ∧ written top path isOpen <+: renderAll is := by
  refine ⟨top ++ endAll [] path,
    allWellFormed_append.2 ⟨ht, allWellFormed_endAll trivial hp⟩, ?_⟩
  have hend := renderPath_endTags [] path
  rw [renderAll, List.append_nil] at hend
  rw [renderAll_append, ← hend, ← List.append_assoc]
  have hfalse : written top path false <+: renderAll top ++ renderPath path ++ endTags path := by
    rw [written_false]
    exact List.prefix_append ..
  cases isOpen with
  | false => exact hfalse
  | true =>
    refine List.IsPrefix.trans ?_ hfalse
    cases path with
    | nil => exact List.prefix_rfl
    | cons e es =>
      refine ⟨[62] ++ renderAll e.content, ?_⟩
      simp [written, renderPath, Open.entered]

end Lib.Markup
