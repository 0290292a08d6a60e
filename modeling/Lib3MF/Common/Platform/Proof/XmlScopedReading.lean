import Lib3MF.Common.Platform.Proof.XmlReading
import Lib3MF.Common.Platform.XmlScopedReader

/-!
# Calls of the reader with name spaces

One lemma for each kind of entity that the reader stands on: what the call returns, and where the
reader stands then. The name spaces change with declarations only.
-/

namespace NMR

open Lib NativeReader

namespace ScopedReader

/-- The entities `seen` are behind the reader and `ahead` ahead of it, and it has not met the end of
the document. -/
structure StandsOn (r : ScopedReader) (seen ahead : List EntityItem) (tail : List UInt8) : Prop where
  native : Stands r.native seen ahead tail
  isEOF : r.native.isEOF = false

/-- The reader once `Read` has passed the entity `i`. -/
def passed (r : ScopedReader) (i : EntityItem) (native : NativeReader) : ScopedReader :=
  { r with native := native, nameSpaceIsAttribute := r.nameSpaceIsAttribute && !endsAttributes i.type }

/-- The reader once `MoveToNextAttribute` has passed an attribute. -/
def entered (r : ScopedReader) (i j : EntityItem) : ScopedReader :=
  registerAttribute { r with native := Stands.onAttribute r.native i j, nameSpaceIsAttribute := true }

variable {r : ScopedReader} {seen ahead : List EntityItem} {tail : List UInt8} {i j : EntityItem}
  {native : NativeReader} {type : Option XmlReaderNodeType}

namespace StandsOn

/-- `Read`, where the native reader reads. -/
theorem read_eq (h : StandsOn r seen (i :: ahead) tail) (hr : r.native.read = .ok (native, type)) :
    r.read = .ok (r.passed i native, type) := by
  obtain ⟨e, he, htype, -, -⟩ := h.native.entity
  unfold ScopedReader.read
  rw [h.native.filled]
  dsimp only
  rw [hr]
  dsimp only
  rw [flagBehind, he]
  dsimp only
  rw [passed, htype]

/-- **`Read` of a text.** -/
theorem read_text (h : StandsOn r seen (i :: ahead) tail) (ht : i.type = .text) : ∃ chars,
    r.read = .ok (r.passed i (Stands.onText r.native i chars), some .text) ∧
      StandsOn (r.passed i (Stands.onText r.native i chars)) (seen ++ [i]) ahead tail := by
  obtain ⟨chars, hread, hstands⟩ := h.native.read_text ht
  exact ⟨chars, h.read_eq hread, hstands, h.isEOF⟩

/-- **`Read` of the name of a tag.** -/
theorem read_name {type : XmlReaderNodeType} (h : StandsOn r seen (i :: ahead) tail)
    (ht : (i.type = .element ∨ i.type = .processingInstruction) ∧ type = .startElement ∨
      (i.type = .elementEnd ∨ i.type = .processingInstructionEnd) ∧ type = .endElement) :
    r.read = .ok (r.passed i (Stands.onTag r.native i), some type) ∧
      StandsOn (r.passed i (Stands.onTag r.native i)) (seen ++ [i]) ahead tail := by
  obtain ⟨hread, hstands⟩ := h.native.read_name ht
  exact ⟨h.read_eq hread, hstands, h.isEOF⟩

/-- **`Read` of the end of an empty tag.** -/
theorem read_close (h : StandsOn r seen (i :: ahead) tail) (ht : i.type = .closeElement) :
    r.read = .ok (r.passed i (Stands.onClose r.native), some .endElement) ∧
      StandsOn (r.passed i (Stands.onClose r.native)) (seen ++ [i]) ahead tail := by
  obtain ⟨hread, hstands⟩ := h.native.read_close ht
  exact ⟨h.read_eq hread, hstands, h.isEOF⟩

/-- **`Read` of a part of an attribute** shows nothing of it. -/
theorem read_unknown (h : StandsOn r seen (i :: ahead) tail)
    (ht : i.type = .attribName ∨ i.type = .attribValue) :
    r.read = .ok (r.passed i { r.native with entityIndex := r.native.entityIndex + 1 },
        some .unknown) ∧
      StandsOn (r.passed i { r.native with entityIndex := r.native.entityIndex + 1 }) (seen ++ [i])
        ahead tail := by
  have hne : i.type ≠ .text := by
    rcases ht with ht | ht <;> simp [ht]
  obtain ⟨e, he, htype, -, -⟩ := h.native.entity
  refine ⟨h.read_eq ?_, h.native.pass hne rfl rfl rfl rfl, h.isEOF⟩
  unfold NativeReader.read
  rw [h.native.filled]
  dsimp only
  rw [he]
  dsimp only
  rw [readEntity, htype]
  rcases ht with ht | ht <;> rw [ht]

theorem native_registerAttribute (r : ScopedReader) : r.registerAttribute.native = r.native := by
  unfold registerAttribute registerNameSpace
  dsimp only
  split_ifs <;> rfl

/-- An attribute without a prefix declares the default name space, or nothing. -/
theorem registerAttribute_local (hp : r.native.currentPrefix = []) : r.registerAttribute =
    if r.native.currentName = xmlText "xmlns" then { r with defaultNameSpace := r.native.currentValue }
    else r := by
  have hpfx : ([] : List UInt8) ≠ xmlText "xmlns" := by decide
  unfold registerAttribute
  by_cases hn : r.native.currentName = xmlText "xmlns"
  · simp [hp, hn, hpfx]
  · simp [hp, hn, hpfx]

/-- **`MoveToNextAttribute`** on an attribute. -/
theorem nextAttribute (h : StandsOn r seen (i :: j :: ahead) tail) (hi : i.type = .attribName)
    (hj : j.type = .attribValue) : r.moveToNextAttribute = .ok (r.entered i j, true) ∧
      StandsOn (r.entered i j) (seen ++ [i, j]) ahead tail := by
  obtain ⟨hmove, hstands⟩ := h.native.nextAttribute hi hj
  have hnative : (r.entered i j).native = Stands.onAttribute r.native i j :=
    native_registerAttribute _
  refine ⟨?_, by rw [hnative]; exact hstands, by rw [hnative]; exact h.isEOF⟩
  unfold moveToNextAttribute
  rw [h.native.filled]
  dsimp only
  rw [hmove]
  rfl

/-- **`MoveToNextAttribute`** elsewhere. -/
theorem noAttribute (h : StandsOn r seen (i :: ahead) tail) (hi : i.type ≠ .attribName) :
    r.moveToNextAttribute = .ok ({ r with nameSpaceIsAttribute := true }, false) := by
  unfold moveToNextAttribute
  rw [h.native.filled]
  dsimp only
  rw [h.native.noAttribute hi]

/-- **At the end of the document** there is nothing to read. -/
theorem read_end (h : StandsOn r seen [] tail) (ht : '<'.toUInt8 ∉ tail) :
    ∃ r', r.read = .ok (r', none) := by
  obtain ⟨native, hended, -, -⟩ := h.native.ended ht
  refine ⟨{ r with native := native }, ?_⟩
  unfold ScopedReader.read
  rw [hended]

end StandsOn

/-- Filling the buffer leaves `m_bIsEOF`. -/
theorem isEOF_readNextBufferFromStream {r r' : NativeReader}
    (h : r.readNextBufferFromStream = .ok r') : r'.isEOF = r.isEOF := by
  unfold readNextBufferFromStream at h
  dsimp only at h
  split_ifs at h
  cases hb : XmlBuffer.parseUnknown r.buffer.capacity (r.buffer.chars.drop
      (r.buffer.chars.length - r.overflowSize) ++ (r.stream.readBuffer
        (r.buffer.capacity - bufferMargin - r.overflowSize)).1) with
  | error e =>
    rw [hb] at h
    cases h
  | ok b =>
    rw [hb] at h
    cases h
    rfl

/-- A buffer with entities is not the end of the document. -/
theorem isEOF_of_filled {r r' : NativeReader} (h : r.ensureFilledBuffer = .ok (r', true)) :
    r'.isEOF = r.isEOF := by
  unfold ensureFilledBuffer at h
  split_ifs at h with hcount
  · cases hnext : r.readNextBufferFromStream with
    | error e =>
      rw [hnext] at h
      cases h
    | ok r₁ =>
      rw [hnext] at h
      dsimp only at h
      split_ifs at h
      · cases h
      · cases h
        exact isEOF_readNextBufferFromStream hnext
  · cases h
    rfl

/-- **A new reader whose buffer takes the document** reads on from the front of it. -/
theorem read_create {r r₁ : NativeReader} {stream : NativeStream} {capacity : Nat}
    (hcreate : NativeReader.create stream capacity = .ok r)
    (hfilled : r.ensureFilledBuffer = .ok (r₁, true)) (h₁ : Stands r₁ [] (i :: ahead) tail) :
    ∃ s, ScopedReader.create stream capacity = .ok s ∧ s.native.isEOF = false ∧
      s.read = ScopedReader.read { s with native := r₁ } ∧
      StandsOn { s with native := r₁ } [] (i :: ahead) tail := by
  have heof : r.isEOF = false := by
    unfold NativeReader.create at hcreate
    split_ifs at hcreate
    cases hcreate
    rfl
  refine ⟨⟨r, builtInNameSpaces, [], false⟩, ?_, heof, ?_, h₁, (isEOF_of_filled hfilled).trans heof⟩
  · rw [ScopedReader.create, hcreate]
  · unfold ScopedReader.read
    rw [hfilled, h₁.filled]
    rfl

end ScopedReader

end NMR
