import Lib3MF.Common.Platform.Proof.XmlStructure
import Lib3MF.Model.Writer.ObjectWriter

/-!
# Attributes without an open tag

`WriteAttributeString` writes nothing where no start tag is open. `Drops b b' lost x` follows the
open tag through a writer `x`, from `b` to `b'`, and says by `lost` whether it drops an attribute.
All writers of an object write their attributes into their own start tags, but for the object-level
property of a mesh: it comes behind the metadata of the object (`writeObjects_dropped_iff`).
-/

namespace NMR

open Lib

/-! ## The open tag -/

namespace XmlWriter

variable {w w' : XmlWriter} {u : Unit}

theorem elementIsOpen_startElement {nsPrefix localName nameSpace : List UInt8}
    (h : writeStartElement nsPrefix localName nameSpace w = .ok u w') :
    w'.elementIsOpen = true := by
  obtain ⟨w1, w2, -, -, -, -, -, -, ho⟩ := startElement_inv h
  exact ho

theorem elementIsOpen_fullEndElement (h : writeFullEndElement w = .ok u w') :
    w'.elementIsOpen = false := by
  obtain ⟨w1, name, names, h1, -, hw⟩ := fullEndElement_inv h
  rw [closeCurrentElement_text] at h1
  cases h1
  exact hw.elementIsOpen

theorem elementIsOpen_endElement (h : writeEndElement w = .ok u w') :
    w'.elementIsOpen = false := by
  cases ho : w.elementIsOpen with
  | true =>
    obtain ⟨name, names, v, -, -, rfl⟩ := endElement_inv ho h
    rfl
  | false =>
    unfold writeEndElement at h
    rw [get_bind, if_neg (by simp [ho])] at h
    exact elementIsOpen_fullEndElement h

theorem elementIsOpen_text {content : List UInt8} (h : writeText content w = .ok u w') :
    w'.elementIsOpen = false := by
  unfold writeText at h
  rw [bind_of_ok (closeCurrentElement_text w)] at h
  exact (writing_writeXMLString content _ u w' rfl h).elementIsOpen

theorem elementIsOpen_rawLine {bytes : List UInt8} (h : writeRawLine bytes w = .ok u w') :
    w'.elementIsOpen = false := by
  unfold writeRawLine at h
  rw [get_bind] at h
  obtain ⟨_, v, hv, h⟩ := bind_state_ok.1 h
  cases h
  cases ho : w.elementIsOpen with
  | true =>
    rw [doIf_of_pos ho, closeCurrentElement_line] at hv
    cases hv
    rfl
  | false =>
    rw [doIf_of_neg (by simp [ho])] at hv
    cases hv
    exact ho

/-- An attribute is written where a tag is open, and keeps it open. -/
theorem elementIsOpen_attributeString {nsPrefix localName value : List UInt8}
    (ho : w.elementIsOpen = true) (h : writeAttributeString nsPrefix localName value w = .ok u w') :
    w'.elementIsOpen = true := (wrote_attribute ho h).elementIsOpen.trans ho

/-- Elsewhere it is dropped. -/
theorem writeAttributeString_dropped (nsPrefix localName value : List UInt8)
    (ho : w.elementIsOpen = false) : writeAttributeString nsPrefix localName value w = .ok () w := by
  unfold writeAttributeString
  rw [get_bind, doIf_of_neg (by simp [ho])]

end XmlWriter

namespace ObjectWriter

/-! ## Rules -/

section Rules

variable {σ α β : Type} {b b' b'' : Option Bool} {lost lost' : Prop}

/-- The tag is open or not, as `b` says. -/
def TagIs (b : Option Bool) (xml : XmlWriter) : Prop := ∀ c ∈ b, xml.elementIsOpen = c

@[simp] theorem tagIs_none (xml : XmlWriter) : TagIs none xml := nofun

@[simp] theorem tagIs_some {c : Bool} {xml : XmlWriter} :
    TagIs (some c) xml ↔ xml.elementIsOpen = c := by simp [TagIs]

/-- From a tag as `b` says, `x` comes to one as `b'` says, and it has dropped attributes exactly
where `lost`. A run that throws may have stopped in front of them. -/
def Drops (b b' : Option Bool) (lost : Prop) (x : ObjectWriterM σ α) : Prop :=
  ∀ s, TagIs b s.xml → Ends (x s)
    (fun t => TagIs b' t.xml ∧ s.dropped <+: t.dropped ∧ (t.dropped = s.dropped ↔ ¬ lost))
    (fun t => s.dropped <+: t.dropped ∧ (¬ lost → t.dropped = s.dropped))

namespace Drops

variable {x : ObjectWriterM σ α}

theorem of_iff (h : Drops b b' lost x) (hl : lost ↔ lost') : Drops b b' lost' x :=
  propext hl ▸ h

/-- What does not depend on the tag. -/
theorem anyTag (h : Drops none b' lost x) : Drops b b' lost x := fun s _ => h s (tagIs_none _)

theorem forget (h : Drops b b' lost x) : Drops b none lost x :=
  fun s hs => (h s hs).mono (fun _ ht => ⟨tagIs_none _, ht.2⟩) fun _ ht => ht

/-- The rule of a sequence. -/
theorem bind {f : α → ObjectWriterM σ β} (hx : Drops b b' lost x)
    (hf : ∀ a, Drops b' b'' lost' (f a)) : Drops b b'' (lost ∨ lost') (x >>= f) := by
  intro s hs
  have hbind : Ends (x s)
      (fun t => TagIs b' t.xml ∧ s.dropped <+: t.dropped ∧ (t.dropped = s.dropped ↔ ¬ lost))
      (fun t => s.dropped <+: t.dropped ∧ (¬ (lost ∨ lost') → t.dropped = s.dropped)) :=
    (hx s hs).mono (fun _ h => h) fun t h => ⟨h.1, fun hl => h.2 fun h' => hl (.inl h')⟩
  refine hbind.bind fun a t _ ⟨ht, hp, hl⟩ => (hf a t ht).mono ?_ ?_
  · intro u ⟨hu, hp', hl'⟩
    refine ⟨hu, hp.trans hp', ?_, ?_⟩
    · intro hd
      -- what is dropped is never taken back
      have htd : t.dropped = s.dropped := (hp.eq_of_length_le (hd ▸ hp'.length_le)).symm
      exact not_or.2 ⟨hl.1 htd, hl'.1 (hd.trans htd.symm)⟩
    · intro hn
      exact (hl'.2 fun h => hn (.inr h)).trans (hl.2 fun h => hn (.inl h))
  · intro u ⟨hp', hu⟩
    refine ⟨hp.trans hp', fun hn => ?_⟩
    exact (hu fun h => hn (.inr h)).trans (hl.2 fun h => hn (.inl h))

/-- A step that drops nothing, and the rest. -/
theorem seq {f : α → ObjectWriterM σ β} (hx : Drops b b' False x)
    (hf : ∀ a, Drops b' b'' lost (f a)) : Drops b b'' lost (x >>= f) :=
  (hx.bind hf).of_iff (by simp)

/-- A step that leaves the attributes and the tag alone. -/
theorem of_same (h : ∀ s, Ends (x s) (fun t => t.xml = s.xml ∧ t.dropped = s.dropped)
    (fun t => t.dropped = s.dropped)) : Drops b b False x := by
  intro s hs
  refine (h s).mono (fun t ⟨hx, hd⟩ => ⟨hx ▸ hs, hd ▸ List.prefix_rfl, by simp [hd]⟩) ?_
  exact fun t hd => ⟨hd ▸ List.prefix_rfl, fun _ => hd⟩

theorem pure (a : α) : Drops b b False (pure a : ObjectWriterM σ α) :=
  of_same fun _ => ⟨rfl, rfl⟩

theorem throw (e : Fault Error) : Drops b b' lost (throw e : ObjectWriterM σ α) :=
  fun _ _ => ⟨List.prefix_rfl, fun _ => rfl⟩

theorem onXml {x : XmlWriterM Unit}
    (h : ∀ xml xml' u, TagIs b xml → x xml = .ok u xml' → TagIs b' xml') :
    Drops b b' False (onXml x : ObjectWriterM σ Unit) := by
  intro s hs
  unfold ObjectWriter.onXml
  cases hx : x s.xml with
  | ok u xml => exact ⟨h s.xml xml u hs hx, List.prefix_rfl, by simp⟩
  | error e xml => exact ⟨List.prefix_rfl, fun _ => rfl⟩

theorem onWorld (x : EStateM Error σ α) : Drops b b False (onWorld x) := by
  refine of_same fun s => ?_
  unfold ObjectWriter.onWorld
  cases x s.world with
  | ok a world => exact ⟨rfl, rfl⟩
  | error e world => exact rfl

theorem ofChecked (x : Checked Error α) : Drops b b False (ofChecked x : ObjectWriterM σ α) := by
  cases x with
  | ok a => exact pure a
  | error e => exact throw e

theorem require (c : Prop) [Decidable c] (e : Fault Error) :
    Drops b b False (require c e : ObjectWriterM σ Unit) := by
  unfold Lib.require
  split
  · exact pure ()
  · exact throw e

theorem doIf {c : Prop} [Decidable c] {x : ObjectWriterM σ Unit} (hx : Drops b b lost x) :
    Drops b b (c ∧ lost) (doIf c x) := by
  unfold Lib.doIf
  by_cases hc : c
  · rw [if_pos hc]
    exact hx.of_iff (by simp [hc])
  · rw [if_neg hc]
    exact (pure ()).of_iff (by simp [hc])

theorem doIf_safe {c : Prop} [Decidable c] {x : ObjectWriterM σ Unit} (hx : Drops b b False x) :
    Drops b b False (Lib.doIf c x) := (doIf hx).of_iff (by simp)

/-- The rule of a loop. -/
theorem forM {γ : Type} {l : List γ} {f : γ → ObjectWriterM σ PUnit} {loses : γ → Prop}
    (h : ∀ c, Drops b b (loses c) (f c)) : Drops b b (∃ c ∈ l, loses c) (l.forM f) := by
  induction l with
  | nil => exact (pure PUnit.unit).of_iff (by simp)
  | cons c l ih => exact ((h c).bind fun _ => ih).of_iff (by simp)

theorem forM_safe {γ : Type} {l : List γ} {f : γ → ObjectWriterM σ PUnit}
    (h : ∀ c, Drops b b False (f c)) : Drops b b False (l.forM f) := (forM h).of_iff (by simp)

theorem foldlM_safe {γ δ : Type} {l : List γ} {f : δ → γ → ObjectWriterM σ δ}
    (h : ∀ d c, Drops b b False (f d c)) (d : δ) : Drops b b False (l.foldlM f d) := by
  induction l generalizing d with
  | nil => exact pure d
  | cons c l ih =>
    rw [List.foldlM_cons]
    exact (h d c).seq ih

theorem optionForM {γ : Type} {o : Option γ} {f : γ → ObjectWriterM σ PUnit}
    (h : ∀ c, Drops b b False (f c)) : Drops b b False (o.forM f) := by
  cases o with
  | none => exact pure PUnit.unit
  | some c => exact h c

end Drops

end Rules

/-! ## Calls of the XML writer -/

section Calls

variable {σ : Type} {b : Option Bool}

theorem drops_start (name nsPrefix : String) :
    Drops b (some true) False (writeStartElementWithPrefix name nsPrefix : ObjectWriterM σ Unit) :=
  .onXml fun _ _ _ _ h => tagIs_some.2 (XmlWriter.elementIsOpen_startElement h)

theorem drops_startElement (name : String) :
    Drops b (some true) False (writeStartElement name : ObjectWriterM σ Unit) :=
  .onXml fun _ _ _ _ h => tagIs_some.2 (XmlWriter.elementIsOpen_startElement h)

theorem drops_endElement :
    Drops b (some false) False (writeEndElement : ObjectWriterM σ Unit) :=
  .onXml fun _ _ _ _ h => tagIs_some.2 (XmlWriter.elementIsOpen_endElement h)

theorem drops_fullEndElement :
    Drops b (some false) False (writeFullEndElement : ObjectWriterM σ Unit) :=
  .onXml fun _ _ _ _ h => tagIs_some.2 (XmlWriter.elementIsOpen_fullEndElement h)

theorem drops_text (content : List UInt8) :
    Drops b (some false) False (onXml (XmlWriter.writeText content) : ObjectWriterM σ Unit) :=
  .onXml fun _ _ _ _ h => tagIs_some.2 (XmlWriter.elementIsOpen_text h)

theorem drops_rawLine (line : Option (List Char)) :
    Drops b (some false) False (writeRawLine line : ObjectWriterM σ Unit) := by
  cases line with
  | none => exact .throw _
  | some line => exact .onXml fun _ _ _ _ h => tagIs_some.2 (XmlWriter.elementIsOpen_rawLine h)

/-- An attribute in a start tag. -/
theorem drops_attribute {nsPrefix name value : String} :
    Drops (some true) (some true) False
      (writePrefixedStringAttribute nsPrefix name value : ObjectWriterM σ Unit) := by
  intro s hs
  have ho := tagIs_some.1 hs
  have hsame : { s with dropped := s.dropped ++ if s.xml.elementIsOpen then []
      else [(XmlWriter.nodeName (xmlText nsPrefix) (xmlText name), xmlText value)] } = s := by
    simp [ho]
  unfold writePrefixedStringAttribute
  rw [hsame]
  exact Drops.onXml (fun _ _ _ h h' => tagIs_some.2
    (XmlWriter.elementIsOpen_attributeString (tagIs_some.1 h) h')) s hs

/-- An attribute elsewhere. -/
theorem drops_attribute_closed {nsPrefix name value : String} :
    Drops (some false) (some false) True
      (writePrefixedStringAttribute nsPrefix name value : ObjectWriterM σ Unit) := by
  intro s hs
  have ho := tagIs_some.1 hs
  unfold writePrefixedStringAttribute onXml
  rw [XmlWriter.writeAttributeString_dropped _ _ _ ho]
  exact ⟨hs, List.prefix_append _ _, by simp [ho]⟩

end Calls

/-! ## Metadata and meshes -/

section Parts

variable {σ : Type} {b : Option Bool} (w : ObjectWriter σ)

theorem drops_metaDataName (md : ModelMetaData) :
    Drops (some true) (some true) False (w.writeMetaDataName md) := by
  unfold writeMetaDataName
  split
  · exact drops_attribute
  · split
    · exact .throw _
    · exact drops_attribute

theorem drops_metaData (md : ModelMetaData) :
    Drops b (some false) False (w.writeMetaData md) :=
  (drops_startElement _).seq fun _ =>
    (drops_metaDataName w md).seq fun _ =>
    (Drops.doIf_safe drops_attribute).seq fun _ =>
    (Drops.doIf_safe drops_attribute).seq fun _ =>
    (drops_text _).seq fun _ => drops_endElement

/-- Metadata closes the start tag of its object. -/
theorem drops_metaDataGroup {group : ModelMetaDataGroup} (h : group.metaData ≠ []) :
    Drops b (some false) False (w.writeMetaDataGroup group) := by
  unfold writeMetaDataGroup doIf
  rw [if_pos h]
  exact (drops_startElement _).seq fun _ =>
    (Drops.forM_safe fun md => (drops_metaData w md).forget).anyTag.seq fun _ =>
      drops_fullEndElement

/-- Without metadata the tag stays open. -/
theorem drops_metaDataGroup_empty {group : ModelMetaDataGroup} (h : group.metaData = []) :
    Drops b b False (w.writeMetaDataGroup group) := by
  unfold writeMetaDataGroup doIf
  rw [if_neg (not_not.2 h)]
  exact .pure ()

theorem drops_vertexArrays (stream : Nat) (origin : Vec3) (nodes : List Vec3) :
    Drops b (some false) False (w.writeVertexArrays stream origin nodes) :=
  (Drops.onWorld _).seq fun _ => (Drops.onWorld _).seq fun _ => (Drops.onWorld _).seq fun _ =>
    (drops_start _ _).seq fun _ =>
    drops_attribute.seq fun _ => drops_attribute.seq fun _ =>
    drops_attribute.seq fun _ => drops_attribute.seq fun _ =>
    drops_attribute.seq fun _ => drops_attribute.seq fun _ => drops_endElement

theorem drops_vertex (n : Vec3 × Nat) : Drops b (some false) False (w.writeVertex n) :=
  (drops_rawLine _).seq fun _ => .doIf_safe (.onWorld _)

theorem drops_nodes (stream : Option (String × Nat)) (mesh : Mesh) :
    Drops none none False (w.writeNodes stream mesh) := by
  cases stream with
  | none => exact .forM_safe fun n => (drops_vertex w n).forget
  | some stream => exact .optionForM fun n => (drops_vertexArrays w stream.2 n mesh.nodes).forget

theorem drops_vertices (stream : Option (String × Nat)) (mesh : Mesh) :
    Drops b (some false) False (w.writeVertices stream mesh) :=
  (drops_startElement _).seq fun _ =>
    (drops_nodes w stream mesh).anyTag.seq fun _ => drops_fullEndElement

theorem drops_triangle (mesh : Mesh) (objectLevel : Nat × Nat) (hasProperty : Bool)
    (f : MeshFace × Nat) :
    Drops b (some false) False (w.writeTriangle mesh objectLevel hasProperty f) :=
  (Drops.doIf_safe (.onWorld _)).seq fun _ => (Drops.ofChecked _).seq fun _ =>
    (drops_rawLine _).seq fun _ => .pure _

theorem drops_triangleArrays (stream : Nat) (faces : List MeshFace) :
    Drops b (some false) False (w.writeTriangleArrays stream faces) :=
  (Drops.onWorld _).seq fun _ => (Drops.onWorld _).seq fun _ => (Drops.onWorld _).seq fun _ =>
    (drops_start _ _).seq fun _ =>
    drops_attribute.seq fun _ => drops_attribute.seq fun _ =>
    drops_attribute.seq fun _ => drops_endElement

theorem drops_faces (stream : Option (String × Nat)) (mesh : Mesh) (objectLevel : Nat × Nat) :
    Drops none none False (w.writeFaces stream mesh objectLevel) := by
  cases stream with
  | none => exact .foldlM_safe (fun d f => (drops_triangle w mesh objectLevel d f).forget) false
  | some stream => exact (drops_triangleArrays w stream.2 mesh.faces).forget.seq fun _ => .pure _

theorem drops_triangles (stream : Option (String × Nat)) (mesh : Mesh) :
    Drops b (some false) False (w.writeTriangles stream mesh) :=
  (Drops.ofChecked _).seq fun objectLevel =>
    (drops_startElement _).seq fun _ =>
    (drops_faces w stream mesh objectLevel).anyTag.seq fun _ =>
    drops_fullEndElement.seq fun _ => .require _ _

theorem drops_beamSet (set : WrittenBeamSet) :
    Drops b (some false) False (writeBeamSet set : ObjectWriterM σ Unit) :=
  (drops_start _ _).seq fun _ =>
    (Drops.doIf_safe drops_attribute).seq fun _ =>
    (Drops.doIf_safe drops_attribute).seq fun _ =>
    (Drops.forM_safe fun _ => (drops_rawLine _).forget).anyTag.seq fun _ => drops_fullEndElement

theorem drops_beamLatticeAttributes (lattice : WrittenBeamLattice) :
    Drops (some true) (some true) False (w.writeBeamLatticeAttributes lattice) :=
  drops_attribute.seq fun _ => drops_attribute.seq fun _ =>
    (Drops.optionForM fun _ => drops_attribute.seq fun _ => drops_attribute).seq fun _ =>
    (Drops.optionForM fun _ => drops_attribute).seq fun _ => drops_attribute

theorem drops_beamLattice (mesh : Mesh) (lattice : WrittenBeamLattice) :
    Drops b (some false) False (w.writeBeamLattice mesh lattice) := by
  have hsets : Drops (some false) (some false) False
      (doIf (lattice.beamSets ≠ []) do
        writeStartElementWithPrefix "beamsets" "b"
        lattice.beamSets.forM writeBeamSet
        writeFullEndElement : ObjectWriterM σ Unit) :=
    .doIf_safe ((drops_start _ _).seq fun _ =>
      (Drops.forM_safe fun set => (drops_beamSet set).forget).anyTag.seq fun _ =>
        drops_fullEndElement)
  exact (drops_start _ _).seq fun _ =>
    (drops_beamLatticeAttributes w lattice).seq fun _ =>
    (drops_start _ _).seq fun _ =>
    (Drops.forM_safe fun _ => (drops_rawLine _).forget).anyTag.seq fun _ =>
    drops_fullEndElement.seq fun _ =>
    hsets.seq fun _ => drops_fullEndElement

theorem drops_mesh (stream : Option (String × Nat)) (mesh : Mesh) (lattice : WrittenBeamLattice) :
    Drops b (some false) False (w.writeMesh stream mesh lattice) :=
  (drops_startElement _).seq fun _ =>
    (Drops.optionForM fun _ => drops_attribute).seq fun _ =>
    (drops_vertices w stream mesh).seq fun _ =>
    (drops_triangles w stream mesh).seq fun _ =>
    (Drops.doIf_safe (drops_beamLattice w mesh lattice)).seq fun _ => drops_fullEndElement

end Parts

/-! ## Objects -/

section Objects

variable {σ : Type} (w : ObjectWriter σ)

/-- The mesh has an object-level property. -/
def HasObjectLevelProperty (mesh : Mesh) : Prop :=
  ∃ d, mesh.properties.bind (·.defaultData) = some d ∧ d.resourceID ≠ 0

/-- A mesh object with an object-level property that has metadata too. -/
def LosesProperty (o : WrittenObject) : Prop :=
  o.metaDataGroup.metaData ≠ [] ∧
    ∃ mesh lattice, o.content = .mesh mesh lattice ∧ HasObjectLevelProperty mesh

/-- The property that is found is the one the mesh has. -/
theorem objectLevelProperty_ne_zero_iff {mapping : PropertyIndexMapping} {mesh : Mesh}
    {p : Nat × Nat} (h : Writer.objectLevelProperty mapping mesh = .ok p) :
    p.1 ≠ 0 ↔ HasObjectLevelProperty mesh := by
  unfold Writer.objectLevelProperty at h
  unfold HasObjectLevelProperty
  cases hd : mesh.properties.bind (·.defaultData) with
  | none =>
    rw [hd] at h
    cases h
    simp
  | some d =>
    rw [hd] at h
    dsimp only at h
    by_cases hr : d.resourceID = 0
    · rw [if_pos hr] at h
      cases h
      simp [hr]
    · rw [if_neg hr] at h
      obtain ⟨index, -, h⟩ := bind_eq_ok.1 h
      cases h
      simp [hr]

/-- The attributes of the property are dropped where the tag of the object is closed. -/
theorem drops_objectLevelProperty (mesh : Mesh) (isOpen : Bool) :
    Drops (some isOpen) (some isOpen) (isOpen = false ∧ HasObjectLevelProperty mesh)
      (w.writeObjectLevelProperty mesh) := by
  unfold writeObjectLevelProperty
  cases hp : Writer.objectLevelProperty w.propertyIndexMapping mesh with
  | error e => exact .throw _
  | ok p =>
    have hattributes : Drops (some isOpen) (some isOpen) (isOpen = false) (do
        writeIntAttribute "pid" p.1
        writeIntAttribute "pindex" p.2 : ObjectWriterM σ Unit) := by
      cases isOpen with
      | true => exact (drops_attribute.seq fun _ => drops_attribute).of_iff (by simp)
      | false =>
        exact (drops_attribute_closed.bind fun _ =>
          drops_attribute_closed).of_iff (by simp)
    refine (Drops.doIf hattributes).of_iff ?_
    rw [objectLevelProperty_ne_zero_iff hp, and_comm]

theorem drops_uuid (uuid : Option String) :
    Drops (some true) (some true) False (writeUUID uuid : ObjectWriterM σ Unit) := by
  cases uuid with
  | none => exact .throw _
  | some uuid => exact drops_attribute

theorem drops_thumbnail (path : String) :
    Drops (some true) (some true) False (w.writeThumbnail path) :=
  (Drops.require _ _).seq fun _ => drops_attribute

theorem drops_sliceAttributes (o : WrittenObject) :
    Drops (some true) (some true) False (writeSliceAttributes o : ObjectWriterM σ Unit) :=
  (Drops.optionForM fun _ => drops_attribute).seq fun _ => .doIf_safe drops_attribute

theorem drops_objectAttributes (o : WrittenObject) :
    Drops (some true) (some true) False (w.writeObjectAttributes o) :=
  drops_attribute.seq fun _ =>
    (Drops.doIf_safe drops_attribute).seq fun _ =>
    (Drops.doIf_safe drops_attribute).seq fun _ =>
    drops_attribute.seq fun _ =>
    (Drops.optionForM (drops_thumbnail w)).seq fun _ =>
    (Drops.doIf_safe (drops_uuid o.uuid)).seq fun _ => .doIf_safe (drops_sliceAttributes o)

theorem drops_component (c : WrittenComponent) :
    Drops none none False (w.writeComponent c) :=
  ((drops_startElement _).seq fun _ =>
    drops_attribute.seq fun _ =>
    (Drops.optionForM fun _ => drops_attribute).seq fun _ =>
    (Drops.doIf_safe (drops_uuid c.uuid)).seq fun _ => drops_endElement).forget

/-- What comes after the metadata. -/
theorem drops_content (o : WrittenObject) (isOpen : Bool) :
    Drops (some isOpen) (some false) (isOpen = false ∧
      ∃ mesh lattice, o.content = .mesh mesh lattice ∧ HasObjectLevelProperty mesh)
      (w.writeContent o) := by
  unfold writeContent
  cases ho : o.content with
  | mesh mesh lattice =>
    refine ((drops_objectLevelProperty w mesh isOpen).bind fun _ =>
      (Drops.ofChecked _).seq fun uuid => drops_mesh w _ mesh lattice).of_iff ?_
    simp
  | components components =>
    have hcomponents : Drops (some isOpen) (some false) False (w.writeComponentsObject components) :=
      (drops_startElement _).seq fun _ =>
        (Drops.forM_safe (drops_component w)).anyTag.seq fun _ => drops_fullEndElement
    exact hcomponents.of_iff (by simp)

/-- The tag of an object is open up to its metadata. -/
theorem drops_objectStart (o : WrittenObject) :
    Drops none (some (decide (o.metaDataGroup.metaData = []))) False (w.writeObjectStart o) := by
  refine (Drops.onWorld _).seq fun _ => (drops_startElement _).seq fun _ =>
    (drops_objectAttributes w o).seq fun _ => ?_
  by_cases hm : o.metaDataGroup.metaData = []
  · rw [decide_eq_true hm]
    exact drops_metaDataGroup_empty w hm
  · rw [decide_eq_false hm]
    exact drops_metaDataGroup w hm

/-- **One object** drops attributes exactly when it loses its property. -/
theorem drops_object (o : WrittenObject) : Drops none none (LosesProperty o) (w.writeObject o) := by
  refine ((drops_objectStart w o).seq fun _ => (drops_content w o _).bind fun _ =>
    drops_fullEndElement.forget).of_iff ?_
  simp [LosesProperty]

/-- **All objects**. -/
theorem drops_objects (objects : List WrittenObject) :
    Drops none none (∃ o ∈ objects, LosesProperty o) (w.writeObjects objects) :=
  .forM (drops_object w)

/-- What is written while no object loses its property is complete, also where the writing stops
early; a writing that ends well is complete for these objects only. -/
theorem writeObjects_dropped_iff (objects : List WrittenObject) (xml : XmlWriter) (world : σ) :
    ((∀ o ∈ objects, ¬ LosesProperty o) →
      (finalState (w.writeObjects objects ⟨xml, world, []⟩)).dropped = []) ∧
    ∀ u s, w.writeObjects objects ⟨xml, world, []⟩ = .ok u s →
      (s.dropped = [] ↔ ∀ o ∈ objects, ¬ LosesProperty o) := by
  have h := drops_objects w objects ⟨xml, world, []⟩ (tagIs_none _)
  refine ⟨fun hn => ?_, fun u s hs => ?_⟩
  · have hnone : ¬ ∃ o ∈ objects, LosesProperty o := by simpa using hn
    exact h.final (fun _ ht => ht.2.2.2 hnone) fun _ ht => ht.2 hnone
  · rw [hs] at h
    simpa using h.2.2

end Objects

/-! ## An object that loses its property -/

section Lost

variable {σ : Type} {isOpen : Bool} {names : List (List UInt8)} {name : List UInt8}
  {s t : ObjectWriterState σ} {w : ObjectWriter σ}

/-- What is dropped stays dropped, however the writing ends. -/
theorem Drops.prefix_final {α : Type} {b b' : Option Bool} {lost : Prop} {x : ObjectWriterM σ α}
    (h : Drops b b' lost x) (hs : TagIs b s.xml) : s.dropped <+: (finalState (x s)).dropped :=
  (h s hs).final (fun _ ht => ht.2.1) fun _ ht => ht.1

/-- Behind a closed tag the object-level property is dropped. -/
theorem writeObjectLevelProperty_closed {mesh : Mesh} {p : Nat × Nat}
    (ho : t.xml.elementIsOpen = false)
    (hp : Writer.objectLevelProperty w.propertyIndexMapping mesh = .ok p) (h0 : p.1 ≠ 0) :
    w.writeObjectLevelProperty mesh t = .ok () { t with dropped := t.dropped ++
      [(xmlText "pid", xmlText (toString (NMR.writeIntAttribute p.1))),
        (xmlText "pindex", xmlText (toString (NMR.writeIntAttribute p.2)))] } := by
  have hclosed (d : List (List UInt8 × List UInt8)) (name value : String) :
      writeStringAttribute name value { t with dropped := d } =
        .ok () { t with dropped := d ++ [(xmlText name, xmlText value)] } := by
    unfold writeStringAttribute writePrefixedStringAttribute onXml
    rw [XmlWriter.writeAttributeString_dropped _ _ _ ho]
    simp [ho, XmlWriter.nodeName, xmlText, xmlBytes]
  have hread : ofChecked (Checked.lift (Writer.objectLevelProperty w.propertyIndexMapping mesh)) t =
      .ok p t := by
    rw [hp]
    rfl
  unfold writeObjectLevelProperty writeIntAttribute
  rw [bind_of_ok hread, doIf_of_pos h0, bind_of_ok (hclosed t.dropped _ _)]
  refine (hclosed _ _ _).trans ?_
  simp

/-- An object that is written up to its object-level property has lost it, also where the writing
stops later. -/
theorem writeObject_dropped {o : WrittenObject} {mesh : Mesh} {lattice : WrittenBeamLattice}
    {p : Nat × Nat} (hm : o.metaDataGroup.metaData ≠ []) (ho : o.content = .mesh mesh lattice)
    (hp : Writer.objectLevelProperty w.propertyIndexMapping mesh = .ok p) (h0 : p.1 ≠ 0)
    (hstart : w.writeObjectStart o s = .ok () t) :
    (finalState (w.writeObject o s)).dropped ≠ s.dropped := by
  have hclosed := drops_objectStart w o s (tagIs_none _)
  rw [hstart, decide_eq_false hm] at hclosed
  obtain ⟨ht, hpre, -⟩ := hclosed
  have hproperty := writeObjectLevelProperty_closed (tagIs_some.1 ht) hp h0
  obtain ⟨u, hu⟩ : ∃ u, u = ({ t with dropped := t.dropped ++
      [(xmlText "pid", xmlText (toString (NMR.writeIntAttribute p.1))),
        (xmlText "pindex", xmlText (toString (NMR.writeIntAttribute p.2)))] } :
      ObjectWriterState σ) := ⟨_, rfl⟩
  rw [← hu] at hproperty
  -- what follows only adds to the attributes that are dropped
  have hrest : Drops none (some false) False ((do
      let uuid ← ofChecked (o.uuid.elim (throw .outOfRange) pure)
      w.writeMesh (w.binaryStream uuid) mesh lattice) >>= fun _ => writeFullEndElement) :=
    ((Drops.ofChecked _).seq fun uuid => drops_mesh w _ mesh lattice).seq fun _ =>
      drops_fullEndElement
  have hfinal := hrest.prefix_final (tagIs_none u.xml)
  have hrun : w.writeObject o s = ((do
      let uuid ← ofChecked (o.uuid.elim (throw .outOfRange) pure)
      w.writeMesh (w.binaryStream uuid) mesh lattice) >>= fun _ => writeFullEndElement) u := by
    unfold writeObject writeContent
    rw [bind_of_ok hstart, ho, bind_assoc]
    exact bind_of_ok hproperty
  rw [hrun]
  intro hd
  have hlen := hfinal.length_le
  have hlen' := hpre.length_le
  rw [hd, hu] at hlen
  simp only [List.length_append, List.length_cons] at hlen
  omega

/-! The example runs through the calls up to the metadata, each of which succeeds. -/

/-- The elements that are open, the innermost first, and whether its start tag is open. -/
structure At (isOpen : Bool) (names : List (List UInt8)) (s : ObjectWriterState σ) : Prop where
  tag : s.xml.elementIsOpen = isOpen
  stack : s.xml.nodeStack = names
  layer : s.xml.layer = BitVec.ofNat 32 names.length

theorem fits_of_length {v : List UInt8} (h : 6 * v.length ≤ nativeXMLMaxStringLength) :
    XmlWriter.Fits v := (XmlWriter.length_escapeXMLString_le v).trans h

theorem onXml_ok {x : XmlWriterM Unit} {xml : XmlWriter} (h : x s.xml = .ok () xml) :
    onXml x s = .ok () { s with xml } := by
  unfold onXml
  rw [h]

theorem succeeds_skip {c : Prop} [Decidable c] (hc : ¬ c) {x : ObjectWriterM σ Unit}
    (h : At isOpen names s) : Succeeds (doIf c x) s (At isOpen names) :=
  .of_ok (doIf_of_neg hc x s) h

theorem succeeds_startElement {element : String} (h : At isOpen names s)
    (hn : (xmlText element).length ≤ nativeXMLMaxStringLength) :
    Succeeds (writeStartElement element) s (At true (xmlText element :: names)) := by
  refine .of_ok (onXml_ok (XmlWriter.writeStartElement_ok (by decide) hn (Nat.zero_le _))) ?_
  refine ⟨rfl, congrArg (xmlText element :: ·) h.stack, ?_⟩
  show s.xml.layer + 1 = _
  rw [h.layer, List.length_cons, BitVec.ofNat_add]
  rfl

theorem succeeds_attribute {nsPrefix attrName value : String} (h : At true names s)
    (hp : (xmlText nsPrefix).length ≤ nativeXMLMaxStringLength)
    (hn : (xmlText attrName).length ≤ nativeXMLMaxStringLength)
    (hv : 6 * (xmlText value).length ≤ nativeXMLMaxStringLength) :
    Succeeds (writePrefixedStringAttribute nsPrefix attrName value) s (At true names) :=
  .of_ok (onXml_ok (XmlWriter.writeAttributeString_ok h.tag hp hn (fits_of_length hv)))
    ⟨h.tag, h.stack, h.layer⟩

theorem succeeds_text {content : List UInt8} (h : At true names s)
    (hc : 6 * content.length ≤ nativeXMLMaxStringLength) :
    Succeeds (onXml (XmlWriter.writeText content)) s (At false names) := by
  refine .of_ok (onXml_ok ((bind_of_ok (XmlWriter.closeCurrentElement_text _)).trans
    (XmlWriter.writeXMLString_ok (fits_of_length hc) ?_))) ⟨rfl, h.stack, h.layer⟩
  simp [h.tag]

theorem succeeds_fullEndElement (h : At isOpen (name :: names) s)
    (hn : name.length ≤ nativeXMLMaxStringLength) (hdepth : names.length + 1 < 2 ^ 32) :
    Succeeds writeFullEndElement s (At false names) := by
  have hl : s.xml.layer = BitVec.ofNat 32 names.length + 1 := by
    rw [h.layer, List.length_cons, BitVec.ofNat_add]
    rfl
  have h0 : s.xml.layer ≠ 0 := by
    intro h0
    have hnat := congrArg BitVec.toNat (h.layer.symm.trans h0)
    simp only [List.length_cons, BitVec.toNat_ofNat, Nat.mod_eq_of_lt hdepth] at hnat
    simp at hnat
  refine .of_ok (onXml_ok (XmlWriter.writeFullEndElement_ok h.stack h0 hn)) ⟨rfl, rfl, ?_⟩
  show s.xml.layer - 1 = _
  rw [hl, BitVec.add_sub_cancel]

/-- Behind a text the end is a full one. -/
theorem succeeds_endElement (h : At false (name :: names) s)
    (hn : name.length ≤ nativeXMLMaxStringLength) (hdepth : names.length + 1 < 2 ^ 32) :
    Succeeds writeEndElement s (At false names) := by
  have hfull : (writeEndElement : ObjectWriterM σ Unit) s = writeFullEndElement s := by
    unfold writeEndElement writeFullEndElement onXml XmlWriter.writeEndElement
    rw [get_bind, if_neg (by simp [h.tag])]
  obtain ⟨u, s', hs, hat⟩ := succeeds_fullEndElement h hn hdepth
  exact ⟨u, s', hfull.trans hs, hat⟩

end Lost

/-- The writer of a model in one part, its property resource of ID 1 registered. -/
def modelWriter : ObjectWriter Unit where
  writeProductionExtension := true
  writeSliceExtension := true
  writeBeamLatticeExtension := true
  nameSpaces := .empty
  propertyIndexMapping := ⟨.insert .empty (toLex (1, 1)) 0⟩
  relationShipType _ := none
  binaryStream _ := none
  posAfterDecPoint := 6
  putDoubleFactor := 1000000
  floatText q := toString q.num
  floatSub a b := a - b
  reportProgress := pure ()
  addFloatArray _ _ := pure 0
  addIntArray _ _ := pure 0

/-- The mesh of a triangle with an object-level property. -/
def triangleMesh : Mesh where
  nodes := [⟨0, 0, 0⟩, ⟨1, 0, 0⟩, ⟨0, 1, 0⟩]
  faces := [⟨![0, 1, 2]⟩]
  beams := []
  meshInformationHandler := some ⟨some ⟨some ⟨1, fun _ => 1⟩, [⟨1, fun _ => 1⟩]⟩⟩

theorem title_valid : isValidNamespaceAndName "" "Title" = true := by decide

theorem title_typed : "xs:string" ≠ "" := by decide

/-- The object of the triangle, with its title. -/
def titledTriangle : WrittenObject where
  uniqueID := 2
  name := ""
  partNumber := ""
  objectTypeString := "model"
  thumbnail := none
  uuid := some "8e4bcd1a-1f02-4b5c-9a2f-3a4a7b1c2d3e"
  sliceStack := none
  isLowResolution := false
  metaDataGroup := ⟨[⟨"", "Title", "Part", "xs:string", false, title_valid, title_typed⟩], [":Title"],
    by decide⟩
  content := .mesh triangleMesh ⟨0, none, none, []⟩

theorem succeeds_titledTriangle : Succeeds (modelWriter.writeObjectStart titledTriangle)
    ⟨.create [10], (), []⟩ (At false [xmlText "object"]) := by
  have hattributes {s : ObjectWriterState Unit} (h : At true [xmlText "object"] s) :
      Succeeds (modelWriter.writeObjectAttributes titledTriangle) s
        (At true [xmlText "object"]) :=
    (succeeds_attribute h (by decide) (by decide) (by decide)).bind fun _ _ h =>
    (succeeds_skip (by decide) h).bind fun _ _ h =>
    (succeeds_skip (by decide) h).bind fun _ _ h =>
    (succeeds_attribute h (by decide) (by decide) (by decide)).bind fun _ _ h =>
    (Succeeds.of_ok rfl h).bind fun _ _ h =>
    (succeeds_attribute h (by decide) (by decide) (by decide)).bind fun _ _ h =>
    (Succeeds.of_ok rfl h).bind fun _ _ h => succeeds_skip (by decide) h
  have hmetaData {s : ObjectWriterState Unit} (h : At true [xmlText "object"] s) :
      Succeeds (modelWriter.writeMetaDataGroup titledTriangle.metaDataGroup) s
        (At false [xmlText "object"]) :=
    (succeeds_startElement h (by decide)).bind fun _ _ h =>
    (((succeeds_startElement h (by decide)).bind fun _ _ h =>
      (succeeds_attribute h (by decide) (by decide) (by decide)).bind fun _ _ h =>
      (succeeds_skip (by decide) h).bind fun _ _ h =>
      (succeeds_skip (by decide) h).bind fun _ _ h =>
      (succeeds_text h (by decide)).bind fun _ _ h =>
        succeeds_endElement h (by decide) (by decide)).bind fun _ _ h =>
      Succeeds.of_ok rfl h).bind fun _ _ h => succeeds_fullEndElement h (by decide) (by decide)
  have hprogress : Succeeds (onWorld modelWriter.reportProgress)
      (⟨.create [10], (), []⟩ : ObjectWriterState Unit) (At false []) := .of_ok rfl ⟨rfl, rfl, rfl⟩
  exact hprogress.bind fun _ _ h => (succeeds_startElement h (by decide)).bind fun _ _ h =>
    (hattributes h).bind fun _ _ h => hmetaData h

/-- The title closes the start tag, and `pid` and `pindex` are dropped. -/
theorem titledTriangle_dropped :
    (finalState (modelWriter.writeObjects [titledTriangle] ⟨.create [10], (), []⟩)).dropped ≠ [] := by
  obtain ⟨_, t, hstart, -⟩ := succeeds_titledTriangle
  have hd := writeObject_dropped (by decide) rfl
    (show Writer.objectLevelProperty _ triangleMesh = .ok (1, 0) from rfl) (by decide) hstart
  have hone : finalState (modelWriter.writeObjects [titledTriangle] ⟨.create [10], (), []⟩) =
      finalState (modelWriter.writeObject titledTriangle ⟨.create [10], (), []⟩) := by
    show finalState ((modelWriter.writeObject titledTriangle >>= fun _ => pure PUnit.unit)
      ⟨.create [10], (), []⟩) = _
    cases hx : modelWriter.writeObject titledTriangle ⟨.create [10], (), []⟩ with
    | ok u s =>
      rw [bind_of_ok hx]
      rfl
    | error e s => rw [bind_of_error hx]
  rwa [hone]

end ObjectWriter

end NMR
