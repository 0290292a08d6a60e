import Lib3MF.Common.Platform.Proof.XmlDelivery
import Lib3MF.Model.Reader.ModelReaderNode

/-!
# Node readers on a stream

`CModelReader_3MF::readStream` and the loops of the node readers call the XML reader, which reads
the bytes of a stream, until it is at the end of its file. What they see of it are its strings
(`ScopedReader.view`). On the bytes of a document that fits the buffer they do what they do on its
entities (`streamReads_document`).
-/

namespace NMR

open Lib

/-- What a caller sees of the XML reader. -/
def ScopedReader.view (s : ScopedReader) : XmlReader where
  nameSpaces := s.nameSpaces.map fun n => (ofUtf8 n.1, ofUtf8 n.2)
  defaultNameSpace := ofUtf8 s.defaultNameSpace
  nameSpaceIsAttribute := s.nameSpaceIsAttribute
  currentName := ofUtf8 s.native.currentName
  currentPrefix := ofUtf8 s.native.currentPrefix
  currentValue := ofUtf8 s.native.currentValue
  currentElementName := ofUtf8 s.native.currentElementName
  currentElementPrefix := ofUtf8 s.native.currentElementPrefix
  isEOF := s.native.isEOF

theorem ScopedReader.Shows.view {s : ScopedReader} {r : XmlReader} (h : s.Shows r) : s.view = r := by
  obtain ⟨hn, hd, ha, hname, hpfx, hvalue, hename, hepfx, heof⟩ := h
  unfold ScopedReader.view
  rw [hn, hd, ha, hname, hpfx, hvalue, hename, hepfx, heof]
  simp [Function.comp_def]

namespace NodeReaders

variable {ν ω : Type} (R : NodeReaders ν ω)

/-- One turn of the first loop: a call of the XML reader, and what is done with what it returns. -/
def turn (K : NodeStack ν ω) (s : ScopedReader) : Except XmlFault (NodeStack ν ω × ScopedReader) :=
  if K.inAttributes then
    match s.moveToNextAttribute with
    | .error e => .error e
    | .ok (s, found) => (throwing (R.moveTurn K found s.view)).map (·, s)
  else
    match s.read with
    | .error e => .error e
    | .ok (s, none) => .ok ({ K with reader := s.view }, s)
    | .ok (s, some type) => (throwing (R.readTurn K (type, s.view))).map (·, s)

/-- The loops, from the state `K` on. -/
def readLoop : Nat → NodeStack ν ω → ScopedReader → Option (Except XmlFault ω)
  | 0, _, _ => none
  | fuel + 1, K, s =>
    if s.native.isEOF then some (throwing (R.finish K.frames.length K))
    else
      match R.turn K s with
      | .error e => some (.error e)
      | .ok (K, s) => readLoop fuel K s

/-- `readStream` of the model document `data`, with fuel for its loops. -/
def readStream (fuel : Nat) (world : ω) (data : List UInt8) : Option (Except XmlFault ω) :=
  match ScopedReader.create ⟨data, []⟩ xmlReaderBufferSize with
  | .error e => some (.error e)
  | .ok s => R.readLoop fuel (start world) s

/-! ## What a turn leaves -/

/-- Between two calls the first node reader is not between a name and its value, and the others are
in `parseContent`. -/
def Settled : List (NodeFrame ν) → Prop
  | [] => True
  | f :: fs => (f.phase = .content ∨ f.phase = .attributes none) ∧ ∀ g ∈ fs, g.phase = .content

/-- The node readers are settled, with the XML reader `reader`. -/
structure Settles (K : NodeStack ν ω) (reader : XmlReader) : Prop where
  settled : Settled K.frames
  reader : K.reader = reader

variable {R} {K K' : NodeStack ν ω} {f : NodeFrame ν} {fs : List (NodeFrame ν)} {reader : XmlReader}

theorem settled_of_content (h : ∀ g ∈ fs, g.phase = .content) : Settled fs := by
  cases fs with
  | nil => trivial
  | cons f fs =>
    obtain ⟨hf, hfs⟩ := List.forall_mem_cons.1 h
    exact ⟨.inl hf, hfs⟩

theorem inAttributes_of_content (h : ∀ g ∈ K.frames, g.phase = .content) : K.inAttributes = false := by
  unfold NodeStack.inAttributes
  cases hK : K.frames with
  | nil => rfl
  | cons f fs => simp [h f (hK ▸ List.mem_cons_self)]

/-- The node readers of a settled stack that is not in `parseAttributes` are all in
`parseContent`. -/
theorem content_of_settled (h : Settled K.frames) (hK : K.inAttributes = false) :
    ∀ g ∈ K.frames, g.phase = .content := by
  unfold NodeStack.inAttributes at hK
  cases hframes : K.frames with
  | nil => exact fun g hg => absurd hg List.not_mem_nil
  | cons f fs =>
    rw [hframes] at h hK
    exact List.forall_mem_cons.2 ⟨by simpa using hK, h.2⟩

theorem pop_ok (hfs : ∀ g ∈ fs, g.phase = .content) (h : R.pop K f fs = .ok K') :
    (∀ g ∈ K'.frames, g.phase = .content) ∧ K'.reader = K.reader := by
  unfold pop at h
  obtain ⟨⟨node, world⟩, -, h⟩ := bind_eq_ok.1 h
  cases fs with
  | nil =>
    obtain ⟨world', -, h⟩ := bind_eq_ok.1 h
    cases h
    exact ⟨fun g hg => absurd hg List.not_mem_nil, rfl⟩
  | cons p ps =>
    obtain ⟨⟨parent, world'⟩, -, h⟩ := bind_eq_ok.1 h
    cases h
    exact ⟨List.forall_mem_cons.2 (List.forall_mem_cons.1 hfs), rfl⟩

theorem push_ok {child : ν} (hK : ∀ g ∈ K.frames, g.phase = .content) (h : push K child = .ok K') :
    Settles K' K.reader := by
  unfold push at h
  split_ifs at h
  cases h
  exact ⟨⟨.inr rfl, hK⟩, rfl⟩

theorem contentTurn_ok {read : XmlReaderNodeType × XmlReader}
    (hf : f.phase = .content) (hfs : ∀ g ∈ fs, g.phase = .content) (hK : K.frames = f :: fs)
    (h : R.contentTurn K f fs read = .ok K') : Settles K' read.2 := by
  have hcontent : ∀ node : ν, ∀ g ∈ { f with node := node } :: fs, g.phase = .content :=
    fun _ => List.forall_mem_cons.2 ⟨hf, hfs⟩
  have hself : Settles { K with reader := read.2 } read.2 :=
    ⟨by rw [hK]; exact ⟨.inl hf, hfs⟩, rfl⟩
  obtain ⟨type, reader⟩ := read
  cases type with
  | startElement =>
    obtain ⟨count, -, h⟩ := bind_eq_ok.1 h
    split at h
    · cases h
    · split_ifs at h with hcount
      · obtain ⟨⟨node, world, child⟩, -, h⟩ := bind_eq_ok.1 h
        cases child with
        | none =>
          cases h
          exact ⟨settled_of_content (hcontent node), rfl⟩
        | some child => exact push_ok (hcontent node) h
      · cases h
        exact hself
  | text =>
    obtain ⟨count, -, h⟩ := bind_eq_ok.1 h
    split_ifs at h
    · obtain ⟨⟨node, world⟩, -, h⟩ := bind_eq_ok.1 h
      cases h
      exact ⟨settled_of_content (hcontent node), rfl⟩
    · cases h
      exact hself
  | endElement =>
    obtain ⟨count, -, h⟩ := bind_eq_ok.1 h
    split_ifs at h
    · obtain ⟨hframes, hreader⟩ := pop_ok hfs h
      exact ⟨settled_of_content hframes, hreader⟩
    · cases h
      exact hself
  | unknown =>
    cases h
    exact hself

/-- **A turn on what `Read` returned** keeps the stack settled. -/
theorem readTurn_ok {read : XmlReaderNodeType × XmlReader} (hK : ∀ g ∈ K.frames, g.phase = .content)
    (h : R.readTurn K read = .ok K') : Settles K' read.2 := by
  unfold readTurn at h
  cases hframes : K.frames with
  | nil =>
    rw [hframes] at h
    obtain ⟨⟨world, child⟩, -, h⟩ := bind_eq_ok.1 h
    cases child with
    | none =>
      cases h
      exact ⟨trivial, rfl⟩
    | some child => exact push_ok (fun g hg => absurd hg List.not_mem_nil) h
  | cons f fs =>
    obtain ⟨hf, hfs⟩ := List.forall_mem_cons.1 (hframes ▸ hK)
    rw [hframes] at h
    exact contentTurn_ok hf hfs hframes h

/-- **An attribute** keeps the stack settled. -/
theorem attributeTurn_ok (hfs : ∀ g ∈ fs, g.phase = .content)
    (h : R.attributeTurn K f fs reader = .ok K') : Settles K' reader := by
  unfold attributeTurn at h
  split at h
  · cases h
  · obtain ⟨count, -, h⟩ := bind_eq_ok.1 h
    obtain ⟨count', -, h⟩ := bind_eq_ok.1 h
    split_ifs at h
    · obtain ⟨⟨node, world⟩, -, h⟩ := bind_eq_ok.1 h
      cases h
      exact ⟨⟨.inr rfl, hfs⟩, rfl⟩
    · obtain ⟨⟨node, world⟩, -, h⟩ := bind_eq_ok.1 h
      cases h
      exact ⟨⟨.inr rfl, hfs⟩, rfl⟩
    · cases h
      exact ⟨⟨.inr rfl, hfs⟩, rfl⟩

/-- **The end of the attributes** leaves all node readers in `parseContent`. -/
theorem closeAttributes_ok (hfs : ∀ g ∈ fs, g.phase = .content)
    (h : R.closeAttributes K f fs reader = .ok K') :
    (∀ g ∈ K'.frames, g.phase = .content) ∧ K'.reader = reader := by
  unfold closeAttributes at h
  obtain ⟨⟨node, world⟩, -, h⟩ := bind_eq_ok.1 h
  dsimp only at h
  split_ifs at h
  · cases h
    exact ⟨List.forall_mem_cons.2 ⟨rfl, hfs⟩, rfl⟩
  · exact pop_ok hfs h

/-! ## The loops and the entities -/

/-- The rest of a document, from the state `K` on. -/
def rest (R : NodeReaders ν ω) (K : NodeStack ν ω) (ahead : List XmlEntity) : Except Error ω := do
  let K ← R.feed K ahead
  R.endDocument K

/-- The turns that the loops take at most. -/
def turns (K : NodeStack ν ω) (ahead : List XmlEntity) : Nat :=
  2 * ahead.length + (if K.inAttributes then 1 else 0) + 2

/-- The calls of the XML reader that are still to come, from the state `K` on. -/
structure Ahead (K : NodeStack ν ω) (s : ScopedReader) (ahead : List XmlEntity) : Prop where
  settled : Settled K.frames
  inStep : s.InStep (K.reader, ahead)
  paired : AttributesPaired ahead
  isEOF : K.reader.isEOF = false

variable {s : ScopedReader} {e : XmlEntity} {ahead : List XmlEntity}

theorem feed_cons (K : NodeStack ν ω) (e : XmlEntity) (es : List XmlEntity) :
    R.feed K (e :: es) = R.step K e >>= fun K => R.feed K es := List.foldlM_cons

theorem step_read (hK : K.inAttributes = false) (h : Settled K.frames) (e : XmlEntity) :
    R.step K e = R.readTurn K (K.reader.readEntity e) := by
  have hcontent := content_of_settled h hK
  unfold step readTurn
  cases hframes : K.frames with
  | nil => rfl
  | cons f fs =>
    have hf : f.phase = .content := hcontent f (hframes ▸ List.mem_cons_self)
    simp only [hf]

theorem rest_read (h : Settled K.frames) (hK : K.inAttributes = false) :
    rest R K (e :: ahead) = R.readTurn K (K.reader.readEntity e) >>= fun K => rest R K ahead := by
  unfold rest
  rw [feed_cons, step_read hK h, bind_assoc]

theorem rest_attribute {v : XmlEntity} (hf : f.phase = .attributes none) (hK : K.frames = f :: fs)
    (he : e.type = .attribName) (hv : v.type = .attribValue) :
    rest R K (e :: v :: ahead) =
      R.moveTurn K true (K.reader.takeAttribute e v) >>= fun K => rest R K ahead := by
  have hname : R.step K e =
      .ok { K with frames := { f with phase := .attributes (some e) } :: fs } := by
    unfold step
    simp only [hK, hf, he, if_true]
  have hvalue : R.step { K with frames := { f with phase := .attributes (some e) } :: fs } v =
      R.attributeTurn K f fs (K.reader.takeAttribute e v) := by
    unfold step
    simp only [hv, if_true]
    rfl
  unfold rest moveTurn
  rw [feed_cons, hname, ok_bind, feed_cons, hvalue, hK, bind_assoc]
  rfl

theorem rest_closeAttributes (hfs : ∀ g ∈ fs, g.phase = .content) (hf : f.phase = .attributes none)
    (hK : K.frames = f :: fs) (he : e.type ≠ .attribName) :
    rest R K (e :: ahead) =
      R.moveTurn K false { K.reader with nameSpaceIsAttribute := true } >>= fun K =>
        rest R K (e :: ahead) := by
  have hstep : R.step K e =
      R.closeAttributes K f fs { K.reader with nameSpaceIsAttribute := true } >>= fun K =>
        R.readTurn K (K.reader.readEntity e) := by
    unfold step
    simp only [hK, hf, he, if_false]
  unfold rest moveTurn
  rw [hK, feed_cons, hstep]
  simp only [Bool.false_eq_true, if_false, bind_assoc]
  cases hc : R.closeAttributes K f fs { K.reader with nameSpaceIsAttribute := true } with
  | error e => rfl
  | ok K' =>
    obtain ⟨hcontent, -⟩ := closeAttributes_ok hfs hc
    rw [ok_bind, ok_bind, feed_cons, bind_assoc,
      step_read (inAttributes_of_content hcontent) (settled_of_content hcontent)]

/-- In `parseAttributes` the innermost frame is behind a whole attribute, the others in their
contents. -/
theorem attributes_of_settled (h : Settled K.frames) (hK : K.inAttributes = true) :
    ∃ f fs, K.frames = f :: fs ∧ f.phase = .attributes none ∧ ∀ g ∈ fs, g.phase = .content := by
  cases hframes : K.frames with
  | nil => simp [NodeStack.inAttributes, hframes] at hK
  | cons f fs =>
    rw [hframes] at h
    refine ⟨f, fs, rfl, h.1.resolve_left fun h0 => ?_, h.2⟩
    simp [NodeStack.inAttributes, hframes, h0] at hK

/-- A turn that goes on with `g`. -/
theorem readLoop_turn {fuel : Nat} {s' : ScopedReader} {x : Except Error (NodeStack ν ω)}
    {g : NodeStack ν ω → Except Error ω} (heof : s.native.isEOF = false)
    (hturn : R.turn K s = (throwing x).map (·, s'))
    (hx : ∀ K', x = .ok K' → R.readLoop fuel K' s' = some (throwing (g K'))) :
    R.readLoop (fuel + 1) K s = some (throwing (x >>= g)) := by
  rw [readLoop, if_neg (by simp [heof]), hturn]
  cases hxr : x with
  | error e => rfl
  | ok K' => exact hx K' hxr

theorem isEOF_readEntity (r : XmlReader) (e : XmlEntity) : (r.readEntity e).2.isEOF = r.isEOF := by
  unfold XmlReader.readEntity
  cases e.type <;> rfl

theorem isEOF_takeAttribute (r : XmlReader) (name value : XmlEntity) :
    (r.takeAttribute name value).isEOF = r.isEOF := by
  unfold XmlReader.takeAttribute XmlReader.registerNameSpace
  dsimp only
  split_ifs <;> rfl

/-- At the end of the document the loops end. -/
theorem readLoop_end {fuel : Nat} (hfuel : 0 < fuel) (heof : s.native.isEOF = true) :
    R.readLoop fuel K s = some (throwing (R.finish K.frames.length K)) := by
  obtain ⟨fuel, rfl⟩ := Nat.exists_eq_add_of_lt hfuel
  rw [Nat.zero_add, readLoop, if_pos heof]

/-- The last turn. -/
theorem readLoop_rest_nil {fuel : Nat} {s' : ScopedReader} (heof : s.native.isEOF = false)
    (hfuel : 0 < fuel) (hturn : R.turn K s =
      (throwing (R.endTurn K { K.reader with isEOF := true })).map (·, s'))
    (heof' : s'.native.isEOF = true) : R.readLoop (fuel + 1) K s = some (throwing (rest R K [])) := by
  have hrest : rest R K [] =
      R.endTurn K { K.reader with isEOF := true } >>= fun K => R.finish K.frames.length K := rfl
  rw [hrest]
  exact readLoop_turn heof hturn fun _ _ => readLoop_end hfuel heof'

section Turns

variable {fuel : Nat} (ih : ∀ {K : NodeStack ν ω} {s : ScopedReader} {ahead : List XmlEntity},
  Ahead K s ahead → turns K ahead ≤ fuel → R.readLoop fuel K s = some (throwing (rest R K ahead)))

include ih

/-- A turn that calls `Read`. -/
theorem readLoop_read (h : Ahead K s ahead) (hfuel : turns K ahead ≤ fuel + 1)
    (hK : K.inAttributes = false) :
    R.readLoop (fuel + 1) K s = some (throwing (rest R K ahead)) := by
  obtain ⟨hsettled, hs, hp, heof⟩ := h
  have hopen : s.native.isEOF = false := hs.shows.isEOF.trans heof
  have hcontent := content_of_settled hsettled hK
  obtain ⟨s', hread, hs'⟩ := hs.read
  unfold turns at hfuel
  cases ahead with
  | nil =>
    have hview : s'.view = { K.reader with isEOF := true } := hs'.shows.view
    refine readLoop_rest_nil hopen (by omega) ?_ hs'.shows.isEOF
    unfold turn endTurn
    rw [hK, if_neg Bool.false_ne_true, if_neg Bool.false_ne_true, hread]
    simp only [List.head?_nil, Option.map_none, hview]
    rfl
  | cons e ahead =>
    have hview : s'.view = (K.reader.readEntity e).2 := hs'.shows.view
    have hturn : R.turn K s = (throwing (R.readTurn K (K.reader.readEntity e))).map (·, s') := by
      unfold turn
      rw [hK, if_neg Bool.false_ne_true, hread]
      simp only [List.head?_cons, Option.map_some, hview]
    rw [rest_read hsettled hK]
    refine readLoop_turn hopen hturn fun K' hK' => ?_
    obtain ⟨hsettled', hreader⟩ := readTurn_ok hcontent hK'
    refine ih ⟨hsettled', hreader ▸ hs', hp.2, ?_⟩ ?_
    · rw [hreader, isEOF_readEntity, heof]
    · unfold turns
      rw [List.length_cons] at hfuel
      split <;> omega

/-- A turn that calls `MoveToNextAttribute`. -/
theorem readLoop_move (h : Ahead K s ahead) (hfuel : turns K ahead ≤ fuel + 1)
    (hK : K.inAttributes = true) :
    R.readLoop (fuel + 1) K s = some (throwing (rest R K ahead)) := by
  obtain ⟨hsettled, hs, hp, heof⟩ := h
  have hopen : s.native.isEOF = false := hs.shows.isEOF.trans heof
  obtain ⟨f, fs, hframes, hphase, hfs⟩ := attributes_of_settled hsettled hK
  obtain ⟨s', found, r', hm, hmr, hs', -⟩ := hs.moveToNextAttribute hp
  have hview : s'.view = r'.1 := hs'.shows.view
  have hturn : R.turn K s = (throwing (R.moveTurn K found r'.1)).map (·, s') := by
    unfold turn
    rw [hK, if_pos rfl, hm]
    simp only [hview]
  unfold turns at hfuel
  cases ahead with
  | nil =>
    cases hmr
    refine readLoop_rest_nil hopen (by omega) ?_ hs'.shows.isEOF
    rw [hturn, endTurn, if_pos hK]
  | cons e ahead =>
    by_cases htype : e.type = .attribName
    · obtain ⟨v, hv, hvtype⟩ := hp.1 htype
      obtain ⟨ahead', rfl⟩ : ∃ ahead', ahead = v :: ahead' := by
        cases ahead with
        | nil => cases hv
        | cons v' ahead' => exact ⟨ahead', by rw [Option.some.inj hv]⟩
      cases hmr.symm.trans (XmlReader.moveToNextAttribute_attribute _ _ htype hvtype)
      rw [rest_attribute hphase hframes htype hvtype]
      refine readLoop_turn hopen hturn fun K' hK' => ?_
      unfold moveTurn at hK'
      rw [hframes] at hK'
      obtain ⟨hsettled', hreader⟩ := attributeTurn_ok hfs hK'
      refine ih ⟨hsettled', hreader ▸ hs', hp.2.2, ?_⟩ ?_
      · rw [hreader, isEOF_takeAttribute, heof]
      · unfold turns
        simp only [List.length_cons] at hfuel
        split <;> omega
    · cases hmr.symm.trans (XmlReader.moveToNextAttribute_other _ _ htype)
      rw [rest_closeAttributes hfs hphase hframes htype]
      refine readLoop_turn hopen hturn fun K' hK' => ?_
      unfold moveTurn at hK'
      rw [hframes] at hK'
      obtain ⟨hcontent, hreader⟩ := closeAttributes_ok hfs hK'
      refine ih ⟨settled_of_content hcontent, hreader ▸ hs', hp, ?_⟩ ?_
      · rw [hreader]
        exact heof
      · unfold turns
        rw [inAttributes_of_content hcontent]
        simp only [hK, if_true] at hfuel
        simp only [Bool.false_eq_true, if_false]
        omega

end Turns

/-- **The loops do what the entities make of the node readers.** -/
theorem readLoop_eq {fuel : Nat} (h : Ahead K s ahead) (hfuel : turns K ahead ≤ fuel) :
    R.readLoop fuel K s = some (throwing (rest R K ahead)) := by
  induction fuel generalizing K s ahead with
  | zero =>
    unfold turns at hfuel
    omega
  | succ fuel ih =>
    cases hK : K.inAttributes with
    | false => exact readLoop_read ih h hfuel hK
    | true => exact readLoop_move ih h hfuel hK

/-- `readStream` on the bytes `data` comes to `result`, given enough fuel. -/
def StreamReads (R : NodeReaders ν ω) (world : ω) (data : List UInt8) (result : Except XmlFault ω) :
    Prop :=
  ∃ n, ∀ fuel ≥ n, R.readStream fuel world data = some result

/-- **`readStream` on the bytes of a document** that fits the buffer comes to what the node readers
make of its entities. -/
theorem streamReads_document {doc : XmlContent} {tail : List UInt8}
    (h : doc.FitsBuffer tail xmlReaderBufferSize) (world : ω) :
    StreamReads R world (doc.render ++ tail) (throwing (R.readDocument world doc.entities)) := by
  obtain ⟨s, hc, hs⟩ := ScopedReader.inStep_create h
  have hp : AttributesPaired (doc.entities ++ []) := AttributesPaired.content doc trivial
  rw [List.append_nil] at hp
  let K : NodeStack ν ω := start world
  have hahead : Ahead K s doc.entities := ⟨trivial, hs, hp, rfl⟩
  refine ⟨turns K doc.entities, fun fuel hfuel => ?_⟩
  unfold readStream
  rw [hc]
  exact readLoop_eq hahead hfuel

/-- `readStream` comes to one result. -/
theorem StreamReads.unique {world : ω} {data : List UInt8} {result result' : Except XmlFault ω}
    (h : StreamReads R world data result) (h' : StreamReads R world data result') :
    result = result' := by
  obtain ⟨n, hn⟩ := h
  obtain ⟨n', hn'⟩ := h'
  exact Option.some.inj ((hn (max n n') (le_max_left ..)).symm.trans (hn' _ (le_max_right ..)))

end NodeReaders

end NMR
