import Mathlib.Tactic.SplitIfs
import Lib3MF.Lib.Except
import Lib3MF.Common.Platform.XmlReader

/-!
# Node readers

`CModelReaderNode` reads one element: `parseName`, `parseAttributes` and `parseContent`, a loop
over what the XML reader delivers until it meets an end tag with the local name of the node. A
child element is handed to `OnNSChildElement`, which either starts a node reader for it or leaves
it; nothing skips what an element left in this way has inside. The node readers that are at work
are kept as a stack of frames, and `step` is what they do with the next entity.

The classes derived from `CModelReaderNode` differ in the functions they override (`NodeReaders`);
the root nodes are read by the loop of `CModelReader_3MF::readStream`.
-/

namespace NMR

open Lib

/-- `NMR_MAXXMLSTRINGLENGTH`. -/
def maxXMLStringLength : Nat := 1000000

/-- `nfStrLen`. -/
def nfStrLen (s : String) : Except Error Nat :=
  if s.utf8ByteSize > maxXMLStringLength then .error .invalidBufferSize else .ok s.utf8ByteSize

/-- The reader takes texts of this length. -/
def Short (s : String) : Prop := s.utf8ByteSize ≤ maxXMLStringLength

theorem nfStrLen_ok {s : String} {n : Nat} : nfStrLen s = .ok n ↔ Short s ∧ n = s.utf8ByteSize := by
  unfold nfStrLen Short
  split_ifs with h
  · simp
    omega
  · simp only [Except.ok.injEq]
    omega

theorem nfStrLen_bind {α : Type} {s : String} {f : Nat → Except Error α} {a : α} :
    (nfStrLen s >>= f) = .ok a ↔ Short s ∧ f s.utf8ByteSize = .ok a := by
  rw [bind_eq_ok]
  constructor
  · intro ⟨n, hn, hf⟩
    obtain ⟨hs, rfl⟩ := nfStrLen_ok.1 hn
    exact ⟨hs, hf⟩
  · intro ⟨hs, hf⟩
    exact ⟨_, nfStrLen_ok.2 ⟨hs, rfl⟩, hf⟩

/-- What the classes derived from `CModelReaderNode` do: `ν` are the node readers, `ω` the model
they read into. A child element that `OnNSChildElement` reads gives the node reader made for it,
and `afterChild`, with the name of the child, is the rest of the function once that is done. -/
structure NodeReaders (ν ω : Type) where
  onAttribute : ν → ω → String → String → Except Error (ν × ω)
  onNSAttribute : ν → ω → String → String → String → Except Error (ν × ω)
  /-- `parseXML` between `parseAttributes` and `parseContent`. -/
  afterAttributes : XmlReader → ν → ω → Except Error (ν × ω)
  /-- `parseXML` calls `parseContent`. -/
  hasContent : ν → Bool
  onNSChildElement : ν → ω → String → String → Except Error (ν × ω × Option ν)
  afterChild : XmlReader → ν → ω → String → ν → Except Error (ν × ω)
  onText : ν → ω → String → Except Error (ν × ω)
  /-- `parseXML` after `parseContent`. -/
  afterContent : XmlReader → ν → ω → Except Error (ν × ω)
  /-- A node of the document, by its name in the loop over the root nodes. -/
  onRootNode : ω → String → Except Error (ω × Option ν)
  afterRootNode : ω → ν → Except Error ω
  /-- `readStream` after the loop. -/
  afterDocument : ω → Except Error ω

/-- Where a node reader is: in `parseAttributes`, perhaps between a name and its value, or in
`parseContent`. -/
inductive NodePhase where
  | attributes (pending : Option XmlEntity)
  | content
  deriving DecidableEq

/-- A node reader at work; `m_sName` is not empty after `parseName`. -/
structure NodeFrame (ν : Type) where
  name : String
  named : name ≠ ""
  node : ν
  phase : NodePhase

/-- The node readers at work, the innermost one first, what they read into, and the XML reader. -/
structure NodeStack (ν ω : Type) where
  frames : List (NodeFrame ν)
  world : ω
  reader : XmlReader

/-- The first node reader is in `parseAttributes`. -/
def NodeStack.inAttributes {ν ω : Type} (K : NodeStack ν ω) : Bool :=
  K.frames.head?.any fun f => f.phase ≠ .content

namespace NodeReaders

variable {ν ω : Type} (R : NodeReaders ν ω)

/-- The end of the first node reader: the rest of its `parseXML`, and of what had called it. -/
def pop (K : NodeStack ν ω) (f : NodeFrame ν) (fs : List (NodeFrame ν)) :
    Except Error (NodeStack ν ω) := do
  let (node, world) ← R.afterContent K.reader f.node K.world
  match fs with
  | [] =>
    let world ← R.afterRootNode world node
    .ok { K with frames := [], world := world }
  | p :: ps =>
    let (parent, world) ← R.afterChild K.reader p.node world f.name node
    .ok { K with frames := { p with node := parent } :: ps, world := world }

/-- `parseName` of a new node reader, which then goes on with `parseAttributes`. -/
def push (K : NodeStack ν ω) (child : ν) : Except Error (NodeStack ν ω) :=
  if h : K.reader.currentName = "" then .error .nodeNameIsEmpty
  else .ok { K with frames := ⟨K.reader.currentName, h, child, .attributes none⟩ :: K.frames }

/-- One turn of the loop over the root nodes, once `Read` has returned. -/
def rootTurn (K : NodeStack ν ω) (reader : XmlReader) : Except Error (NodeStack ν ω) := do
  let (world, child) ← R.onRootNode K.world reader.currentName
  match child with
  | none => .ok ⟨[], world, reader⟩
  | some child => push ⟨[], world, reader⟩ child

/-- One turn of the loop of `parseContent`, in the node reader `f`, once `Read` has returned. -/
def contentTurn (K : NodeStack ν ω) (f : NodeFrame ν) (fs : List (NodeFrame ν)) :
    XmlReaderNodeType × XmlReader → Except Error (NodeStack ν ω)
  | (.startElement, reader) => do
    let count ← nfStrLen reader.currentName
    match reader.getNamespaceURI with
    | none => .error .couldNotGetNamespace
    | some uri =>
      if count > 0 then
        let (node, world, child) ← R.onNSChildElement f.node K.world reader.currentName uri
        let K := ⟨{ f with node := node } :: fs, world, reader⟩
        match child with
        | none => .ok K
        | some child => push K child
      else .ok { K with reader := reader }
  | (.text, reader) => do
    let count ← nfStrLen reader.currentValue
    if count > 0 then
      let (node, world) ← R.onText f.node K.world reader.currentValue
      .ok ⟨{ f with node := node } :: fs, world, reader⟩
    else .ok { K with reader := reader }
  | (.endElement, reader) => do
    let _ ← nfStrLen reader.currentName
    if reader.currentName = f.name then R.pop { K with reader := reader } f fs
    else .ok { K with reader := reader }
  | (.unknown, reader) => .ok { K with reader := reader }

/-- What `Read` returned, in `parseContent` of the first node reader or in the loop over the root
nodes. -/
def readTurn (K : NodeStack ν ω) (read : XmlReaderNodeType × XmlReader) :
    Except Error (NodeStack ν ω) :=
  match K.frames with
  | [] => R.rootTurn K read.2
  | f :: fs => R.contentTurn K f fs read

/-- One turn of the loop of `parseAttributes`, where there is an attribute. -/
def attributeTurn (K : NodeStack ν ω) (f : NodeFrame ν) (fs : List (NodeFrame ν))
    (reader : XmlReader) : Except Error (NodeStack ν ω) := do
  match reader.getNamespaceURI with
  | none => .error .couldNotGetNamespace
  | some uri =>
    let count ← nfStrLen reader.currentName
    let _ ← nfStrLen reader.currentValue
    if count > 0 then
      let (node, world) ←
        if uri = "" then R.onAttribute f.node K.world reader.currentName reader.currentValue
        else R.onNSAttribute f.node K.world reader.currentName reader.currentValue uri
      .ok ⟨{ f with node := node, phase := .attributes none } :: fs, world, reader⟩
    else .ok ⟨{ f with phase := .attributes none } :: fs, K.world, reader⟩

/-- The end of `parseAttributes`, where there is no attribute. -/
def closeAttributes (K : NodeStack ν ω) (f : NodeFrame ν) (fs : List (NodeFrame ν))
    (reader : XmlReader) : Except Error (NodeStack ν ω) := do
  let (node, world) ← R.afterAttributes reader f.node K.world
  if R.hasContent node then
    .ok ⟨{ f with node := node, phase := .content } :: fs, world, reader⟩
  else R.pop ⟨f :: fs, world, reader⟩ { f with node := node } fs

/-- What `MoveToNextAttribute` returned, in `parseAttributes` of the first node reader. -/
def moveTurn (K : NodeStack ν ω) (found : Bool) (reader : XmlReader) :
    Except Error (NodeStack ν ω) :=
  match K.frames with
  | [] => .ok { K with reader := reader }
  | f :: fs => if found then R.attributeTurn K f fs reader else R.closeAttributes K f fs reader

/-- What the node readers do with the next entity. -/
def step (K : NodeStack ν ω) (e : XmlEntity) : Except Error (NodeStack ν ω) :=
  match K.frames with
  | [] => R.rootTurn K (K.reader.readEntity e).2
  | f :: fs =>
    match f.phase with
    | .content => R.contentTurn K f fs (K.reader.readEntity e)
    | .attributes none =>
      if e.type = .attribName then
        .ok { K with frames := { f with phase := .attributes (some e) } :: fs }
      else do
        let K ← R.closeAttributes K f fs { K.reader with nameSpaceIsAttribute := true }
        R.readTurn K (K.reader.readEntity e)
    | .attributes (some name) =>
      if e.type = .attribValue then R.attributeTurn K f fs (K.reader.takeAttribute name e)
      else .error .xmlParserInvalidAttribValue

/-- The loops of the node readers end, the innermost one first, and then the loop over the root
nodes. -/
def finish : Nat → NodeStack ν ω → Except Error ω
  | 0, K => R.afterDocument K.world
  | n + 1, K =>
    match K.frames with
    | [] => R.afterDocument K.world
    | f :: fs => do
      let K ← R.pop K f fs
      finish n K

/-- The end of the document, where `MoveToNextAttribute` or `Read` finds nothing. -/
def endTurn (K : NodeStack ν ω) (reader : XmlReader) : Except Error (NodeStack ν ω) :=
  if K.inAttributes then R.moveTurn K false reader else .ok { K with reader := reader }

def endDocument (K : NodeStack ν ω) : Except Error ω := do
  let K ← R.endTurn K { K.reader with isEOF := true }
  R.finish K.frames.length K

/-- Nothing is read yet. -/
def start (world : ω) : NodeStack ν ω := ⟨[], world, .create⟩

/-- The node readers after the entities `es`. -/
def feed (K : NodeStack ν ω) (es : List XmlEntity) : Except Error (NodeStack ν ω) :=
  es.foldlM R.step K

/-- `readStream`, on the entities of the stream. -/
def readDocument (world : ω) (es : List XmlEntity) : Except Error ω := do
  let K ← R.feed (start world) es
  R.endDocument K

end NodeReaders

end NMR
