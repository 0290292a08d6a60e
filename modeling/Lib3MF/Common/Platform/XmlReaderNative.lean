import Lib3MF.Lib.Except
import Lib3MF.Common.Platform.XmlReader

/-!
# The XML reader on its buffers

`CXmlReader_Native` parses one buffer after the other. What the parse functions look at is ahead
of what they write, so they are a machine over the characters of the buffer, with a `ParseMode` for
each loop they can be in: `parseChar` says which calls of `pushEntity` and `pushZeroInsert` a
character leads to, and `XmlBuffer.perform` what those do to the buffer and the arrays. A pointer
is an offset in the buffer; all arrays have the capacity of the buffer, and a write behind that is
`outOfBounds`. The strings that `Read` and `MoveToNextAttribute` set the reader to are taken when
they are called. The bytes of an earlier buffer behind one that is filled in part are left out, and
so is the progress monitor.
-/

namespace NMR

open Lib

/-- How parsing fails: by a throw, or by a write outside of an array. -/
inductive XmlFault where
  | throws (e : Error)
  | outOfBounds
  deriving DecidableEq

/-- A function that throws. -/
def throwing {α : Type} : Except Error α → Except XmlFault α
  | .ok a => .ok a
  | .error e => .error (.throws e)

/-- Tab, line feed, carriage return and space. -/
def isXmlSpace (c : UInt8) : Bool := c = 9 ∨ c = 10 ∨ c = 13 ∨ c = 32

/-! ## Escape sequences -/

/-- `strncmp(pAmp, escape, min(strlen(escape), strlen(pAmp)))` is zero. -/
def matchesEscape (escape seq : List UInt8) : Bool :=
  seq.take (min escape.length seq.length) = escape.take (min escape.length seq.length)

/-- The characters of a string of the source. -/
def xmlBytes (s : List Char) : List UInt8 := s.map Char.toUInt8

/-- The character an escape sequence stands for. -/
def decodeEscape (seq : List UInt8) : Except Error UInt8 :=
  if matchesEscape (xmlBytes ['&', 'q', 'u', 'o', 't', ';']) seq then .ok '"'.toUInt8
  else if matchesEscape (xmlBytes ['&', 'a', 'p', 'o', 's', ';']) seq then .ok '\''.toUInt8
  else if matchesEscape (xmlBytes ['&', 'l', 't', ';']) seq then .ok '<'.toUInt8
  else if matchesEscape (xmlBytes ['&', 'g', 't', ';']) seq then .ok '>'.toUInt8
  else if matchesEscape (xmlBytes ['&', 'a', 'm', 'p', ';']) seq then .ok '&'.toUInt8
  else .error .xmlParserInvalidEscapeString

/-- The loop of `decodeXMLEscapeXMLStrings`: what is written, and what follows the last `&`. -/
def decodeLoop (written : List UInt8) (amp : Option (List UInt8)) :
    List UInt8 → Except Error (List UInt8)
  | [] => if amp.isSome then .error .xmlParserInvalidEscapeString else .ok written
  | c :: cs =>
    if c = '&'.toUInt8 then decodeLoop written (some [c]) cs
    else
      match amp with
      | none => decodeLoop (written ++ [c]) none cs
      | some seq =>
        if c = ';'.toUInt8 then
          match decodeEscape (seq ++ [c]) with
          | .error e => .error e
          | .ok d => decodeLoop (written ++ [d]) none cs
        else decodeLoop written (some (seq ++ [c])) cs

/-- `decodeXMLEscapeXMLStrings`. -/
def decodeXMLEscapeXMLStrings (s : List UInt8) : Except Error (List UInt8) :=
  if '&'.toUInt8 ∈ s then decodeLoop [] none s else .ok s

/-- The string at `p`, up to the next zero. -/
def cString (chars : List UInt8) (p : Nat) : List UInt8 := (chars.drop p).takeWhile (· ≠ 0)

/-- `decodeXMLEscapeXMLStrings` in place, with the zero behind the result. -/
def decodeAt (chars : List UInt8) (p : Nat) : Except Error (List UInt8) :=
  if '&'.toUInt8 ∈ cString chars p then
    match decodeXMLEscapeXMLStrings (cString chars p) with
    | .error e => .error e
    | .ok d => .ok (chars.take p ++ (d ++ [0]) ++ chars.drop (p + (d.length + 1)))
  else .ok chars

/-! ## The buffer and its entities -/

/-- An entry of `m_CurrentEntityTypes`, `m_CurrentEntityPrefixes` (`none` is the empty string) and
`m_CurrentEntityList`. -/
structure NativeEntity where
  type : XmlEntityType
  nsPrefix : Option Nat
  name : Nat
  deriving DecidableEq

/-- What parsing changes: the buffer, the entities and the zeros still to be inserted. -/
structure XmlBuffer where
  capacity : Nat
  chars : List UInt8
  entities : List NativeEntity
  zeroInserts : List Nat
  verifiedEntityCount : Nat
  fullEntityCount : Nat
  entityPointer : Option Nat
  deriving DecidableEq

namespace XmlBuffer

/-- `pushZeroInsert`. -/
def pushZeroInsert (s : XmlBuffer) (p : Nat) : Except XmlFault XmlBuffer :=
  if s.zeroInserts.length < s.capacity then .ok { s with zeroInserts := s.zeroInserts ++ [p] }
  else .error .outOfBounds

/-- `performZeroInserts`. -/
def performZeroInserts (s : XmlBuffer) : XmlBuffer :=
  { s with chars := s.zeroInserts.foldl (fun chars p => chars.set p 0) s.chars, zeroInserts := [] }

/-- `performEscapeStringDecoding`: all new entities but the last. -/
def performEscapeStringDecoding (s : XmlBuffer) : Except Error XmlBuffer :=
  match (s.entities.dropLast.drop s.verifiedEntityCount).foldlM
      (fun chars e => decodeAt chars e.name) s.chars with
  | .error e => .error e
  | .ok chars => .ok { s with chars := chars, verifiedEntityCount := s.entities.length }

/-- The colon in a name; `p` is the offset of its first character. -/
def findColon (p : Nat) (colon : Option Nat) : List UInt8 → Except Error (Option Nat)
  | [] => .ok colon
  | c :: cs =>
    if c = 0 then .error .xmlParserInvalidEndDelimiter
    else if c = ':'.toUInt8 then
      if colon.isSome then .error .xmlParserInvalidNamespacePrefix
      else findColon (p + 1) (some p) cs
    else findColon (p + 1) colon cs

/-- The characters from `start` to `delim`. -/
def slice (chars : List UInt8) (start delim : Nat) : List UInt8 :=
  (chars.drop start).take (delim - start)

/-- The first part of `pushEntity`: the entity, with its name space prefix cut off. -/
def splitPrefix (s : XmlBuffer) (start delim : Nat) (type : XmlEntityType) (ns : Bool) :
    Except XmlFault (XmlBuffer × NativeEntity) :=
  if ns then
    match findColon start none (slice s.chars start delim) with
    | .error e => .error (.throws e)
    | .ok none => .ok (s, ⟨type, none, start⟩)
    | .ok (some colon) =>
      match s.pushZeroInsert colon with
      | .error e => .error e
      | .ok s => .ok (s, ⟨type, some start, colon + 1⟩)
  else .ok (s, ⟨type, none, start⟩)

/-- The entity is written. -/
def writeEntity (s : XmlBuffer) (e : NativeEntity) : Except XmlFault XmlBuffer :=
  if s.entities.length < s.capacity then .ok { s with entities := s.entities ++ [e] }
  else .error .outOfBounds

/-- The end of `pushEntity`, for a full entity. -/
def finishEntity (s : XmlBuffer) (next : Nat) : Except XmlFault XmlBuffer :=
  throwing (performZeroInserts { s with
    entityPointer := some next, fullEntityCount := s.entities.length }).performEscapeStringDecoding

/-- `pushEntity`. -/
def pushEntity (s : XmlBuffer) (start delim next : Nat) (type : XmlEntityType)
    (ns finished : Bool) : Except XmlFault XmlBuffer := do
  let (s, e) ← s.splitPrefix start delim type ns
  let s ← s.writeEntity e
  if finished then s.finishEntity next else .ok s

end XmlBuffer

/-! ## The parse functions -/

/-- The loops of the parse functions, with their `pszStart` and flags. -/
inductive ParseMode where
  /-- `parseText`. -/
  | text (start : Nat)
  /-- The rest of the `<!--` that `parseText` has seen. -/
  | commentOpen (rest : Nat)
  /-- `parseComment`, with `endPosition`. -/
  | comment (endPosition : Nat)
  /-- `parseElement`. -/
  | element (start : Nat)
  /-- `parseProcessingInstruction`. -/
  | instruction (start : Nat)
  /-- `parseCloseProcessingInstruction`. -/
  | closeInstruction
  /-- `parseEndElement`. -/
  | endElement (start : Nat)
  /-- `parseCloseElement`. -/
  | closeElement
  /-- `parseAttributes`; the space that `skipSpaces` may take its loop would take as well. -/
  | attributes
  /-- `parseAttributeName`, with `bHadSpacing`. -/
  | attributeName (start : Nat) (hadSpacing : Bool)
  /-- `parseAttributeValue` before its `skipSpaces`. -/
  | attributeValueStart
  /-- `parseAttributeValue`, with `bHadSpacing`. -/
  | attributeValue (hadSpacing : Bool)
  /-- `parseAttributeValueDoubleQuote` and `parseAttributeValueSingleQuote`. -/
  | quoted (start : Nat) (quote : UInt8)
  deriving DecidableEq

/-- A call of `pushEntity` or `pushZeroInsert`. -/
inductive ParseAction where
  | entity (start delim next : Nat) (type : XmlEntityType) (ns finished : Bool)
  | zeroInsert (p : Nat)
  deriving DecidableEq

/-- The characters behind a `<` make it a comment. -/
def startsComment (ahead : List UInt8) : Bool := ahead.take 3 = xmlBytes ['!', '-', '-']

/-- `commentEnd`. -/
def commentEnd (endPosition : Nat) : UInt8 := if endPosition = 2 then '>'.toUInt8 else '-'.toUInt8

/-- What a character leads to: the calls in their order, and the mode behind it. -/
abbrev ParseResult := Except Error (List ParseAction × ParseMode)

/-- The loop of `parseAttributeName`. It leaves a `=` behind spaces to `parseAttributeValue`, which
passes over it. -/
def parseAttributeNameChar (start : Nat) (hadSpacing : Bool) (p : Nat) (c : UInt8) : ParseResult :=
  if isXmlSpace c then
    .ok ([.entity start p (p + 1) .attribName true false, .zeroInsert p], .attributeName start true)
  else if c = '"'.toUInt8 ∨ c = '\''.toUInt8 then .error .xmlParserInvalidAttributeName
  else if c = '='.toUInt8 then
    if hadSpacing then .ok ([], .attributeValue false)
    else .ok ([.entity start p (p + 1) .attribName true false, .zeroInsert p], .attributeValueStart)
  else if hadSpacing then .error .xmlParserSpaceInAttributeName
  else .ok ([], .attributeName start false)

/-- The loop of `parseAttributeValue`. -/
def parseAttributeValueChar (hadSpacing : Bool) (p : Nat) (c : UInt8) : ParseResult :=
  if isXmlSpace c then .ok ([], .attributeValue true)
  else if c = '"'.toUInt8 ∨ c = '\''.toUInt8 then .ok ([], .quoted (p + 1) c)
  else if hadSpacing then .error .xmlParserNoQuotesAroundAttribute
  else .ok ([], .attributeValue false)

/-- One character, at `p`, with what is ahead of it. -/
def parseChar (mode : ParseMode) (p : Nat) (c : UInt8) (ahead : List UInt8) : ParseResult :=
  match mode with
  | .text start =>
    if c = '<'.toUInt8 then
      if startsComment ahead then .ok ([], .commentOpen 3)
      else if p = start then .ok ([.zeroInsert p], .element (p + 1))
      else .ok ([.entity start p p .text false true, .zeroInsert p], .element (p + 1))
    else .ok ([], .text start)
  | .commentOpen rest => .ok ([], if rest ≤ 1 then .comment 0 else .commentOpen (rest - 1))
  | .comment endPosition =>
    -- the `>` is left to `parseText`
    if c = commentEnd endPosition then
      .ok ([], if endPosition = 2 then .text p else .comment (endPosition + 1))
    else .ok ([], .comment (if c = '-'.toUInt8 then endPosition else 0))
  | .element start =>
    if isXmlSpace c then
      if start = p then .error .xmlParserEmptyElementName
      else .ok ([.entity start p p .element true false, .zeroInsert p], .attributes)
    else if c = '?'.toUInt8 then
      if start = p then .ok ([], .instruction (p + 1))
      else .error .xmlParserInvalidCharacterInElementName
    else if c = '>'.toUInt8 then
      .ok ([.zeroInsert p, .entity start p (p + 1) .element true true], .text (p + 1))
    else if c = '/'.toUInt8 then
      if start = p then .ok ([], .endElement (p + 1))
      else .ok ([.entity start p (p + 1) .element true false, .zeroInsert p], .closeElement)
    else .ok ([], .element start)
  | .instruction start =>
    if isXmlSpace c then
      if start = p then .error .xmlParserEmptyInstructionName
      else .ok ([.entity start p p .processingInstruction true false, .zeroInsert p], .attributes)
    else if c = '/'.toUInt8 then .error .xmlParserInvalidInstructionName
    else if c = '?'.toUInt8 then
      if start = p then .error .xmlParserEmptyInstructionName
      else .ok ([.entity start p p .processingInstruction true false, .zeroInsert p],
        .closeInstruction)
    else .ok ([], .instruction start)
  | .closeInstruction =>
    if c = '>'.toUInt8 then
      .ok ([.zeroInsert p, .entity p p (p + 1) .processingInstructionEnd false true], .text (p + 1))
    else .error .xmlParserCouldNotCloseInstruction
  | .endElement start =>
    if isXmlSpace c then .ok ([], .endElement start)
    else if c = '/'.toUInt8 ∨ c = '?'.toUInt8 then .error .xmlParserCouldNotEndElement
    else if c = '>'.toUInt8 then
      if start = p then .error .xmlParserEmptyEndElement
      else .ok ([.zeroInsert p, .entity start p (p + 1) .elementEnd true true], .text (p + 1))
    else .ok ([], .endElement start)
  | .closeElement =>
    if c = '>'.toUInt8 then
      .ok ([.zeroInsert p, .entity p p (p + 1) .closeElement false true], .text (p + 1))
    else .error .xmlParserCouldNotCloseElement
  | .attributes =>
    if isXmlSpace c then .ok ([], .attributes)
    else if c = '>'.toUInt8 then .ok ([], .text (p + 1))
    else if c = '/'.toUInt8 then .ok ([], .closeElement)
    else if c = '?'.toUInt8 then .ok ([], .closeInstruction)
    else parseAttributeNameChar p false p c
  | .attributeName start hadSpacing => parseAttributeNameChar start hadSpacing p c
  | .attributeValueStart =>
    if isXmlSpace c then .ok ([], .attributeValue false) else parseAttributeValueChar false p c
  | .attributeValue hadSpacing => parseAttributeValueChar hadSpacing p c
  | .quoted start quote =>
    if c = quote then
      .ok ([.zeroInsert p, .entity start p (p + 1) .attribValue false false], .attributes)
    else .ok ([], .quoted start quote)

namespace XmlBuffer

/-- One call. -/
def perform (s : XmlBuffer) : ParseAction → Except XmlFault XmlBuffer
  | .entity start delim next type ns finished => s.pushEntity start delim next type ns finished
  | .zeroInsert p => s.pushZeroInsert p

/-- Parsing on in a mode, at `p`. -/
def parseFrom (mode : ParseMode) (p : Nat) : List UInt8 → XmlBuffer → Except XmlFault XmlBuffer
  | [], s => .ok s
  | c :: cs, s =>
    match parseChar mode p c cs with
    | .error e => .error (.throws e)
    | .ok (actions, mode) =>
      match actions.foldlM perform s with
      | .error e => .error e
      | .ok s => parseFrom mode (p + 1) cs s

/-- `parseUnknown` on a buffer filled with `chars`. Every round of its loop takes a character, so it
never throws for want of one. -/
def parseUnknown (capacity : Nat) (chars : List UInt8) : Except XmlFault XmlBuffer :=
  parseFrom (.text 0) 0 chars ⟨capacity, chars, [], [], 0, 0, none⟩

end XmlBuffer

/-! ## The reader -/

/-- A stream that delivers at most `sizes` characters, one read after the other, and behind them
as many as asked for. -/
structure NativeStream where
  data : List UInt8
  sizes : List Nat
  deriving DecidableEq

/-- `readBuffer`. -/
def NativeStream.readBuffer (s : NativeStream) (size : Nat) : List UInt8 × NativeStream :=
  let n := min size (s.sizes.headD size)
  (s.data.take n, ⟨s.data.drop n, s.sizes.tail⟩)

/-- `CXmlReader_Native`. -/
structure NativeReader where
  stream : NativeStream
  buffer : XmlBuffer
  overflowSize : Nat
  entityIndex : Nat
  isEOF : Bool
  currentName : List UInt8
  currentPrefix : List UInt8
  currentValue : List UInt8
  currentElementName : List UInt8
  currentElementPrefix : List UInt8
  deriving DecidableEq

/-- `NMR_NATIVEXMLREADER_BUFFERMARGIN`, `NMR_NATIVEXMLREADER_MINBUFFERCAPACITY` and
`NMR_NATIVEXMLREADER_MAXBUFFERCAPACITY`. -/
def bufferMargin : Nat := 8

def minBufferCapacity : Nat := 1024

def maxBufferCapacity : Nat := 1024 * 1024 * 1024

namespace NativeReader

/-- The constructor. -/
def create (stream : NativeStream) (capacity : Nat) : Except XmlFault NativeReader :=
  if capacity < minBufferCapacity ∨ maxBufferCapacity < capacity then
    .error (.throws .invalidBufferSize)
  else
    .ok ⟨stream, ⟨capacity, [], [], [], 0, 0, none⟩, 0, 0, false, [], [], [], [], []⟩

/-- `readNextBufferFromStream`. -/
def readNextBufferFromStream (r : NativeReader) : Except XmlFault NativeReader :=
  let readSize := r.buffer.capacity - bufferMargin
  if readSize < r.overflowSize ∨ r.buffer.chars.length < r.overflowSize then
    .error (.throws .invalidBufferSize)
  else
    let overflow := r.buffer.chars.drop (r.buffer.chars.length - r.overflowSize)
    let (data, stream) := r.stream.readBuffer (readSize - r.overflowSize)
    match XmlBuffer.parseUnknown r.buffer.capacity (overflow ++ data) with
    | .error e => .error e
    | .ok b =>
      .ok { r with
        stream := stream
        buffer := b
        overflowSize := (b.entityPointer.map fun p => b.chars.length - p).getD 0
        entityIndex := 0 }

/-- `ensureFilledBuffer`. -/
def ensureFilledBuffer (r : NativeReader) : Except XmlFault (NativeReader × Bool) :=
  if r.buffer.fullEntityCount ≤ r.entityIndex then
    match r.readNextBufferFromStream with
    | .error e => .error e
    | .ok r =>
      if r.buffer.fullEntityCount = 0 then .ok ({ r with isEOF := true }, false) else .ok (r, true)
  else .ok (r, true)

/-- The string of an entity. -/
def nameOf (r : NativeReader) (e : NativeEntity) : List UInt8 := cString r.buffer.chars e.name

/-- The name space prefix of an entity. -/
def prefixOf (r : NativeReader) (e : NativeEntity) : List UInt8 :=
  (e.nsPrefix.map fun p => cString r.buffer.chars p).getD []

/-- `Read` on the entity it stands on. -/
def readEntity (r : NativeReader) (e : NativeEntity) :
    Except XmlFault (NativeReader × XmlReaderNodeType) :=
  match e.type with
  | .text =>
    match decodeAt r.buffer.chars e.name with
    | .error e => .error (.throws e)
    | .ok chars =>
      .ok ({ r with
        buffer := { r.buffer with chars := chars }
        currentValue := cString chars e.name
        currentPrefix := []
        currentName := [] }, .text)
  | .element | .processingInstruction =>
    .ok ({ r with
      currentValue := [], currentPrefix := r.prefixOf e, currentName := r.nameOf e
      currentElementName := r.nameOf e, currentElementPrefix := r.prefixOf e }, .startElement)
  | .elementEnd | .processingInstructionEnd =>
    .ok ({ r with
      currentValue := [], currentPrefix := r.prefixOf e, currentName := r.nameOf e
      currentElementName := r.nameOf e, currentElementPrefix := r.prefixOf e }, .endElement)
  | .closeElement =>
    .ok ({ r with
      currentValue := []
      currentPrefix := r.currentElementPrefix, currentName := r.currentElementName
      currentElementName := [], currentElementPrefix := [] }, .endElement)
  | .attribName | .attribValue => .ok (r, .unknown)

/-- `Read`; `none` at the end of the file. -/
def read (r : NativeReader) : Except XmlFault (NativeReader × Option XmlReaderNodeType) :=
  match r.ensureFilledBuffer with
  | .error e => .error e
  | .ok (r, false) => .ok (r, none)
  | .ok (r, true) =>
    match r.buffer.entities[r.entityIndex]? with
    | none => .error .outOfBounds
    | some e =>
      match r.readEntity e with
      | .error e => .error e
      | .ok (r, type) => .ok ({ r with entityIndex := r.entityIndex + 1 }, some type)

/-- `MoveToNextAttribute`. -/
def moveToNextAttribute (r : NativeReader) : Except XmlFault (NativeReader × Bool) :=
  match r.ensureFilledBuffer with
  | .error e => .error e
  | .ok (r, false) => .ok (r, false)
  | .ok (r, true) =>
    match r.buffer.entities[r.entityIndex]? with
    | none => .error .outOfBounds
    | some e =>
      if e.type = .attribName then
        let r := { r with
          currentPrefix := r.prefixOf e, currentName := r.nameOf e, entityIndex := r.entityIndex + 1 }
        match r.ensureFilledBuffer with
        | .error e => .error e
        | .ok (r, false) => .ok (r, false)
        | .ok (r, true) =>
          match r.buffer.entities[r.entityIndex]? with
          | none => .error .outOfBounds
          | some e =>
            if e.type = .attribValue then
              .ok ({ r with currentValue := r.nameOf e, entityIndex := r.entityIndex + 1 }, true)
            else .error (.throws .xmlParserInvalidAttribValue)
      else .ok (r, false)

end NativeReader

end NMR
