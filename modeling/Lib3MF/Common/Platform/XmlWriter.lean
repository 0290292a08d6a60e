import Lib3MF.Lib.State
import Lib3MF.Common.Platform.XmlReaderNative
import Lib3MF.Model.Writer.ModelWriterNode

/-!
# The XML writer

`CXmlWriter_Native` on a stream in memory. A start tag stays open for attributes until something
else is written; `nodeStack` holds the elements that are not closed yet, the innermost first. A
string ends before its first zero, and an empty prefix or name space stands for the null pointer
too. A call that throws leaves what it has written.
-/

namespace NMR

open Lib

/-- A string of the source. -/
def xmlText (s : String) : List UInt8 := xmlBytes s.toList

/-- `NATIVEXMLFIXEDENCODINGLENGTH`. -/
def nativeXMLFixedEncodingLength : Nat := 2048

/-- `NATIVEXMLSPACING`. -/
def nativeXMLSpacing : UInt8 := 9

/-- `NATIVEXMLENCODING`. -/
def nativeXMLEncoding : List UInt8 := xmlText "<?xml version=\"1.0\" encoding=\"utf-8\"?>"

/-- `CXmlWriter_Native`, with the line ending of its compiler. -/
structure XmlWriter where
  lineEnding : List UInt8
  output : List UInt8
  isFreshLine : Bool
  layer : BitVec 32
  nodeStack : List (List UInt8)
  elementIsOpen : Bool
  deriving DecidableEq

/-- Functions that keep what they have written when they throw. -/
abbrev XmlWriterM := EStateM Error XmlWriter

/-- What `escapeXMLString` writes for a character. -/
def escapeXMLChar (c : UInt8) : List UInt8 :=
  if c = '"'.toUInt8 then xmlBytes ['&', 'q', 'u', 'o', 't', ';']
  else if c = '&'.toUInt8 then xmlBytes ['&', 'a', 'm', 'p', ';']
  else if c = '\''.toUInt8 then xmlBytes ['&', 'a', 'p', 'o', 's', ';']
  else if c = '<'.toUInt8 then xmlBytes ['&', 'l', 't', ';']
  else if c = '>'.toUInt8 then xmlBytes ['&', 'g', 't', ';']
  else [c]

/-- `escapeXMLString`. -/
def escapeXMLString (s : List UInt8) : List UInt8 := s.flatMap escapeXMLChar

namespace XmlWriter

/-- The constructor. -/
def create (lineEnding : List UInt8) : XmlWriter := ⟨lineEnding, [], true, 0, [], false⟩

/-- `writeData`. -/
def writeData (bytes : List UInt8) : XmlWriterM Unit :=
  modify fun w => { w with output := w.output ++ bytes }

/-- `writeUTF8`. -/
def writeUTF8 (s : List UInt8) (newLine : Bool) : XmlWriterM Unit := do
  require (s.length ≤ nativeXMLMaxStringLength) .insufficientBufferSize
  doIf (s ≠ []) do
    writeData s
    modify fun w => { w with isFreshLine := false }
  doIf newLine do
    let w ← get
    writeData w.lineEnding
    modify fun w => { w with isFreshLine := true }

/-- `writeSpaces`. -/
def writeSpaces (count : Nat) : XmlWriterM Unit := writeData (List.replicate count nativeXMLSpacing)

/-- `closeCurrentElement`. -/
def closeCurrentElement (newLine : Bool) : XmlWriterM Unit := do
  let w ← get
  doIf w.elementIsOpen do
    writeUTF8 (xmlText ">") newLine
    modify fun w => { w with elementIsOpen := false }

/-- The escaped string in `WriteAttributeString` and `WriteText`; one that is short goes through a
buffer of a fixed size. -/
def writeXMLString (s : List UInt8) : XmlWriterM Unit :=
  if s.length < nativeXMLFixedEncodingLength then writeUTF8 (escapeXMLString s) false
  else do
    require (s.length ≤ nativeXMLMaxStringLength) .invalidBufferSize
    writeUTF8 (escapeXMLString s) false

/-- `WriteStartDocument`; `WriteEndDocument` and `Flush` do nothing. -/
def writeStartDocument : XmlWriterM Unit := writeUTF8 nativeXMLEncoding true

/-- `WriteAttributeString`. -/
def writeAttributeString (nsPrefix localName value : List UInt8) : XmlWriterM Unit := do
  let w ← get
  doIf w.elementIsOpen do
    writeUTF8 (xmlText " ") false
    doIf (nsPrefix ≠ []) do
      writeUTF8 nsPrefix false
      writeUTF8 (xmlText ":") false
    writeUTF8 localName false
    writeUTF8 (xmlText "=\"") false
    writeXMLString value
    writeUTF8 (xmlText "\"") false

/-- The name with its prefix, `sNodePrefix + sNodeName`. -/
def nodeName (nsPrefix localName : List UInt8) : List UInt8 :=
  (if nsPrefix = [] then [] else nsPrefix ++ xmlText ":") ++ localName

/-- `WriteStartElement`. -/
def writeStartElement (nsPrefix localName nameSpace : List UInt8) : XmlWriterM Unit := do
  closeCurrentElement true
  let w ← get
  writeSpaces w.layer.toNat
  writeUTF8 (xmlText "<") false
  modify fun w => { w with elementIsOpen := true }
  doIf (nsPrefix ≠ []) (writeUTF8 (nsPrefix ++ xmlText ":") false)
  writeUTF8 localName false
  modify fun w => { w with
    nodeStack := nodeName nsPrefix localName :: w.nodeStack, layer := w.layer + 1 }
  doIf (nameSpace ≠ []) do
    writeUTF8 (xmlText " xmlns=\"") false
    writeUTF8 nameSpace false
    writeUTF8 (xmlText "\"") false

/-- The last element of `m_NodeStack` is removed. -/
def popNode : XmlWriterM (List UInt8) := fun w =>
  match w.nodeStack with
  | [] => .error .xmlWriterCloseNodeError w
  | name :: names =>
    if w.layer = 0 then .error .xmlWriterCloseNodeError w
    else .ok name { w with nodeStack := names, layer := w.layer - 1 }

/-- `WriteFullEndElement`. -/
def writeFullEndElement : XmlWriterM Unit := do
  closeCurrentElement false
  let name ← popNode
  let w ← get
  doIf w.isFreshLine (writeSpaces w.layer.toNat)
  writeUTF8 (xmlText "</") false
  writeUTF8 name false
  writeUTF8 (xmlText ">") true

/-- `WriteEndElement`. -/
def writeEndElement : XmlWriterM Unit := do
  let w ← get
  if w.elementIsOpen then
    writeUTF8 (xmlText "/>") true
    modify fun w => { w with elementIsOpen := false }
    let _ ← popNode
  else writeFullEndElement

/-- `WriteText`. -/
def writeText (content : List UInt8) : XmlWriterM Unit := do
  closeCurrentElement false
  writeXMLString content

/-- `WriteRawLine`. -/
def writeRawLine (bytes : List UInt8) : XmlWriterM Unit := do
  let w ← get
  doIf w.elementIsOpen (closeCurrentElement true)
  writeSpaces w.layer.toNat
  writeData bytes
  writeData w.lineEnding

end XmlWriter

end NMR
