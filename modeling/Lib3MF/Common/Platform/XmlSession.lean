import Lib3MF.Common.Platform.XmlWriter

/-!
# Calls of the XML writer and of the XML reader

A document is written by a sequence of calls of `CXmlWriter_Native`, and read by calls of `Read`
and `MoveToNextAttribute` in any order. A value is fetched with its length, as all callers do, and
`nfStrLen` takes no more than `NMR_MAXXMLSTRINGLENGTH` characters.
-/

namespace NMR

open Lib

/-! ## Writing -/

/-- `NATIVEXMLENCODINGBUFFERSIZE`. -/
def nativeXMLEncodingBufferSize : Nat := nativeXMLFixedEncodingLength * 6 + 1

/-- The size of the buffer in which `WriteAttributeString` and `WriteText` escape a string. -/
def encodingBufferSize (s : List UInt8) : Nat :=
  if s.length < nativeXMLFixedEncodingLength then nativeXMLEncodingBufferSize
  else (s.length + 1) * 6

/-- The calls of the writer. -/
inductive XmlWriterCall where
  | startElement (nsPrefix localName nameSpace : List UInt8)
  | attributeString (nsPrefix localName value : List UInt8)
  | text (content : List UInt8)
  | endElement
  | fullEndElement
  deriving DecidableEq

namespace XmlWriter

/-- One call. -/
def call : XmlWriterCall → XmlWriterM Unit
  | .startElement nsPrefix localName nameSpace => writeStartElement nsPrefix localName nameSpace
  | .attributeString nsPrefix localName value => writeAttributeString nsPrefix localName value
  | .text content => writeText content
  | .endElement => writeEndElement
  | .fullEndElement => writeFullEndElement

/-- A document; `declared` is whether it begins with `WriteStartDocument`. -/
def writeDocument (declared : Bool) (calls : List XmlWriterCall) : XmlWriterM Unit := do
  doIf declared writeStartDocument
  calls.forM call

end XmlWriter

/-! ## Reading -/

/-- The calls of the reader. -/
inductive NativeReaderCall where
  | read
  | moveToNextAttribute
  deriving DecidableEq

namespace NativeReader

/-- `NMR_MAXXMLSTRINGLENGTH`. -/
def maxXmlStringLength : Nat := 1000000

/-- `nfStrLen`. -/
def nfStrLen (s : List UInt8) : Except Error Nat :=
  if maxXmlStringLength < s.length then .error .invalidBufferSize else .ok s.length

/-- What `GetValue` fills in when the value is `s`. -/
def valueWithLength (s : List UInt8) : Except Error (List UInt8) :=
  match nfStrLen s with
  | .error e => .error e
  | .ok n => .ok (s.take n)

/-- `GetValue`. -/
def getValue (r : NativeReader) : Except Error (List UInt8) := valueWithLength r.currentValue

end NativeReader

end NMR
