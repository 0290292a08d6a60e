import Lib3MF.Common.Platform.XmlSession

/-!
# The XML reader with its name spaces

`NativeReader` is `CXmlReader_Native` without its name spaces; `ScopedReader` keeps them beside it.
`MoveToNextAttribute` enters a declaration when it passes it, for the rest of the document. The
functions that read a document with it are loops until its end, so they have fuel.
-/

namespace NMR

/-- `CXmlReader_Native`, with `m_sNameSpaces`, `m_sDefaultNameSpace` and
`m_bNameSpaceIsAttribute`. -/
structure ScopedReader where
  native : NativeReader
  nameSpaces : List (List UInt8 × List UInt8)
  defaultNameSpace : List UInt8
  nameSpaceIsAttribute : Bool
  deriving DecidableEq

/-- `NMR_PLATFORM_XMLREADER_BUFFERSIZE`. -/
def xmlReaderBufferSize : Nat := 65536

namespace ScopedReader

/-- `NMR_NATIVEXMLNS_XML_PREFIX` and `NMR_NATIVEXMLNS_XMLNS_PREFIX` with their URIs. -/
def builtInNameSpaces : List (List UInt8 × List UInt8) :=
  [(xmlText "xml", xmlText "http://www.w3.org/XML/1998/namespace"),
    (xmlText "xmlns", xmlText "http://www.w3.org/2000/xmlns/")]

/-- The constructor. -/
def create (stream : NativeStream) (capacity : Nat) : Except XmlFault ScopedReader :=
  match NativeReader.create stream capacity with
  | .error e => .error e
  | .ok native => .ok ⟨native, builtInNameSpaces, [], false⟩

/-- `registerNameSpace`: `std::map::insert`, which leaves a prefix that is there. -/
def registerNameSpace (r : ScopedReader) (nsPrefix uri : List UInt8) : ScopedReader :=
  if (r.nameSpaces.lookup nsPrefix).isSome then r
  else { r with nameSpaces := r.nameSpaces ++ [(nsPrefix, uri)] }

/-- `GetNamespaceURI`; `none` is the null pointer of a prefix that is not in the map. -/
def getNamespaceURI (r : ScopedReader) : Option (List UInt8) :=
  if r.native.currentPrefix = [] then
    if r.nameSpaceIsAttribute then some [] else some r.defaultNameSpace
  else r.nameSpaces.lookup r.native.currentPrefix

/-- `Read` sets `m_bNameSpaceIsAttribute` back on these entities. -/
def endsAttributes : XmlEntityType → Bool
  | .closeElement | .attribName | .attribValue => false
  | _ => true

/-- `m_bNameSpaceIsAttribute` once `Read` has passed the entity that the reader stands on. -/
def flagBehind (r : ScopedReader) (native : NativeReader) : Bool :=
  match native.buffer.entities[native.entityIndex]? with
  | none => r.nameSpaceIsAttribute
  | some e => r.nameSpaceIsAttribute && !endsAttributes e.type

/-- `Read`; `none` at the end of the file. -/
def read (r : ScopedReader) : Except XmlFault (ScopedReader × Option XmlReaderNodeType) :=
  match r.native.ensureFilledBuffer with
  | .error e => .error e
  | .ok (native, false) => .ok ({ r with native := native }, none)
  | .ok (native, true) =>
    match native.read with
    | .error e => .error e
    | .ok (native', type) =>
      .ok ({ r with native := native', nameSpaceIsAttribute := r.flagBehind native }, type)

/-- What `MoveToNextAttribute` does with an attribute that declares a name space. -/
def registerAttribute (r : ScopedReader) : ScopedReader :=
  let name := r.native.currentName
  let value := r.native.currentValue
  let r := if r.native.currentPrefix = [] ∧ name = xmlText "xmlns" then
      { r with defaultNameSpace := value } else r
  if r.native.currentPrefix = xmlText "xmlns" then r.registerNameSpace name value else r

/-- `MoveToNextAttribute`, and `MoveToFirstAttribute`. -/
def moveToNextAttribute (r : ScopedReader) : Except XmlFault (ScopedReader × Bool) :=
  match r.native.ensureFilledBuffer with
  | .error e => .error e
  | .ok (native, false) => .ok ({ r with native := native }, false)
  | .ok (native, true) =>
    match native.moveToNextAttribute with
    | .error e => .error e
    | .ok (native, false) => .ok ({ r with native := native, nameSpaceIsAttribute := true }, false)
    | .ok (native, true) =>
      .ok (registerAttribute { r with native := native, nameSpaceIsAttribute := true }, true)

end ScopedReader

end NMR
