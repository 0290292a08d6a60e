import Lib3MF.Common.Exception
import Mathlib.Data.List.Basic

/-!
# The XML reader

`CXmlReader_Native` cuts a document into entities and walks over them: `Read` takes one entity,
`MoveToNextAttribute` a name and a value. Prefixes are kept in one map for the whole document,
which `registerNameSpace` fills as the declarations are walked over, and the default name space
in one string. The document itself is a tree (`XmlContent`), with `entities` what `pushEntity`
makes of it where it is laid out as in `XmlDocuments`.
-/

namespace NMR

/-- `NMR_NATIVEXMLTYPE_*`. -/
inductive XmlEntityType where
  | text
  | element
  | elementEnd
  | closeElement
  | processingInstruction
  | processingInstructionEnd
  | attribName
  | attribValue
  deriving DecidableEq, Repr

/-- An entry of `m_CurrentEntityTypes`, `m_CurrentEntityPrefixes` and `m_CurrentEntityList`. -/
structure XmlEntity where
  type : XmlEntityType
  nsPrefix : String
  name : String
  deriving DecidableEq, Repr

/-! ## Documents -/

/-- An attribute; `value` has its references expanded. -/
structure XmlAttribute where
  nsPrefix : String
  name : String
  value : String
  deriving DecidableEq, Repr

/-- A sequence of nodes: `rest` is what follows the first one. -/
inductive XmlContent where
  | nil
  | text (value : String) (rest : XmlContent)
  | instruction (target : String) (attributes : List XmlAttribute) (rest : XmlContent)
  | element (nsPrefix name : String) (attributes : List XmlAttribute) (children rest : XmlContent)
  | emptyElement (nsPrefix name : String) (attributes : List XmlAttribute) (rest : XmlContent)

/-- `parseAttributeName` and `parseAttributeValue`. -/
def XmlAttribute.entities (a : XmlAttribute) : List XmlEntity :=
  [⟨.attribName, a.nsPrefix, a.name⟩, ⟨.attribValue, "", a.value⟩]

/-- The entities of the content, in the order of `pushEntity`. A text without characters is not
pushed. -/
def XmlContent.entities : XmlContent → List XmlEntity
  | .nil => []
  | .text value rest =>
    (if value = "" then [] else [⟨.text, "", value⟩]) ++ rest.entities
  | .instruction target attributes rest =>
    ⟨.processingInstruction, "", target⟩ :: attributes.flatMap XmlAttribute.entities ++
      ⟨.processingInstructionEnd, "", ""⟩ :: rest.entities
  | .element nsPrefix name attributes children rest =>
    ⟨.element, nsPrefix, name⟩ :: attributes.flatMap XmlAttribute.entities ++
      children.entities ++ ⟨.elementEnd, nsPrefix, name⟩ :: rest.entities
  | .emptyElement nsPrefix name attributes rest =>
    ⟨.element, nsPrefix, name⟩ :: attributes.flatMap XmlAttribute.entities ++
      ⟨.closeElement, "", ""⟩ :: rest.entities

/-! ## The reader -/

/-- `NMR_NATIVEXMLNS_XML_PREFIX` and `NMR_NATIVEXMLNS_XMLNS_PREFIX` with their URIs. -/
def builtInNameSpaces : List (String × String) :=
  [("xml", "http://www.w3.org/XML/1998/namespace"), ("xmlns", "http://www.w3.org/2000/xmlns/")]

/-- The state of `CXmlReader_Native`: the name spaces seen and what the last call stands on. The
entities that are still ahead of it are passed along with it. -/
structure XmlReader where
  nameSpaces : List (String × String)
  defaultNameSpace : String
  nameSpaceIsAttribute : Bool
  currentName : String
  currentPrefix : String
  currentValue : String
  currentElementName : String
  currentElementPrefix : String
  isEOF : Bool

/-- `XMLREADERNODETYPE_*`. -/
inductive XmlReaderNodeType where
  | unknown
  | startElement
  | endElement
  | text
  deriving DecidableEq, Repr

namespace XmlReader

/-- `registerNameSpace`: `std::map::insert`, which leaves a prefix that is there. -/
def registerNameSpace (r : XmlReader) (nsPrefix uri : String) : XmlReader :=
  if (r.nameSpaces.lookup nsPrefix).isSome then r
  else { r with nameSpaces := r.nameSpaces ++ [(nsPrefix, uri)] }

/-- The constructor. -/
def create : XmlReader where
  nameSpaces := builtInNameSpaces
  defaultNameSpace := ""
  nameSpaceIsAttribute := false
  currentName := ""
  currentPrefix := ""
  currentValue := ""
  currentElementName := ""
  currentElementPrefix := ""
  isEOF := false

/-- `GetNamespaceURI`; `none` is the null pointer of a prefix that is not in the map. -/
def getNamespaceURI (r : XmlReader) : Option String :=
  if r.currentPrefix = "" then
    if r.nameSpaceIsAttribute then some "" else some r.defaultNameSpace
  else r.nameSpaces.lookup r.currentPrefix

/-- `GetNamespaceURI` of a given prefix. -/
def namespaceURI (r : XmlReader) (nsPrefix : String) : Option String :=
  r.nameSpaces.lookup nsPrefix

/-- `NamespaceRegistered`. -/
def namespaceRegistered (r : XmlReader) (uri : String) : Bool :=
  r.nameSpaces.any fun n => n.2 = uri

/-- `Read` on the entity `e` that the reader stands on. -/
def readEntity (r : XmlReader) (e : XmlEntity) : XmlReaderNodeType × XmlReader :=
  match e.type with
  | .text =>
    (.text, { r with currentValue := e.name, currentPrefix := "", currentName := "",
                     nameSpaceIsAttribute := false })
  | .element | .processingInstruction =>
    (.startElement, { r with currentValue := "", currentPrefix := e.nsPrefix,
                             currentName := e.name, currentElementName := e.name,
                             currentElementPrefix := e.nsPrefix, nameSpaceIsAttribute := false })
  | .elementEnd | .processingInstructionEnd =>
    (.endElement, { r with currentValue := "", currentPrefix := e.nsPrefix,
                           currentName := e.name, currentElementName := e.name,
                           currentElementPrefix := e.nsPrefix, nameSpaceIsAttribute := false })
  | .closeElement =>
    (.endElement, { r with currentValue := "", currentPrefix := r.currentElementPrefix,
                           currentName := r.currentElementName, currentElementName := "",
                           currentElementPrefix := "" })
  | .attribName | .attribValue => (.unknown, r)

/-- `Read`, with the entities `ahead`. -/
def read (r : XmlReader) (ahead : List XmlEntity) :
    XmlReaderNodeType × XmlReader × List XmlEntity :=
  match ahead with
  | [] => (.unknown, { r with isEOF := true }, [])
  | e :: ahead => ((r.readEntity e).1, (r.readEntity e).2, ahead)

/-- What `MoveToNextAttribute` does with a name and its value. -/
def takeAttribute (r : XmlReader) (name value : XmlEntity) : XmlReader :=
  let r := { r with nameSpaceIsAttribute := true, currentPrefix := name.nsPrefix,
                    currentName := name.name, currentValue := value.name }
  let r := if name.nsPrefix = "" ∧ name.name = "xmlns" then
      { r with defaultNameSpace := value.name } else r
  if name.nsPrefix = "xmlns" then r.registerNameSpace name.name value.name else r

/-- `MoveToNextAttribute`, with the entities `ahead`. -/
def moveToNextAttribute (r : XmlReader) (ahead : List XmlEntity) :
    Except Error (Bool × XmlReader × List XmlEntity) :=
  match ahead with
  | [] => .ok (false, { r with isEOF := true }, [])
  | name :: ahead' =>
    if name.type = .attribName then
      match ahead' with
      | [] =>
        .ok (false, { r with nameSpaceIsAttribute := true, currentPrefix := name.nsPrefix,
                             currentName := name.name, isEOF := true }, [])
      | value :: ahead'' =>
        if value.type = .attribValue then .ok (true, r.takeAttribute name value, ahead'')
        else .error .xmlParserInvalidAttribValue
    else .ok (false, { r with nameSpaceIsAttribute := true }, ahead)

end XmlReader

end NMR
