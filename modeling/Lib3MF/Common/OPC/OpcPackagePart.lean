import Mathlib.Data.List.Sort
import Lib3MF.Common.OPC.OpcPackageReaders

/-!
# Parts of a package

A part with its relationships, as the writer adds them and as the reader does when it creates a part.
-/

namespace NMR.Opc

/-- `COpcPackagePart`, without its stream. -/
structure OpcPackagePart where
  uri : List UInt8
  relationships : List Relationship
  deriving DecidableEq

namespace OpcPackagePart

/-- `addRelationship`; `std::multimap::insert` puts a relationship behind those of its target. -/
def addRelationship (p : OpcPackagePart) (id type uri : List UInt8) :
    Except OpcFault OpcPackagePart := do
  let r ← Relationship.make id type uri
  if p.relationships.any (fun x => x.targetPartURI = uri ∧ x.type = type) then
    .error (.throws .duplicateRelationship)
  else .ok { p with
    relationships := p.relationships.orderedInsert (fun x y => x.targetPartURI < y.targetPartURI) r }

/-- The loops that add one relationship after the other. -/
def addRelationships (p : OpcPackagePart) (rels : List Relationship) :
    Except OpcFault OpcPackagePart :=
  rels.foldlM (fun p r => p.addRelationship r.id r.type r.targetPartURI) p

/-- What `COpcPackageReader::createPart` does with the relationships of a new part. -/
def readRelationships (fuel : Nat) (p : OpcPackagePart) (data : List UInt8) :
    Reading OpcPackagePart := do
  let rels ← Opc.readRelationships fuel data
  .lift (p.addRelationships rels)

end OpcPackagePart

end NMR.Opc
