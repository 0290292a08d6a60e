/-!
# Name spaces of the format

The name spaces of the core specification and its extensions, with the prefixes the writer
declares for them.
-/

namespace NMR

/-- `PACKAGE_XMLNS_100`. -/
def xmlns100 : String := "http://schemas.microsoft.com/3dmanufacturing/core/2015/02"

/-- `PACKAGE_XMLNS_093`. -/
def xmlns093 : String := "http://schemas.microsoft.com/3dmanufacturing/2013/01"

/-- `XML_3MF_NAMESPACE_MATERIALSPEC`. -/
def materialSpec : String := "http://schemas.microsoft.com/3dmanufacturing/material/2015/02"

/-- `XML_3MF_NAMESPACE_PRODUCTIONSPEC`. -/
def productionSpec : String := "http://schemas.microsoft.com/3dmanufacturing/production/2015/06"

/-- `XML_3MF_NAMESPACE_SLICESPEC`. -/
def sliceSpec : String := "http://schemas.microsoft.com/3dmanufacturing/slice/2015/07"

/-- `XML_3MF_NAMESPACE_BEAMLATTICESPEC`. -/
def beamLatticeSpec : String := "http://schemas.microsoft.com/3dmanufacturing/beamlattice/2017/02"

/-- `XML_3MF_NAMESPACE_ZCOMPRESSION`. -/
def zCompression : String := "http://schemas.microsoft.com/3dmanufacturing/zcompression/2019/05"

/-- `XML_3MF_NAMESPACE_XML`. -/
def xmlSpec : String := "http://www.w3.org/XML/1998/namespace"

/-- `XML_3MF_NAMESPACE_XMLNS`. -/
def xmlnsSpec : String := "http://www.w3.org/2000/xmlns/"

/-- `XML_3MF_NAMESPACE_TOOLPATHSPEC`. -/
def toolpathSpec : String := "http://schemas.microsoft.com/3dmanufacturing/toolpath/2019/05"

/-- `XML_3MF_NAMESPACEPREFIX_MATERIAL`, `_PRODUCTION`, `_BEAMLATTICE`, `_SLICE`, `_TOOLPATH` and
`_LZMACOMPRESSION`, with their name spaces. -/
def extensionPrefixes : List (String × String) :=
  [("m", materialSpec), ("p", productionSpec), ("b", beamLatticeSpec), ("s", sliceSpec),
    ("t", toolpathSpec), ("z", zCompression)]

end NMR
