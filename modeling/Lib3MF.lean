import Lib3MF.Lib.Run
import Lib3MF.Lib.Acyclic
import Lib3MF.Lib.SortedMap
import Lib3MF.Lib.Traverse
import Lib3MF.Model.Classes.ModelObject
import Lib3MF.Common.Mesh.Mesh
import Lib3MF.Model.Classes.PackageResourceID
import Lib3MF.Model.Classes.PropertyGroup
import Lib3MF.Model.Classes.Model
import Lib3MF.API.Session
import Lib3MF.Model.Proof.Store
import Lib3MF.API.Proof.Components
import Lib3MF.API.Proof.SliceStacks
import Lib3MF.API.Proof.FreshIDs
import Lib3MF.Lib.LastIndex
import Lib3MF.Model.Classes.Merge
import Lib3MF.Model.Proof.Merge
import Lib3MF.Common.Mesh.Proof.Records
import Lib3MF.API.Proof.MergeFaces
import Lib3MF.API.Proof.MergeLayers
import Lib3MF.Common.ChunkedBinaryStream.Types
import Lib3MF.Common.ChunkedBinaryStream.Writer
import Lib3MF.Common.ChunkedBinaryStream.Reader
import Lib3MF.Common.ChunkedBinaryStream.Proof.Layout
import Lib3MF.Common.ChunkedBinaryStream.Proof.Calls
import Lib3MF.Common.ChunkedBinaryStream.Proof.Opening
import Lib3MF.Common.ChunkedBinaryStream.Proof.Reading
import Lib3MF.Common.ChunkedBinaryStream.Proof.RoundTrip
import Lib3MF.Common.ChunkedBinaryStream.Proof.IntArrays
import Lib3MF.Common.ChunkedBinaryStream.Proof.FloatArrays
import Lib3MF.Common.Platform.PortableZIPWriterTypes
import Lib3MF.Common.Platform.Zlib
import Lib3MF.Lib.Chunks
import Lib3MF.Common.Platform.PortableZIPWriter
import Lib3MF.Lib.State
import Lib3MF.Common.Platform.Proof.ZIPStreams
import Lib3MF.Common.Platform.ZIPSession
import Lib3MF.Common.Platform.Proof.ZIPEntries
import Lib3MF.Common.Platform.Proof.ZIPSimulation
import Lib3MF.Common.Platform.Proof.ZIPFailures
import Lib3MF.Common.Platform.Proof.ZIPRuns
import Lib3MF.Common.Platform.ZIPArchive
import Lib3MF.Common.Platform.Proof.ZIPArchive
import Lib3MF.Common.Platform.Proof.ZIPConforms
import Lib3MF.Common.StringUtils
import Lib3MF.Model.Classes.MeshModel
import Lib3MF.Model.Reader.MeshReader
import Lib3MF.Model.Classes.UUIDs
import Lib3MF.Model.Proof.UUIDs
import Lib3MF.Model.Classes.Attachments
import Lib3MF.API.Proof.Containers
import Lib3MF.Model.Proof.Attachments
import Lib3MF.Lib.LastListed
import Lib3MF.Model.Reader.ModelReader3MF
import Lib3MF.Model.Reader.ModelReaderStream
import Lib3MF.Model.Proof.PartOrder
import Lib3MF.Model.Proof.PartUses
import Lib3MF.API.Proof.ObjectDepth
import Lib3MF.API.Proof.BeamLattices
import Lib3MF.Common.Platform.XmlReader
import Lib3MF.Common.Platform.Proof.Namespaces
import Lib3MF.Lib.Keeps
import Lib3MF.Model.Classes.MetaData
import Lib3MF.Model.Reader.ModelReaderNode
import Lib3MF.Model.Reader.ModelReaderWarnings
import Lib3MF.Model.Reader.MetaDataReader
import Lib3MF.Model.Reader.ModelReaderNodes
import Lib3MF.Model.Proof.IgnoredContent
import Lib3MF.Model.Writer.MetaDataWriter
import Lib3MF.Model.Proof.MetaDataNames
import Lib3MF.Model.Proof.MetaData
import Lib3MF.Common.SpaceDelimited
import Lib3MF.Model.Classes.MultiPropertyGroup
import Lib3MF.Model.Reader.MultiPropertiesReader
import Lib3MF.Model.Proof.PropertyResources
import Lib3MF.Model.Proof.MultiPropertyIndices
import Lib3MF.Model.Proof.MultiProperties
import Lib3MF.Model.Proof.MetaDataGroup
import Lib3MF.Model.Classes.ToolpathProfiles
import Lib3MF.Model.Proof.ToolpathProfiles
import Lib3MF.Model.Classes.MultiPropertyLayers
import Lib3MF.Model.Proof.MultiPropertyLayers
import Lib3MF.Model.Classes.CompositeMaterials
import Lib3MF.Model.Proof.CompositeMaterials
import Lib3MF.API.BuildItems
import Lib3MF.API.Proof.BuildItems
import Lib3MF.API.MeshObject
import Lib3MF.API.Proof.MeshObject
import Lib3MF.Common.Platform.Proof.XmlBounds
import Lib3MF.Common.Platform.Proof.XmlWriter
import Lib3MF.Model.Classes.ToolpathLayerWriteData
import Lib3MF.Model.Proof.ToolpathLayers
import Lib3MF.Common.Proof.StringToInt
import Lib3MF.Common.Platform.EscapeDecoding
import Lib3MF.Common.Platform.Proof.EscapeDecoding
import Lib3MF.Common.PagedVector
import Lib3MF.Common.Mesh.StoredMesh
import Lib3MF.Common.Mesh.Proof.StoredMerge
import Lib3MF.Common.Math.PairMatchingTree
import Lib3MF.Model.Classes.ModelMeshObject
import Lib3MF.Model.Proof.Manifold
import Lib3MF.Common.Mesh.Proof.EffectiveProperties
import Lib3MF.Model.Proof.MeshLines
import Lib3MF.API.BeamSets
import Lib3MF.API.Slice
import Lib3MF.Lib.Appends
import Lib3MF.API.Proof.BulkSetters
import Lib3MF.Common.ChunkedBinaryStream.WriterSession
import Lib3MF.Common.ChunkedBinaryStream.Proof.WriterSession
import Lib3MF.Common.ChunkedBinaryStream.Proof.WriterRuns
import Lib3MF.Common.ChunkedBinaryStream.ReaderSession
import Lib3MF.Common.ChunkedBinaryStream.Proof.ReaderSession
import Lib3MF.Common.Platform.Proof.XmlStrings
import Lib3MF.API.Proof.CollapseReferences
import Lib3MF.Common.Platform.MemoryStreams
import Lib3MF.Common.Platform.Proof.MemoryStreams
import Lib3MF.Common.ColorStrings
import Lib3MF.API.MeshProperties
import Lib3MF.Common.Proof.ColorStrings
import Lib3MF.Lib.FirstSeen
import Lib3MF.Common.MeshImport.STL
import Lib3MF.Common.MeshImport.Proof.STL
import Lib3MF.Model.Classes.ResourceIndexMap
import Lib3MF.Lib.Checked
import Lib3MF.Lib.Unicode
import Lib3MF.Common.UTFConversion
import Lib3MF.Model.Reader.MultiPropertiesAccess
import Lib3MF.Model.Proof.MultiPropertiesReading
import Lib3MF.API.Proof.MeshProperties
import Lib3MF.Model.Proof.ResourceIndexMap
import Lib3MF.Common.Proof.UTF8Sequences
import Lib3MF.Common.Proof.UTFConversion
import Lib3MF.Common.Proof.BufferedUTF8
import Lib3MF.Model.Proof.ResourceHandler
import Lib3MF.Model.Proof.MetaDataKeys
import Lib3MF.Model.Writer.ModelWriter
import Lib3MF.Common.CPagedVector
import Lib3MF.Common.Proof.CPagedVector
import Lib3MF.Model.Proof.BinaryStreams
import Lib3MF.Model.Classes.ToolpathLayerReadData
import Lib3MF.Lib.Adjoining
import Lib3MF.Model.Proof.ToolpathLayerReadData
import Lib3MF.API.Proof.ObjectOrder
import Lib3MF.Common.Platform.Proof.XmlStructure
import Lib3MF.Common.MeshInformation.MeshInformation
import Lib3MF.Common.MeshInformation.CMesh
import Lib3MF.Common.MeshInformation.Proof.CMesh
import Lib3MF.Model.Writer.ObjectWriter
import Lib3MF.Model.Proof.ObjectWriter
import Lib3MF.Common.Math.Outbox
import Lib3MF.Lib.Unfolding
import Lib3MF.Model.Classes.ObjectVisits
import Lib3MF.API.Proof.ObjectTrees
import Lib3MF.Common.Platform.Proof.XmlChunks
import Lib3MF.Common.Platform.Proof.XmlReading
import Lib3MF.Common.Platform.Proof.XmlLayout
import Lib3MF.Model.Proof.MeshRoundTrip
import Lib3MF.Common.Platform.XmlDocuments
import Lib3MF.Common.Platform.XmlScopedReader
import Lib3MF.Common.Platform.Proof.XmlDelivery
import Lib3MF.Common.Platform.Proof.XmlScopedReading
import Lib3MF.Common.OPC.OpcPackageTypes
import Lib3MF.Common.OPC.OpcPackageReaders
import Lib3MF.Common.OPC.Proof.ListDocuments
import Lib3MF.Lib.PairwiseFold
import Lib3MF.Common.OPC.Proof.Relationships
import Lib3MF.Common.OPC.Proof.ContentTypes
import Lib3MF.Common.OPC.Proof.OpcPackagePart
