/-!
# Error codes

The `NMR_ERROR_*` codes the modelled functions throw (`CNMRException`), and the
`LIB3MF_ERROR_*` codes of the API layer (`ELib3MFInterfaceException`). A function of the source
that may throw returns `Except Error`, one whose behaviour may be undefined besides an `Access`.
-/

namespace NMR

/-- The error codes of the source, under the names of its constants. -/
inductive Error where
  -- `NMR_ERROR_*`
  | invalidParam
  | invalidIndex
  | invalidPointer
  | invalidNodeIndex
  | invalidEdgeIndex
  | invalidCoordinates
  | duplicateNode
  | tooManyNodes
  | tooManyFaces
  | tooManyBeams
  | meshInformationCountMismatch
  | invalidMeshInformationIndex
  | modelMismatch
  | unknownModelResource
  | resourceTypeMismatch
  | resourceNotFound
  | duplicateModelResource
  | duplicateResourceID
  | tooManyMaterials
  | tooManyComposites
  | tooManyColors
  | mixingRatioOutOfRange
  | multiPropertiesMustNotContainMultiProperties
  | multiPropertiesInvalidResource
  | multiPropertiesMustNotContainMultipleMaterials
  | multiPropertiesMustNotContainMultipleColorGroups
  | invalidTexture
  | invalidRelationshipTypeForTexture
  | duplicateAttachmentPath
  | invalidBuildItemCount
  | handleOverflow
  | couldNotFindComponentObject
  | slicesMixingSlicesWithSliceRefs
  | slicesZNotIncreasing
  | slicesSliceRefCircular
  | slicesRefsLevelTooDeep
  | slicesRefsZNotIncreasing
  | couldNotSeekStream
  | couldNotReadFullData
  | invalidBufferSize
  | insufficientBufferSize
  | streamWriterAlreadyFinished
  | noStreamChunkOpen
  | streamChunkAlreadyOpen
  | couldNotCompressData
  | couldNotUncompressData
  | binaryChunkDiscretizationValueOutOfRange
  | invalidChunkStream
  | invalidChunkStreamSign
  | invalidChunkStreamVersion
  | tooManyBinaryChunks
  | invalidFileChunkDataSize
  | tooManyBinaryChunkEntries
  | duplicateChunkEntry
  | invalidChunkCompressedData
  | invalidEntryIndex
  | invalidChunkData
  | invalidChunkEntryPosition
  | invalidChunkEntryEndPosition
  | invalidChunkEntrySize
  | invalidChunkEntryType
  | notEnoughDataToReadFromChunk
  | binaryChunkEntryNotFound
  | unexpectedChunkDataType
  | zipAlreadyFinished
  | zipEntryOverflow
  | invalidZIPName
  | noExportStream
  | zipEntryNon64TooLarge
  | invalidZIPEntry
  | invalidZIPEntryKey
  | stringToIntConversionOutOfRange
  | missingModelResourceID
  | missingModelObjectID
  | invalidPropertyResourceID
  | propertyIDNotFound
  | missingObjectLevelPID
  | invalidModelNodeIndex
  | invalidModelCoordinateIndices
  | invalidModelCoordinates
  | invalidResourceIndex
  | binaryStreamNotFound
  | duplicateRelationship
  | invalidOPCPartURI
  | illFormatUUID
  | uuidNotUnique
  | buildItemNotFound
  | noTextureStream
  | couldNotCreateOPCPart
  | opcRelationshipSetReadFailed
  | opcRelationshipNotUnique
  | importStreamIsEmpty
  | attachmentTooLarge
  | invalidModelResource
  | invalidBaseMaterial
  | stringToDoubleConversionOutOfRange
  | mixingRatioMissing
  | mixingRatioTooMany
  | xmlParserInvalidAttribValue
  | xmlNamespaceAlreadyRegistered
  | xmlPrefixAlreadyRegistered
  | couldNotGetNamespace
  | nodeNameIsEmpty
  | duplicateModelNode
  | noModelNode
  | noResources
  | noBuild
  | duplicateResources
  | duplicateBuildSection
  | namespaceInvalidElement
  | namespaceInvalidAttribute
  | version093NotSupported
  | forbiddenXMLAttribute
  | invalidRequiredExtensionPrefix
  | requiredExtensionNotSupported
  | invalidXMLEncoding
  | invalidMetaData
  | invalidMetaDataCount
  | duplicateMetaData
  | metaDataCouldNotGetNamespace
  | unknownMetaData
  | ambiguousObjectDefinition
  | objectLevelPIDOnComponentsObject
  | duplicateMetaDataGroup
  | missingObjectContent
  | duplicateObjectID
  | duplicateObjectType
  | duplicateObjectThumbnail
  | duplicatePID
  | duplicatePIndex
  | duplicateSliceStackID
  | duplicateMeshResolution
  | invalidMeshResolution
  | duplicateUUID
  | emptyStringToIntConversion
  | invalidStringToIntConversion
  | duplicatePIDs
  | duplicateBlendMethods
  | invalidBlendMethodAttribute
  | multiPropertiesDifferentNumberOfBlendMethodsAndPIDs
  | multiPropertiesMissingPIDs
  | multiPropertiesInvalidMultiElement
  | multiPropertiesNotEnoughPropertyIDsSpecified
  | toolpathNotWritingHeader
  | toolpathNotWritingData
  | toolpathDataHasBeenWritten
  | xmlWriterCloseNodeError
  | xmlParserEmptyElementName
  | xmlParserInvalidCharacterInElementName
  | xmlParserEmptyInstructionName
  | xmlParserInvalidInstructionName
  | xmlParserCouldNotCloseInstruction
  | xmlParserCouldNotEndElement
  | xmlParserEmptyEndElement
  | xmlParserCouldNotCloseElement
  | xmlParserInvalidAttributeName
  | xmlParserSpaceInAttributeName
  | xmlParserNoQuotesAroundAttribute
  | xmlParserInvalidEndDelimiter
  | xmlParserInvalidNamespacePrefix
  | xmlParserInvalidEscapeString
  | invalidMeshTopology
  | invalidSliceSegmentVertexIndex
  | invalidHexValue
  | rangeError
  | couldNotConvertToUTF8
  | couldNotConvertToUTF16
  | invalidUnits
  | invalidFaceCount
  | missingUUID
  | binaryStreamsNotAllowed
  | duplicateBinaryStreamPath
  | duplicateBinaryStreamUUID
  | invalidBlockSize
  | layerSegmentAlreadyOpen
  | layerSegmentNotOpen
  | invalidRecordSize
  | invalidMeshInformationData
  -- what is thrown by the standard library: `std::length_error`
  | lengthError
  -- `LIB3MF_ERROR_*`
  | apiInvalidParam
  | apiInvalidComponentsObject
  | apiForbiddenCyclicReference
  | apiResourceNotFound
  | apiInvalidSliceStackResource
  | apiAttachmentNotFound
  | apiBeamLatticeInvalidObjectType
  | apiInvalidPropertyCount
  deriving DecidableEq, Repr

/-- What an access by index returns, where the code does not rule out an index past the end: the
language leaves that undefined. -/
inductive Access (α : Type) where
  | ok (a : α)
  | throws (e : Error)
  | undefined
  deriving DecidableEq

end NMR
