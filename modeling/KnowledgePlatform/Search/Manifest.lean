import KnowledgePlatform.Search.Units

/-! The checks of segments and whole inputs, and the manifests that seal them. -/

namespace KnowledgePlatform.Search

open Graph (ProjectionGenerationKey int128be)

/-! ## Segments -/

/-- Units and entries are kept in the order of their identifiers. -/
def unitKey (item : VectorManifestUnit) : Bytes := item.unit.unitId.digest.bytes

def entryKey (entry : VectorEntryRef) : Bytes := entry.hit.unitId.digest.bytes

def unitIdKey (id : UnitId) : Bytes := id.digest.bytes

def textKey (text : String) : Bytes := utf8 text.toList

/-- What is known of the units passed. -/
structure SegmentScan where
  byId : List VectorManifestUnit
  locators : List Bytes
  profiles : List ExtractionProfileId
  nonindexed : List UnitId
variable (env : Platform) (header : VectorManifestHeader) (storage : VectorStorageKind)

def isProhibited (authority : VectorAuthorityInput) : Bool :=
  match storage with
  | .persistent => authority.retentionMode ≠ .persistentResource ∨
      header.sourceDeclaresPersistentEmbeddingPermission = false
  | .volatile => authority.retentionMode = .persistentDiscoveryMetadata

def scanUnit (version : ResourceVersionRef) (part : ContentPartRef) (scan : SegmentScan)
    (item : VectorManifestUnit) : Except VectorContractError SegmentScan := do
  let unit := item.unit
  let authority := item.authority
  validateUnit env unit authority
  ensure (unit.version = version ∧ unit.part = part) (.invalid "Vector segment Version or Part")
  ensure (authority.generation = header.bundleKey ∧
    unit.provenance.sourceSnapshot = header.sourceSnapshot ∧
    authority.authorityScopeKey = header.authorityScopeKey ∧
    authority.retentionLeaseId = header.retentionLeaseId ∧
    authority.leaseExpiresAt = header.leaseExpiresAt) (.invalid "Vector input authority binding")
  let locator ← fromUnit (unit.locator.encode env.isNfc)
  ensure (locator ∉ scan.locators) (.invalid "duplicate Unit or locator")
  let byId ← Keyed.insertUnique unitKey (.invalid "duplicate Unit or locator") scan.byId item
  return {
    byId
    locators := locator :: scan.locators
    profiles := Keyed.insert textKey unit.provenance.profile scan.profiles
    nonindexed :=
      if isProhibited header storage authority then
        Keyed.insert unitIdKey unit.unitId scan.nonindexed
      else scan.nonindexed }

def checkParent (byId : List VectorManifestUnit) (item : VectorManifestUnit) :
    Except VectorContractError Unit :=
  match item.unit.parentUnitId with
  | none => .ok ()
  | some parentId => do
    let parent ← okOr (Keyed.find unitKey (unitIdKey parentId) byId)
      (.invalid "missing parent Unit")
    ensure (parent.unit.ordinal < item.unit.ordinal) (.invalid "parent Unit binding")

def indexEntry (modelId : EmbeddingModelId) (scan : SegmentScan) (indexed : List VectorEntryRef)
    (entry : VectorEntryRef) : Except VectorContractError (List VectorEntryRef) := do
  let item ← okOr (Keyed.find unitKey (entryKey entry) scan.byId) (.invalid "extra Vector entry")
  ensure (entry.hit.unitId ∉ scan.nonindexed) (.invalid "Vector entry binding")
  let indexed ← Keyed.insertUnique entryKey (.invalid "Vector entry binding") indexed entry
  ensure (entry.modelId = modelId ∧ entry.cacheKey.embeddingModelId = modelId ∧
    matchesPinnedUnit entry.hit item.unit item.authority = true ∧
    cacheKeyMatchesAuthority entry.cacheKey item.unit item.authority = true)
    (.invalid "Vector entry binding")
  return indexed

/-- The bytes hashed for the units of a segment. -/
def bindingsBytes (units : List VectorManifestUnit) : Except VectorContractError Bytes :=
  frameBytes "vector-segment-units:v1\x00" (u64Frame units.length :: units.flatMap (hashUnit env))

/-- The entries in the order of their units. -/
def inUnitOrder (units : List VectorManifestUnit) (indexed : List VectorEntryRef) :
    List VectorEntryRef :=
  units.filterMap fun item => Keyed.find entryKey (unitKey item) indexed

/-- The bytes hashed for the entries of a segment. -/
def entriesBytes (units : List VectorManifestUnit) (indexed : List VectorEntryRef) :
    Except VectorContractError Bytes :=
  frameBytes "vector-segment-entries:v1\x00"
    (u64Frame indexed.length :: (inUnitOrder units indexed).flatMap hashEntry)

def checkSegment (modelId : EmbeddingModelId) (header : VectorManifestHeader)
    (storage : VectorStorageKind) (units : List VectorManifestUnit) (entries : List VectorEntryRef)
    : Except VectorContractError VectorSegmentCheck := do
  let first ← okOr units.head? (.invalid "empty Vector segment")
  let scan ← units.foldlM (scanUnit env header storage first.unit.version first.unit.part)
    ⟨[], [], [], []⟩
  scan.byId.forM (checkParent scan.byId)
  let indexed ← entries.foldlM (indexEntry modelId scan) []
  ensure (indexed.length + scan.nonindexed.length = scan.byId.length)
    (.invalid "missing Vector entry")
  let bindings ← bindingsBytes env units
  let hashed ← entriesBytes units indexed
  return {
    version := first.unit.version
    part := first.unit.part
    unitCount := units.length
    indexedCount := indexed.length
    profiles := scan.profiles
    nonindexed := scan.nonindexed
    bindingsDigest := env.sha256 bindings
    entriesDigest := env.sha256 hashed }

/-! ## Whole inputs -/

def sameSegment (a b : VectorManifestUnit) : Bool :=
  a.unit.version = b.unit.version ∧ a.unit.part = b.unit.part

/-- The units from the start of the current run on, split where the version or part changes. -/
def rangesFrom (run : List VectorManifestUnit) (last : VectorManifestUnit) :
    List VectorManifestUnit → List (List VectorManifestUnit)
  | [] => [run ++ [last]]
  | next :: rest =>
    if sameSegment last next then rangesFrom (run ++ [last]) next rest
    else (run ++ [last]) :: rangesFrom [] next rest

def ranges : List VectorManifestUnit → List (List VectorManifestUnit)
  | [] => []
  | first :: rest => rangesFrom [] first rest

/-- Which segment holds a unit. -/
abbrev Owner := List (Bytes × Nat)

def ownUnits (owner : Owner) (segment : List VectorManifestUnit × Nat) :
    Except VectorContractError Owner :=
  segment.1.foldlM (fun owner item =>
    Keyed.insertUnique Prod.fst (.invalid "duplicate Unit or locator") owner
      (unitKey item, segment.2)) owner

def groupEntry (owner : Owner) (grouped : List (List VectorEntryRef)) (entry : VectorEntryRef) :
    Except VectorContractError (List (List VectorEntryRef)) := do
  let segment ← okOr (Keyed.find Prod.fst (entryKey entry) owner) (.invalid "extra Vector entry")
  return grouped.modify segment.2 (· ++ [entry])

def checkInput (modelId : EmbeddingModelId) (input : VectorManifestInput)
    (storage : VectorStorageKind) (entries : List VectorEntryRef) :
    Except VectorContractError (List VectorSegmentCheck) := do
  let segments := ranges input.units
  let owner ← segments.zipIdx.foldlM ownUnits []
  let grouped ← entries.foldlM (groupEntry owner) (List.replicate segments.length [])
  (segments.zip grouped).mapM fun (units, entries) =>
    checkSegment env modelId input.header storage units entries

/-! ## Composition -/

def validateHeader (createdAt : Instant) : Except VectorContractError Unit :=
  ensure (validDigest header.bodyReceiptDigest = true ∧ present header.sourceSnapshot = true ∧
    present header.authorityScopeKey = true ∧ present header.retentionLeaseId = true ∧
    pinnedRevision header.lexicalAnalyzerRevision = true ∧
    pinnedRevision header.graphSchemaRevision = true ∧
    (header.leaseExpiresAt.all fun expiry => decide (createdAt.val < expiry.val)) = true)
    (.invalid "P1 bundle comparison input")

/-- The segments passed, taken together. -/
structure Composition where
  parts : List (ResourceVersionRef × ContentPartRef)
  profiles : List ExtractionProfileId
  nonindexed : List UnitId
  indexedCount : Nat

def addSegment (c : Composition) (segment : VectorSegmentCheck) :
    Except VectorContractError Composition := do
  ensure ((segment.version, segment.part) ∉ c.parts) (.invalid "duplicate Vector segment")
  let nonindexed ← segment.nonindexed.foldlM
    (Keyed.insertUnique unitIdKey (.invalid "duplicate Unit or locator")) c.nonindexed
  ensure (c.indexedCount + segment.indexedCount < 2 ^ 64) (.invalid "Vector entry count")
  return {
    parts := (segment.version, segment.part) :: c.parts
    profiles := segment.profiles.foldl (fun set p => Keyed.insert textKey p set) c.profiles
    nonindexed
    indexedCount := c.indexedCount + segment.indexedCount }

structure ComposedSegments where
  profiles : List ExtractionProfileId
  nonindexed : List UnitId
  (bindingsDigest entriesDigest : String)
  indexedCount : Nat

def unitSetBytes (segments : List VectorSegmentCheck) (nonindexed : List UnitId) :
    Except VectorContractError Bytes :=
  frameBytes "vector-unit-bindings:v2\x00" <|
    [bytesFrame header.bundleKey.sourceId.bytes, bytesFrame header.bundleKey.generationId.bytes,
      stringFrame header.sourceSnapshot, u64Frame segments.length] ++
    (segments.flatMap fun s => [bytesFrame s.bindingsDigest.bytes, u64Frame s.unitCount]) ++
    u64Frame nonindexed.length :: nonindexed.map fun id => stringFrame id.text

def entrySetBytes (segments : List VectorSegmentCheck) : Except VectorContractError Bytes :=
  frameBytes "vector-index-entries:v2\x00" <|
    [bytesFrame header.bundleKey.sourceId.bytes, bytesFrame header.bundleKey.generationId.bytes,
      u64Frame segments.length] ++
    segments.flatMap fun s => [bytesFrame s.entriesDigest.bytes, u64Frame s.indexedCount]

def composeSegments (createdAt : Instant) (segments : List VectorSegmentCheck) :
    Except VectorContractError ComposedSegments := do
  validateHeader header createdAt
  let c ← segments.foldlM addSegment ⟨[], [], [], 0⟩
  let declared ← header.nonindexedRetentionUnitIds.foldlM
    (Keyed.insertUnique unitIdKey (.invalid "nonindexed retention Unit")) []
  ensure (declared = c.nonindexed) (.invalid "retention prohibition set")
  let bindings ← unitSetBytes header segments c.nonindexed
  let entries ← entrySetBytes header segments
  return ⟨c.profiles, c.nonindexed, digestString (env.sha256 bindings),
    digestString (env.sha256 entries), c.indexedCount⟩

/-! ## Manifests -/

structure VectorIndexDescriptor where
  (engine engineBuild parametersDigest indexReceiptDigest indexDigest : String)

def VectorIndexDescriptor.validate (index : VectorIndexDescriptor) :
    Except VectorContractError Unit :=
  ensure (present index.engine = true ∧ pinnedRevision index.engineBuild = true ∧
    validDigest index.parametersDigest = true ∧ validDigest index.indexReceiptDigest = true ∧
    validDigest index.indexDigest = true) (.invalid "index descriptor")

inductive VectorReadiness where
  | staged
  | ready
deriving DecidableEq

structure VectorProjectionManifest where
  schemaVersion : UInt32
  bundleKey : ProjectionGenerationKey
  (bodyReceiptDigest sourceSnapshot authorityScopeKey retentionLeaseId : String)
  leaseExpiresAt : Option Instant
  persistenceDeclared : Bool
  modelId : EmbeddingModelId
  vectorDimension : UInt32
  metric : VectorMetric
  precision : VectorPrecision
  normalization : VectorNormalization
  storage : VectorStorageKind
  index : VectorIndexDescriptor
  extractionProfiles : List ExtractionProfileId
  (lexicalAnalyzerRevision graphSchemaRevision unitBindingsDigest indexedEntriesDigest : String)
  indexedUnitCount : Nat
  nonindexedRetentionUnitIds : List UnitId
  createdAt : Instant
  readiness : VectorReadiness
  manifestDigest : String

structure VectorStageReceipt where
  schemaVersion : UInt32
  bundleKey : ProjectionGenerationKey
  (bodyReceiptDigest sourceSnapshot authorityScopeKey retentionLeaseId : String)
  modelId : EmbeddingModelId
  (indexedCount nonindexedRetentionCount : Nat)
  (indexDigest manifestDigest : String)

def manifestSchemaVersion : UInt32 := 2

namespace VectorProjectionManifest

def frames (m : VectorProjectionManifest) : List (Except VectorContractError Bytes) :=
  [u32Frame m.schemaVersion, bytesFrame m.bundleKey.sourceId.bytes,
    bytesFrame m.bundleKey.generationId.bytes, stringFrame m.bodyReceiptDigest,
    stringFrame m.sourceSnapshot, stringFrame m.authorityScopeKey, stringFrame m.retentionLeaseId,
    timeFrame m.leaseExpiresAt, bytesFrame [if m.persistenceDeclared then 1 else 0],
    stringFrame m.modelId, u32Frame m.vectorDimension, bytesFrame [m.metric.tag],
    bytesFrame [m.precision.tag], bytesFrame [m.normalization.tag], bytesFrame [m.storage.tag],
    stringFrame m.index.engine, stringFrame m.index.engineBuild,
    stringFrame m.index.parametersDigest, stringFrame m.index.indexReceiptDigest,
    stringFrame m.index.indexDigest, u64Frame m.extractionProfiles.length] ++
  m.extractionProfiles.map stringFrame ++
  [stringFrame m.lexicalAnalyzerRevision, stringFrame m.graphSchemaRevision,
    stringFrame m.unitBindingsDigest, stringFrame m.indexedEntriesDigest,
    u64Frame m.indexedUnitCount, u64Frame m.nonindexedRetentionUnitIds.length] ++
  (m.nonindexedRetentionUnitIds.map fun id => stringFrame id.text) ++
  [bytesFrame (int128be m.createdAt),
    bytesFrame [match m.readiness with | .staged => 1 | .ready => 2]]

def manifestBytes (m : VectorProjectionManifest) : Except VectorContractError Bytes :=
  frameBytes "vector-projection-manifest:v1\x00" m.frames

def recomputeDigest (m : VectorProjectionManifest) : Except VectorContractError String := do
  let bytes ← m.manifestBytes
  return digestString (env.sha256 bytes)

def validateSegments (m : VectorProjectionManifest) (header : VectorManifestHeader)
    (segments : List VectorSegmentCheck) : Except VectorContractError VectorStageReceipt := do
  m.index.validate
  ensure (m.schemaVersion = manifestSchemaVersion ∧ m.readiness = .ready ∧
    validDigest m.modelId = true ∧ m.vectorDimension ≠ 0 ∧ m.bundleKey = header.bundleKey ∧
    m.bodyReceiptDigest = header.bodyReceiptDigest ∧ m.sourceSnapshot = header.sourceSnapshot ∧
    m.authorityScopeKey = header.authorityScopeKey ∧ m.retentionLeaseId = header.retentionLeaseId ∧
    m.leaseExpiresAt = header.leaseExpiresAt ∧
    m.persistenceDeclared = header.sourceDeclaresPersistentEmbeddingPermission ∧
    m.lexicalAnalyzerRevision = header.lexicalAnalyzerRevision ∧
    m.graphSchemaRevision = header.graphSchemaRevision) (.invalid "Vector manifest input")
  let composed ← composeSegments env header m.createdAt segments
  ensure (m.extractionProfiles = composed.profiles ∧
    m.nonindexedRetentionUnitIds = composed.nonindexed ∧
    m.unitBindingsDigest = composed.bindingsDigest ∧
    m.indexedEntriesDigest = composed.entriesDigest ∧
    m.indexedUnitCount = composed.indexedCount) (.invalid "Vector manifest seal")
  let digest ← m.recomputeDigest env
  ensure (m.manifestDigest = digest) (.invalid "Vector manifest seal")
  return ⟨m.schemaVersion, m.bundleKey, m.bodyReceiptDigest, m.sourceSnapshot, m.authorityScopeKey,
    m.retentionLeaseId, m.modelId, m.indexedUnitCount, composed.nonindexed.length,
    m.index.indexDigest, m.manifestDigest⟩

def validateAgainst (m : VectorProjectionManifest) (input : VectorManifestInput)
    (entries : List VectorEntryRef) : Except VectorContractError VectorStageReceipt := do
  let segments ← checkInput env m.modelId input m.storage entries
  m.validateSegments env input.header segments

def stageSegments (spec : EmbeddingModelSpec) (header : VectorManifestHeader)
    (index : VectorIndexDescriptor) (segments : List VectorSegmentCheck)
    (storage : VectorStorageKind) (createdAt : Instant) : Except VectorContractError
    VectorProjectionManifest := do
  let modelId ← spec.validateAndId env
  index.validate
  let composed ← composeSegments env header createdAt segments
  ensure (spec.dimension < 2 ^ 32) (.invalid "model dimension")
  let unsealed : VectorProjectionManifest := {
    schemaVersion := manifestSchemaVersion
    bundleKey := header.bundleKey
    bodyReceiptDigest := header.bodyReceiptDigest
    sourceSnapshot := header.sourceSnapshot
    authorityScopeKey := header.authorityScopeKey
    retentionLeaseId := header.retentionLeaseId
    leaseExpiresAt := header.leaseExpiresAt
    persistenceDeclared := header.sourceDeclaresPersistentEmbeddingPermission
    modelId
    vectorDimension := UInt32.ofNat spec.dimension
    metric := spec.metric
    precision := spec.precision
    normalization := spec.normalization
    storage
    index
    extractionProfiles := composed.profiles
    lexicalAnalyzerRevision := header.lexicalAnalyzerRevision
    graphSchemaRevision := header.graphSchemaRevision
    unitBindingsDigest := composed.bindingsDigest
    indexedEntriesDigest := composed.entriesDigest
    indexedUnitCount := composed.indexedCount
    nonindexedRetentionUnitIds := composed.nonindexed
    createdAt
    readiness := .ready
    manifestDigest := "" }
  let manifestDigest ← unsealed.recomputeDigest env
  let manifest := { unsealed with manifestDigest }
  let _ ← manifest.validateSegments env header segments
  return manifest

def stage (spec : EmbeddingModelSpec) (input : VectorManifestInput) (index : VectorIndexDescriptor)
    (entries : List VectorEntryRef) (storage : VectorStorageKind) (createdAt : Instant) :
    Except VectorContractError VectorProjectionManifest := do
  let modelId ← spec.validateAndId env
  let segments ← checkInput env modelId input storage entries
  stageSegments env spec input.header index segments storage createdAt

end VectorProjectionManifest

end KnowledgePlatform.Search
