import KnowledgePlatform.Search.Locator
import KnowledgePlatform.Graph.Canonical

/-! Knowledge units: a piece of a part's text with its locator, identity and provenance. -/

namespace KnowledgePlatform.Search

open Framing
open Graph (SourceId ResourceId ProjectionGenerationKey RetentionMode int128be)

/-- The hash function and Unicode's normal form C. -/
structure Platform where
  sha256 : Bytes → Digest
  nfc : String → String

def Platform.isNfc (env : Platform) : NfcTest := fun value => decide (env.nfc value = value)

/-- Instants by their nanoseconds from the epoch, all that is read of them. -/
abbrev Instant := Graph.Int128

structure ResourceVersionRef where
  sourceId : SourceId
  resourceId : ResourceId
  sourceNativeVersion : String
deriving DecidableEq

structure ContentPartRef where
  (sourceNativePartId logicalPath : String)
  ordinal : UInt32
deriving DecidableEq

structure RawBinding where
  sha256 : Digest
  sizeBytes : UInt64
  mediaType : String
deriving DecidableEq

inductive FormatId where
  | docx
  | xlsx
  | xlsm
  | pptx
  | pdf
  | text
  | csv
  | html
  | zip
deriving DecidableEq

def FormatId.tag : FormatId → UInt8
  | docx => 1
  | xlsx => 2
  | xlsm => 3
  | pptx => 4
  | pdf => 5
  | text => 6
  | csv => 7
  | html => 8
  | zip => 9

inductive UnitKind where
  | heading
  | paragraph
  | tableCell
  | spreadsheetCell
  | slideText
  | pdfText
  | plainText
  | csvField
  | htmlText
deriving DecidableEq

abbrev ExtractionProfileId := String

structure UnitId where
  digest : Digest
deriving DecidableEq

structure UnitProvenance where
  (sourceSnapshot authoritativeRepresentationRef : String)
  raw : RawBinding
  detectedFormat : FormatId
  archiveInnerFormat : Option FormatId
  profile : ExtractionProfileId
  parserBuildId : String

structure KnowledgeUnit where
  unitId : UnitId
  version : ResourceVersionRef
  part : ContentPartRef
  parentUnitId : Option UnitId
  ordinal : UInt32
  kind : UnitKind
  text : String
  locator : NativeLocator
  textSha256 : Digest
  provenance : UnitProvenance

/-! ## Texts -/

/-- Every line ends with a line feed. -/
def unifyLineEnds : List Char → List Char
  | '\r' :: '\n' :: rest => '\n' :: unifyLineEnds rest
  | '\r' :: rest => '\n' :: unifyLineEnds rest
  | c :: rest => c :: unifyLineEnds rest
  | [] => []

def normalizeUnitText (env : Platform) (text : String) : String :=
  env.nfc (String.ofList (unifyLineEnds text.toList))

def textSha256 (env : Platform) (text : String) : Digest := env.sha256 (utf8 text.toList)

/-! ## Identity -/

/-- `knowledge-unit:v1` and a zero byte. -/
def unitPrefix : Bytes := utf8 "knowledge-unit:v1\x00".toList

section

variable (env : Platform) (version : ResourceVersionRef) (part : ContentPartRef)
  (profile : ExtractionProfileId) (locator : NativeLocator) (ordinal : UInt32)

/-- The bytes hashed for an identity. -/
def UnitId.input : Except UnitCodecError Bytes :=
  parts [.ok unitPrefix,
    frame tooLong version.sourceId.bytes,
    frame tooLong version.resourceId.bytes,
    frame tooLong (utf8 version.sourceNativeVersion.toList),
    frame tooLong (utf8 part.sourceNativePartId.toList),
    frame tooLong (utf8 part.logicalPath.toList),
    frame tooLong (u32Bytes part.ordinal),
    frame tooLong (utf8 profile.toList),
    locator.encode env.isNfc >>= frame tooLong,
    frame tooLong (u32Bytes ordinal)]

def UnitId.derive : Except UnitCodecError UnitId := do
  ensure (version.sourceNativeVersion ≠ "" ∧ env.isNfc version.sourceNativeVersion = true ∧
    part.sourceNativePartId ≠ "" ∧ env.isNfc part.sourceNativePartId = true)
    (.invalid "native version or part ID")
  validateLogicalPath env.isNfc part.logicalPath
  let input ← UnitId.input env version part profile locator ordinal
  return ⟨env.sha256 input⟩

end

def UnitId.text (id : UnitId) : String := "ku1:" ++ id.digest.hex

/-! ## Kinds -/

def compatibleKind (format : FormatId) (locator : NativeLocator) (kind : UnitKind) : Bool :=
  match format, locator, kind with
  | .docx, .docx _, .heading => true
  | .docx, .docx steps, .paragraph => steps.length = 1
  | .docx, .docx steps, .tableCell => steps.length > 1
  | .xlsx, .spreadsheet _ _ _, .spreadsheetCell | .xlsm, .spreadsheet _ _ _, .spreadsheetCell =>
    true
  | .pptx, .pptx _ _ _, .slideText => true
  | .pdf, .pdf _ _ _, .pdfText => true
  | .text, .text _ _, .plainText => true
  | .csv, .csv _ _, .csvField => true
  | .html, .html _, .htmlText | .html, .html _, .heading => true
  | _, _, _ => false

/-! ## Authority -/

structure EmbeddingCacheKey where
  embeddingModelId : String
  unitId : UnitId
  textSha256 : Digest
  profile : ExtractionProfileId
  sourceId : SourceId
  (authorityScopeKey retentionLeaseId lifetimeScopeId : String)
deriving DecidableEq

structure VectorHitRef where
  generation : ProjectionGenerationKey
  unitId : UnitId
  version : ResourceVersionRef
  part : ContentPartRef
  authoritativeRepresentationRef : String
  raw : RawBinding
  profile : ExtractionProfileId
  textSha256 : Digest
deriving DecidableEq

structure VectorAuthorityInput where
  generation : ProjectionGenerationKey
  version : ResourceVersionRef
  part : ContentPartRef
  authoritativeRepresentationRef : String
  raw : RawBinding
  profile : ExtractionProfileId
  (authorityScopeKey retentionLeaseId lifetimeScopeId : String)
  retentionMode : RetentionMode
  leaseExpiresAt : Option Instant

def matchesPinnedUnit (hit : VectorHitRef) (unit : KnowledgeUnit) (pinned : VectorAuthorityInput) :
    Bool :=
  pinned.generation.sourceId = pinned.version.sourceId ∧
  hit.generation = pinned.generation ∧
  hit.unitId = unit.unitId ∧
  hit.version = unit.version ∧
  hit.version = pinned.version ∧
  hit.part = unit.part ∧
  hit.part = pinned.part ∧
  hit.authoritativeRepresentationRef = unit.provenance.authoritativeRepresentationRef ∧
  hit.authoritativeRepresentationRef = pinned.authoritativeRepresentationRef ∧
  hit.raw = unit.provenance.raw ∧
  hit.raw = pinned.raw ∧
  hit.profile = unit.provenance.profile ∧
  hit.profile = pinned.profile ∧
  hit.textSha256 = unit.textSha256

def cacheKeyMatchesAuthority (key : EmbeddingCacheKey) (unit : KnowledgeUnit)
    (pinned : VectorAuthorityInput) : Bool :=
  key.sourceId = pinned.generation.sourceId ∧
  key.sourceId = pinned.version.sourceId ∧
  key.sourceId = unit.version.sourceId ∧
  key.unitId = unit.unitId ∧
  key.textSha256 = unit.textSha256 ∧
  key.profile = unit.provenance.profile ∧
  key.profile = pinned.profile ∧
  key.authorityScopeKey = pinned.authorityScopeKey ∧
  key.retentionLeaseId = pinned.retentionLeaseId ∧
  key.lifetimeScopeId = pinned.lifetimeScopeId ∧
  unit.version = pinned.version ∧
  unit.part = pinned.part ∧
  unit.provenance.authoritativeRepresentationRef = pinned.authoritativeRepresentationRef ∧
  unit.provenance.raw = pinned.raw

/-! ## Vector projections -/

inductive VectorContractError where
  | invalid (reason : String)
  | unit (error : UnitCodecError)

def fromUnit {α : Type} : Except UnitCodecError α → Except VectorContractError α
  | .ok a => .ok a
  | .error e => .error (.unit e)

/-! ## Texts -/

/-- Not blank and without a zero character. -/
def present (value : String) : Bool :=
  value.toList.any (fun c => !isWhitespace c) && !value.toList.contains '\x00'

def pinnedRevision (value : String) : Bool :=
  present value && !(["main", "master", "latest", "HEAD"].contains value)

/-- `sha256:` and 64 lowercase hexadecimal digits. -/
def validDigest (value : String) : Bool :=
  value.toList.take 7 = "sha256:".toList ∧ (value.toList.drop 7).length = 64 ∧
    (value.toList.drop 7).all isLowerHex = true

def digestString (d : Digest) : String := "sha256:" ++ d.hex

/-- How often a template has its slot; two occurrences never overlap. -/
def textSlots (template : String) : Nat :=
  template.toList.tails.countP fun rest => "\x7btext\x7d".toList.isPrefixOf rest

/-! ## Framed hashes -/

/-- The bytes a `FrameHash` has taken: the domain and then every frame with its length. -/
def frameBytes (domain : String) (frames : List (Except VectorContractError Bytes)) :
    Except VectorContractError Bytes :=
  parts (.ok (utf8 domain.toList) :: frames.map (· >>= frame (.invalid "frame length")))

def bytesFrame (bytes : Bytes) : Except VectorContractError Bytes := .ok bytes

def stringFrame (value : String) : Except VectorContractError Bytes := .ok (utf8 value.toList)

def u32Frame (value : UInt32) : Except VectorContractError Bytes := .ok (u32Bytes value)

def u64Frame (value : Nat) : Except VectorContractError Bytes := .ok (bigEndian 8 value)

def timeFrame : Option Instant → Except VectorContractError Bytes
  | some value => .ok (int128be value)
  | none => .ok []

/-! ## Models -/

inductive VectorPrecision where
  | f32
  | f16

def VectorPrecision.tag : VectorPrecision → UInt8
  | f32 => 1
  | f16 => 2

inductive VectorNormalization where
  | none
  | unitL2

def VectorNormalization.tag : VectorNormalization → UInt8
  | none => 1
  | unitL2 => 2

inductive VectorMetric where
  | dot
  | cosine
  | euclidean

def VectorMetric.tag : VectorMetric → UInt8
  | dot => 1
  | cosine => 2
  | euclidean => 3

structure EmbeddingModelSpec where
  (modelName modelRevision : String)
  weightsSha256 : Digest
  tokenizerRevision : String
  (tokenizerFilesSha256 tokenizerConfigSha256 : Digest)
  (unicodePreprocessing inputPreprocessing queryTemplate passageTemplate pooling : String)
  attentionMasking : String
  maxTokens : UInt32
  (chunking truncation : String)
  dimension : Nat
  precision : VectorPrecision
  normalization : VectorNormalization
  metric : VectorMetric
  (runtimeFamily runtimeBuild : String)
  nativeBinarySha256 : Option Digest
  deterministicConfigSha256 : Digest

abbrev EmbeddingModelId := String

def EmbeddingModelSpec.frames (spec : EmbeddingModelSpec) :
    List (Except VectorContractError Bytes) :=
  [stringFrame spec.modelName, stringFrame spec.modelRevision, bytesFrame spec.weightsSha256.bytes,
    stringFrame spec.tokenizerRevision, bytesFrame spec.tokenizerFilesSha256.bytes,
    bytesFrame spec.tokenizerConfigSha256.bytes, stringFrame spec.unicodePreprocessing,
    stringFrame spec.inputPreprocessing, stringFrame spec.queryTemplate,
    stringFrame spec.passageTemplate, stringFrame spec.pooling, stringFrame spec.attentionMasking,
    u32Frame spec.maxTokens, stringFrame spec.chunking, stringFrame spec.truncation,
    u32Frame (UInt32.ofNat spec.dimension), bytesFrame [spec.precision.tag],
    bytesFrame [spec.normalization.tag], bytesFrame [spec.metric.tag],
    stringFrame spec.runtimeFamily, stringFrame spec.runtimeBuild,
    bytesFrame (spec.nativeBinarySha256.elim [] Digest.bytes),
    bytesFrame spec.deterministicConfigSha256.bytes]

def EmbeddingModelSpec.validateAndId (env : Platform) (spec : EmbeddingModelSpec) :
    Except VectorContractError EmbeddingModelId := do
  ensure (present spec.modelName = true ∧ pinnedRevision spec.modelRevision = true ∧
    pinnedRevision spec.tokenizerRevision = true ∧ present spec.unicodePreprocessing = true ∧
    present spec.inputPreprocessing = true ∧ present spec.pooling = true ∧
    present spec.attentionMasking = true ∧ present spec.chunking = true ∧
    present spec.truncation = true ∧ present spec.runtimeFamily = true ∧
    pinnedRevision spec.runtimeBuild = true ∧ spec.maxTokens ≠ 0 ∧ spec.dimension ≠ 0 ∧
    textSlots spec.queryTemplate = 1 ∧ textSlots spec.passageTemplate = 1)
    (.invalid "model specification")
  ensure (spec.dimension < 2 ^ 32) (.invalid "model dimension")
  let bytes ← frameBytes "embedding-model:v1\x00" spec.frames
  return digestString (env.sha256 bytes)

/-! ## Inputs -/

inductive VectorUnitCoverage where
  | complete
  | partialValidated
deriving DecidableEq

def VectorUnitCoverage.tag : VectorUnitCoverage → UInt8
  | complete => 1
  | partialValidated => 2

structure VectorManifestUnit where
  unit : KnowledgeUnit
  authority : VectorAuthorityInput
  coverage : VectorUnitCoverage

/-- A manifest input without its units. -/
structure VectorManifestHeader where
  bundleKey : ProjectionGenerationKey
  (bodyReceiptDigest sourceSnapshot authorityScopeKey retentionLeaseId : String)
  leaseExpiresAt : Option Instant
  sourceDeclaresPersistentEmbeddingPermission : Bool
  nonindexedRetentionUnitIds : List UnitId
  (lexicalAnalyzerRevision graphSchemaRevision : String)

structure VectorManifestInput where
  header : VectorManifestHeader
  units : List VectorManifestUnit

structure VectorSegmentCheck where
  version : ResourceVersionRef
  part : ContentPartRef
  (unitCount indexedCount : Nat)
  profiles : List ExtractionProfileId
  nonindexed : List UnitId
  (bindingsDigest entriesDigest : Digest)

structure VectorEntryRef where
  hit : VectorHitRef
  modelId : EmbeddingModelId
  vectorDigest : Digest
  cacheKey : EmbeddingCacheKey
deriving DecidableEq

inductive VectorStorageKind where
  | volatile
  | persistent

def VectorStorageKind.tag : VectorStorageKind → UInt8
  | volatile => 1
  | persistent => 2

/-! ## Units -/

def hitFor (unit : KnowledgeUnit) (pinned : VectorAuthorityInput) : VectorHitRef where
  generation := pinned.generation
  unitId := unit.unitId
  version := unit.version
  part := unit.part
  authoritativeRepresentationRef := unit.provenance.authoritativeRepresentationRef
  raw := unit.provenance.raw
  profile := unit.provenance.profile
  textSha256 := unit.textSha256

def validUnitKindAndFormat (unit : KnowledgeUnit) : Bool :=
  match unit.locator, unit.provenance.detectedFormat, unit.provenance.archiveInnerFormat with
  | .archive _ inner, .zip, some leaf => leaf ≠ .zip && compatibleKind leaf inner unit.kind
  | .archive _ _, _, _ => false
  | _, .zip, _ => false
  | locator, format, none => compatibleKind format locator unit.kind
  | _, _, _ => false

def unitKindTag : UnitKind → UInt8
  | .heading => 1
  | .paragraph => 2
  | .tableCell => 3
  | .spreadsheetCell => 4
  | .slideText => 5
  | .pdfText => 6
  | .plainText => 7
  | .csvField => 8
  | .htmlText => 9

def isAsciiGraphic (c : Char) : Bool := 0x21 ≤ c.toNat && c.toNat ≤ 0x7E

def validateUnit (env : Platform) (unit : KnowledgeUnit) (pinned : VectorAuthorityInput) :
    Except VectorContractError Unit := do
  ensure (unit.text ≠ "" ∧ normalizeUnitText env unit.text = unit.text ∧
    textSha256 env unit.text = unit.textSha256) (.invalid "pinned Unit binding")
  let derived ← fromUnit (UnitId.derive env unit.version unit.part unit.provenance.profile
    unit.locator unit.ordinal)
  ensure (derived = unit.unitId ∧ unit.parentUnitId ≠ some unit.unitId ∧
    validUnitKindAndFormat unit = true ∧ present unit.provenance.sourceSnapshot = true ∧
    present unit.provenance.authoritativeRepresentationRef = true ∧
    present unit.provenance.parserBuildId = true ∧
    unit.provenance.parserBuildId.toList.all isAsciiGraphic = true ∧
    present pinned.authorityScopeKey = true ∧ present pinned.retentionLeaseId = true ∧
    matchesPinnedUnit (hitFor unit pinned) unit pinned = true) (.invalid "pinned Unit binding")
  let ephemeral : Bool := pinned.retentionMode = .sessionOnly ∨ pinned.retentionMode = .noRetention
  ensure (ephemeral ≠ decide (pinned.lifetimeScopeId = "") ∧
    ¬ (pinned.retentionMode = .cacheWithExpiry ∧ pinned.leaseExpiresAt = none))
    (.invalid "retention lifetime binding")

def retentionTag : RetentionMode → UInt8
  | .persistentResource => 1
  | .persistentDiscoveryMetadata => 2
  | .cacheWithExpiry => 3
  | .sessionOnly => 4
  | .noRetention => 5

/-- The frames of a unit, without its generation and snapshot. -/
def hashUnit (env : Platform) (item : VectorManifestUnit) :
    List (Except VectorContractError Bytes) :=
  let unit := item.unit
  let authority := item.authority
  [stringFrame unit.unitId.text, bytesFrame unit.version.sourceId.bytes,
    bytesFrame unit.version.resourceId.bytes, stringFrame unit.version.sourceNativeVersion,
    stringFrame unit.part.sourceNativePartId, stringFrame unit.part.logicalPath,
    u32Frame unit.part.ordinal] ++
  (match unit.parentUnitId with
    | some parent => [bytesFrame [1], stringFrame parent.text]
    | none => [bytesFrame [0]]) ++
  [u32Frame unit.ordinal, bytesFrame [unitKindTag unit.kind],
    stringFrame unit.provenance.authoritativeRepresentationRef,
    bytesFrame unit.provenance.raw.sha256.bytes, u64Frame unit.provenance.raw.sizeBytes.toNat,
    stringFrame unit.provenance.raw.mediaType, bytesFrame [unit.provenance.detectedFormat.tag],
    bytesFrame [unit.provenance.archiveInnerFormat.elim 0 FormatId.tag],
    stringFrame unit.provenance.profile, stringFrame unit.provenance.parserBuildId,
    bytesFrame unit.textSha256.bytes, stringFrame unit.text,
    fromUnit (unit.locator.encode env.isNfc), stringFrame authority.authorityScopeKey,
    stringFrame authority.retentionLeaseId, stringFrame authority.lifetimeScopeId,
    bytesFrame [retentionTag authority.retentionMode], timeFrame authority.leaseExpiresAt,
    bytesFrame [item.coverage.tag]]

def hashEntry (entry : VectorEntryRef) : List (Except VectorContractError Bytes) :=
  [stringFrame entry.hit.unitId.text, bytesFrame entry.vectorDigest.bytes,
    stringFrame entry.modelId, stringFrame entry.cacheKey.authorityScopeKey,
    stringFrame entry.cacheKey.retentionLeaseId,
    stringFrame entry.cacheKey.lifetimeScopeId]

end KnowledgePlatform.Search
