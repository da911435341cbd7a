import KnowledgePlatform.Body.Bundles
import KnowledgePlatform.Body.Memo
import KnowledgePlatform.Lib.Gather
import KnowledgePlatform.Projection.Canonical

/-! The durable payloads of a generation, restored with its units or without them. -/

namespace KnowledgePlatform.Body

open Graph (ProjectionGenerationKey ProjectionGenerationManifest SearchError)
open Projection (CompiledResourceProjection SemanticRegistrySnapshot Serializer generationDigest)
open Search (Platform ResourceVersionRef ContentPartRef RawBinding FormatId ExtractionProfileId
  ArchiveProfilePlan UnitId UnitKind NativeLocator UnitProvenance KnowledgeUnit textSha256
  digestString)

/-! ## Stored documents -/

structure ProjectionPayload where
  resources : List CompiledResourceProjection
  registry : SemanticRegistrySnapshot

structure UnitManifestHeader where
  key : ProjectionGenerationKey
  sourceSnapshot : String
  segments : Nat

structure SegmentContext where
  version : ResourceVersionRef
  part : ContentPartRef
  provenance : UnitProvenance

structure SegmentUnit where
  unitId : UnitId
  context : UInt32
  parentUnitId : Option UnitId
  ordinal : UInt32
  kind : UnitKind
  text : String
  locator : NativeLocator

structure Segment where
  version : ResourceVersionRef
  part : ContentPartRef
  authoritativeRepresentationRef : String
  raw : RawBinding
  detectedFormat : Option FormatId
  profile : Option ExtractionProfileId
  parserBuildId : String
  archivePlan : Option ArchiveProfilePlan
  operation : ItemOperationState
  coverage : Option BodyCoverage
  contexts : List SegmentContext
  units : List SegmentUnit

structure Envelope (α : Type) where
  dtoVersion : String
  body : α

/-- The JSON library: the documents it reads, and what it writes of a unit. -/
structure PayloadCodec where
  projection : String → Option (Envelope ProjectionPayload)
  header : String → Option (Envelope UnitManifestHeader)
  coverage : String → Option (Envelope BodyCoverageArtifact)
  segment : String → Option (Envelope Segment)
  unit : KnowledgeUnit → String
  canonical : Serializer

inductive PayloadCell where
  | whole (text : String)
  /-- The text of the member `chunk`, unless that is null. -/
  | chunk (text : Option String)

structure PayloadRow where
  kind : String
  chunk : Int
  dtoVersion : String
  payload : PayloadCell
  logicalDigest : String
  logicalCount : Int

structure SegmentRow where
  (dtoVersion payload : String)
  unitCount : Int

/-- The tables: a generation's payload rows by kind and chunk, its segments by ordinal, and every
segment by its digest. -/
structure PayloadTables where
  payloads : ProjectionGenerationKey → List PayloadRow
  listed : ProjectionGenerationKey → List (Int × String)
  segments : String → Option SegmentRow

def payloadDtoVersion : String := "v1"

def segmentDtoVersion : String := "v2"

def maxPayloadBytes : Nat := 1024 * 1024 * 1024

def summaryFetchBatch : Nat := 64

/-! ## Payloads -/

structure PayloadText where
  (kind text digest : String)
  count : Int

/-- The payloads read so far, the last one first, and the chunks of that one. -/
structure PayloadScan where
  texts : List PayloadText
  chunksOfLast : Int

def PayloadScan.next (scan : PayloadScan) (row : PayloadRow) (piece : String) (chunked : Bool) :
    Except BundleError PayloadScan := do
  match scan.texts with
  | last :: others =>
    if last.kind = row.kind then
      ensure (chunked = true ∧ row.chunk = scan.chunksOfLast ∧ last.digest = row.logicalDigest ∧
        last.count = row.logicalCount) .shape
      ensure (byteLen last.text + byteLen piece ≤ maxPayloadBytes) .shape
      return ⟨{ last with text := last.text ++ piece } :: others, scan.chunksOfLast + 1⟩
    ensure (row.chunk = 0) .shape
    return ⟨⟨row.kind, piece, row.logicalDigest, row.logicalCount⟩ :: scan.texts, 1⟩
  | [] =>
    ensure (row.chunk = 0) .shape
    return ⟨[⟨row.kind, piece, row.logicalDigest, row.logicalCount⟩], 1⟩

def readPayload (scan : PayloadScan) (row : PayloadRow) : Except BundleError PayloadScan := do
  ensure (row.dtoVersion = payloadDtoVersion) .shape
  match row.payload with
  | .whole text => scan.next row text false
  | .chunk text => do
    let text ← okOr text .shape
    scan.next row text true

def readPayloads (rows : List PayloadRow) : Except BundleError (List PayloadText) := do
  let scan ← rows.foldlM readPayload ⟨[], 0⟩
  return scan.texts.reverse

def restoreText {α : Type} (decode : String → Option (Envelope α)) (text : String) :
    Except BundleError α := do
  ensure (byteLen text ≤ maxPayloadBytes) .shape
  let envelope ← okOr (decode text) .shape
  ensure (envelope.dtoVersion = payloadDtoVersion) .shape
  return envelope.body

/-- What has been read of a generation, each kind at most once. -/
structure PartSlots where
  projection : Option ProjectionPayload
  header : Option UnitManifestHeader
  coverage : Option BodyCoverageArtifact
  columns : OrderedMap String (String × Int)

structure RestoredParts where
  projection : ProjectionPayload
  header : UnitManifestHeader
  coverage : BodyCoverageArtifact
  columns : OrderedMap String (String × Int)

def readPart (codec : PayloadCodec) (slots : PartSlots) (payload : PayloadText) :
    Except BundleError PartSlots := do
  let slots ←
    if payload.kind = "projection" then do
      let projection ← restoreText codec.projection payload.text
      ensure (slots.projection.isNone = true) .shape
      pure { slots with projection := some projection }
    else if payload.kind = "unit_manifest" then do
      let header ← restoreText codec.header payload.text
      ensure (slots.header.isNone = true) .shape
      pure { slots with header := some header }
    else if payload.kind = "body_coverage" then do
      let coverage ← restoreText codec.coverage payload.text
      ensure (slots.coverage.isNone = true) .shape
      pure { slots with coverage := some coverage }
    else .error .shape
  return { slots with columns := slots.columns.insert payload.kind (payload.digest, payload.count) }

def readParts (codec : PayloadCodec) (tables : PayloadTables) (key : ProjectionGenerationKey) :
    Except BundleError RestoredParts := do
  let payloads ← readPayloads (tables.payloads key)
  let slots ← payloads.foldlM (readPart codec) ⟨none, none, none, .empty⟩
  let projection ← okOr slots.projection .shape
  let header ← okOr slots.header .shape
  let coverage ← okOr slots.coverage .shape
  return ⟨projection, header, coverage, slots.columns⟩

/-! ## Segments -/

def ordinalsFrom : Nat → List (Int × String) → Bool
  | _, [] => true
  | place, row :: rows => decide (row.1 = place) && ordinalsFrom (place + 1) rows

def segmentList (tables : PayloadTables) (key : ProjectionGenerationKey)
    (header : UnitManifestHeader) : Except BundleError (List String) := do
  let list := tables.listed key
  ensure (list.length = header.segments ∧ ordinalsFrom 0 list = true) .shape
  return list.map Prod.snd

section

variable (env : Platform) (codec : PayloadCodec)

def decodeUnit (contexts : List SegmentContext) (unit : SegmentUnit) :
    Except BodyBuildError KnowledgeUnit := do
  let context ← okOr contexts[unit.context.toNat]? (.integrity "segment context")
  return {
    unitId := unit.unitId
    version := context.version
    part := context.part
    parentUnitId := unit.parentUnitId
    ordinal := unit.ordinal
    kind := unit.kind
    text := unit.text
    locator := unit.locator
    textSha256 := textSha256 env unit.text
    provenance := context.provenance }

def decodeSegment (text : String) : Except BodyBuildError BodyItemEntry := do
  let envelope ← okOr (codec.segment text) (.integrity "segment decoding")
  ensure (envelope.dtoVersion = segmentDtoVersion) (.integrity "segment version")
  let segment := envelope.body
  let units ← segment.units.mapM (decodeUnit env segment.contexts)
  return {
    version := segment.version
    part := segment.part
    authoritativeRepresentationRef := segment.authoritativeRepresentationRef
    raw := segment.raw
    detectedFormat := segment.detectedFormat
    profile := segment.profile
    parserBuildId := segment.parserBuildId
    archivePlan := segment.archivePlan
    operation := segment.operation
    coverage := segment.coverage
    units
    stored := none }

/-- A segment as read from the database. -/
def verifiedSegment (digest : String) (count : Int) (text : String) :
    Except BundleError BodyItemEntry := do
  ensure (byteLen text ≤ maxPayloadBytes) .shape
  let entry ← (decodeSegment env codec text).mapError fun _ => .shape
  let segment ← (segmentDigest env entry).mapError fun _ => .digest
  ensure (digestString segment = digest ∧ count = entry.units.length) .digest
  ensure (entry.units.all (fun unit => decide (textSha256 env unit.text = unit.textSha256) &&
    decide (unit.provenance.sourceSnapshot = "")) = true) .digest
  return entry

def readSegment (digest : String) (row : SegmentRow) : Except BundleError BodyItemEntry := do
  ensure (row.dtoVersion = segmentDtoVersion) .shape
  verifiedSegment env codec digest row.unitCount row.payload

/-- The digests without an entry in a cache, in order and each once. -/
def missingFrom {α : Type} (cache : List (String × α)) (list : List String) : List String :=
  (OrderedSet.ofList (list.filter fun digest => (cache.lookup digest).isNone)).items

def assemble (tables : PayloadTables) (arrange : Arrangement (String × SegmentRow))
    (cache : List (String × BodyItemEntry)) (key : ProjectionGenerationKey)
    (header : UnitManifestHeader) : Except BundleError BodyUnitManifest := do
  ensure (header.key = key) .binding
  let list ← segmentList tables key header
  let fetched ← Gather.gather tables.segments (readSegment env codec) .shape arrange
    (missingFrom cache list)
  let entries ← list.mapM fun digest => do
    let entry ← okOr ((fetched ++ cache).lookup digest) .shape
    return restampSourceSnapshot entry header.sourceSnapshot
  return ⟨key, header.sourceSnapshot, entries⟩

/-! ## With the units -/

structure RestoredPayload where
  projection : ProjectionPayload
  unitManifest : BodyUnitManifest
  coverage : BodyCoverageArtifact

def checkColumn (columns : OrderedMap String (String × Int)) (kind digest : String) (count : Nat) :
    Except BundleError Unit :=
  ensure (columns.get kind = some (digest, (count : Int))) .digest

def checkRestored (manifest : ProjectionGenerationManifest) (projection : ProjectionPayload)
    (coverage derived : BodyCoverageArtifact) (unitsReceipt : ArtifactReceipt)
    (columns : OrderedMap String (String × Int)) : Except BundleError Unit := do
  let projectionDigest ← (generationDigest codec.canonical env.sha256 manifest.key.sourceId
    projection.resources projection.registry).mapError fun _ => .digest
  ensure (projectionDigest = manifest.digest) .digest
  ensure (derived = coverage) .binding
  let coverageReceipt ← (coverageReceipt env coverage).mapError fun _ => .digest
  checkColumn columns "projection" manifest.digest manifest.resourceCount
  checkColumn columns "unit_manifest" (digestString unitsReceipt.digest) unitsReceipt.count.toNat
  checkColumn columns "body_coverage" (digestString coverageReceipt.digest)
    coverageReceipt.count.toNat

/-- The parts belong to the generation. -/
def RestoredParts.Bound (parts : RestoredParts) (manifest : ProjectionGenerationManifest) : Prop :=
  parts.header.key = manifest.key ∧ parts.coverage.key = manifest.key ∧
    parts.header.sourceSnapshot = manifest.sourceSnapshot ∧
    parts.projection.registry.version = manifest.semanticRegistryVersion ∧
    parts.projection.resources.length = manifest.resourceCount

instance (parts : RestoredParts) (manifest : ProjectionGenerationManifest) :
    Decidable (parts.Bound manifest) := inferInstanceAs (Decidable (_ ∧ _))

/-- The process's caches: segments with their units, digests of validated segments. -/
structure RestoreCaches where
  segments : List (String × BodyItemEntry)
  validated : List Digest

def restore (tables : PayloadTables) (arrange : Arrangement (String × SegmentRow))
    (caches : RestoreCaches) (manifest : ProjectionGenerationManifest) :
    Except BundleError RestoredPayload := do
  let key := manifest.key
  let parts ← readParts codec tables key
  let unitManifest ← assemble env codec tables arrange caches.segments key parts.header
  ensure (unitManifest.key = key ∧ parts.coverage.key = key ∧
    unitManifest.sourceSnapshot = manifest.sourceSnapshot ∧
    parts.projection.registry.version = manifest.semanticRegistryVersion ∧
    parts.projection.resources.length = manifest.resourceCount) .binding
  let segments ← segmentDigests env unitManifest
  let (derived, unitsReceipt) ← (validateUnits env caches.validated unitManifest segments).1
  checkRestored env codec manifest parts.projection parts.coverage derived unitsReceipt
    parts.columns
  return ⟨parts.projection, unitManifest, parts.coverage⟩

/-! ## Without the units -/

/-- The unit's JSON has neither its text nor its snapshot. -/
def metadataJson (unit : KnowledgeUnit) : String := codec.unit (restamp "" { unit with text := "" })

def unitDocHash (unit : KnowledgeUnit) : Digest :=
  let metadata := utf8 (metadataJson codec unit).toList
  let text := utf8 unit.text.toList
  domainDigest env "document-unit:v1"
    (bigEndian 4 metadata.length ++ metadata ++ bigEndian 4 text.length ++ text)

def sealEntry (unit : KnowledgeUnit) : UnitSealEntry := ⟨unit.unitId, unitDocHash env codec unit⟩

/-- An item's seal entries, from its stored segment or from its units. -/
def entrySeal (entry : BodyItemEntry) : Except SearchError (List UnitSealEntry) :=
  match entry.stored with
  | some stored => .ok stored.sealEntries
  | none => entry.units.mapM fun unit => do
    ensure (textSha256 env unit.text = unit.textSha256)
      (failed "lexical seal: Unit text differs from its digest")
    return sealEntry env codec unit

/-- The digest an item is stored under. -/
def storedSegmentDigest (entry : BodyItemEntry) : Except BundleError String := do
  let digest ← (segmentDigest env (restampSourceSnapshot entry "")).mapError fun _ => .digest
  return digestString digest

structure SegmentSummary where
  item : BodyCoverageItem
  digest : Digest
  profile : Option (String × String)
  units : List UnitSealEntry

def summarizeEntry (header : UnitManifestHeader) (entry : BodyItemEntry) :
    Except BundleError SegmentSummary := do
  let segment ← (segmentDigest env entry).mapError fun _ => .digest
  let units := entry.units.map (sealEntry env codec)
  let single : BodyUnitManifest := ⟨header.key, header.sourceSnapshot,
    [restampSourceSnapshot entry header.sourceSnapshot]⟩
  let coverage ← (validateRestoredManifest env single).mapError fun _ => .digest
  let item ← okOr coverage.items.head? .digest
  return ⟨item, segment, profileOf entry, units⟩

def summarizeSegment (header : UnitManifestHeader) (digest : String) (row : SegmentRow) :
    Except BundleError SegmentSummary := do
  let entry ← readSegment env codec digest row
  summarizeEntry env codec header entry

def BodyCoverageItem.coverageOrder (item : BodyCoverageItem) :
    Graph.ResourceId ×ₗ (Nat ×ₗ (String ×ₗ String)) :=
  toLex (item.version.resourceId, toLex (item.part.ordinal.toNat,
    toLex (item.part.logicalPath, item.part.sourceNativePartId)))

structure UnitManifestSummary where
  key : ProjectionGenerationKey
  sourceSnapshot : String
  receipt : ArtifactReceipt
  items : Nat
  profileSetDigest : Digest
  units : List (List UnitSealEntry)
  segments : List String

structure RestoredSummary where
  projection : ProjectionPayload
  units : UnitManifestSummary
  coverage : BodyCoverageArtifact

/-- Batches are read side by side: they finish in any order, their rows arrive in any order. -/
structure SummaryOrder where
  rows : Arrangement (String × SegmentRow)
  finished : Arrangement (List String)

def restoreSummaryUncached (tables : PayloadTables) (order : SummaryOrder)
    (cache : List (String × SegmentSummary)) (manifest : ProjectionGenerationManifest) :
    Except BundleError RestoredSummary := do
  let key := manifest.key
  let parts ← readParts codec tables key
  ensure (parts.Bound manifest) .binding
  let list ← segmentList tables key parts.header
  let fetched ← (order.finished.apply (batches summaryFetchBatch (missingFrom cache list))).mapM
    (Gather.gather tables.segments (summarizeSegment env codec parts.header) .shape order.rows)
  let summaries ← list.mapM fun digest => do
    let summary ← okOr ((fetched.flatten ++ cache).lookup digest) .shape
    ensure (summary.item.version.sourceId = key.sourceId) .digest
    return summary
  let items := summaries.map SegmentSummary.item
  ensure ((items.map BodyCoverageItem.coverageOrder).IsChain (· < ·)) .digest
  let unitsReceipt ← (unitManifestReceiptFromSegments env key (summaries.map fun summary =>
    (summary.digest, summary.item.unitCount.toNat))).mapError fun _ => .digest
  let profileSetDigest ← (profileSetDigestFrom env
    (summaries.filterMap SegmentSummary.profile)).mapError fun _ => .digest
  checkRestored env codec manifest parts.projection parts.coverage ⟨key, items⟩ unitsReceipt
    parts.columns
  return {
    projection := parts.projection
    units := {
      key
      sourceSnapshot := parts.header.sourceSnapshot
      receipt := unitsReceipt
      items := items.length
      profileSetDigest
      units := summaries.map SegmentSummary.units
      segments := list }
    coverage := parts.coverage }

/-- The process's caches: summaries of segments, and whole summaries by key and digest. -/
structure SummaryCaches where
  summaries : List (String × SegmentSummary)
  restored : List (ProjectionGenerationKey × String × RestoredSummary)

def restoreWithoutUnits (tables : PayloadTables) (order : SummaryOrder) (caches : SummaryCaches)
    (manifest : ProjectionGenerationManifest) : Except BundleError RestoredSummary :=
  match caches.restored.find? fun kept => kept.1 = manifest.key && kept.2.1 = manifest.digest with
  | some kept => .ok kept.2.2
  | none => restoreSummaryUncached env codec tables order caches.summaries manifest

end

end KnowledgePlatform.Body
