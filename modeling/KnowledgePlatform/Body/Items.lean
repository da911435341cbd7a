import KnowledgePlatform.Search.Profiles

/-! The units of a generation's items, what they cover, the digests and receipts of both, and the
checks of a unit manifest restored from storage. -/

namespace KnowledgePlatform.Body

open Framing List
open Graph (ProjectionGenerationKey ResourceId)
open Search (Platform ResourceVersionRef ContentPartRef RawBinding FormatId ExtractionProfileId
  ArchiveProfilePlan KnowledgeUnit UnitId u32Bytes unitKindTag digestString UnitCodecError
  validAsciiId validateLogicalPath normalizeUnitText textSha256 compatibleKind)

/-! ## Items -/

inductive CoverageReason where
  | requiresOcr
  | unsupportedFormat
  | encrypted
  | unsupportedStructure
  | unsupportedEncoding
  | unsupportedDialect
  | unsupportedCodec
  | missingFormulaCache
  | ambiguousReadingOrder
  | dynamicVisibility
  | resourceLimit
deriving DecidableEq

inductive BodyCoverage where
  | supported
  | partially (reasons : List CoverageReason)
  | unsupported (reason : CoverageReason)
deriving DecidableEq

inductive PermanentFailureCode where
  | corruptDocument
  | malformedArchive
  | textExtractionFailed
  | workerOutputLimit
deriving DecidableEq

inductive RetryableFailureCode where
  | sourceIo
  | workerUnavailable
  | workerKilled
  | timeout
deriving DecidableEq

inductive ItemOperationState where
  | completed
  | failedPermanent (code : PermanentFailureCode)
  | retryable (code : RetryableFailureCode)
deriving DecidableEq

structure UnitSealEntry where
  unitId : UnitId
  hash : Digest

/-- The stored segment that stands for an unchanged item's units. -/
structure StoredUnits where
  digest : Digest
  count : UInt64
  sealEntries : List UnitSealEntry

structure BodyItemEntry where
  version : ResourceVersionRef
  part : ContentPartRef
  authoritativeRepresentationRef : String
  raw : RawBinding
  detectedFormat : Option FormatId
  profile : Option ExtractionProfileId
  parserBuildId : String
  archivePlan : Option ArchiveProfilePlan
  operation : ItemOperationState
  coverage : Option BodyCoverage
  units : List KnowledgeUnit
  stored : Option StoredUnits

def BodyItemEntry.unitCount (entry : BodyItemEntry) : Nat :=
  match entry.stored with
  | some stored => stored.count.toNat
  | none => entry.units.length

structure BodyUnitManifest where
  key : ProjectionGenerationKey
  sourceSnapshot : String
  entries : List BodyItemEntry

structure BodyCoverageItem where
  version : ResourceVersionRef
  part : ContentPartRef
  operation : ItemOperationState
  coverage : Option BodyCoverage
  raw : RawBinding
  unitCount : UInt32
deriving DecidableEq

structure BodyCoverageArtifact where
  key : ProjectionGenerationKey
  items : List BodyCoverageItem
deriving DecidableEq

structure ArtifactReceipt where
  key : ProjectionGenerationKey
  digest : Digest
  count : UInt64
deriving DecidableEq

structure GenerationBundleReceipt where
  key : ProjectionGenerationKey
  sourceSnapshot : String
  projectionDigest : Digest
  (unitManifest bodyCoverage lexical graph : ArtifactReceipt)
  profileSetDigest : Digest
  lexicalSchemaVersion : String
  compositeDigest : Digest
deriving DecidableEq

def lexicalSchemaVersion : String := "schema-2"

/-! ## Canonical bytes -/

inductive BodyBuildError where
  | integrity (reason : String)

def BodyBuildError.text : BodyBuildError → String
  | integrity reason => "body integrity incident: " ++ reason

def frameLength : BodyBuildError := .integrity "frame length"

def collectionCount : BodyBuildError := .integrity "collection count"

def textBytes (value : String) : Except BodyBuildError Bytes :=
  frame frameLength (utf8 value.toList)

def versionBytes (version : ResourceVersionRef) : Except BodyBuildError Bytes :=
  parts [.ok version.sourceId.bytes, .ok version.resourceId.bytes,
    textBytes version.sourceNativeVersion]

def partBytes (part : ContentPartRef) : Except BodyBuildError Bytes :=
  parts [textBytes part.sourceNativePartId, textBytes part.logicalPath, .ok (u32Bytes part.ordinal)]

def rawBytes (raw : RawBinding) : Except BodyBuildError Bytes :=
  parts [.ok raw.sha256.bytes, .ok (bigEndian 8 raw.sizeBytes.toNat), textBytes raw.mediaType]

def reasonTag : CoverageReason → UInt8
  | .requiresOcr => 1
  | .unsupportedFormat => 2
  | .encrypted => 3
  | .unsupportedStructure => 4
  | .unsupportedEncoding => 5
  | .unsupportedDialect => 6
  | .unsupportedCodec => 7
  | .missingFormulaCache => 8
  | .ambiguousReadingOrder => 9
  | .dynamicVisibility => 10
  | .resourceLimit => 11

def permanentTag : PermanentFailureCode → UInt8
  | .corruptDocument => 1
  | .malformedArchive => 2
  | .textExtractionFailed => 3
  | .workerOutputLimit => 4

def operationBytes : ItemOperationState → Except BodyBuildError Bytes
  | .completed => .ok [1]
  | .failedPermanent code => .ok [2, permanentTag code]
  | .retryable _ => .error (.integrity "retryable item is not publishable")

def coverageBytes : Option BodyCoverage → Except BodyBuildError Bytes
  | none => .ok [0]
  | some .supported => .ok [1]
  | some (.partially reasons) =>
    parts [.ok [2], count collectionCount reasons.length, .ok (reasons.map reasonTag)]
  | some (.unsupported reason) => .ok [3, reasonTag reason]

/-- An absent value is a zero, a present one follows a one. -/
def optionBytes {α : Type} (f : α → Except BodyBuildError Bytes) :
    Option α → Except BodyBuildError Bytes
  | none => .ok [0]
  | some a => parts [.ok [1], f a]

/-! ## Digests -/

section

variable (env : Platform)

def locatorBytes (unit : KnowledgeUnit) : Except BodyBuildError Bytes :=
  (unit.locator.encode env.isNfc).mapError fun _ => .integrity "unit locator"

def unitBytes (unit : KnowledgeUnit) : Except BodyBuildError Bytes :=
  parts [textBytes unit.unitId.text,
    optionBytes (fun parent => textBytes parent.text) unit.parentUnitId,
    .ok (u32Bytes unit.ordinal),
    .ok [unitKindTag unit.kind],
    locatorBytes env unit >>= frame frameLength,
    frame frameLength unit.textSha256.bytes]

def segmentBytes (entry : BodyItemEntry) : Except BodyBuildError Bytes :=
  parts [textBytes entry.parserBuildId, versionBytes entry.version, partBytes entry.part,
    textBytes entry.authoritativeRepresentationRef, rawBytes entry.raw,
    optionBytes textBytes entry.profile,
    optionBytes (fun format => .ok [format.tag]) entry.detectedFormat,
    operationBytes entry.operation, coverageBytes entry.coverage,
    parts (count collectionCount entry.units.length :: entry.units.map (unitBytes env))]

/-- Hashed after the name of what it is, and a zero byte. -/
def domainDigest (domain : String) (bytes : Bytes) : Digest :=
  env.sha256 (utf8 (domain.toList ++ ['\x00']) ++ bytes)

/-- An item standing for its units by a stored segment has that segment's digest. -/
def segmentDigest (entry : BodyItemEntry) : Except BodyBuildError Digest :=
  match entry.stored with
  | some stored => .ok stored.digest
  | none => do
    let bytes ← segmentBytes env entry
    return domainDigest env "body-unit-segment:v1" bytes

/-- Adds in the machine's 64 bits. -/
def addCount (total : UInt64) (count : Nat) : Except BodyBuildError UInt64 := do
  ensure (total.toNat + count < 2 ^ 64) (.integrity "unit count")
  return .ofNat (total.toNat + count)

/-- The bytes hashed for a list of segments. -/
def segmentListBytes (segments : List (Digest × Nat)) : Except BodyBuildError Bytes := do
  let number ← count collectionCount segments.length
  let frames ← parts (segments.map fun segment => frame frameLength segment.1.bytes)
  return number ++ frames

def unitManifestReceiptFromSegments (key : ProjectionGenerationKey)
    (segments : List (Digest × Nat)) : Except BodyBuildError ArtifactReceipt := do
  let bytes ← segmentListBytes segments
  let units ← segments.foldlM (fun total segment => addCount total segment.2) 0
  return ⟨key, domainDigest env "body-unit-manifest:v2" bytes, units⟩

def segmentOf (entry : BodyItemEntry) : Except BodyBuildError (Digest × Nat) := do
  let digest ← segmentDigest env entry
  return (digest, entry.unitCount)

def unitManifestReceipt (manifest : BodyUnitManifest) : Except BodyBuildError ArtifactReceipt := do
  let segments ← manifest.entries.mapM (segmentOf env)
  unitManifestReceiptFromSegments env manifest.key segments

def coverageItemBytes (item : BodyCoverageItem) : Except BodyBuildError Bytes :=
  parts [versionBytes item.version, partBytes item.part, rawBytes item.raw,
    operationBytes item.operation, coverageBytes item.coverage, .ok (u32Bytes item.unitCount)]

def coverageReceipt (artifact : BodyCoverageArtifact) : Except BodyBuildError ArtifactReceipt := do
  let bytes ← parts (count collectionCount artifact.items.length ::
    artifact.items.map coverageItemBytes)
  return ⟨artifact.key, domainDigest env "body-coverage:v1" bytes, .ofNat artifact.items.length⟩

/-- Distinct pairs of profile and parser build, ascending. -/
def profileSetDigestFrom (pairs : List (String × String)) : Except BodyBuildError Digest := do
  let set : OrderedSet (String ×ₗ String) := .ofList (pairs.map toLex)
  let bytes ← parts (count collectionCount set.items.length :: set.items.map fun pair =>
    parts [textBytes (ofLex pair).1, textBytes (ofLex pair).2])
  return domainDigest env "body-profile-set:v1" bytes

def profileOf (entry : BodyItemEntry) : Option (String × String) :=
  entry.profile.map fun profile => (profile, entry.parserBuildId)

def profileSetDigest (manifest : BodyUnitManifest) : Except BodyBuildError Digest :=
  profileSetDigestFrom env (manifest.entries.filterMap profileOf)

/-- The digest of a `sha256:` text. -/
def projectionDigest (manifestDigest : String) : Except BodyBuildError Digest :=
  okOr ((manifestDigest.toList.dropPrefix? "sha256:".toList).bind fun hex =>
    Digest.ofHex (String.ofList hex)) (.integrity "projection digest")

/-! ## Bundles -/

def compositeBytes (key : ProjectionGenerationKey) (projection : Digest)
    (unitManifest bodyCoverage lexical graph : ArtifactReceipt) (profileSet : Digest) : Bytes :=
  key.sourceId.bytes ++ projection.bytes ++ unitManifest.digest.bytes ++
    bodyCoverage.digest.bytes ++ lexical.digest.bytes ++ graph.digest.bytes ++ profileSet.bytes ++
    bigEndian 4 (utf8 lexicalSchemaVersion.toList).length ++ utf8 lexicalSchemaVersion.toList ++
    bigEndian 8 unitManifest.count.toNat ++ bigEndian 8 bodyCoverage.count.toNat

def computeBundleReceiptFrom (key : ProjectionGenerationKey) (sourceSnapshot : String)
    (projectionManifestDigest : String) (unitManifest : ArtifactReceipt) (items : Nat)
    (profileSet : Digest) (coverage : BodyCoverageArtifact) (lexical graph : ArtifactReceipt) :
    Except BodyBuildError GenerationBundleReceipt := do
  ensure (unitManifest.key = key ∧ coverage.key = key ∧ lexical.key = key ∧ graph.key = key)
    (.integrity "bundle key")
  let bodyCoverage ← coverageReceipt env coverage
  ensure (bodyCoverage.count.toNat = items) (.integrity "coverage item count")
  let projection ← projectionDigest projectionManifestDigest
  return {
    key
    sourceSnapshot
    projectionDigest := projection
    unitManifest
    bodyCoverage
    lexical
    graph
    profileSetDigest := profileSet
    lexicalSchemaVersion
    compositeDigest := domainDigest env "document-generation-bundle:v2"
      (compositeBytes key projection unitManifest bodyCoverage lexical graph profileSet) }

def computeBundleReceipt (key : ProjectionGenerationKey) (sourceSnapshot : String)
    (projectionManifestDigest : String) (manifest : BodyUnitManifest)
    (coverage : BodyCoverageArtifact) (lexical graph : ArtifactReceipt) :
    Except BodyBuildError GenerationBundleReceipt := do
  ensure (manifest.key = key ∧ coverage.key = key ∧ lexical.key = key ∧ graph.key = key ∧
    manifest.sourceSnapshot = sourceSnapshot) (.integrity "bundle key")
  let unitManifest ← unitManifestReceipt env manifest
  let profileSet ← profileSetDigest env manifest
  computeBundleReceiptFrom env key sourceSnapshot projectionManifestDigest unitManifest
    manifest.entries.length profileSet coverage lexical graph

end

/-- The text of a digest is read back. -/
theorem projectionDigest_digestString (d : Digest) : projectionDigest (digestString d) = .ok d := by
  have hex : (digestString d).toList.dropPrefix? "sha256:".toList = some d.hex.toList := by
    rw [digestString, String.toList_append]
    exact dropPrefix?_append_of_beq _ (BEq.refl _)
  rw [projectionDigest, hex, Option.bind_some, String.ofList_toList, Digest.ofHex_hex]
  rfl

/-! ## The units of one restored part -/

structure UnitAuthorityBinding where
  version : ResourceVersionRef
  part : ContentPartRef
  (sourceSnapshot authoritativeRepresentationRef : String)
  raw : RawBinding
  detectedFormat : FormatId
  archiveInnerFormat : Option FormatId
  profile : ExtractionProfileId
  parserBuildId : String
  archivePlan : Option ArchiveProfilePlan

inductive UnitValidationError where
  | codec (error : UnitCodecError)
  | invalid (reason : String)

def isMimeToken (token : List Char) : Bool :=
  !token.isEmpty && token.all fun c =>
    c.isLower || c.isDigit || "!#$%&'*+-.^_`|~".toList.contains c

/-- The part after the first slash is no token when it has another one. -/
def validMimeEssence (value : String) : Bool :=
  match value.toList.splitOn '/' with
  | [kind, subtype] => isMimeToken kind && isMimeToken subtype
  | _ => false

section

variable (env : Platform)

def codec {α : Type} (x : Except UnitCodecError α) : Except UnitValidationError α :=
  x.mapError .codec

def validateBinding (binding : UnitAuthorityBinding) : Except UnitValidationError Unit := do
  ensure (binding.version.sourceNativeVersion ≠ "" ∧
      env.isNfc binding.version.sourceNativeVersion = true ∧
      binding.part.sourceNativePartId ≠ "" ∧ env.isNfc binding.part.sourceNativePartId = true ∧
      binding.sourceSnapshot ≠ "" ∧ binding.authoritativeRepresentationRef ≠ "" ∧
      validAsciiId binding.parserBuildId = true ∧ validMimeEssence binding.raw.mediaType = true)
    (.invalid "authority binding")
  codec (validateLogicalPath env.isNfc binding.part.logicalPath)
  if binding.detectedFormat = .zip then
    let plan ← okOr binding.archivePlan (.invalid "archive binding")
    ensure (binding.archiveInnerFormat ≠ some .zip ∧
        (plan.nodes.head?.any fun root => decide (root.parserBuildId = binding.parserBuildId)) =
          true) (.invalid "archive profile")
    let profile ← codec (ExtractionProfileId.forArchive env plan)
    ensure (profile = binding.profile) (.invalid "archive profile")
  else
    ensure (binding.archiveInnerFormat = none ∧ binding.archivePlan.isNone = true)
      (.invalid "nonarchive binding")

def UnitAuthorityBinding.owns (binding : UnitAuthorityBinding) (unit : KnowledgeUnit) : Bool :=
  unit.version = binding.version && unit.part = binding.part &&
    unit.provenance.sourceSnapshot = binding.sourceSnapshot &&
    unit.provenance.authoritativeRepresentationRef = binding.authoritativeRepresentationRef &&
    unit.provenance.raw = binding.raw && unit.provenance.detectedFormat = binding.detectedFormat &&
    (binding.detectedFormat = .zip ||
      unit.provenance.archiveInnerFormat = binding.archiveInnerFormat) &&
    !(binding.detectedFormat = .zip && binding.archiveInnerFormat.isSome &&
      unit.provenance.archiveInnerFormat ≠ binding.archiveInnerFormat) &&
    unit.provenance.profile = binding.profile &&
    unit.provenance.parserBuildId = binding.parserBuildId

def checkLocator (binding : UnitAuthorityBinding) (unit : KnowledgeUnit) :
    Except UnitValidationError Unit :=
  match unit.locator, binding.detectedFormat with
  | .archive members inner, .zip => do
    let leafFormat ← okOr unit.provenance.archiveInnerFormat (.invalid "archive inner format")
    let plan ← okOr binding.archivePlan (.invalid "archive plan")
    ensure (members ∈ plan.usedLeafChains ∧
        ((plan.nodes.find? fun node => node.members = members).any fun node =>
          decide (node.definition.format = leafFormat)) = true ∧
        compatibleKind leafFormat inner unit.kind = true)
      (.invalid "archive leaf locator")
  | .archive _ _, _ | _, .zip => .error (.invalid "archive locator")
  | locator, format =>
    ensure (compatibleKind format locator unit.kind = true) (.invalid "kind locator")

/-- The units seen so far: how many, their identities and their locators. -/
structure UnitScan where
  index : Nat
  ids : List UnitId
  locators : List Bytes

def checkUnit (binding : UnitAuthorityBinding) (scan : UnitScan) (unit : KnowledgeUnit) :
    Except UnitValidationError UnitScan := do
  ensure (scan.index < 2 ^ 32) (.invalid "unit count")
  ensure (unit.ordinal.toNat = scan.index ∧ binding.owns unit = true)
    (.invalid "unit authority mismatch")
  ensure (unit.text ≠ "" ∧ (utf8 unit.text.toList).length < 2 ^ 32 ∧
    normalizeUnitText env unit.text = unit.text) (.invalid "unit text")
  ensure (textSha256 env unit.text = unit.textSha256) (.invalid "text digest")
  let locator ← codec (unit.locator.encode env.isNfc)
  ensure (locator ∉ scan.locators) (.invalid "duplicate locator")
  checkLocator binding unit
  let derived ← codec (UnitId.derive env unit.version unit.part unit.provenance.profile unit.locator
    unit.ordinal)
  ensure (derived = unit.unitId) (.invalid "unit ID")
  ensure ((unit.parentUnitId.all fun parent => decide (parent ∈ scan.ids)) = true)
    (.invalid "parent unit")
  ensure (unit.unitId ∉ scan.ids) (.invalid "duplicate unit ID")
  return ⟨scan.index + 1, unit.unitId :: scan.ids, locator :: scan.locators⟩

def validatePartUnits (binding : UnitAuthorityBinding) (units : List KnowledgeUnit) :
    Except UnitValidationError Unit := do
  validateBinding env binding
  let _ ← units.foldlM (checkUnit env binding) ⟨0, [], []⟩

/-! ## Items and manifests -/

def BodyItemEntry.checkOutcome (entry : BodyItemEntry) : Except BodyBuildError Unit :=
  match entry.operation, entry.coverage with
  | .retryable _, _ => .error (.integrity "retryable item is not publishable")
  | .failedPermanent _, none => ensure (entry.unitCount = 0) (.integrity "failed item output")
  | .failedPermanent _, some _ => .error (.integrity "failed item output")
  | .completed, none => .error (.integrity "completed coverage")
  | .completed, some (.unsupported _) =>
    ensure (entry.unitCount = 0) (.integrity "unsupported item units")
  | .completed, some (.partially reasons) =>
    ensure (reasons ≠ [] ∧ entry.unitCount ≠ 0) (.integrity "partial witness")
  | .completed, some .supported => .ok ()

def BodyItemEntry.binding (entry : BodyItemEntry) (sourceSnapshot : String) (format : FormatId)
    (profile : ExtractionProfileId) : UnitAuthorityBinding :=
  ⟨entry.version, entry.part, sourceSnapshot, entry.authoritativeRepresentationRef, entry.raw,
    format, none, profile, entry.parserBuildId, entry.archivePlan⟩

def checkAuthority (entry : BodyItemEntry) (sourceSnapshot : String) : Except BodyBuildError Unit :=
  match entry.detectedFormat, entry.profile with
  | some format, some profile =>
    (validatePartUnits env (entry.binding sourceSnapshot format profile) entry.units).mapError
      fun _ => .integrity "unit authority"
  | _, _ => .error (.integrity "units without profile")

def validateEntry (entry : BodyItemEntry) (sourceSnapshot : String) :
    Except BodyBuildError Unit := do
  entry.checkOutcome
  ensure (¬ (entry.detectedFormat = none ∧ (entry.profile ≠ none ∨
      entry.coverage ≠ some (.unsupported .unsupportedFormat))))
    (.integrity "undetected format outcome")
  if entry.unitCount = 0 ∨ entry.stored.isSome = true then .ok ()
  else checkAuthority env entry sourceSnapshot

def BodyItemEntry.orderKey (entry : BodyItemEntry) : ResourceId ×ₗ (Nat ×ₗ (String ×ₗ String)) :=
  toLex (entry.version.resourceId, toLex (entry.part.ordinal.toNat,
    toLex (entry.part.logicalPath, entry.part.sourceNativePartId)))

/-- An item's part of the coverage; one that is verified already is not checked again. -/
def restoredItem (manifest : BodyUnitManifest) (entry : BodyItemEntry) (verified : Bool) :
    Except BodyBuildError BodyCoverageItem := do
  ensure (entry.version.sourceId = manifest.key.sourceId) (.integrity "manifest source")
  if verified then .ok () else validateEntry env entry manifest.sourceSnapshot
  ensure (entry.unitCount < 2 ^ 32) (.integrity "unit count")
  return ⟨entry.version, entry.part, entry.operation, entry.coverage, entry.raw,
    .ofNat entry.unitCount⟩

def validateRestoredManifestSkipping (manifest : BodyUnitManifest) (verified : List Bool) :
    Except BodyBuildError BodyCoverageArtifact := do
  ensure ((manifest.entries.map BodyItemEntry.orderKey).IsChain (· < ·))
    (.integrity "manifest order")
  let items ← (manifest.entries.zip verified).mapM fun item =>
    restoredItem env manifest item.1 item.2
  return ⟨manifest.key, items⟩

def validateRestoredManifest (manifest : BodyUnitManifest) :
    Except BodyBuildError BodyCoverageArtifact :=
  validateRestoredManifestSkipping env manifest (manifest.entries.map fun _ => false)

end

/-! ## Another source snapshot -/

def restamp (sourceSnapshot : String) (unit : KnowledgeUnit) : KnowledgeUnit :=
  { unit with provenance := { unit.provenance with sourceSnapshot } }

def restampSourceSnapshot (entry : BodyItemEntry) (sourceSnapshot : String) : BodyItemEntry :=
  { entry with units := entry.units.map (restamp sourceSnapshot) }

section

variable {env : Platform} {entry : BodyItemEntry} {old new : String}

/-- Every unit was stamped with the snapshot. -/
def BodyItemEntry.Stamped (entry : BodyItemEntry) (sourceSnapshot : String) : Prop :=
  ∀ unit ∈ entry.units, unit.provenance.sourceSnapshot = sourceSnapshot

theorem segmentBytes_restamp :
    segmentBytes env (restampSourceSnapshot entry new) = segmentBytes env entry := by
  simp only [segmentBytes, restampSourceSnapshot, map_map, length_map]
  rfl

@[simp] theorem segmentDigest_restamp :
    segmentDigest env (restampSourceSnapshot entry new) = segmentDigest env entry := by
  simp only [segmentDigest, segmentBytes_restamp]
  rfl

@[simp] theorem unitCount_restamp :
    (restampSourceSnapshot entry new).unitCount = entry.unitCount := by
  simp only [BodyItemEntry.unitCount, restampSourceSnapshot, length_map]

variable {binding : UnitAuthorityBinding}

theorem checkUnits_restamp {scan : UnitScan} {units : List KnowledgeUnit}
    (stamped : ∀ unit ∈ units, unit.provenance.sourceSnapshot = binding.sourceSnapshot) :
    (units.map (restamp new)).foldlM (checkUnit env { binding with sourceSnapshot := new }) scan =
      units.foldlM (checkUnit env binding) scan := by
  induction units generalizing scan with
  | nil => rfl
  | cons unit units ih =>
    have owns : ({ binding with sourceSnapshot := new } : UnitAuthorityBinding).owns
        (restamp new unit) = binding.owns unit := by
      simp only [UnitAuthorityBinding.owns, restamp, stamped unit mem_cons_self, decide_true]
      rfl
    have first : checkUnit env { binding with sourceSnapshot := new } scan (restamp new unit) =
        checkUnit env binding scan unit := by
      simp only [checkUnit, owns]
      rfl
    rw [map_cons, foldlM_cons, foldlM_cons, first]
    apply except_bind_congr
    intro next _
    exact ih fun other inside => stamped other (.tail _ inside)

theorem checkAuthority_restamp (stamped : entry.Stamped old) (present : new ≠ "")
    (h : checkAuthority env entry old = .ok ()) :
    checkAuthority env (restampSourceSnapshot entry new) new = .ok () := by
  have sameFormat : (restampSourceSnapshot entry new).detectedFormat = entry.detectedFormat := rfl
  have sameProfile : (restampSourceSnapshot entry new).profile = entry.profile := rfl
  unfold checkAuthority at h ⊢
  rw [sameFormat, sameProfile]
  split at h
  next format profile _ _ =>
    rw [mapError_iff] at h ⊢
    simp only [validatePartUnits, except_bind_iff] at h ⊢
    obtain ⟨_, bound, last, scanned, done⟩ := h
    have again : (entry.units.map (restamp new)).foldlM (checkUnit env
        { entry.binding old format profile with sourceSnapshot := new }) ⟨0, [], []⟩ =
        entry.units.foldlM (checkUnit env (entry.binding old format profile)) ⟨0, [], []⟩ :=
      checkUnits_restamp stamped
    refine ⟨(), ?_, last, again.trans scanned, done⟩
    simp only [validateBinding, except_iffs] at bound ⊢
    obtain ⟨fields, rest⟩ := bound
    exact ⟨⟨fields.1, fields.2.1, fields.2.2.1, fields.2.2.2.1, present, fields.2.2.2.2.2⟩, rest⟩
  · cases h

/-- An item that passes under its own snapshot passes under every other that is not empty. -/
theorem validateEntry_restamp (stamped : entry.Stamped old) (present : new ≠ "")
    (h : validateEntry env entry old = .ok ()) :
    validateEntry env (restampSourceSnapshot entry new) new = .ok () := by
  have outcome : (restampSourceSnapshot entry new).checkOutcome = entry.checkOutcome := by
    simp only [BodyItemEntry.checkOutcome, unitCount_restamp]
    rfl
  have stored : (restampSourceSnapshot entry new).stored = entry.stored := rfl
  simp only [validateEntry, except_bind_iff, outcome, unitCount_restamp, stored] at h ⊢
  obtain ⟨_, passed, _, format, rest⟩ := h
  refine ⟨(), passed, (), format, ?_⟩
  split at rest
  next bare =>
    exact if_pos bare
  next full =>
    rw [if_neg full]
    exact checkAuthority_restamp stamped present rest

end

end KnowledgePlatform.Body
