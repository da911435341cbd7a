import KnowledgePlatform.Graph.Relation
import KnowledgePlatform.Lib.Framing
import KnowledgePlatform.Lib.Text

/-! The canonical bytes of typed relations and graph resources, and the digests of them. -/

namespace KnowledgePlatform.Graph

open Framing

inductive GraphError where
  | invalid (reason : String)
  | integrity (what : String)
  | fenceLost
  | store
  | requiresFullRebuild
  /-- No error value: the thread panics. -/
  | panicked

/-! ## Instants -/

/-- An instant as stored. -/
structure Instant where
  (epochNanos offsetSeconds : Int)

namespace Instant

def fromDatetime (value : OffsetDateTime) : Instant :=
  ⟨value.unixTimestampNanos, value.offsetSeconds⟩

/-- The instant must lie in the calendar's range, and so must its local date. -/
def toDatetime (i : Instant) : Except GraphError OffsetDateTime :=
  if offset_le : -maxOffset ≤ i.offsetSeconds ∧ i.offsetSeconds ≤ maxOffset then
    if minNanos ≤ i.epochNanos ∧ i.epochNanos ≤ maxNanos then
      if local_le : minNanos ≤ i.epochNanos + i.offsetSeconds * 10 ^ 9 ∧
          i.epochNanos + i.offsetSeconds * 10 ^ 9 ≤ maxNanos then
        .ok ⟨i.epochNanos, i.offsetSeconds, offset_le, local_le⟩
      else .error .panicked
    else .error (.invalid "instant out of range")
  else .error (.invalid "offset out of range")

end Instant

/-- The stored columns of a temporal projection. -/
structure TemporalColumns where
  resourceRef : ResourceId
  (validFrom validTo freshnessAnchorAt : Option Instant)
  freshnessBasis : Option String
  (effectiveFrom effectiveTo : Option Instant)

def halfOpen (start stop : Option OffsetDateTime) : Except GraphError Unit :=
  ensure (∀ a ∈ start, ∀ b ∈ stop, a.before b = true)
    (.invalid "interval start must precede its end")

/-- The columns of a temporal projection. -/
def columnsOf (temporal : TemporalProjection) : TemporalColumns where
  resourceRef := temporal.resourceRef
  validFrom := temporal.validFrom.map .fromDatetime
  validTo := temporal.validTo.map .fromDatetime
  freshnessAnchorAt := temporal.profile.freshnessAnchorAt.map .fromDatetime
  freshnessBasis := temporal.profile.freshnessBasis
  effectiveFrom := temporal.profile.effectiveFrom.map .fromDatetime
  effectiveTo := temporal.profile.effectiveTo.map .fromDatetime

def encodeTemporal (temporal : TemporalProjection) : Except GraphError TemporalColumns := do
  halfOpen temporal.validFrom temporal.validTo
  halfOpen temporal.profile.effectiveFrom temporal.profile.effectiveTo
  return columnsOf temporal

def datetimeOf : Option Instant → Except GraphError (Option OffsetDateTime)
  | none => .ok none
  | some i => i.toDatetime.map some

def decodeTemporal (columns : TemporalColumns) : Except GraphError TemporalProjection := do
  let temporal : TemporalProjection := {
    resourceRef := columns.resourceRef
    validFrom := ← datetimeOf columns.validFrom
    validTo := ← datetimeOf columns.validTo
    profile := {
      freshnessAnchorAt := ← datetimeOf columns.freshnessAnchorAt
      freshnessBasis := columns.freshnessBasis
      effectiveFrom := ← datetimeOf columns.effectiveFrom
      effectiveTo := ← datetimeOf columns.effectiveTo } }
  halfOpen temporal.validFrom temporal.validTo
  halfOpen temporal.profile.effectiveFrom temporal.profile.effectiveTo
  return temporal

/-! ## Parts -/

def tooLarge : GraphError := .invalid "collection too large"

/-- Two's complement on sixteen bytes. -/
def int128be (n : Int) : Bytes := bigEndian 16 (n % 2 ^ 128).toNat

def int32be (n : Int) : Bytes := bigEndian 4 (n % 2 ^ 32).toNat

def text (s : String) : Except GraphError Bytes := frame tooLarge (utf8 s.toList)

def optionalText : Option String → Except GraphError Bytes
  | none => .ok [0]
  | some s => parts [.ok [1], text s]

def instantBytes : Option OffsetDateTime → Bytes
  | none => [0]
  | some t => 1 :: (int128be t.unixTimestampNanos ++ int32be t.offsetSeconds)

def optionalUuid : Option Uuid → Bytes
  | none => [0]
  | some id => 1 :: id.bytes

/-! ## Values and relations -/

mutual

def typedValue : TypedValue → Except GraphError Bytes
  | .bool value => .ok [1, if value then 1 else 0]
  | .string value => parts [.ok [2], text value]
  | .integer value => .ok (3 :: int128be value)
  | .decimal value => .ok (4 :: (int128be value.coefficient ++ [value.scale]))
  | .date value => .ok (5 :: int32be value.julianDay)
  | .dateTime value => .ok (6 :: instantBytes (some value))
  | .duration value => .ok (7 :: int128be value.wholeNanoseconds)
  | .conceptRef value => parts [.ok [8], text value]
  | .resourceRef value => .ok (9 :: value.bytes)
  | .list items =>
    parts (.ok [10] :: count tooLarge items.length ::
      (typedValues items).map (· >>= frame tooLarge))
  | .set items => do
    let members ← (typedValues items).mapM id
    parts [.ok [11], set tooLarge (.invalid "duplicate set member") members]
  | .money value => parts [.ok (12 :: int128be value.amountMinor), text value.currency]
  | .quantity value =>
    parts [.ok (13 :: (int128be value.amount.coefficient ++ [value.amount.scale])), text value.unit]

def typedValues : List TypedValue → List (Except GraphError Bytes)
  | [] => []
  | v :: vs => typedValue v :: typedValues vs

end

def namespaceTag : RelationNamespace → UInt8
  | .discovery => 1
  | .semantic => 2
  | .evidence => 3

def participantBytes (p : RelationParticipant) : Except GraphError Bytes := do
  ensure (isBlank p.role = false) (.invalid "participant role is required")
  parts [text p.role, .ok p.resourceRef.bytes]

def qualifierBytes (q : String × TypedValue) : Except GraphError Bytes :=
  parts [text q.1, typedValue q.2 >>= frame tooLarge]

/-- The parts of a relation whose participants have the bytes `ms`. Participants and evidence are
sets, qualifiers are keyed. -/
def relationParts (r : TypedRelationInstance) (relationType : Except GraphError Bytes)
    (ms : List Bytes) : List (Except GraphError Bytes) :=
  [.ok r.relationId.bytes, .ok [namespaceTag r.namespaceOf], relationType,
    set tooLarge (.invalid "duplicate participant role and resource") ms,
    parts (count tooLarge r.qualifiers.entries.length ::
      r.qualifiers.entries.map qualifierBytes),
    .ok (instantBytes r.temporalScope.validFrom), .ok (instantBytes r.temporalScope.validTo),
    optionalText r.authority, optionalText r.provenance,
    set tooLarge (.invalid "duplicate evidence ref") (r.evidenceRefs.map fun t => utf8 t.toList)]

def canonicalRelation (r : TypedRelationInstance) : Except GraphError Bytes := do
  halfOpen r.temporalScope.validFrom r.temporalScope.validTo
  ensure (¬ (isBlank r.relationType = true ∨ r.participants = []))
    (.invalid "relation type and participants are required")
  let relationType ← text r.relationType
  let participants ← r.participants.mapM participantBytes
  parts (relationParts r (.ok relationType) participants)

/-! ## Resources -/

inductive ResourceKind where
  | knowledge
  | document
  | folderPlacement
  | semantic
  | capability
  | agentSkill
  | workflow
  | policy
deriving DecidableEq

def kindTag : ResourceKind → UInt8
  | .knowledge => 1
  | .document => 2
  | .folderPlacement => 3
  | .semantic => 4
  | .capability => 5
  | .agentSkill => 6
  | .workflow => 7
  | .policy => 8

inductive GraphSourceMapping where
  | document (documentId : Uuid)
  | folderPlacement (documentId folderId : Uuid)
  | version (documentId versionId : Uuid)
  | registered (adapterId nativeId : String)

structure GraphResourceRecord where
  resourceRef : ResourceId
  kind : ResourceKind
  resourceVersionRef : Option ResourceVersionId
  temporal : TemporalProjection
  mapping : GraphSourceMapping
  attachedRelations : List TypedRelationInstance

def mappingBytes : GraphSourceMapping → Except GraphError Bytes
  | .document documentId => .ok (1 :: documentId.bytes)
  | .folderPlacement documentId folderId => .ok (2 :: (documentId.bytes ++ folderId.bytes))
  | .version documentId versionId => .ok (3 :: (documentId.bytes ++ versionId.bytes))
  | .registered adapterId nativeId => do
    ensure (¬ (isBlank adapterId = true ∨ isBlank nativeId = true))
      (.invalid "registered mapping identifiers are required")
    parts [.ok [4], text adapterId, text nativeId]

/-- A stored instant, read back before it is encoded. -/
def storedInstant (i : Option Instant) : Except GraphError Bytes :=
  (datetimeOf i).map instantBytes

/-- The parts of a resource with these attachments. -/
def resourceParts (record : GraphResourceRecord) (columns : TemporalColumns)
    (attached : List Bytes) : List (Except GraphError Bytes) :=
  [.ok record.resourceRef.bytes, .ok [kindTag record.kind],
    .ok (optionalUuid record.resourceVersionRef),
    storedInstant columns.validFrom, storedInstant columns.validTo,
    storedInstant columns.freshnessAnchorAt, optionalText columns.freshnessBasis,
    storedInstant columns.effectiveFrom, storedInstant columns.effectiveTo,
    mappingBytes record.mapping,
    set tooLarge (.invalid "relation attached twice to one Resource") attached]

def canonicalResource (record : GraphResourceRecord) : Except GraphError Bytes := do
  ensure (record.temporal.resourceRef = record.resourceRef)
    (.invalid "temporal projection belongs to another Resource")
  let columns ← encodeTemporal record.temporal
  parts (resourceParts record columns (record.attachedRelations.map fun r => r.relationId.bytes))

/-! ## Graphs -/

structure GraphContent where
  source : SourceId
  schema : String
  resources : List GraphResourceRecord
  relations : List TypedRelationInstance

/-- The canonical bytes by id. -/
abbrev Canonical := List (Uuid × Bytes)

/-- Adds one entry; an id is added once. -/
def insertNew (repeated : GraphError) (encode : Except GraphError Bytes) (id : Uuid)
    (map : Canonical) : Except GraphError Canonical := do
  let bytes ← encode
  ensure (Keyed.find Prod.fst id map = none) repeated
  return Keyed.insert Prod.fst (id, bytes) map

/-- The canonical bytes of every element, by its id. -/
def insertAll {α : Type} (repeated : GraphError) (encode : α → Except GraphError Bytes)
    (ident : α → Uuid) (xs : List α) : Except GraphError Canonical :=
  xs.foldlM (fun map x => insertNew repeated (encode x) (ident x) map) []

def canonicalRelations : List TypedRelationInstance → Except GraphError Canonical :=
  insertAll (.invalid "duplicate relation ID") canonicalRelation TypedRelationInstance.relationId

def canonicalResources : List GraphResourceRecord → Except GraphError Canonical :=
  insertAll (.invalid "duplicate Resource") canonicalResource GraphResourceRecord.resourceRef

/-- An attachment is the canonical relation, and one the resource takes part in. -/
def validateAttachment (canonical : Canonical) (record : GraphResourceRecord)
    (r : TypedRelationInstance) : Except GraphError Unit := do
  let expected ← okOr ((Keyed.find Prod.fst r.relationId canonical).map Prod.snd)
    (.invalid "attached relation is missing from the generation")
  let bytes ← canonicalRelation r
  ensure (bytes = expected ∧
      r.participants.any (fun p => p.resourceRef = record.resourceRef) = true)
    (.invalid "attachment differs from the canonical relation")

/-- Every present participant carries the relation. -/
def validateParticipants (resources : List GraphResourceRecord) (r : TypedRelationInstance) :
    Except GraphError Unit :=
  (Keyed.ofList id (r.participants.map RelationParticipant.resourceRef)).forM fun member =>
    ensure ((resources.find? fun record => record.resourceRef = member).all (fun record =>
        record.attachedRelations.any fun x => x.relationId = r.relationId) = true)
      (.invalid "participant Resource lacks its relation attachment")

def validateAttachments (resources : List GraphResourceRecord)
    (relations : List TypedRelationInstance) (canonical : Canonical) : Except GraphError Unit := do
  resources.forM fun record => record.attachedRelations.forM (validateAttachment canonical record)
  (Keyed.ofList TypedRelationInstance.relationId relations).forM (validateParticipants resources)

/-- Everything of the graph, in key order. -/
def graphBytes (g : GraphContent) : Except GraphError Bytes := do
  let relations ← canonicalRelations g.relations
  let resources ← canonicalResources g.resources
  validateAttachments g.resources g.relations relations
  parts [.ok g.source.bytes, text g.schema, list tooLarge (resources.map Prod.snd),
    list tooLarge (relations.map Prod.snd)]

variable (sha256 : Bytes → Digest)

def sha256Text (domain bytes : Bytes) : String :=
  "sha256:" ++ (sha256 (domain ++ bytes)).hex

def graphDomain : Bytes := utf8 "search-graph:typed-nary-v1".toList ++ [0]

def canonicalGraphDigest (g : GraphContent) : Except GraphError String :=
  (graphBytes g).map (sha256Text sha256 graphDomain)

def relationDomain : Bytes := utf8 "search-graph:relation-v1".toList ++ [0]

/-- The digest stored with each relation row. -/
def relationDigest (r : TypedRelationInstance) : Except GraphError String :=
  (canonicalRelation r).map (sha256Text sha256 relationDomain)

def segmentDomain : Bytes := utf8 "search-graph:segment-v1".toList ++ [0]

/-- The bytes of a segment, whose resources carry no attachments. -/
def segmentBytes (source : SourceId) (resources : List GraphResourceRecord)
    (relations : List TypedRelationInstance) : Except GraphError Bytes := do
  let resources ← resources.foldlM (fun map record => do
    ensure (record.attachedRelations.isEmpty = true)
      (.invalid "segment Resource carries attachments")
    insertNew (.invalid "duplicate Resource") (canonicalResource record) record.resourceRef map) []
  let relations ← canonicalRelations relations
  parts [.ok source.bytes, list tooLarge (resources.map Prod.snd),
    list tooLarge (relations.map Prod.snd)]

def segmentDigest (source : SourceId) (resources : List GraphResourceRecord)
    (relations : List TypedRelationInstance) : Except GraphError String :=
  (segmentBytes source resources relations).map (sha256Text sha256 segmentDomain)

end KnowledgePlatform.Graph
