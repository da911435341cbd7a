import KnowledgePlatform.Documents.Management

/-! Transactions that make and change working versions. -/

namespace KnowledgePlatform.Documents

/-! ## Manifests -/

structure SemanticContentItem where
  logicalPath : String
  ordinal : Nat
  (formatId inspectionProfileId : String)
  semanticFingerprint : Digest

structure VersionManifest where
  title : String
  items : List SemanticContentItem

def digestField (bytes : Bytes) : Bytes := bigEndian 4 bytes.length ++ bytes

def SemanticContentItem.bytes (item : SemanticContentItem) : Bytes :=
  digestField (utf8 item.logicalPath.toList) ++ bigEndian 4 item.ordinal ++
    digestField (utf8 item.formatId.toList) ++ digestField (utf8 item.inspectionProfileId.toList) ++
    item.semanticFingerprint.bytes

def VersionManifest.identityDigest (sha256 : Bytes → Digest) (m : VersionManifest) : Digest :=
  sha256 (utf8 "document-version-identity-v0\x00".toList ++ digestField (utf8 m.title.toList) ++
    bigEndian 4 m.items.length ++ m.items.flatMap SemanticContentItem.bytes)

/-- What the tables of files, content items and inspections answer to a transaction. They change
between transactions in ways that are no concern here, so a transaction is given its answers. -/
structure Evidence where
  loadManifest : Uuid → Except RepositoryError VersionManifest
  /-- The manifest of the request, when its files are the stored and inspected ones. -/
  validatePrepared : Except RepositoryError VersionManifest
  checkExistingInitialFormats : Except RepositoryError Unit
  /-- Writing the content rows. -/
  insertContentItems : Except RepositoryError Unit
  (completeManifest baseQualitySafe : Uuid → Bool)

/-- An item that stays keeps its format and profile. -/
def compatibleFormats (base candidate : VersionManifest) : Bool :=
  base.items.all fun old =>
    (candidate.items.find? fun item =>
      decide (item.logicalPath = old.logicalPath ∧ item.ordinal = old.ordinal)).all fun new =>
        decide (new.formatId = old.formatId ∧ new.inspectionProfileId = old.inspectionProfileId)

def ensureSemanticChange (env : Env) (base candidate : VersionManifest) :
    Except RepositoryError Unit := do
  ensure (compatibleFormats base candidate = true) .businessRule
  ensure (base.identityDigest env.sha256 ≠ candidate.identityDigest env.sha256) .businessRule

variable (env : Env) (evidence : Evidence) (db : Database) (ctx : Option VerifiedActorContext)

/-! ## New documents -/

structure InitialDocument where
  (documentId versionId folderId : Uuid)
  metadata : List (String × Json)
  principal : PrincipalRef

/-- The document of `InitialDocument::create`. -/
def InitialDocument.document (c : InitialDocument) : Document :=
  ⟨c.documentId, c.folderId, none, 0, .obj c.metadata⟩

/-- Its one version. -/
def InitialDocument.version (c : InitialDocument) : DocumentVersion :=
  ⟨c.versionId, c.documentId, 1, .working, none, false, none, none, none, none⟩

def authorizeInitial (c : InitialDocument) : Except RepositoryError Unit :=
  match ctx with
  | none => .ok ()
  | some ctx => do
    ensure (c.principal = ctx.principal) .forbidden
    authorizeInTx env db ctx [(.folder c.folderId, [.read, .write])]

def createInitialDocument (c : InitialDocument) : Except RepositoryError Database := do
  authorizeInitial env db ctx c
  let _ ← okOr (db.folders.find c.folderId) .folderNotFound
  let documents ← okOr (db.documents.insert c.document) statementError
  let versions ← okOr (db.versions.insert c.version) statementError
  evidence.insertContentItems
  return { db with documents, versions }

/-! ## Working versions -/

def ensureNotEnded (documentId : Uuid) : Except RepositoryError Unit :=
  ensure (db.documentEnded documentId = false) .businessRule

structure VersionMutation where
  identity : VersionCommandIdentity
  expectedCurrentVersionId : Option Uuid
  expectedCurrentManifestDigest : Option Digest

structure VersionOperationResult where
  (operationId documentId targetVersionId : Uuid)
  versionNo : Int
  baseVersionId : Option Uuid
  resultingRevision : Int

def VersionOperation.mutationResult (o : VersionOperation) (versionNo : Int)
    (base : Option Uuid) : VersionOperationResult :=
  ⟨o.identity.operationId, o.identity.documentId, o.identity.targetVersionId, versionNo, base,
    o.resultingDocumentRevision⟩

/-- Only an update of the first version can have no base. -/
def VersionOperation.mapOperation (o : VersionOperation) :
    Except RepositoryError VersionOperationResult :=
  match o.result with
  | .version versionNo (some base) => .ok (o.mutationResult versionNo (some base))
  | .version versionNo none => do
    ensure (o.identity.kind = .update ∧ versionNo = 1) .integrityViolation
    return o.mutationResult versionNo none
  | _ => .error .conflict

def VersionOperation.replay (o : VersionOperation) (identity : VersionCommandIdentity) :
    Except RepositoryError VersionOperationResult := do
  let result ← o.mapOperation
  ensure (o.identity = identity) .conflict
  return result

/-- The version of a mutation must be the published current one, with the expected contents. -/
def currentManifest (m : VersionMutation) (current : Option Uuid) :
    Except RepositoryError (Option VersionManifest) :=
  match current with
  | some id => do
    let state ← okOr (db.versions.find id) .integrityViolation
    ensure (state.documentId = m.identity.documentId ∧ state.state = .published ∧
      state.requiresContentClassification = false) .businessRule
    let manifest ← evidence.loadManifest id
    ensure (some (manifest.identityDigest env.sha256) = m.expectedCurrentManifestDigest) .conflict
    return some manifest
  | none => do
    ensure (m.identity.kind = .update ∧ m.expectedCurrentManifestDigest = none) .businessRule
    return none

def Database.versionsOf (documentId : Uuid) : List DocumentVersion :=
  db.versions.select fun v => decide (v.documentId = documentId)

def Database.hasWorking (documentId : Uuid) : Bool :=
  (db.versionsOf documentId).any fun v => decide (v.state = .working)

def Database.maxVersionNo (documentId : Uuid) : Int :=
  ((db.versionsOf documentId).map DocumentVersion.versionNo).foldr max 0

def Database.hasPublicationHistory (documentId : Uuid) : Bool :=
  ((db.versionsOf documentId).any fun v => decide (v.versionNo ≠ 1 ∨ v.state ≠ .working ∨
    v.publishedAt ≠ none ∨ v.withdrawnAt ≠ none)) ||
  (db.publishOperations.any fun o => decide (o.identity.documentId = documentId)) ||
  db.revisions.any fun r => decide (r.documentId = documentId)

/-- The working version that an update or rebase changes. -/
def mutationTarget (identity : VersionCommandIdentity) :
    Except RepositoryError DocumentVersion := do
  let target ← okOr (db.versions.find identity.targetVersionId) .documentVersionNotFound
  ensure (target.documentId = identity.documentId) .integrityViolation
  ensure (target.state = .working ∧ target.requiresContentClassification = false ∧
    target.scheduledPublishAt = none) .businessRule
  return target

/-- The number and contents of the version after the mutation. -/
def candidateVersion (identity : VersionCommandIdentity) (current : Option Uuid) :
    Except RepositoryError (Int × VersionManifest) :=
  match identity.kind with
  | .create => do
    ensure (db.hasWorking identity.documentId = false) .businessRule
    let prepared ← evidence.validatePrepared
    let versionNo ← okOr (checkedAdd (db.maxVersionNo identity.documentId) 1) statementError
    ensure (1 < versionNo) .businessRule
    return (versionNo, prepared)
  | .update => do
    let target ← mutationTarget db identity
    ensure (target.baseVersionId = current) .conflict
    ensure (current = none → target.versionNo = 1 ∧ target.publishedAt = none ∧
      target.withdrawnAt = none ∧ db.hasPublicationHistory identity.documentId = false)
        .businessRule
    let prepared ← evidence.validatePrepared
    return (target.versionNo, prepared)
  | .rebase => do
    let target ← mutationTarget db identity
    ensure (current ≠ none ∧ target.baseVersionId ≠ current) .businessRule
    let manifest ← evidence.loadManifest identity.targetVersionId
    return (target.versionNo, manifest)
  | .withdraw | .cancelSchedule => .error .conflict

def checkCandidate (current : Option VersionManifest) (candidate : VersionManifest) :
    Except RepositoryError Unit :=
  match current with
  | some base => ensureSemanticChange env base candidate
  | none => evidence.checkExistingInitialFormats

def Database.setBase (versionId baseId : Uuid) : Database :=
  { db with
    versions := db.versions.modify versionId ⟨fun v => { v with baseVersionId := some baseId },
      fun _ => rfl⟩ }

/-- A rebase has a current version to be based on. -/
def rebase (versionId : Uuid) (current : Option Uuid) : Database :=
  current.elim db (db.setBase versionId)

def writeVersion (identity : VersionCommandIdentity) (versionNo : Int) (current : Option Uuid)
    : Except RepositoryError Database :=
  match identity.kind with
  | .create => do
    let versions ← okOr (db.versions.insert ⟨identity.targetVersionId, identity.documentId,
      versionNo, .working, current, false, none, none, none, none⟩) .conflict
    evidence.insertContentItems
    return { db with versions }
  | .rebase => .ok (rebase db identity.targetVersionId current)
  | _ => do
    evidence.insertContentItems
    return db

def Database.setRevision (documentId : Uuid) (revision : Int) : Database :=
  { db with
    documents := db.documents.modify documentId ⟨fun d => { d with revision }, fun _ => rfl⟩ }

def Database.insertVersionOperation (e : RepositoryError) (o : VersionOperation) :
    Except RepositoryError Database := do
  let versionOperations ← okOr (db.versionOperations.insert o) e
  return { db with versionOperations }

def mutateNew (m : VersionMutation) (d : Document) :
    Except RepositoryError (Committed VersionOperationResult) := do
  ensureNotEnded db m.identity.documentId
  ensure (d.revision = m.identity.expectedRevision ∧
    d.currentVersionId = m.expectedCurrentVersionId) .conflict
  let current ← currentManifest env evidence db m d.currentVersionId
  ensure (db.hasPending m.identity.documentId = false) .businessRule
  let candidate ← candidateVersion evidence db m.identity d.currentVersionId
  checkCandidate env evidence current candidate.2
  let nextRevision ← okOr (checkedAdd d.revision 1) .integrityViolation
  let written ← writeVersion evidence db m.identity candidate.1 d.currentVersionId
  let o : VersionOperation := ⟨m.identity, .version candidate.1 d.currentVersionId, nextRevision⟩
  let stored ← (written.setRevision m.identity.documentId nextRevision).insertVersionOperation
    .conflict o
  return (o.mutationResult candidate.1 d.currentVersionId, stored)

/-- The guard of a document's mutation, and then the answer to a repeated operation from what is
stored of it. -/
def mutateOnce {σ α : Type} (documentId : Uuid) (actions : List Action) (actor : PrincipalRef)
    (stored : Option σ) (replay : σ → Except RepositoryError α)
    (new : Document → Except RepositoryError (Committed α)) :
    Except RepositoryError (Committed α) := do
  guardDocumentMutation env db ctx documentId actions actor
  let d ← okOr (db.documents.find documentId) .documentNotFound
  match stored with
  | some o => do
    let result ← replay o
    return (result, db)
  | none => new d

/-- `mutate_scoped`. -/
def mutateScoped (m : VersionMutation) :
    Except RepositoryError (Committed VersionOperationResult) :=
  mutateOnce env db ctx m.identity.documentId [.read, .write] m.identity.actor
    (db.versionOperations.find m.identity.operationId) (fun stored => stored.replay m.identity)
    (mutateNew env evidence db m)

end KnowledgePlatform.Documents
