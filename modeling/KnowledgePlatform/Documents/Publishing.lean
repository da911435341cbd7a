import KnowledgePlatform.Documents.Versioning

/-! Transactions that publish a version, schedule its publication or withdraw it. -/

namespace KnowledgePlatform.Documents

structure PublishDocumentResult where
  (publishOperationId documentId documentVersionId : Uuid)
  (resultingDocumentRevision publishedAt : Int)

def PublishOperation.publishResult (o : PublishOperation) : PublishDocumentResult :=
  ⟨o.identity.publishOperationId, o.identity.documentId, o.identity.targetVersionId,
    o.resultingDocumentRevision, o.publishedAt⟩

def validateProposedResult (identity : PublishCommandIdentity) (result : PublishDocumentResult) :
    Except RepositoryError Unit :=
  ensure (0 ≤ identity.expectedDocumentRevision ∧
    result.publishOperationId = identity.publishOperationId ∧
    result.documentId = identity.documentId ∧
    result.documentVersionId = identity.targetVersionId) .integrityViolation

def replayOrConflict (stored : PublishOperation) (identity : PublishCommandIdentity) :
    Except RepositoryError PublishDocumentResult := do
  ensure (stored.identity = identity) .conflict
  return stored.publishResult

variable (env : Env) (evidence : Evidence) (db : Database) (ctx : Option VerifiedActorContext)
  (identity : PublishCommandIdentity)

/-! ## Schedules that are due -/

/-- The schedule that the publication carries out. -/
def validateDueSchedule (baseId : Option Uuid) : Except RepositoryError PublishSchedule := do
  let s ← okOr (db.schedules.find identity.publishOperationId) .conflict
  ensure (s.documentId = identity.documentId ∧ s.targetVersionId = identity.targetVersionId ∧
    s.baseVersionId = baseId ∧ s.currentVersionId = s.baseVersionId ∧
    s.acceptedDocumentRevision = identity.expectedDocumentRevision ∧
    s.actor = identity.principal ∧ s.status = .pending ∧ s.scheduledPublishAt ≤ env.now ∧
    ∀ retryAt ∈ s.nextRetryAt, retryAt ≤ env.now) .conflict
  return s

def dueSchedule (baseId : Option Uuid) (scheduledDue : Bool) :
    Except RepositoryError (Option PublishSchedule) :=
  if scheduledDue then do
    let s ← validateDueSchedule env db identity baseId
    return some s
  else do
    ensure (db.hasPending identity.documentId = false) .businessRule
    return none

def Database.endSchedules (p : PublishSchedule → Bool) (status : ScheduleStatus) : Database :=
  { db with schedules := db.schedules.update p ⟨fun s => { s with status }, fun _ => rfl⟩ }

def Database.clearScheduled (p : DocumentVersion → Bool) : Database :=
  { db with
    versions := db.versions.update p ⟨fun v => { v with scheduledPublishAt := none },
      fun _ => rfl⟩ }

/-- The second statement of `completeDueSchedule`. -/
def clearDue : Except RepositoryError Database := do
  ensure (db.versions.any (fun v => decide (v.versionId = identity.targetVersionId ∧
    v.scheduledPublishAt ≠ none)) = true) .integrityViolation
  return db.clearScheduled fun v => decide (v.versionId = identity.targetVersionId)

def completeDueSchedule : Except RepositoryError Database := do
  ensure (db.schedules.any (fun s => decide (s.publishOperationId = identity.publishOperationId ∧
    s.status = .pending)) = true) .conflict
  clearDue
    { db with
      schedules := db.schedules.modify identity.publishOperationId
        ⟨fun s => { s with status := .published, nextRetryAt := none,
                           attemptCount := s.attemptCount + 1 }, fun _ => rfl⟩ }
    identity

def completeIf (scheduledDue : Bool) : Except RepositoryError Database :=
  if scheduledDue then completeDueSchedule db identity else .ok db

/-- A publication that is due names the service that carried it out. -/
def publishAuditData (scheduledDue : Bool) : Except RepositoryError Unit :=
  ensure (scheduledDue = true → ∀ c ∈ ctx, c.serviceExecutor ≠ none) .forbidden

/-! ## Publication -/

def Database.publishVersion (versionId : Uuid) (publishedAt : Int) : Database :=
  { db with
    versions := db.versions.modify versionId
      ⟨fun v => { v with state := .published, publishedAt := some publishedAt }, fun _ => rfl⟩ }

def Database.setCurrent (documentId : Uuid) (current : Option Uuid) (revision : Int) : Database :=
  { db with
    documents := db.documents.modify documentId
      ⟨fun d => { d with currentVersionId := current, revision }, fun _ => rfl⟩ }

abbrev Published : Type := Except RepositoryError (Committed PublishDocumentResult)

/-- What both publications write, once they have passed their checks. -/
def publish (o : PublishOperation) (metadata : Json) (isInitialPath scheduledDue : Bool) :
    Published := do
  let publishOperations ← okOr (db.publishOperations.insert o) .conflict
  let published := (({ db with publishOperations }.publishVersion o.identity.targetVersionId
    o.publishedAt).setCurrent o.identity.documentId (some o.identity.targetVersionId)
    o.resultingDocumentRevision)
  let revised ← published.issuePublicationRevision o.identity.documentId o.identity.targetVersionId
    metadata o.identity.publishOperationId isInitialPath
  let completed ← completeIf revised o.identity scheduledDue
  publishAuditData ctx scheduledDue
  return (o.publishResult, completed)

/-- A version that is not working is refused, a published one as a conflict. -/
def ensureWorking : LifecycleState → Except RepositoryError Unit
  | .working => .ok ()
  | .published => .error .conflict
  | .withdrawn => .error .businessRule

def checkDueContents (target : DocumentVersion) (due : Option PublishSchedule) :
    Except RepositoryError Unit :=
  match due with
  | none => .ok ()
  | some s => do
    let manifest ← evidence.loadManifest target.versionId
    ensure (manifest.identityDigest env.sha256 = s.manifestDigest) .conflict
    ensure (target.scheduledPublishAt = some s.scheduledPublishAt) .conflict

structure PublishInitial where
  identity : PublishCommandIdentity
  proposed : PublishDocumentResult
  scheduledDue : Bool

def publishInitialNew (r : PublishInitial) (d : Document) : Published := do
  ensureNotEnded db r.identity.documentId
  ensure (d.currentVersionId = none) .conflict
  ensure (d.revision = r.identity.expectedDocumentRevision) .conflict
  let due ← dueSchedule env db r.identity none r.scheduledDue
  let target ← okOr (db.versions.find r.identity.targetVersionId) .documentVersionNotFound
  ensure (target.documentId = r.identity.documentId) .integrityViolation
  ensureWorking target.state
  ensure (target.requiresContentClassification = false ∧
    evidence.completeManifest target.versionId = true) .integrityViolation
  checkDueContents env evidence target due
  let nextRevision ← okOr (checkedAdd d.revision 1) .integrityViolation
  ensure (nextRevision = r.proposed.resultingDocumentRevision) .integrityViolation
  publish db ctx ⟨r.identity, r.proposed.publishedAt, r.proposed.resultingDocumentRevision⟩
    d.metadata
    true r.scheduledDue

/-- The checks before either publication, and the answer to a repeated one. Without a verified
actor a repeated one is answered even before the document is looked up. -/
def publishOrReplay (proposed : PublishDocumentResult)
    (new : Document → Published) : Published := do
  validateProposedResult identity proposed
  let stored := db.publishOperations.find identity.publishOperationId
  match ctx, stored with
  | none, some o => do
    let result ← replayOrConflict o identity
    return (result, db)
  | _, _ =>
    mutateOnce env db ctx identity.documentId [.read, .publish] identity.principal stored
      (replayOrConflict · identity) new

def publishInitialVersion (r : PublishInitial) : Published :=
  publishOrReplay env db ctx r.identity r.proposed (publishInitialNew env evidence db ctx r)

structure PublishNext where
  identity : PublishCommandIdentity
  proposed : PublishDocumentResult
  scheduledDue : Bool
  baseId : Uuid
  (baseDigest targetDigest : Digest)

def publishNextNew (r : PublishNext) (d : Document) : Published := do
  ensureNotEnded db r.identity.documentId
  ensure (d.revision = r.identity.expectedDocumentRevision ∧ d.currentVersionId = some r.baseId)
    .conflict
  let nextRevision ← okOr (checkedAdd d.revision 1) .integrityViolation
  ensure (r.proposed.resultingDocumentRevision = nextRevision) .integrityViolation
  let due ← dueSchedule env db r.identity (some r.baseId) r.scheduledDue
  let base ← okOr (db.versions.find r.baseId) .integrityViolation
  ensure (base.documentId = r.identity.documentId ∧ base.state = .published ∧
    base.requiresContentClassification = false) .businessRule
  let target ← okOr (db.versions.find r.identity.targetVersionId) .documentVersionNotFound
  ensure (target.documentId = r.identity.documentId) .integrityViolation
  ensure (1 < target.versionNo ∧ target.state = .working ∧
    target.requiresContentClassification = false) .businessRule
  ensure (target.scheduledPublishAt = due.map PublishSchedule.scheduledPublishAt) .conflict
  ensure (target.baseVersionId = some r.baseId) .conflict
  let baseManifest ← evidence.loadManifest r.baseId
  let targetManifest ← evidence.loadManifest target.versionId
  ensure (baseManifest.identityDigest env.sha256 = r.baseDigest ∧
    targetManifest.identityDigest env.sha256 = r.targetDigest) .conflict
  ensure (∀ s ∈ due, targetManifest.identityDigest env.sha256 = s.manifestDigest) .conflict
  ensureSemanticChange env baseManifest targetManifest
  publish db ctx ⟨r.identity, r.proposed.publishedAt, r.proposed.resultingDocumentRevision⟩
    d.metadata
    false r.scheduledDue

def publishNextVersion (r : PublishNext) : Published :=
  publishOrReplay env db ctx r.identity r.proposed (publishNextNew env evidence db ctx r)

/-! ## Schedules -/

structure SchedulePublishCommand where
  (publishOperationId documentId targetVersionId : Uuid)
  expectedRevision : Int
  actor : PrincipalRef
  scheduledPublishAt : Int
deriving DecidableEq

structure SchedulePublishResult where
  (publishOperationId documentId targetVersionId : Uuid)
  (acceptedRevision scheduledPublishAt : Int)

structure SchedulePublish where
  command : SchedulePublishCommand
  expectedCurrentVersionId : Option Uuid
  manifestDigest : Digest
  occurredAt : Int

def PublishSchedule.command (s : PublishSchedule) : SchedulePublishCommand :=
  ⟨s.publishOperationId, s.documentId, s.targetVersionId, s.expectedDocumentRevision, s.actor,
    s.scheduledPublishAt⟩

def PublishSchedule.scheduleResult (s : PublishSchedule) : SchedulePublishResult :=
  ⟨s.publishOperationId, s.documentId, s.targetVersionId, s.acceptedDocumentRevision,
    s.scheduledPublishAt⟩

/-! ## Accepting -/

/-- The contents differ from those of the current version, which must be published. -/
def checkBase (current : Option Uuid) (target : VersionManifest) : Except RepositoryError Unit :=
  match current with
  | none => .ok ()
  | some id => do
    ensure ((db.versions.find id).any (fun v => decide (v.state = .published ∧
      v.requiresContentClassification = false)) = true) .businessRule
    let base ← evidence.loadManifest id
    ensureSemanticChange env base target

def Database.setScheduled (versionId : Uuid) (approvedAt scheduledPublishAt : Int) : Database :=
  { db with
    versions := db.versions.modify versionId
      ⟨fun v => { v with approvedAt := v.approvedAt <|> some approvedAt,
                         scheduledPublishAt := some scheduledPublishAt }, fun _ => rfl⟩ }

def accept (r : SchedulePublish) (s : PublishSchedule) :
    Except RepositoryError (Committed SchedulePublishResult) := do
  let schedules ← okOr (db.schedules.insert s) .conflict
  let scheduled :=
    { db with schedules }.setScheduled s.targetVersionId r.occurredAt s.scheduledPublishAt
  return (s.scheduleResult, scheduled.setRevision s.documentId s.acceptedDocumentRevision)

def reserveNew (r : SchedulePublish) (d : Document) :
    Except RepositoryError (Committed SchedulePublishResult) := do
  let c := r.command
  ensureNotEnded db c.documentId
  ensure (db.publishOperations.find c.publishOperationId = none) .conflict
  ensure (d.revision = c.expectedRevision ∧ d.currentVersionId = r.expectedCurrentVersionId)
    .conflict
  ensure (env.now < c.scheduledPublishAt) .businessRule
  let target ← okOr (db.versions.find c.targetVersionId) .documentVersionNotFound
  ensure (target.documentId = c.documentId) .integrityViolation
  ensure (target.state = .working ∧ target.requiresContentClassification = false ∧
    target.scheduledPublishAt = none) .businessRule
  ensure ((target.versionNo = 1 → d.currentVersionId = none ∧ target.baseVersionId = none) ∧
    (1 < target.versionNo → d.currentVersionId ≠ none ∧ target.baseVersionId = d.currentVersionId))
    .conflict
  ensure (db.hasPending c.documentId = false) .businessRule
  let manifest ← evidence.loadManifest c.targetVersionId
  ensure (manifest.identityDigest env.sha256 = r.manifestDigest) .conflict
  checkBase env evidence db d.currentVersionId manifest
  let accepted ← okOr (checkedAdd d.revision 1) .integrityViolation
  accept db r ⟨c.publishOperationId, c.documentId, c.targetVersionId, d.currentVersionId,
    d.currentVersionId, d.revision, accepted, c.scheduledPublishAt, c.actor, r.manifestDigest,
    .pending, 0, none⟩

def reserve (r : SchedulePublish) : Except RepositoryError (Committed SchedulePublishResult) :=
  mutateOnce env db ctx r.command.documentId [.read, .publish] r.command.actor
    (db.schedules.find r.command.publishOperationId)
    (fun stored => do
      ensure (stored.command = r.command) .conflict
      return stored.scheduleResult)
    (reserveNew env evidence db r)

/-! ## Cancelling -/

structure CancelScheduleResult where
  (operationId publishOperationId documentId targetVersionId : Uuid)
  resultingRevision : Int

/-- Stored by its digest; the identity's kind is that of a cancellation. -/
structure CancelSchedule where
  identity : VersionCommandIdentity
  publishOperationId : Uuid

def VersionOperation.cancelResult (o : VersionOperation) (publishOperationId : Uuid) :
    CancelScheduleResult :=
  ⟨o.identity.operationId, publishOperationId, o.identity.documentId, o.identity.targetVersionId,
    o.resultingDocumentRevision⟩

def VersionOperation.replayCancel (o : VersionOperation) (digest : Digest) :
    Except RepositoryError CancelScheduleResult :=
  match o.result with
  | .cancellation publishOperationId => do
    ensure (o.identity.commandDigest = digest) .conflict
    return o.cancelResult publishOperationId
  | _ => .error .conflict

/-- A schedule over, its version no longer waiting, and the document's next revision. -/
def Database.endSchedule (s : PublishSchedule) (status : ScheduleStatus) (revision : Int) :
    Database :=
  ((db.endSchedules (fun t => decide (t.publishOperationId = s.publishOperationId)) status)
    |>.clearScheduled fun v => decide (v.versionId = s.targetVersionId))
    |>.setRevision s.documentId revision

def cancelNew (r : CancelSchedule) (d : Document) :
    Except RepositoryError (Committed CancelScheduleResult) := do
  ensure (d.revision = r.identity.expectedRevision) .conflict
  let s ← okOr (db.schedules.find r.publishOperationId) .businessRule
  ensure (s.documentId = r.identity.documentId ∧ s.targetVersionId = r.identity.targetVersionId)
    .conflict
  ensure (s.status = .pending) .businessRule
  let next ← okOr (checkedAdd d.revision 1) .integrityViolation
  let o : VersionOperation := ⟨r.identity, .cancellation r.publishOperationId, next⟩
  let stored ← (db.endSchedule s .cancelled next).insertVersionOperation .conflict o
  return (o.cancelResult r.publishOperationId, stored)

def cancel (r : CancelSchedule) : Except RepositoryError (Committed CancelScheduleResult) :=
  mutateOnce env db ctx r.identity.documentId [.read, .publish] r.identity.actor
    (db.versionOperations.find r.identity.operationId)
    (fun stored => stored.replayCancel r.identity.commandDigest) (cancelNew db r)

/-! ## Retrying and giving up -/

/-- The pending schedule that is due, and its document. -/
def lockDue (publishOperationId : Uuid) : Except RepositoryError (PublishSchedule × Document) := do
  let s ← okOr (db.schedules.find publishOperationId) .documentVersionNotFound
  let d ← okOr (db.documents.find s.documentId) statementError
  ensure (s.status = .pending) .businessRule
  ensure (s.scheduledPublishAt ≤ env.now) .businessRule
  return (s, d)

/-- Seconds before the next attempt: doubling, at most an hour. -/
def retrySeconds (attemptCount : Int) : Int := min (2 ^ (min (max attemptCount 0) 11).toNat) 3600

def secondMicros : Int := 1000000

/-- The time of the next attempt; a retry that still waits is not counted again. -/
def recordRetry (publishOperationId : Uuid) : Except RepositoryError (Committed Int) := do
  let due ← lockDue env db publishOperationId
  match due.1.nextRetryAt.filter fun next => decide (env.now < next) with
  | some next => return (next, db)
  | none =>
    let next := env.now + retrySeconds due.1.attemptCount * secondMicros
    return (next,
      { db with
        schedules := db.schedules.modify publishOperationId
          ⟨fun s => { s with attemptCount := s.attemptCount + 1, nextRetryAt := some next },
          fun _ => rfl⟩ })

def terminalize (publishOperationId : Uuid) : Except RepositoryError (Committed Unit) := do
  let due ← lockDue env db publishOperationId
  let next ← okOr (checkedAdd due.2.revision 1) .integrityViolation
  let counted :=
    { db with
      schedules := db.schedules.modify publishOperationId
        ⟨fun s => { s with nextRetryAt := none, attemptCount := s.attemptCount + 1 },
          fun _ => rfl⟩ }
  return ((), counted.endSchedule due.1 .terminal next)

/-! ## Withdrawal -/

structure WithdrawVersion where
  identity : VersionCommandIdentity
  withdrawnAt : Int
  eligibleBaseId : Option Uuid
  eligibleBaseManifestDigest : Option Digest
  restorationWithheldReason : Option String

structure WithdrawVersionResult where
  (operationId documentId targetVersionId : Uuid)
  (formerCurrentVersionId resultingCurrentVersionId : Option Uuid)
  resultingRevision : Int
  restorationWithheldReason : Option String

def VersionOperation.withdrawResult (o : VersionOperation) (former resulting : Option Uuid)
    (withheld : Option String) : WithdrawVersionResult :=
  ⟨o.identity.operationId, o.identity.documentId, o.identity.targetVersionId, former, resulting,
    o.resultingDocumentRevision, withheld⟩

def VersionOperation.replayWithdraw (o : VersionOperation) (digest : Digest) :
    Except RepositoryError WithdrawVersionResult :=
  match o.result with
  | .withdrawal former resulting withheld => do
    ensure (o.identity.commandDigest = digest) .conflict
    return o.withdrawResult former resulting withheld
  | _ => .error .conflict

/-- Whether the base of the withdrawn version may become current again. -/
def baseEligible (r : WithdrawVersion) (baseId : Uuid) : Bool :=
  (db.versions.find baseId).any (fun v => decide (v.documentId = r.identity.documentId ∧
    v.state = .published ∧ v.requiresContentClassification = false)) &&
  r.eligibleBaseManifestDigest.isSome &&
  (evidence.loadManifest baseId).toOption.any (fun m =>
    decide (some (m.identityDigest env.sha256) = r.eligibleBaseManifestDigest)) &&
  evidence.baseQualitySafe baseId

/-- The current version after the withdrawal of the current one, and why the base was withheld. -/
def fallback (r : WithdrawVersion) (base : Option Uuid) : Option Uuid × Option String :=
  match base with
  | none => (none, none)
  | some baseId =>
    if r.eligibleBaseId = some baseId then
      if baseEligible env evidence db r baseId then (some baseId, none)
      else (none, some "base_database_evidence_changed")
    else (none, r.restorationWithheldReason <|> some "base_not_qualified")

def resultingCurrent (r : WithdrawVersion) (current base : Option Uuid) : Option Uuid × Option
    String :=
  if current = some r.identity.targetVersionId then fallback env evidence db r base
  else (current, none)

def Database.withdrawVersion (versionId : Uuid) (withdrawnAt : Int) : Database :=
  { db with
    versions := db.versions.modify versionId
      ⟨fun v => { v with state := .withdrawn, withdrawnAt := some withdrawnAt }, fun _ => rfl⟩ }

def issueFallback (r : WithdrawVersion) (isCurrent : Bool) (resulting : Option Uuid)
    (metadata : Json) : Except RepositoryError Database :=
  match resulting with
  | some id =>
    if isCurrent then
      db.issueWithdrawFallbackRevision r.identity.documentId id metadata r.identity.operationId
    else .ok db
  | none => .ok db

/-- Schedules that satisfy `p` end, and the versions they target no longer wait. -/
def Database.invalidate (p : PublishSchedule → Bool) : Database :=
  let targets := (db.schedules.select p).map PublishSchedule.targetVersionId
  (db.endSchedules p .terminal).clearScheduled fun v => decide (v.versionId ∈ targets)

/-- A pending schedule of the document that names the version. -/
def PublishSchedule.Names (documentId versionId : Uuid) (s : PublishSchedule) : Prop :=
  s.documentId = documentId ∧ s.status = .pending ∧ (s.targetVersionId = versionId ∨
    s.currentVersionId = some versionId ∨ s.baseVersionId = some versionId)

instance (documentId versionId : Uuid) :
    DecidablePred (PublishSchedule.Names documentId versionId) :=
  fun _ => inferInstanceAs (Decidable (_ ∧ _))

def withdrawNew (r : WithdrawVersion) (d : Document) :
    Except RepositoryError (Committed WithdrawVersionResult) := do
  ensure (d.revision = r.identity.expectedRevision) .conflict
  let target ← okOr (db.versions.find r.identity.targetVersionId) .documentVersionNotFound
  ensure (target.documentId = r.identity.documentId) .integrityViolation
  ensure (target.state = .published) .businessRule
  let resulting := resultingCurrent env evidence db r d.currentVersionId target.baseVersionId
  let next ← okOr (checkedAdd d.revision 1) .integrityViolation
  let withdrawn := (db.withdrawVersion target.versionId r.withdrawnAt).setCurrent d.documentId
    resulting.1 next
  let revised ← issueFallback withdrawn r
    (decide (d.currentVersionId = some r.identity.targetVersionId)) resulting.1 d.metadata
  let o : VersionOperation :=
    ⟨r.identity, .withdrawal d.currentVersionId resulting.1 resulting.2, next⟩
  let stored ← (revised.invalidate fun s =>
    decide (s.Names r.identity.documentId r.identity.targetVersionId)).insertVersionOperation
      statementError o
  return (o.withdrawResult d.currentVersionId resulting.1 resulting.2, stored)

def withdraw (r : WithdrawVersion) : Except RepositoryError (Committed WithdrawVersionResult) :=
  mutateOnce env db ctx r.identity.documentId [.read, .publish] r.identity.actor
    (db.versionOperations.find r.identity.operationId)
    (fun stored => stored.replayWithdraw r.identity.commandDigest) (withdrawNew env evidence db r)

/-! ## The end of publication -/

structure EndPublication where
  (operationId documentId : Uuid)
  expectedRevision : Int
  expectedCurrentVersionId : Uuid
  actor : PrincipalRef
  commandDigest : Digest
  endedAt : Int

def Database.clearRetries (p : PublishSchedule → Bool) : Database :=
  { db with
    schedules := db.schedules.update p ⟨fun s => { s with nextRetryAt := none }, fun _ => rfl⟩ }

def PublishSchedule.PendingOf (documentId : Uuid) (s : PublishSchedule) : Prop :=
  s.documentId = documentId ∧ s.status = .pending

instance (documentId : Uuid) : DecidablePred (PublishSchedule.PendingOf documentId) :=
  fun _ => inferInstanceAs (Decidable (_ ∧ _))

def endPublicationNew (r : EndPublication) (d : Document) :
    Except RepositoryError (Committed PublicationEndOperation) := do
  ensure (db.documentEnded r.documentId = false) .businessRule
  ensure (d.revision = r.expectedRevision) .conflict
  let currentId ← okOr d.currentVersionId .businessRule
  ensure (currentId = r.expectedCurrentVersionId) .conflict
  let version ← okOr (db.versions.find currentId) .integrityViolation
  ensure (version.documentId = r.documentId) .integrityViolation
  ensure (version.state = .published) .businessRule
  let next ← okOr (checkedAdd d.revision 1) .integrityViolation
  let pending := fun s : PublishSchedule => decide (s.PendingOf r.documentId)
  let ended := ((db.setCurrent d.documentId none next).clearRetries pending).invalidate pending
  let o : PublicationEndOperation :=
    ⟨r.operationId, r.documentId, r.commandDigest, currentId, next, r.endedAt⟩
  let publicationEnds ← okOr (ended.publicationEnds.insert o) .conflict
  return (o, { ended with publicationEnds })

/-- Operation identifiers are unique too. -/
def Database.endOperation (operationId : Uuid) : Option PublicationEndOperation :=
  db.publicationEnds.rows.find? fun o => decide (o.operationId = operationId)

def endPublication (r : EndPublication) :
    Except RepositoryError (Committed PublicationEndOperation) :=
  mutateOnce env db ctx r.documentId [.read, .publish] r.actor (db.endOperation r.operationId)
    (fun stored => do
      ensure (stored.commandDigest = r.commandDigest) .conflict
      return stored)
    (endPublicationNew db r)

end KnowledgePlatform.Documents
