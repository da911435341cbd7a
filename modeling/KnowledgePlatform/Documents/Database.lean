import KnowledgePlatform.Json.Value
import Mathlib.Data.Finset.Basic
import Mathlib.Data.Finset.Dedup
import KnowledgePlatform.Lib.Table
import KnowledgePlatform.Lib.Text

/-! Access policies and the document database. -/

namespace KnowledgePlatform.Documents

inductive Action where
  | read
  | readHistory
  | write
  | publish
  | administer
deriving DecidableEq

namespace Action

/-- The actions in their order. -/
def all : List Action := [read, readHistory, write, publish, administer]

def text : Action → String
  | read => "read"
  | readHistory => "read_history"
  | write => "write"
  | publish => "publish"
  | administer => "administer"

def parse (text : String) : Option Action := all.find? fun a => a.text = text

theorem parse_text (a : Action) : parse a.text = some a := by cases a <;> decide

end Action

inductive PolicySubjectKind where
  | principal
  | group
  | role
deriving DecidableEq

namespace PolicySubjectKind

def text : PolicySubjectKind → String
  | principal => "principal"
  | group => "group"
  | role => "role"

def parse (text : String) : Option PolicySubjectKind :=
  [principal, group, role].find? fun k => k.text = text

theorem parse_text (k : PolicySubjectKind) : parse k.text = some k := by cases k <;> decide

theorem text_inj {k l : PolicySubjectKind} (same : k.text = l.text) : k = l := by
  have := congrArg parse same
  rw [parse_text, parse_text] at this
  exact Option.some.inj this

end PolicySubjectKind

/-! ## Subjects -/

/-- Not empty and without control characters. -/
def IsName (text : String) : Prop := text ≠ "" ∧ text.toList.any isControl = false

instance (text : String) : Decidable (IsName text) := inferInstanceAs (Decidable (_ ∧ _))

structure PolicySubject where
  kind : PolicySubjectKind
  (identityProvider subjectId : String)
  named : IsName identityProvider ∧ IsName subjectId
  trimmed : trim identityProvider = identityProvider ∧ trim subjectId = subjectId
deriving DecidableEq

/-- The texts are trimmed first. -/
def PolicySubject.new (kind : PolicySubjectKind) (identityProvider subjectId : String) :
    Option PolicySubject :=
  if named : IsName (trim identityProvider) ∧ IsName (trim subjectId) then
    some ⟨kind, trim identityProvider, trim subjectId, named, trim_idem _, trim_idem _⟩
  else none

/-- A subject is made again from its own texts. -/
theorem PolicySubject.new_self (s : PolicySubject) :
    PolicySubject.new s.kind s.identityProvider s.subjectId = some s := by
  obtain ⟨kind, identityProvider, subjectId, named, provider, subject⟩ := s
  simp only [PolicySubject.new, provider, subject]
  exact dif_pos named

/-! ## Policies -/

/-- Some actions of a subject. -/
structure PolicyGrant where
  subject : PolicySubject
  actions : Finset Action
  some_action : actions.Nonempty
deriving DecidableEq

/-- No action may be given twice. -/
def PolicyGrant.new (subject : PolicySubject) (actions : List Action) : Option PolicyGrant :=
  if valid : actions.Nodup ∧ actions ≠ [] then
    some ⟨subject, actions.toFinset, by simpa [List.toFinset_nonempty_iff] using valid.2⟩
  else none

inductive PolicyMode where
  | inherit
  | explicit (grants : List PolicyGrant)
deriving DecidableEq

namespace PolicyMode

def isExplicit : PolicyMode → Bool
  | inherit => false
  | explicit _ => true

/-- An explicit policy grants something, and to each subject once. -/
def validate : PolicyMode → Bool
  | inherit => true
  | explicit grants => grants ≠ [] && decide (grants.map PolicyGrant.subject).Nodup

end PolicyMode

def nearestExplicitPolicy (pathFromResource : List PolicyMode) : Option PolicyMode :=
  pathFromResource.find? PolicyMode.isExplicit

def evaluatePolicy (subjects : List PolicySubject) (effective : PolicyMode)
    (required : List Action) : Bool :=
  match effective with
  | .inherit => false
  | .explicit grants =>
    if grants = [] ∨ required = [] then false
    else required.all fun action =>
      grants.any fun grant => decide (grant.subject ∈ subjects) && decide (action ∈ grant.actions)

/-! ## The database -/

inductive ManagementErrorCode where
  | revisionConflict
  | operationConflict
  | reservedDocument
  | folderCycle
  | rootProtected

inductive RepositoryError where
  | forbidden
  | folderNotFound
  | documentNotFound
  | documentVersionNotFound
  | conflict
  | businessRule
  | management (code : ManagementErrorCode)
  | integrityViolation
  | internal (text : String)

/-- A statement that a constraint of the database refuses. -/
def statementError : RepositoryError := .internal "postgres operation failed"

/-! ## Rows -/

structure PrincipalRef where
  (identityProvider principalId : String)
deriving DecidableEq

structure Folder where
  folderId : Uuid
  parentFolderId : Option Uuid
  (name status : String)
  revision : Int

structure Document where
  (documentId folderId : Uuid)
  currentVersionId : Option Uuid
  revision : Int
  metadata : Json

inductive LifecycleState where
  | working
  | published
  | withdrawn
deriving DecidableEq

structure DocumentVersion where
  (versionId documentId : Uuid)
  versionNo : Int
  state : LifecycleState
  baseVersionId : Option Uuid
  requiresContentClassification : Bool
  (approvedAt scheduledPublishAt publishedAt withdrawnAt : Option Int)

inductive ScheduleStatus where
  | pending
  | published
  | cancelled
  | terminal
deriving DecidableEq

structure PublishSchedule where
  (publishOperationId documentId targetVersionId : Uuid)
  (baseVersionId currentVersionId : Option Uuid)
  (expectedDocumentRevision acceptedDocumentRevision scheduledPublishAt : Int)
  actor : PrincipalRef
  manifestDigest : Digest
  status : ScheduleStatus
  attemptCount : Int
  nextRetryAt : Option Int

structure PublishCommandIdentity where
  (publishOperationId documentId targetVersionId : Uuid)
  expectedDocumentRevision : Int
  principal : PrincipalRef
deriving DecidableEq

structure PublishOperation where
  identity : PublishCommandIdentity
  (publishedAt resultingDocumentRevision : Int)

inductive VersionOperationKind where
  | create
  | update
  | rebase
  | withdraw
  | cancelSchedule
deriving DecidableEq

structure VersionCommandIdentity where
  operationId : Uuid
  kind : VersionOperationKind
  (documentId targetVersionId : Uuid)
  expectedRevision : Int
  actor : PrincipalRef
  commandDigest : Digest
deriving DecidableEq

/-- What an operation leaves for its replays. -/
inductive StoredResult where
  | version (versionNo : Int) (baseVersionId : Option Uuid)
  | withdrawal (formerCurrentVersionId resultingCurrentVersionId : Option Uuid)
      (restorationWithheldReason : Option String)
  | cancellation (publishOperationId : Uuid)

structure VersionOperation where
  identity : VersionCommandIdentity
  result : StoredResult
  resultingDocumentRevision : Int

structure PublicationEndOperation where
  (operationId documentId : Uuid)
  commandDigest : Digest
  formerCurrentVersionId : Uuid
  (resultingDocumentRevision endedAt : Int)

inductive RevisionSource where
  | initialPublication
  | contentPublication
  | metadataRevision
  | withdrawFallback
deriving DecidableEq

structure DocumentRevision where
  (documentId versionId : Uuid)
  (majorNo minorNo : Int)
  metadataSnapshot : Json
  source : RevisionSource
  operationId : Uuid

/-! ## Access policies -/

inductive PolicyTarget where
  | folder (id : Uuid)
  | document (id : Uuid)
deriving DecidableEq

inductive ResourceRef where
  | document (id : Uuid)
  | folder (id : Uuid)
  | accessPolicy (id : Uuid)

def PolicyTarget.resource : PolicyTarget → ResourceRef
  | folder id => .folder id
  | document id => .document id

inductive BindingMode where
  | inherit
  | explicit
deriving DecidableEq

structure AccessPolicyBinding where
  policyId : Uuid
  target : PolicyTarget
  mode : BindingMode
  revision : Int

structure AccessPolicyGrant where
  policyId : Uuid
  (subjectKind identityProvider subjectId action : String)
deriving DecidableEq

/-! ## Management operations -/

inductive OperationKind where
  | updateDocumentMetadata
  | moveDocument
  | createFolder
  | renameFolder
  | moveFolder
  | setAccessPolicy

structure ManagementMoveDetails where
  (fromFolderId toFolderId : Uuid)
  subtreeAffected : Option Nat

structure ManagementMutationResult where
  operationId : Uuid
  resource : ResourceRef
  resultingRevision : Int
  accessRevision : Option Int
  policyId : Option Uuid
  changed : Bool
  occurredAt : Int
  documentMetadata : Option Json
  movement : Option ManagementMoveDetails

structure ManagementOperation where
  kind : OperationKind
  commandDigest : Digest
  result : ManagementMutationResult

/-! ## The database -/

structure Database where
  folders : Table Folder.folderId
  documents : Table Document.documentId
  versions : Table DocumentVersion.versionId
  schedules : Table PublishSchedule.publishOperationId
  publishOperations : Table fun o : PublishOperation => o.identity.publishOperationId
  versionOperations : Table fun o : VersionOperation => o.identity.operationId
  publicationEnds : Table PublicationEndOperation.documentId
  revisions : Table fun r : DocumentRevision => (r.documentId, r.majorNo, r.minorNo)
  accessRevision : Int
  bindings : Table AccessPolicyBinding.policyId
  grants : Table (id : AccessPolicyGrant → AccessPolicyGrant)
  managementOperations : Table fun o : ManagementOperation => o.result.operationId

/-- `00000000-0000-7000-8000-000000000001`. -/
def systemRootFolderId : Uuid :=
  ⟨[0, 0, 0, 0, 0, 0, 0x70, 0, 0x80, 0, 0, 0, 0, 0, 0, 1], rfl⟩

def systemRoot : Folder := ⟨systemRootFolderId, none, "System Root", "ACTIVE", 0⟩

/-- The database as the migrations leave it. -/
def Database.migrated : Database where
  folders := ⟨[systemRoot], List.nodup_singleton _⟩
  documents := .empty
  versions := .empty
  schedules := .empty
  publishOperations := .empty
  versionOperations := .empty
  publicationEnds := .empty
  revisions := .empty
  accessRevision := 0
  bindings := .empty
  grants := .empty
  managementOperations := .empty

/-! ## Who acts, and when -/

inductive InvocationKind where
  | humanInteractive
  | agent
  | service

def InvocationKind.text : InvocationKind → String
  | humanInteractive => "human_interactive"
  | agent => "agent"
  | service => "service"

/-- The subjects include the actor's own, and only a service acts for an executor. -/
structure VerifiedActorContext where
  principal : PrincipalRef
  subjects : List PolicySubject
  validUntil : Int
  invocationKind : InvocationKind
  serviceExecutor : Option PrincipalRef
  own : ∃ s ∈ subjects, s.kind = .principal ∧ s.identityProvider = principal.identityProvider ∧
    s.subjectId = principal.principalId
  executed : serviceExecutor ≠ none → invocationKind = .service

/-- What a transaction reads besides the tables: the clock of the process, when it begins and when
it looks again, that of the database, the identifiers it draws, and the hash and normalization
functions. -/
structure Env where
  (clock laterClock now : Int)
  newId : Nat → Uuid
  sha256 : Bytes → Digest
  nfc : String → String

def VerifiedActorContext.IsCurrent (ctx : VerifiedActorContext) (clock : Int) : Prop :=
  clock < ctx.validUntil

instance (ctx : VerifiedActorContext) (clock : Int) : Decidable (ctx.IsCurrent clock) :=
  inferInstanceAs (Decidable (_ < _))

end KnowledgePlatform.Documents
