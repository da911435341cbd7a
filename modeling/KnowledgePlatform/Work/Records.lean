import KnowledgePlatform.Lib.Except
import KnowledgePlatform.Lib.Text

/-! The work domain: principals, identifiers, instants and texts, its records, commands
and results. -/

namespace KnowledgePlatform.Work

/-! ## Principals -/

/-- The closed list of synthetic human principals. -/
inductive VerifiedActor where
  | sales01
  | office01
  | review01
  | approver01
  | multiRole01
  | delegate01
deriving DecidableEq

namespace VerifiedActor

def all : List VerifiedActor := [sales01, office01, review01, approver01, multiRole01, delegate01]

def principalId : VerifiedActor → String
  | sales01 => "sales-01"
  | office01 => "office-01"
  | review01 => "review-01"
  | approver01 => "approver-01"
  | multiRole01 => "multi-role-01"
  | delegate01 => "delegate-01"

def displayName : VerifiedActor → String
  | sales01 => "営業担当（模擬）"
  | office01 => "事務担当（模擬）"
  | review01 => "審査担当（模擬）"
  | approver01 => "承認・業務管理（模擬）"
  | multiRole01 => "兼務担当（模擬）"
  | delegate01 => "代理担当（模擬）"

end VerifiedActor

inductive WorkError where
  | validationFailed
  | forbidden
  | workItemNotFound
  | workArtifactNotFound
  | evidenceNotFound
  | findingNotFound
  | revisionConflict
  | operationConflict
  | workAssignmentConflict
  | handoffNotReady
  | dependencyUnavailable
  | commitOutcomeUnknown
  | integrityViolation
  | agentResultNotReady
  | workContextStale
  | cursorStale
  | organizationRecordNotFound
  | workContextNotFound
  | workArtifactUnavailable
deriving DecidableEq

/-! ## Identifiers -/

def fromU128 (n : Nat) : Uuid := ⟨bigEndian 16 n, length_bigEndian 16 n⟩

def nilUuid : Uuid := fromU128 0

/-- The high half of the seventh byte. -/
def versionNum (id : Uuid) : Nat := (id.bytes.getD 6 0).toNat / 16

/-! ## Instants -/

/-- Nanoseconds from the epoch; instants compare by nothing else. -/
abbrev Instant := Int

def minutes (n : Int) : Int := n * 60 * 1000000000

/-- RFC 3339 texts of instants. What is written is read back. -/
structure TimeText where
  parse : String → Option Instant
  format : Instant → Option String
  parse_format : ∀ {value text}, format value = some text → parse text = some value

def parseInstant (time : TimeText) (value : String) : Except WorkError Instant :=
  okOr (time.parse value) .validationFailed

def formatInstant (time : TimeText) (value : Instant) : Except WorkError String :=
  okOr (time.format value) .integrityViolation

/-! ## Counters -/

/-- `checked_add(1)` of a signed 64-bit counter. -/
def nextRevision (n : Int) : Except WorkError Int :=
  if n < 2 ^ 63 - 1 then .ok (n + 1) else .error .integrityViolation

/-- `checked_add(1)` of an unsigned 32-bit counter. -/
def nextNumber (n : Nat) : Except WorkError Nat :=
  if n < 2 ^ 32 - 1 then .ok (n + 1) else .error .integrityViolation

theorem nextRevision_iff {n m : Int} : nextRevision n = .ok m ↔ n < 2 ^ 63 - 1 ∧ m = n + 1 :=
  ite_ok_iff

theorem nextNumber_iff {n m : Nat} : nextNumber n = .ok m ↔ n < 2 ^ 32 - 1 ∧ m = n + 1 :=
  ite_ok_iff

/-! ## Texts -/

def maxTextBytes : Nat := 8 * 1024

def maxPolicyReasonBytes : Nat := 1024

def boundedText (value : String) : Except WorkError Unit :=
  ensure (¬ (isBlank value = true ∨ byteLen value > maxTextBytes)) .validationFailed

def boundedReason (value : String) : Except WorkError Unit :=
  ensure (¬ (isBlank value = true ∨ byteLen value > maxPolicyReasonBytes ∨
    (value.toList.any fun c => isControl c && !(['\n', '\r', '\t'].contains c)) = true))
    .validationFailed

/-! ## Organization -/

/-- The closed vocabulary of policy actions. -/
inductive PolicyAction where
  | contextRead
  | contextProgressRead
  | contextHistoryRead
  | queueRead
  | workRead
  | workClaim
  | workAssign
  | workEdit
  | workSubmit
  | workReturn
  | workComplete
  | workHold
  | workResume
  | evidenceRegister
  | findingRegister
  | decisionRecord
  | agentRequest
  | organizationManage
deriving DecidableEq

/-- Administration of privileges is never delegable. -/
def PolicyAction.delegable : PolicyAction → Bool
  | organizationManage | workAssign => false
  | _ => true

inductive WorkViewArchetype where
  | context
  | queue

structure OrganizationalUnit where
  id : Uuid
  label : String
  defaultArchetype : WorkViewArchetype
  roleIds : List Uuid

structure BusinessRole where
  id : Uuid
  (key label : String)
  actions : List PolicyAction

structure RoleAssignment where
  id : Uuid
  principal : VerifiedActor
  (roleId unitId : Uuid)
  validFrom : String
  validUntil : Option String
  reason : String
  createdBy : Option VerifiedActor
  createdAt : String
  revokedAt : Option String
  revokedBy : Option VerifiedActor
  revokeReason : Option String

structure Delegation where
  (id sourceAssignmentId : Uuid)
  (delegator recipient : VerifiedActor)
  actions : List PolicyAction
  (validFrom validUntil reason : String)
  createdBy : VerifiedActor
  createdAt : String
  revokedAt : Option String
  revokedBy : Option VerifiedActor
  revokeReason : Option String

inductive ResponsibilityKind where
  | roleAssignment
  | delegation
deriving DecidableEq

/-- A responsibility in effect at one instant. -/
structure Responsibility where
  id : Uuid
  kind : ResponsibilityKind
  principal : VerifiedActor
  roleId : Uuid
  roleLabel : String
  unitId : Uuid
  unitLabel : String
  actions : List PolicyAction
  validFrom : String
  validUntil : Option String
  sourceAssignmentId : Option Uuid
  delegator : Option VerifiedActor
  workViewProfileId : Uuid

def Responsibility.allows (r : Responsibility) (action : PolicyAction) : Bool :=
  r.actions.contains action

structure OrganizationPolicy where
  id : Uuid
  revision : Int
  units : List OrganizationalUnit
  roles : List BusinessRole
  roleAssignments : List RoleAssignment
  delegations : List Delegation

structure CommandContext where
  operationId : Uuid
  expectedRevision : Int
  actingAssignmentId : Uuid

inductive PolicyCommand where
  | createRoleAssignment (context : CommandContext) (principal : VerifiedActor)
    (roleId unitId : Uuid)
    (validFrom validUntil : Option String) (reason : String)
  | revokeRoleAssignment (context : CommandContext) (assignmentId : Uuid) (reason : String)
  | createDelegation (context : CommandContext) (sourceAssignmentId : Uuid)
    (recipient : VerifiedActor) (actions : List PolicyAction) (validFrom : Option String)
    (validUntil : String) (reason : String)
  | revokeDelegation (context : CommandContext) (delegationId : Uuid) (reason : String)

def PolicyCommand.context : PolicyCommand → CommandContext
  | .createRoleAssignment context .. => context
  | .revokeRoleAssignment context .. => context
  | .createDelegation context .. => context
  | .revokeDelegation context .. => context

/-! ## Evidence -/

structure RevisionRef where
  id : Uuid
  revision : Int
deriving DecidableEq

structure SourceRef where
  providerId : String
  (resourceId revisionId versionId : Uuid)
deriving DecidableEq

structure AuthoritativeLocator where
  kind : String
  (contentItemId representationId : Uuid)
deriving DecidableEq

structure EvidenceSource where
  sourceRef : SourceRef
  authoritativeLocator : AuthoritativeLocator
deriving DecidableEq

structure EvidenceRecord where
  id : Uuid
  revision : Int
  (contextId taskId attemptId : Uuid)
  createdBy : String
  actingAssignmentId : Uuid
  origin : String
  source : EvidenceSource
  uncertainty : List String
  conflictReferences : List RevisionRef
  relevantLocationVerified : Bool
  (policyDisposition relevantLocation fragmentOmissionReason coverage retrievedAt : String)
  (recordedAt providerCheckedAt visibility : String)
deriving DecidableEq

structure Finding where
  originExecutionId : Option Uuid
  id : Uuid
  revision : Int
  (contextId taskId attemptId : Uuid)
  uncertainty : List String
  conflicts : List RevisionRef
  author : String
  actingAssignmentId : Uuid
  claim : String
  evidenceRevisionRefs : List RevisionRef
  supersedesFindingId : Option Uuid
  (visibility createdAt : String)

inductive DecisionKind where
  | accepted
  | modified
  | rejected
deriving DecidableEq

structure HumanDecision where
  id : Uuid
  revision : Int
  (contextId taskId attemptId findingId : Uuid)
  findingRevision : Int
  decision : DecisionKind
  (adoptedClaim reason : Option String)
  evidenceRevisionRefs : List RevisionRef
  humanPrincipal : String
  actingAssignmentId : Uuid
  createdAt : String
  supersedesDecisionId : Option Uuid
  visibility : String

/-! ## Files and drafts -/

structure FileGeneration where
  id : Uuid
  sizeBytes : Nat
  (sha256 storedAt providerId : String)

structure WorkFile where
  (fileName mediaType : String)
  generation : Option FileGeneration

/-- What the server computed of the content written. -/
structure GenerationInput where
  id : Uuid
  sizeBytes : Nat
  sha256 : String

structure DerivedFrom where
  (snapshotId artifactId : Uuid)

structure TextValue where
  text : String

structure WorkingArtifact where
  (id taskId attemptId : Uuid)
  revision : Int
  schemaId : String
  value : Option TextValue
  visibility : String
  file : Option WorkFile
  derivedFrom : Option DerivedFrom

structure PinnedArtifact where
  artifactId : Uuid
  revision : Int
  schemaId : String
  value : Option TextValue
  file : Option WorkFile

structure HandoffSnapshot where
  (evidenceRevisionRefs findingRevisionRefs decisionRevisionRefs : List RevisionRef)
  (previousSubmissionId returnInstructionId : Option Uuid)
  (id workflowId contextId : Uuid)
  submissionNumber : Nat
  submittedBy : String
  (actingAssignmentId sourceTaskId sourceAttemptId targetTaskId : Uuid)
  createdAt : String
  artifacts : List PinnedArtifact

structure ReturnTransition where
  (transitionId targetTaskId previousSubmissionId : Uuid)

structure ReturnInstruction where
  (id workflowId contextId sourceTaskId sourceAttemptId targetTaskId targetAttemptId : Uuid)
  (previousSubmissionId transitionId : Uuid)
  (reason returnedBy : String)
  actingAssignmentId : Uuid
  createdAt : String

/-! ## Agents -/

inductive AgentExecutionStatus where
  | queued
  | running
  | succeeded
  | failed
  | cancelled
  | outcomeUnknown
deriving DecidableEq

def AgentExecutionStatus.isActive : AgentExecutionStatus → Bool
  | queued | running => true
  | _ => false

inductive AgentFailureCode where
  | providerDenied
  | contextStale
  | invalidOutput
  | dependencyUnavailable
  | interrupted
  | commitOutcomeUnknown
deriving DecidableEq

structure ProviderPrincipalBinding where
  (providerId principalId invocationKind : String)
deriving DecidableEq

/-- What the executor could use of a selected source. -/
inductive AgentSourceUse where
  | referenced
  | analyzed
  | unavailable
  | unsupported
deriving DecidableEq

def AgentSourceUse.usable : AgentSourceUse → Bool
  | referenced | analyzed => true
  | _ => false

structure AgentSourceOutcome where
  evidenceRevisionRef : RevisionRef
  outcome : AgentSourceUse
deriving DecidableEq

structure AgentResult where
  summary : String
  (findingRevisionRefs evidenceRevisionRefs : List RevisionRef)
  uncertainty : List String
  (simulated bodyAnalyzed liveLlm mcpWireExecuted : Bool)
  sourceOutcomes : List AgentSourceOutcome
  (generatedArtifactIds suggestedActionIds : List Uuid)
deriving DecidableEq

structure AgentExecution where
  (id contextId workItemId attemptId : Uuid)
  requestedBy : VerifiedActor
  requesterResponsibility : Uuid
  (executedBy executorInvocationKind : String)
  providerPrincipalBindings : List ProviderPrincipalBinding
  (effectiveContextRevision taskRevision : Int)
  purpose : String
  evidenceRevisionRefs : List RevisionRef
  status : AgentExecutionStatus
  startedAt : String
  endedAt : Option String
  result : Option AgentResult
  failureCode : Option AgentFailureCode
deriving DecidableEq

structure GeneratedArtifact where
  (id executionId contextId workItemId attemptId : Uuid)
  (schemaId title : String)
  value : TextValue
  sourceRevisionRefs : List RevisionRef
  author : String
  simulated : Bool
  (visibility createdAt : String)

inductive ProposedAction where
  | reviewFinding (findingRevisionRef : RevisionRef)
  | useGeneratedArtifact (generatedArtifactId : Uuid)

structure SuggestedAction where
  (id executionId contextId workItemId attemptId : Uuid)
  action : ProposedAction
  rationale : String
  supportingRevisionRefs : List RevisionRef
  (author visibility createdAt : String)

/-! ## Tasks -/

inductive TaskState where
  | ready
  | active
  | held
  | completed
deriving DecidableEq

/-- One attempt at a task. -/
structure WorkItem where
  returnInstructionId : Option Uuid
  dueAt : Option String
  (id workflowInstanceId stepId workTypeId : Uuid)
  attemptNumber : Nat
  (workAssignmentId actingAssignmentId : Option Uuid)
  createdAt : String
  completedAt : Option String
  attemptId : Uuid
  revision : Int
  state : TaskState
  assignee : Option VerifiedActor
  handoffSnapshotId : Option Uuid

/-- One period of responsibility for an attempt. -/
structure WorkAssignmentRecord where
  (id taskId attemptId : Uuid)
  principal : VerifiedActor
  actingAssignmentId : Uuid
  assignedBy : Option VerifiedActor
  managerAssignmentId : Option Uuid
  reason : Option String
  startedAt : String
  endedAt : Option String
  endedBy : Option VerifiedActor

inductive AttentionKind where
  | newlyAssigned
  | returned
  | dueSoon
  | overdue

structure Attention where
  kind : AttentionKind
  sourceId : Option Uuid
  dueAt : Option String

structure TaskAssignmentView where
  (principalId displayName : String)
  actingAssignmentId : Uuid
  actingKind : Option ResponsibilityKind
  (roleLabel delegatorPrincipalId : Option String)
  responsibilityEffective : Bool

structure TaskSummary where
  canHold : Bool
  holdActionId : Option Uuid
  canResume : Bool
  resumeActionId : Option Uuid
  canComplete : Bool
  completionActionId : Option Uuid
  (canRequestAgent canRegisterEvidence canRegisterFinding canRecordDecision : Bool)
  (requiredRoleId claimAssignmentId : Option Uuid)
  canAssign : Bool
  assignment : Option TaskAssignmentView
  workTypeId : Uuid
  workTypeLabel : String
  dueAt : Option String
  attention : List Attention
  contextTitle : Option String
  attemptNumber : Nat
  canReturn : Bool
  returnInstructionId : Option Uuid
  returnTransition : Option ReturnTransition
  id : Uuid
  contextId : Option Uuid
  attemptId : Uuid
  revision : Int
  (title stepLabel : String)
  state : TaskState
  (canClaim canEdit canSubmit : Bool)
  handoffSnapshotId : Option Uuid

structure InputResourceRef where
  kind : String
  documentId : Uuid
  label : String

structure HistoryEntry where
  (kind occurredAt : String)

/-! ## Commands -/

structure ArtifactSelection where
  artifactId : Uuid
  revision : Int

inductive Command where
  | hold (taskId : Uuid) (context : CommandContext) (expectedAttemptId definitionActionId : Uuid)
  | resume (taskId : Uuid) (context : CommandContext) (expectedAttemptId definitionActionId : Uuid)
  | complete (taskId : Uuid) (context : CommandContext)
    (expectedAttemptId definitionActionId : Uuid)
  | requestAgentExecution (taskId : Uuid) (context : CommandContext) (expectedAttemptId : Uuid)
    (purpose : String) (evidenceRevisionRefs : List RevisionRef)
  | cancelAgentExecution (taskId : Uuid) (context : CommandContext)
    (expectedAttemptId executionId : Uuid)
  | registerEvidence (taskId : Uuid) (context : CommandContext) (expectedAttemptId : Uuid)
    (source : EvidenceSource) (relevantLocation : String)
  | registerFinding (taskId : Uuid) (context : CommandContext) (expectedAttemptId : Uuid)
    (claim : String) (evidenceRevisionRefs : List RevisionRef) (supersedesFindingId : Option Uuid)
  | recordDecision (taskId : Uuid) (context : CommandContext) (expectedAttemptId findingId : Uuid)
    (findingRevision : Int) (decision : DecisionKind) (adoptedClaim reason : Option String)
    (evidenceRevisionRefs : List RevisionRef) (supersedesDecisionId : Option Uuid)
  | «return» (taskId : Uuid) (context : CommandContext)
    (expectedAttemptId previousSubmissionId targetTaskId transitionId : Uuid) (reason : String)
  | assign (taskId : Uuid) (context : CommandContext) (expectedAttemptId : Uuid)
    (assignee : VerifiedActor) (assigneeResponsibilityId : Uuid) (reason : String)
  | saveDraft (taskId : Uuid) (artifactId : Option Uuid) (context : CommandContext)
    (value : TextValue)
  | claim (taskId : Uuid) (context : CommandContext)
  | createFileArtifact (taskId : Uuid) (context : CommandContext) (fileName mediaType : String)
  | writeArtifactContent (taskId artifactId : Uuid) (context : CommandContext)
    (expectedArtifactRevision : Int) (generation : GenerationInput)
  | discardArtifact (taskId artifactId : Uuid) (context : CommandContext)
    (expectedArtifactRevision : Int)
  | importSubmission (taskId : Uuid) (context : CommandContext)
    (expectedAttemptId snapshotId : Uuid)
  | submit (taskId : Uuid) (context : CommandContext) (artifacts : List ArtifactSelection)
    (expectedAttemptId : Option Uuid)
    (evidenceRevisionRefs findingRevisionRefs decisionRevisionRefs : List RevisionRef)

namespace Command

def context : Command → CommandContext
  | hold _ context .. | resume _ context .. | complete _ context ..
  | requestAgentExecution _ context .. | cancelAgentExecution _ context ..
  | registerEvidence _ context .. | registerFinding _ context .. | recordDecision _ context ..
  | saveDraft _ _ context .. | createFileArtifact _ context .. | writeArtifactContent _ _ context ..
  | discardArtifact _ _ context .. | importSubmission _ context .. | claim _ context
  | submit _ context .. | assign _ context .. | «return» _ context .. => context

def taskId : Command → Uuid
  | hold taskId .. | resume taskId .. | complete taskId .. | requestAgentExecution taskId ..
  | cancelAgentExecution taskId .. | registerEvidence taskId .. | registerFinding taskId ..
  | recordDecision taskId .. | saveDraft taskId .. | createFileArtifact taskId ..
  | writeArtifactContent taskId .. | discardArtifact taskId .. | importSubmission taskId ..
  | claim taskId .. | submit taskId .. | assign taskId .. | «return» taskId .. => taskId

/-- The policy action a command needs on the step of its task. -/
def requiredAction : Command → PolicyAction
  | hold .. => .workHold
  | resume .. => .workResume
  | complete .. => .workComplete
  | requestAgentExecution .. | cancelAgentExecution .. => .agentRequest
  | registerEvidence .. => .evidenceRegister
  | registerFinding .. => .findingRegister
  | recordDecision .. => .decisionRecord
  | «return» .. => .workReturn
  | assign .. => .workAssign
  | saveDraft .. | createFileArtifact .. | writeArtifactContent .. | discardArtifact ..
  | importSubmission .. => .workEdit
  | claim .. => .workClaim
  | submit .. => .workSubmit

end Command

inductive MutationResult where
  | held (task : TaskSummary)
  | resumed (task : TaskSummary)
  | completed (task : TaskSummary)
  | agentExecutionRequested (task : TaskSummary) (execution : AgentExecution)
  | agentExecutionCancelled (task : TaskSummary) (execution : AgentExecution)
  | evidenceRegistered (task : TaskSummary) (evidence : EvidenceRecord)
  | findingRegistered (task : TaskSummary) (finding : Finding)
  | decisionRecorded (task : TaskSummary) (decision : HumanDecision)
  | returned (task : TaskSummary) (returnInstruction : ReturnInstruction) (nextTask : TaskSummary)
  | draftSaved (task : TaskSummary) (artifact : WorkingArtifact)
  | artifactCreated (task : TaskSummary) (artifact : WorkingArtifact)
  | artifactContentWritten (task : TaskSummary) (artifact : WorkingArtifact)
  | artifactDiscarded (task : TaskSummary) (artifactId : Uuid)
  | submissionImported (task : TaskSummary) (artifacts : List WorkingArtifact)
  | claimed (task : TaskSummary)
  | submitted (task : TaskSummary) (snapshot : HandoffSnapshot) (nextTask : TaskSummary)
  | assigned (task : TaskSummary) (assignment : WorkAssignmentRecord)
  | roleAssignmentCreated (assignment : RoleAssignment) (policyRevision : Int)
  | roleAssignmentRevoked (assignment : RoleAssignment) (policyRevision : Int)
  | delegationCreated (delegation : Delegation) (policyRevision : Int)
  | delegationRevoked (delegation : Delegation) (policyRevision : Int)

end KnowledgePlatform.Work
