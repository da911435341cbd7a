import KnowledgePlatform.Work.Organization

/-! The workflow aggregate: its fixtures, its state, and who may act on which of its tasks. -/

namespace KnowledgePlatform.Work

/-! ## Identifiers of the fixtures -/

def workflowId : Uuid := fromU128 0x01900000000070008000000000000001
def contextId : Uuid := fromU128 0x01900000000070008000000000000002
def salesTaskId : Uuid := fromU128 0x01900000000070008000000000000003
def officeTaskId : Uuid := fromU128 0x01900000000070008000000000000004
def salesAttemptId : Uuid := fromU128 0x01900000000070008000000000000005
def officeAttemptId : Uuid := fromU128 0x01900000000070008000000000000006
def definitionVersionId : Uuid := fromU128 0x01900000000070008000000000000009
def returnDefinitionVersionId : Uuid := fromU128 0x0190000000007000800000000000000f
def completeDefinitionVersionId : Uuid := fromU128 0x01900000000070008000000000000011
def holdResumeDefinitionVersionId : Uuid := fromU128 0x01900000000070008000000000000013
def holdActionId : Uuid := fromU128 0x01900000000070008000000000000014
def resumeActionId : Uuid := fromU128 0x01900000000070008000000000000015
def completeActionId : Uuid := fromU128 0x01900000000070008000000000000012
def returnTransitionId : Uuid := fromU128 0x01900000000070008000000000000010
def salesStepId : Uuid := fromU128 0x0190000000007000800000000000000a
def officeStepId : Uuid := fromU128 0x0190000000007000800000000000000b
def salesWorkTypeId : Uuid := fromU128 0x0190000000007000800000000000000c
def officeWorkTypeId : Uuid := fromU128 0x0190000000007000800000000000000d
def salesWorkAssignmentId : Uuid := fromU128 0x0190000000007000800000000000000e
def reviewStepId : Uuid := fromU128 0x0190000000007000800000000000b011
def reviewWorkTypeId : Uuid := fromU128 0x0190000000007000800000000000b012
def reviewDefinitionVersionId : Uuid := fromU128 0x0190000000007000800000000000b013
def contextBWorkflowId : Uuid := fromU128 0x0190000000007000800000000000b001
def contextBId : Uuid := fromU128 0x0190000000007000800000000000b002
def contextBSalesTaskId : Uuid := fromU128 0x0190000000007000800000000000b003
def contextBReviewTaskId : Uuid := fromU128 0x0190000000007000800000000000b004
def contextCWorkflowId : Uuid := fromU128 0x0190000000007000800000000000b101
def contextCId : Uuid := fromU128 0x0190000000007000800000000000b102
def contextCSalesTaskId : Uuid := fromU128 0x0190000000007000800000000000b103
def contextCOfficeTaskId : Uuid := fromU128 0x0190000000007000800000000000b104

def fixtureCreatedAt : String := "2026-10-04T00:00:00Z"

def textSchemaId : String := "organization.text-draft.v1"

def fileSchemaId : String := "organization.work-file.v1"

def maxArtifacts : Nat := 16

def maxAssignmentsPerAttempt : Nat := 16

def maxAgentExecutions : Nat := 16

/-! ## Fixtures -/

/-- How the first attempt of a fixture starts. -/
inductive SourceStart where
  | assignedToSales
  | readyDueInMinutes (minutes : Int)

/-- One synthetic context, bound to one workflow of two steps. -/
structure ContextFixture where
  (workflowId contextId : Uuid)
  title : String
  (ownerUnitId definitionVersionId : Uuid)
  acceptedDefinitions : List Uuid
  (sourceTaskId sourceAttemptId nextTaskId nextAttemptId nextStepId nextWorkTypeId : Uuid)
  start : SourceStart

def fixtureA : ContextFixture where
  workflowId := workflowId
  contextId := contextId
  title := "合成案件A・設備更新相談"
  ownerUnitId := unitSalesId
  definitionVersionId := holdResumeDefinitionVersionId
  acceptedDefinitions := [definitionVersionId, returnDefinitionVersionId,
    completeDefinitionVersionId, holdResumeDefinitionVersionId]
  sourceTaskId := salesTaskId
  sourceAttemptId := salesAttemptId
  nextTaskId := officeTaskId
  nextAttemptId := officeAttemptId
  nextStepId := officeStepId
  nextWorkTypeId := officeWorkTypeId
  start := .assignedToSales

def fixtureB : ContextFixture where
  workflowId := contextBWorkflowId
  contextId := contextBId
  title := "合成案件B・運転資金相談"
  ownerUnitId := unitSalesId
  definitionVersionId := reviewDefinitionVersionId
  acceptedDefinitions := [reviewDefinitionVersionId]
  sourceTaskId := contextBSalesTaskId
  sourceAttemptId := fromU128 0x0190000000007000800000000000b005
  nextTaskId := contextBReviewTaskId
  nextAttemptId := fromU128 0x0190000000007000800000000000b006
  nextStepId := reviewStepId
  nextWorkTypeId := reviewWorkTypeId
  start := .readyDueInMinutes (6 * 60)

def fixtureC : ContextFixture where
  workflowId := contextCWorkflowId
  contextId := contextCId
  title := "合成依頼C・住所変更届"
  ownerUnitId := unitSalesId
  definitionVersionId := holdResumeDefinitionVersionId
  acceptedDefinitions := [holdResumeDefinitionVersionId]
  sourceTaskId := contextCSalesTaskId
  sourceAttemptId := fromU128 0x0190000000007000800000000000b105
  nextTaskId := contextCOfficeTaskId
  nextAttemptId := fromU128 0x0190000000007000800000000000b106
  nextStepId := officeStepId
  nextWorkTypeId := officeWorkTypeId
  start := .readyDueInMinutes (-60)

def contextFixtures : List ContextFixture := [fixtureA, fixtureB, fixtureC]

def contextFixture (id : Uuid) : Option ContextFixture :=
  contextFixtures.find? fun value => value.workflowId = id

def contextFixtureForContext (id : Uuid) : Option ContextFixture :=
  contextFixtures.find? fun value => value.contextId = id

def stepLabel (stepId : Uuid) : String :=
  if stepId = salesStepId then "営業内容整理"
  else if stepId = officeStepId then "事務内容確認"
  else if stepId = reviewStepId then "審査内容確認"
  else "工程"

def workTypeLabel (workTypeId : Uuid) : String :=
  if workTypeId = salesWorkTypeId then "営業内容整理"
  else if workTypeId = officeWorkTypeId then "事務内容確認"
  else if workTypeId = reviewWorkTypeId then "審査内容確認"
  else "業務"

def syntheticDueLead : Int := minutes (24 * 60)

def workTypeDueLead (workTypeId : Uuid) : Option Int :=
  if workTypeId = salesWorkTypeId ∨ workTypeId = officeWorkTypeId ∨
    workTypeId = reviewWorkTypeId then
    some syntheticDueLead
  else none

/-! ## State -/

/-- What the server verified of stored generations. -/
inductive GenerationReceipts where
  | none
  | deferred
  | verified (ids : List Uuid)

/-- What one evaluation is given; it is not stored. -/
structure PolicyAuthority where
  policy : Option OrganizationPolicy
  evaluatedAt : Option Instant
  acknowledged : Option (VerifiedActor × List Uuid)
  generations : GenerationReceipts

/-- The aggregate of one workflow. -/
structure Workflow where
  agentExecutions : List AgentExecution
  generatedArtifacts : List GeneratedArtifact
  suggestedActions : List SuggestedAction
  evidence : List EvidenceRecord
  findings : List Finding
  decisions : List HumanDecision
  completedAttempts : List WorkItem
  returnInstructions : List ReturnInstruction
  assignments : List WorkAssignmentRecord
  authority : PolicyAuthority
  (id definitionVersionId contextId : Uuid)
  revision : Int
  source : WorkItem
  next : Option WorkItem
  artifacts : List WorkingArtifact
  snapshots : List HandoffSnapshot
  history : List HistoryEntry
  inputResources : List InputResourceRef

/-- What an operation reads of its surroundings. The wall clock is read only if no instant is
attached; `draw` gives the identifiers drawn. -/
structure Env where
  time : TimeText
  clock : Instant
  draw : Nat → Uuid

namespace Workflow

/-- The workflow before any operation. -/
def synthetic (documentId : Option Uuid) : Workflow where
  agentExecutions := []
  generatedArtifacts := []
  suggestedActions := []
  evidence := []
  findings := []
  decisions := []
  id := workflowId
  definitionVersionId := holdResumeDefinitionVersionId
  completedAttempts := []
  returnInstructions := []
  assignments := []
  authority := ⟨some OrganizationPolicy.synthetic, none, none, .none⟩
  contextId := Work.contextId
  revision := 0
  source :=
    { returnInstructionId := none
      dueAt := none
      id := salesTaskId
      workflowInstanceId := workflowId
      stepId := salesStepId
      workTypeId := salesWorkTypeId
      attemptNumber := 1
      workAssignmentId := some salesWorkAssignmentId
      actingAssignmentId := some salesAssignmentId
      createdAt := fixtureCreatedAt
      completedAt := none
      attemptId := salesAttemptId
      revision := 0
      state := .active
      assignee := some .sales01
      handoffSnapshotId := none }
  next := none
  artifacts := []
  snapshots := []
  history := []
  inputResources := documentId.toList.map fun documentId =>
    { kind := "document", documentId, label := "共有入力文書" }

variable (w : Workflow) (env : Env) (actor : VerifiedActor)

/-- The current attempt of a task. -/
def item (id : Uuid) : Except WorkError WorkItem :=
  if id = w.source.id then .ok w.source
  else okOr (w.next.filter fun item => item.id = id) .workItemNotFound

def currentItems : List WorkItem := w.source :: w.next.toList

/-- The fixture the workflow is bound to. -/
def plan : Except WorkError ContextFixture :=
  okOr (contextFixture w.id) .integrityViolation

/-- Without an attached policy nothing is granted. -/
def policy : OrganizationPolicy := w.authority.policy.getD .empty

/-- The attached instant, or the wall clock. -/
def evaluatedAt : Instant := w.authority.evaluatedAt.getD env.clock

/-! ## Who may act -/

/-- The responsibility segment of each step. -/
def stepRole (item : WorkItem) : Option Uuid :=
  if item.stepId = salesStepId then some roleSalesId
  else if item.stepId = officeStepId then some roleProcessingId
  else if item.stepId = reviewStepId then some roleReviewingId
  else none

/-- What the actor holds at the instant of the evaluation. -/
def responsibilities : List Responsibility :=
  w.policy.responsibilities env.time actor (w.evaluatedAt env)

def inScope (scope : Option Uuid) (r : Responsibility) : Bool := scope.all fun id => r.id = id

/-- The responsibility `id`, if it is of the step and allows the action. -/
def stepResponsibility (id : Uuid) (item : WorkItem) (action : PolicyAction) :
    Option Responsibility := do
  let role ← stepRole item
  (w.policy.responsibility env.time actor id (w.evaluatedAt env)).filter fun value =>
    value.roleId = role && value.allows action

/-- The first responsibility in effect for the step that allows the action. -/
def eligibleIn (item : WorkItem) (action : PolicyAction) (scope : Option Uuid) : Option
    Responsibility := do
  let role ← stepRole item
  (w.responsibilities env actor).find? fun value =>
    inScope scope value && value.roleId = role && value.allows action

def eligible (item : WorkItem) (action : PolicyAction) : Bool :=
  (w.eligibleIn env actor item action none).isSome

/-- The attempt is the actor's and its recorded responsibility allows the action. -/
def canAct (item : WorkItem) (action : PolicyAction) : Bool :=
  item.assignee = some actor && item.actingAssignmentId.any fun id =>
    (w.stepResponsibility env actor id item action).isSome

/-- Having taken part is no authority to read: the recorded responsibility must hold now. -/
def canRead (item : WorkItem) : Bool :=
  w.canAct env actor item .workRead

/-- A responsibility that allows to assign work. -/
def assigningIn (scope : Option Uuid) : Option Responsibility :=
  (w.responsibilities env actor).find? fun value => inScope scope value && value.allows .workAssign

/-- Responsibilities that hold `action` over the owner unit of the context. -/
def contextGrant (action : PolicyAction) (scope : Option Uuid) : Bool :=
  match w.plan with
  | .error _ => false
  | .ok plan => (w.responsibilities env actor).any fun value =>
      inScope scope value && value.unitId = plan.ownerUnitId && value.allows action

/-- The actor may read how the context goes on. -/
def continuityIn (scope : Option Uuid) : Bool :=
  w.contextGrant env actor .contextProgressRead scope

/-- Chooses between refusing and hiding, nothing else. -/
def visible (item : WorkItem) : Bool :=
  w.canRead env actor item ||
    (item.state = .ready && item.assignee = none && w.eligible env actor item .queueRead) ||
    (item.state ≠ .completed && (w.assigningIn env actor none).isSome) ||
    w.continuityIn env actor none

/-- The item is the second step of the plan. -/
def isNext (item : WorkItem) : Bool :=
  match w.plan with
  | .error _ => false
  | .ok plan => item.id = plan.nextTaskId && item.stepId = plan.nextStepId

/-! ## What a definition version allows -/

def returnable : Bool :=
  [returnDefinitionVersionId, completeDefinitionVersionId, holdResumeDefinitionVersionId,
    reviewDefinitionVersionId].contains w.definitionVersionId

def completable : Bool :=
  [completeDefinitionVersionId, holdResumeDefinitionVersionId,
    reviewDefinitionVersionId].contains w.definitionVersionId

def pausable : Bool :=
  [holdResumeDefinitionVersionId, reviewDefinitionVersionId].contains w.definitionVersionId

/-- The return offered at an item, with the handoff it goes back over. -/
def returnTransition (item : WorkItem) : Option ReturnTransition :=
  if w.returnable = true ∧ w.isNext item = true ∧ w.canAct env actor item .workReturn = true ∧
      item.state = .active ∧ w.source.state = .completed then do
    let snapshot ← w.snapshots.find? fun snapshot =>
      some snapshot.id = item.handoffSnapshotId ∧ some snapshot.id = w.source.handoffSnapshotId ∧
        snapshot.sourceTaskId = w.source.id ∧ snapshot.sourceAttemptId = w.source.attemptId ∧
        snapshot.targetTaskId = item.id
    return ⟨returnTransitionId, w.source.id, snapshot.id⟩
  else none

/-- The completion offered at an item. -/
def completionAction (item : WorkItem) : Option Uuid :=
  if w.completable = true ∧ w.isNext item = true ∧ w.canAct env actor item .workComplete = true ∧
      item.state = .active then
    some completeActionId
  else none

/-- The pause offered at an item, or the end of one. -/
def pauseAction (item : WorkItem) (resume : Bool) : Option Uuid :=
  let state : TaskState := if resume then .held else .active
  let action : PolicyAction := if resume then .workResume else .workHold
  if w.pausable = true ∧
      ((item.id = w.source.id ∧ item.stepId = salesStepId) ∨ w.isNext item = true) ∧
      w.canAct env actor item action = true ∧ item.workAssignmentId.isSome = true ∧
      item.state = state then
    some (if resume then resumeActionId else holdActionId)
  else none

def generationVerified (id : Uuid) : Bool :=
  match w.authority.generations with
  | .none => false
  | .deferred => true
  | .verified ids => ids.contains id

end Workflow

end KnowledgePlatform.Work
