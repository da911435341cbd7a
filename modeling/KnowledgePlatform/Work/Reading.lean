import KnowledgePlatform.Work.Workflow

/-! What an actor may read of a workflow. Commands reuse these checks. -/

namespace KnowledgePlatform.Work

def maxReferences : Nat := 100

def maxVisibleRecords : Nat := 16

def syntheticExecutor : String := "organization-synthetic/agent-01"

def validateRefs (refs : List RevisionRef) : Except WorkError Unit :=
  ensure (refs.length ≤ maxReferences ∧ (∀ r ∈ refs, r.revision = 1) ∧ (refs.map (·.id)).Nodup)
    .validationFailed

structure TaskDetail where
  agentExecutionIds : List Uuid
  task : TaskSummary
  inputResources : List InputResourceRef
  history : List HistoryEntry
  workingArtifacts : List WorkingArtifact

inductive TaskView where
  | context
  | queue
deriving DecidableEq

namespace Workflow

variable (w : Workflow) (env : Env) (actor : VerifiedActor)

/-! ## Summaries -/

def acknowledgedBy (id : Uuid) : Bool :=
  w.authority.acknowledged.any fun owned => owned.1 = actor && owned.2.contains id

/-- Reported to an assignee whom someone else assigned, until acknowledged. -/
def newlyAssigned (item : WorkItem) : List Attention :=
  match item.workAssignmentId.bind fun id => w.assignments.find? fun value => value.id = id with
  | none => []
  | some record =>
    if (record.assignedBy.any fun manager => manager ≠ actor) = true ∧ record.principal = actor ∧
        w.acknowledgedBy actor record.id = false then
      [⟨.newlyAssigned, some record.id, none⟩]
    else []

def returnedAttention (item : WorkItem) (readable : Bool) : List Attention :=
  match item.returnInstructionId.filter fun id =>
    w.returnInstructions.any fun value =>
      value.id = id && value.targetAttemptId = item.attemptId with
  | none => []
  | some id => [⟨.returned, if readable then some id else none, none⟩]

def dueAttention (time : TimeText) (item : WorkItem) (now : Instant) : List Attention :=
  match item.dueAt with
  | none => []
  | some due =>
    match time.parse due with
    | none => []
    | some dueInstant =>
      if dueInstant ≤ now then [⟨.overdue, none, some due⟩]
      else if (workTypeDueLead item.workTypeId).any fun lead =>
        decide (dueInstant - lead ≤ now) then
        [⟨.dueSoon, none, some due⟩]
      else []

def attentionFor (item : WorkItem) : List Attention :=
  if item.state = .completed then []
  else
    let readable := w.canRead env actor item
    (if readable then w.newlyAssigned actor item else []) ++ w.returnedAttention item readable ++
      dueAttention env.time item (w.evaluatedAt env)

def assigneeIn (scope : Option Uuid) : Bool :=
  w.currentItems.any fun item => item.state ≠ .completed && w.canRead env actor item &&
    scope.all fun id => item.actingAssignmentId = some id

def contextTitleFor (scope : Option Uuid) : Option String :=
  if w.contextGrant env actor .contextRead scope || w.assigneeIn env actor scope then
    w.plan.toOption.map (·.title)
  else none

def assignmentView (item : WorkItem) : Option TaskAssignmentView := do
  let principal ← item.assignee
  let id ← item.actingAssignmentId
  let described := w.policy.describe id
  return {
    principalId := principal.principalId
    displayName := principal.displayName
    actingAssignmentId := id
    actingKind := described.map (·.kind)
    roleLabel := described.map (·.roleLabel)
    delegatorPrincipalId := (described.bind (·.delegator)).map (·.principalId)
    responsibilityEffective := (w.stepResponsibility env principal id item .workRead).isSome }

def executionsOf (taskId attemptId : Uuid) : List AgentExecution :=
  w.agentExecutions.filter fun e => e.workItemId = taskId && e.attemptId = attemptId

def hasActiveExecution (taskId : Uuid) : Bool :=
  w.agentExecutions.any fun e => e.workItemId = taskId && e.status.isActive

def summaryIn (item : WorkItem) (scope : Option Uuid) : TaskSummary :=
  let active := item.state = .active
  let readable := w.canRead env actor item
  let editable := item.id = w.source.id && active && w.canAct env actor item .workEdit
  let returnTransition := w.returnTransition env actor item
  let completionActionId := w.completionAction env actor item
  let holdActionId := w.pauseAction env actor item false
  let resumeActionId := w.pauseAction env actor item true
  let claim := if item.state = .ready ∧ item.assignee = none then
    w.eligibleIn env actor item .workClaim scope else none
  let canAssign := item.state ≠ .completed && (w.assigningIn env actor scope).isSome
  let contextTitle := w.contextTitleFor env actor scope
  { canHold := holdActionId.isSome
    holdActionId
    canResume := resumeActionId.isSome
    resumeActionId
    canComplete := completionActionId.isSome
    completionActionId
    canRequestAgent := active && w.canAct env actor item .agentRequest &&
      (w.executionsOf item.id item.attemptId).length < maxAgentExecutions &&
      !w.hasActiveExecution item.id
    canRegisterEvidence := active && w.canAct env actor item .evidenceRegister
    canRegisterFinding := active && w.canAct env actor item .findingRegister
    canRecordDecision := active && w.canAct env actor item .decisionRecord
    requiredRoleId := stepRole item
    claimAssignmentId := claim.map (·.id)
    canAssign
    assignment := if item.assignee = some actor ∨ canAssign = true then w.assignmentView env item
      else none
    workTypeId := item.workTypeId
    workTypeLabel := workTypeLabel item.workTypeId
    dueAt := item.dueAt
    attention := w.attentionFor env actor item
    contextId := if contextTitle.isSome then some w.contextId else none
    contextTitle
    attemptNumber := item.attemptNumber
    canReturn := returnTransition.isSome
    returnInstructionId := if readable then item.returnInstructionId else none
    returnTransition
    id := item.id
    attemptId := item.attemptId
    revision := item.revision
    title := stepLabel item.stepId
    stepLabel := stepLabel item.stepId
    state := item.state
    canClaim := claim.isSome
    canEdit := editable
    canSubmit := editable && w.canAct env actor item .workSubmit &&
      w.artifacts.any fun artifact => artifact.attemptId = item.attemptId
    handoffSnapshotId := if readable then item.handoffSnapshotId else none }

def summary (item : WorkItem) : TaskSummary :=
  w.summaryIn env actor item none

/-! ## The task list -/

/-- The summaries under one responsibility, or under every one of the actor's. -/
def listTasksIn (view : TaskView) (scope : Option Uuid) : Except WorkError (List TaskSummary) := do
  let responsibilities := (w.responsibilities env actor).filter (inScope scope)
  ensure (¬ (scope.isSome = true ∧ responsibilities = [])) .forbidden
  let manages := responsibilities.any fun value => value.allows .workAssign
  let continuity := decide (view = .context) && w.continuityIn env actor scope
  let listed (item : WorkItem) : Bool :=
    let own := w.canRead env actor item && scope.all fun id => item.actingAssignmentId = some id
    let queue := item.state = .ready && item.assignee = none && responsibilities.any fun value =>
      stepRole item = some value.roleId && value.allows .queueRead && value.allows .workClaim
    let managed := manages && item.state ≠ .completed
    own || queue || managed || continuity
  return (w.currentItems.filter listed).map fun item => w.summaryIn env actor item scope

/-! ## Records of a task -/

def detail (id : Uuid) : Except WorkError TaskDetail := do
  let item ← w.item id
  ensure (w.canRead env actor item = true) .workItemNotFound
  return {
    agentExecutionIds := ((w.executionsOf item.id item.attemptId).filter fun e =>
      e.requestedBy = actor && item.actingAssignmentId = some e.requesterResponsibility).map (·.id)
    task := w.summary env actor item
    inputResources := w.inputResources
    history := w.history
    workingArtifacts := w.artifacts.filter fun artifact => artifact.attemptId = item.attemptId }

def artifact (id : Uuid) : Except WorkError WorkingArtifact := do
  let artifact ← okOr (w.artifacts.find? fun artifact => artifact.id = id) .workArtifactNotFound
  let item ← okOr (w.item artifact.taskId).toOption .workArtifactNotFound
  ensure (w.canRead env actor item = true ∧ artifact.attemptId = item.attemptId)
    .workArtifactNotFound
  return artifact

/-- The submitter keeps its submission while it holds the source step's responsibility. -/
def sourceReadable (snapshot : HandoffSnapshot) : Bool :=
  snapshot.submittedBy = actor.principalId &&
    ((w.item snapshot.sourceTaskId).toOption.any fun item => w.eligible env actor item .workRead)

/-- What was submitted to an attempt stays readable to its assignee. -/
def targetReadable (snapshot : HandoffSnapshot) : Bool :=
  (w.next.toList ++ w.completedAttempts).any fun item =>
    item.id = snapshot.targetTaskId && w.canRead env actor item &&
      item.handoffSnapshotId = some snapshot.id

/-- An assignee reads what its attempt was given, and the submission before that. -/
def currentReadable (id : Uuid) : Bool :=
  w.currentItems.any fun item =>
    w.canRead env actor item && item.handoffSnapshotId.any fun current =>
      current = id || w.snapshots.any fun value =>
        value.id = current && value.previousSubmissionId = some id

def snapshot (id : Uuid) : Except WorkError HandoffSnapshot := do
  let snapshot ← okOr (w.snapshots.find? fun snapshot => snapshot.id = id) .workArtifactNotFound
  ensure (w.sourceReadable env actor snapshot = true ∨ w.targetReadable env actor snapshot = true ∨
    w.currentReadable env actor id = true) .workArtifactNotFound
  return snapshot

def recordVisible (taskId attemptId : Uuid) (reference : RevisionRef)
    (member : HandoffSnapshot → List RevisionRef) : Bool :=
  ((w.item taskId).toOption.any fun item =>
    item.attemptId = attemptId && w.canRead env actor item) ||
  w.snapshots.any fun s =>
    (member s).contains reference && (w.snapshot env actor s.id).toOption.isSome

def evidenceRecord (id : Uuid) : Except WorkError EvidenceRecord := do
  let e ← okOr (w.evidence.find? fun e => e.id = id) .evidenceNotFound
  ensure (e.contextId = w.contextId ∧
    w.recordVisible env actor e.taskId e.attemptId ⟨e.id, e.revision⟩
      (·.evidenceRevisionRefs) = true)
    .evidenceNotFound
  return e

def resolveEvidence (refs : List RevisionRef) : Except WorkError (List EvidenceRecord) := do
  validateRefs refs
  refs.mapM fun r => do
    let e ← w.evidenceRecord env actor r.id
    ensure (e.revision = r.revision) .evidenceNotFound
    return e

def finding (id : Uuid) : Except WorkError Finding := do
  let f ← okOr (w.findings.find? fun f => f.id = id) .findingNotFound
  ensure (f.contextId = w.contextId ∧
    w.recordVisible env actor f.taskId f.attemptId ⟨f.id, f.revision⟩
      (·.findingRevisionRefs) = true)
    .findingNotFound
  let _ ← w.resolveEvidence env actor f.evidenceRevisionRefs
  return f

def decision (id : Uuid) : Except WorkError HumanDecision := do
  let d ← okOr (w.decisions.find? fun d => d.id = id) .findingNotFound
  ensure (d.contextId = w.contextId ∧
    w.recordVisible env actor d.taskId d.attemptId ⟨d.id, d.revision⟩
      (·.decisionRevisionRefs) = true)
    .findingNotFound
  let _ ← w.finding env actor d.findingId
  let _ ← w.resolveEvidence env actor d.evidenceRevisionRefs
  return d

/-- The record is of the item's own attempt, or of the submission it was given. -/
def recordInTask (item : WorkItem) (task attempt : Uuid) (r : RevisionRef)
    (member : HandoffSnapshot → List RevisionRef) : Bool :=
  (item.id = task && item.attemptId = attempt) || item.handoffSnapshotId.any fun id =>
    w.snapshots.any fun s => s.id = id && (member s).contains r

def listEvidence (taskId : Uuid) : Except WorkError (List EvidenceRecord) := do
  let _ ← w.detail env actor taskId
  let item ← w.item taskId
  (w.evidence.filter fun e => w.recordInTask item e.taskId e.attemptId ⟨e.id, e.revision⟩
    (·.evidenceRevisionRefs)).mapM fun e => w.evidenceRecord env actor e.id

def listFindings (taskId : Uuid) : Except WorkError (List Finding) := do
  let _ ← w.detail env actor taskId
  let item ← w.item taskId
  (w.findings.filter fun f => w.recordInTask item f.taskId f.attemptId ⟨f.id, f.revision⟩
    (·.findingRevisionRefs)).mapM fun f => w.finding env actor f.id

def listDecisions (findingId : Uuid) : Except WorkError (List HumanDecision) := do
  let _ ← w.finding env actor findingId
  return (w.decisions.filter fun d => d.findingId = findingId).filterMap fun d =>
    (w.decision env actor d.id).toOption

/-- Every piece of evidence is one of the task. -/
def evidenceInTask (item : WorkItem) (refs : List RevisionRef) : Except WorkError Unit :=
  refs.forM fun r => do
    let e ← w.evidenceRecord env actor r.id
    ensure (w.recordInTask item e.taskId e.attemptId r (·.evidenceRevisionRefs) = true)
      .evidenceNotFound

def validateSelection (task : Uuid) (ev findings decisions : List RevisionRef) : Except WorkError
    Unit := do
  validateRefs ev
  validateRefs findings
  validateRefs decisions
  ensure (ev.length + findings.length + decisions.length ≤ maxReferences) .validationFailed
  let item ← w.item task
  let _ ← w.resolveEvidence env actor ev
  w.evidenceInTask env actor item ev
  findings.forM fun r => do
    let f ← w.finding env actor r.id
    ensure (f.revision = r.revision ∧
      w.recordInTask item f.taskId f.attemptId r (·.findingRevisionRefs) = true) .findingNotFound
    ensure (∀ e ∈ f.evidenceRevisionRefs, e ∈ ev) .handoffNotReady
  decisions.forM fun r => do
    let d ← w.decision env actor r.id
    ensure (d.revision = r.revision ∧
      w.recordInTask item d.taskId d.attemptId r (·.decisionRevisionRefs) = true) .findingNotFound
    ensure (⟨d.findingId, d.findingRevision⟩ ∈ findings ∧ ∀ e ∈ d.evidenceRevisionRefs, e ∈ ev)
      .handoffNotReady

/-! ## Executions -/

def agentExecution (id : Uuid) : Except WorkError AgentExecution := do
  let e ← okOr (w.agentExecutions.find? fun e => e.id = id) .workItemNotFound
  let item ← w.item e.workItemId
  ensure (e.requestedBy = actor ∧ e.contextId = w.contextId ∧ e.attemptId = item.attemptId ∧
    item.actingAssignmentId = some e.requesterResponsibility ∧ w.canRead env actor item = true)
    .workItemNotFound
  return e

end Workflow

/-! ## Integrity -/

def maxGeneratedArtifacts : Nat := 2

def maxSuggestedActions : Nat := 4

def maxCandidateTitleBytes : Nat := 200

def maxRationaleBytes : Nat := 1024

def agentPrivateVisibility : String := "agent_execution_private"

inductive AgentReadTool where
  | documentRevision
  | documentVersionFiles
deriving DecidableEq

def allowedReadTools : List AgentReadTool := [.documentRevision, .documentVersionFiles]

def documentBindings : List ProviderPrincipalBinding := [⟨"document", "poc/poc-agent", "agent"⟩]

/-- What an executor is given. -/
structure AgentDispatchContext where
  execution : AgentExecution
  evidence : List EvidenceRecord
  allowedTools : List AgentReadTool
deriving DecidableEq

def AgentDispatchContext.validateScope (c : AgentDispatchContext) : Except WorkError Unit := do
  let e := c.execution
  boundedText e.purpose
  validateRefs e.evidenceRevisionRefs
  ensure (c.allowedTools = allowedReadTools ∧ e.attemptId ≠ nilUuid ∧ 0 ≤ e.taskRevision ∧
    0 ≤ e.effectiveContextRevision ∧ versionNum e.id = 7 ∧
    (contextFixtureForContext e.contextId).isSome = true ∧ e.requesterResponsibility ≠ nilUuid ∧
    e.executedBy = syntheticExecutor ∧ e.executorInvocationKind = "agent" ∧
    e.providerPrincipalBindings = documentBindings ∧ e.evidenceRevisionRefs ≠ [] ∧
    e.evidenceRevisionRefs.length ≤ maxAgentExecutions ∧
    c.evidence.length = e.evidenceRevisionRefs.length ∧
    ∀ pair ∈ c.evidence.zip e.evidenceRevisionRefs, pair.1.id = pair.2.id ∧
      pair.1.revision = pair.2.revision ∧ pair.1.contextId = e.contextId) .forbidden

/-- An earlier result, without outcomes of its own, used every selected source. -/
def usableSources (result : AgentResult) : List RevisionRef :=
  if result.sourceOutcomes = [] then result.evidenceRevisionRefs
  else (result.sourceOutcomes.filter (·.outcome.usable)).map (·.evidenceRevisionRef)

def citesUsable (result : AgentResult) (refs : List RevisionRef) : Bool :=
  refs ≠ [] && (validateRefs refs).toOption.isSome && refs.all (usableSources result).contains

def validCandidateTitle (title : String) : Except WorkError Unit :=
  ensure (¬ (isBlank title = true ∨ byteLen title > maxCandidateTitleBytes ∨
    title.toList.any isControl = true)) .validationFailed

def AgentExecution.inScope (e : AgentExecution) (contextId workItemId attemptId : Uuid) : Bool :=
  e.contextId = contextId && e.workItemId = workItemId && e.attemptId = attemptId

namespace Workflow

variable (time : TimeText) (w : Workflow)

/-! ## Executions -/

/-- The finding a result refers to is the one its execution recorded. -/
def resultFinding (e : AgentExecution) (result : AgentResult) (r : RevisionRef) (f : Finding) :
    Bool :=
  f.id = r.id && f.revision = r.revision && f.originExecutionId = some e.id &&
    f.author = syntheticExecutor &&
    (if result.sourceOutcomes = [] then f.evidenceRevisionRefs = e.evidenceRevisionRefs
      else f.evidenceRevisionRefs ≠ [] &&
        f.evidenceRevisionRefs.all (usableSources result).contains) &&
    f.taskId = e.workItemId && f.attemptId = e.attemptId

def checkResult (e : AgentExecution) (result : AgentResult) : Except WorkError Unit := do
  let outcomes := result.sourceOutcomes
  ensure (result.findingRevisionRefs.length ≤ 1 ∧
    (outcomes = [] → result.findingRevisionRefs.length = 1) ∧
    (outcomes ≠ [] → outcomes.map (·.evidenceRevisionRef) = e.evidenceRevisionRefs ∧
      usableSources result ≠ []) ∧
    result.evidenceRevisionRefs = e.evidenceRevisionRefs ∧ result.simulated = true ∧
    result.bodyAnalyzed = false ∧ (∀ o ∈ outcomes, o.outcome ≠ .analyzed) ∧ result.liveLlm = false ∧
    result.mcpWireExecuted = false) .integrityViolation
  ensure (∀ r ∈ result.findingRevisionRefs, w.findings.any (resultFinding e result r) = true)
    .integrityViolation

def checkExecution (e : AgentExecution) : Except WorkError Unit := do
  ensure ((w.executionsOf e.workItemId e.attemptId).length ≤ maxAgentExecutions ∧
    e.status.isActive = e.endedAt.isNone ∧ (e.status = .succeeded ↔ e.result.isSome = true))
    .integrityViolation
  let evidence ← e.evidenceRevisionRefs.mapM fun r =>
    okOr (w.evidence.find? fun record => record.id = r.id && record.revision = r.revision)
      .integrityViolation
  okOr (AgentDispatchContext.validateScope ⟨e, evidence, allowedReadTools⟩).toOption
    .integrityViolation
  match e.result with
  | none => return ()
  | some result => w.checkResult e result

/-- The finding of an execution is listed by its result. -/
def listedFinding (f : Finding) : Bool :=
  f.originExecutionId.all fun id => w.agentExecutions.any fun e =>
    e.id = id && e.status = .succeeded && e.result.any fun result =>
      result.findingRevisionRefs.contains ⟨f.id, f.revision⟩

def validateAgentIntegrity : Except WorkError Unit := do
  ensure ((w.agentExecutions.map (·.id)).Nodup ∧
    ((w.agentExecutions.filter (·.status.isActive)).map (·.workItemId)).Nodup) .integrityViolation
  w.agentExecutions.forM w.checkExecution
  ensure (∀ f ∈ w.findings, w.listedFinding f = true) .integrityViolation

/-! ## Candidates -/

def listingResult (executionId : Uuid) : Except WorkError (AgentExecution × AgentResult) := do
  let e ← okOr (w.agentExecutions.find? fun e => e.id = executionId && e.status = .succeeded)
    .integrityViolation
  let result ← okOr e.result .integrityViolation
  return (e, result)

def checkGenerated (g : GeneratedArtifact) : Except WorkError Unit := do
  let listing ← w.listingResult g.executionId
  let e := listing.1
  ensure (g.id ∈ listing.2.generatedArtifactIds ∧
    e.inScope g.contextId g.workItemId g.attemptId = true ∧ g.schemaId = textSchemaId ∧
    g.author = e.executedBy ∧ g.simulated = decide (e.executedBy = syntheticExecutor) ∧
    g.visibility = agentPrivateVisibility ∧ (validCandidateTitle g.title).toOption.isSome = true ∧
    (boundedText g.value.text).toOption.isSome = true ∧
    citesUsable listing.2 g.sourceRevisionRefs = true) .integrityViolation

def listedTarget (result : AgentResult) : ProposedAction → Bool
  | .reviewFinding r => result.findingRevisionRefs.contains r
  | .useGeneratedArtifact id => result.generatedArtifactIds.contains id

def checkSuggested (s : SuggestedAction) : Except WorkError Unit := do
  let listing ← w.listingResult s.executionId
  let e := listing.1
  ensure (listedTarget listing.2 s.action = true ∧ s.id ∈ listing.2.suggestedActionIds ∧
    e.inScope s.contextId s.workItemId s.attemptId = true ∧ s.author = e.executedBy ∧
    s.visibility = agentPrivateVisibility ∧ isBlank s.rationale = false ∧
    byteLen s.rationale ≤ maxRationaleBytes ∧
    citesUsable listing.2 s.supportingRevisionRefs = true) .integrityViolation

/-- A result lists exactly the candidates recorded for it. -/
def checkListed (e : AgentExecution) : Except WorkError Unit :=
  match e.result with
  | none => .ok ()
  | some result => ensure (
      result.generatedArtifactIds.length + result.suggestedActionIds.length =
        (w.generatedArtifacts.filter fun g => g.executionId = e.id).length +
          (w.suggestedActions.filter fun s => s.executionId = e.id).length ∧
      result.generatedArtifactIds.length ≤ maxGeneratedArtifacts ∧
      result.suggestedActionIds.length ≤ maxSuggestedActions) .integrityViolation

def validateCandidateIntegrity : Except WorkError Unit := do
  ensure (w.generatedArtifacts.map (·.id) ++ w.suggestedActions.map (·.id)).Nodup
    .integrityViolation
  w.generatedArtifacts.forM w.checkGenerated
  w.suggestedActions.forM w.checkSuggested
  w.agentExecutions.forM w.checkListed

/-! ## Tasks -/

def allItems : List WorkItem := w.currentItems ++ w.completedAttempts

def checkPlan (plan : ContextFixture) : Except WorkError Unit :=
  ensure (w.contextId = plan.contextId ∧ w.source.id = plan.sourceTaskId ∧
    w.definitionVersionId ∈ plan.acceptedDefinitions ∧
    (∀ item ∈ w.next, item.id = plan.nextTaskId ∧ item.stepId = plan.nextStepId) ∧
    ∀ item ∈ w.allItems, ∀ due ∈ item.dueAt, (time.parse due).isSome = true) .integrityViolation

def checkItems : Except WorkError Unit :=
  ensure ((∀ item ∈ w.allItems, item.workflowInstanceId = w.id ∧ item.attemptNumber ≠ 0 ∧
      0 ≤ item.revision ∧ item.assignee.isSome = item.actingAssignmentId.isSome) ∧
    (w.allItems.map (·.attemptId)).Nodup ∧
    (w.allItems.map fun item => (item.id, item.attemptNumber)).Nodup) .integrityViolation

def checkArchived (archived : WorkItem) : Except WorkError Unit := do
  let current ← okOr (w.item archived.id).toOption .integrityViolation
  ensure (archived.state = .completed ∧ archived.completedAt.isSome = true ∧
    archived.attemptNumber < current.attemptNumber ∧ archived.revision < current.revision)
    .integrityViolation

def openAssignments : List WorkAssignmentRecord :=
  w.assignments.filter fun record => record.endedAt = none

/-- An open period of responsibility is the one its attempt points to. -/
def checkOpen (record : WorkAssignmentRecord) : Except WorkError Unit := do
  let current ← okOr (w.currentItems.find? fun item => item.attemptId = record.attemptId)
    .integrityViolation
  ensure (current.id = record.taskId ∧ current.workAssignmentId = some record.id ∧
    current.assignee = some record.principal ∧
    current.actingAssignmentId = some record.actingAssignmentId) .integrityViolation

def validateIntegrity : Except WorkError Unit := do
  let plan ← w.plan
  w.checkPlan time plan
  w.checkItems
  w.completedAttempts.forM w.checkArchived
  ensure (w.openAssignments.map (·.attemptId)).Nodup .integrityViolation
  w.openAssignments.forM w.checkOpen
  w.validateAgentIntegrity
  w.validateCandidateIntegrity

/-- The first attempt as its fixture starts it. -/
def startItem (seededAt : Instant) (start : SourceStart) (item : WorkItem) : Except WorkError
    WorkItem :=
  match start with
  | .assignedToSales => .ok item
  | .readyDueInMinutes n => do
    let due ← formatInstant time (seededAt + minutes n)
    return { item with
      state := .ready
      assignee := none
      actingAssignmentId := none
      workAssignmentId := none
      dueAt := some due }

/-- A fresh instance of a fixture. -/
def fromFixture (fixture : ContextFixture) (documentId : Option Uuid) (seededAt : Instant) :
    Except WorkError Workflow :=
  let w := synthetic documentId
  if fixture.workflowId = Work.workflowId then .ok w
  else do
    let createdAt ← formatInstant time seededAt
    let source ← startItem time seededAt fixture.start { w.source with
      id := fixture.sourceTaskId
      workflowInstanceId := fixture.workflowId
      attemptId := fixture.sourceAttemptId
      createdAt }
    let w := { w with
      id := fixture.workflowId
      contextId := fixture.contextId
      definitionVersionId := fixture.definitionVersionId
      source }
    w.validateIntegrity time
    return w

end Workflow

end KnowledgePlatform.Work
