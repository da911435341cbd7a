import KnowledgePlatform.Work.Reading

/-! The commands of a workflow: who may issue them and what they change. -/

namespace KnowledgePlatform.Work

def maxFileBytes : Nat := 8 * 1024 * 1024

def maxFileNameBytes : Nat := 255

def maxMediaTypeBytes : Nat := 127

def workArtifactProviderId : String := "organization.work-artifacts"

def workItemPrivate : String := "work_item_private"

/-- Bidirectional and invisible format characters. -/
def disguising (c : Char) : Bool :=
  let n := c.toNat
  n = 0x061C || (0x200B ≤ n && n ≤ 0x200F) || (0x202A ≤ n && n ≤ 0x202E) ||
    (0x2066 ≤ n && n ≤ 0x2069) || n = 0xFEFF

def validFileName (name : String) : Bool :=
  name ≠ "" && byteLen name ≤ maxFileNameBytes && name ≠ "." && name ≠ ".." &&
    !name.toList.any fun c => c = '/' || c = '\\' || isControl c || disguising c

def isMediaToken (part : List Char) : Bool :=
  part ≠ [] && part.all fun c => c.isAlphanum || "!#$&-^_.+".toList.contains c

def validMediaType (value : String) : Bool :=
  byteLen value ≤ maxMediaTypeBytes && value.toList.contains '/' &&
    isMediaToken (value.toList.takeWhile (· ≠ '/')) &&
    isMediaToken ((value.toList.dropWhile (· ≠ '/')).drop 1)

def validSha256 (value : String) : Bool :=
  byteLen value = 64 && value.toList.all fun c => c.isDigit || ('a' ≤ c && c ≤ 'f')

namespace Workflow

variable (w : Workflow) (env : Env) (actor : VerifiedActor)

/-! ## Authorization -/

/-- Commands on an assigned attempt use exactly its recorded responsibility. -/
def authorizeAssigned (item : WorkItem) (acting : Uuid) (action : PolicyAction) :
    Except WorkError Unit := do
  ensure (w.canRead env actor item = true) .workItemNotFound
  ensure (item.actingAssignmentId = some acting ∧
    (w.stepResponsibility env actor acting item action).isSome = true) .forbidden

def hidden (item : WorkItem) : WorkError :=
  if w.visible env actor item then .forbidden else .workItemNotFound

/-- The artifact is readable and of this task. -/
def authorizeArtifact (item : WorkItem) (id : Uuid) : Except WorkError Unit := do
  let artifact ← w.artifact env actor id
  ensure (artifact.taskId = item.id) .workArtifactNotFound

def authorizeCommand (command : Command) : Except WorkError Unit := do
  let context := command.context
  ensure (versionNum context.operationId = 7 ∧ 0 ≤ context.expectedRevision) .validationFailed
  let acting := context.actingAssignmentId
  let responsibility ← okOr (w.policy.responsibility env.time actor acting (w.evaluatedAt env))
    .forbidden
  let item ← w.item command.taskId
  let action := command.requiredAction
  match command with
  | .claim .. =>
    ensure (stepRole item = some responsibility.roleId ∧ responsibility.allows action = true)
      (w.hidden env actor item)
  | .assign _ _ _ assignee .. => do
    ensure (responsibility.allows action = true) (w.hidden env actor item)
    -- Management never grants its own caller a task.
    ensure (assignee ≠ actor) .forbidden
  | .saveDraft _ artifactId .. => do
    w.authorizeAssigned env actor item acting action
    match artifactId with
    | none => return ()
    | some id => w.authorizeArtifact env actor item id
  | .writeArtifactContent _ artifactId .. | .discardArtifact _ artifactId .. => do
    w.authorizeAssigned env actor item acting action
    w.authorizeArtifact env actor item artifactId
  | _ => w.authorizeAssigned env actor item acting action

/-! ## Changes of one task -/

/-- Changes the task `id`, or fails if there is none. -/
def updateItem (id : Uuid) (missing : WorkError) (f : WorkItem → Except WorkError WorkItem) :
    Except WorkError Workflow :=
  if id = w.source.id then do
    let source ← f w.source
    return { w with source }
  else do
    let next ← okOr w.next missing
    let changed ← f next
    return { w with next := some changed }

def bumpRevision (item : WorkItem) : Except WorkError WorkItem := do
  let revision ← nextRevision item.revision
  return { item with revision }

def nextRecordRevision (task : Uuid) : Except WorkError Workflow :=
  w.updateItem task .workItemNotFound bumpRevision

def bumpSource : Except WorkError Workflow := do
  let source ← bumpRevision w.source
  return { w with source }

def log (kind now : String) : Workflow := { w with history := w.history ++ [⟨kind, now⟩] }

/-- A refusal, or the changed workflow with the result. -/
abbrev Mutated : Type := Except WorkError (Workflow × MutationResult)

/-! ## Hold, resume and completion -/

def pause (taskId expectedAttemptId definitionActionId : Uuid) (resume : Bool) (now : String) :
    Mutated := do
  let item ← w.item taskId
  ensure (item.attemptId = expectedAttemptId) .revisionConflict
  ensure (w.pauseAction env actor item resume = some definitionActionId) .handoffNotReady
  let w ← w.updateItem taskId .integrityViolation fun item =>
    bumpRevision { item with state := if resume then .active else .held }
  let w := w.log (if resume then "resumed" else "held") now
  let item ← w.item taskId
  let task := w.summary env actor item
  return (w, if resume then .resumed task else .held task)

def complete (taskId expectedAttemptId definitionActionId : Uuid) (now : String) : Mutated := do
  let item ← w.item taskId
  ensure (item.attemptId = expectedAttemptId) .revisionConflict
  ensure (w.completionAction env actor item = some definitionActionId) .handoffNotReady
  let next ← okOr w.next .integrityViolation
  let next ← bumpRevision { next with state := .completed, completedAt := some now }
  let w := { w with next := some next }.log "completed" now
  let item ← w.item taskId
  return (w, .completed (w.summary env actor item))

/-! ## Agent commands -/

def requestAgentExecution (taskId : Uuid) (context : CommandContext) (expectedAttemptId : Uuid)
    (purpose : String) (refs : List RevisionRef) (now : String) : Mutated := do
  let item ← w.item taskId
  boundedText purpose
  ensure (item.state = .active) .handoffNotReady
  ensure (item.attemptId = expectedAttemptId) .revisionConflict
  ensure (refs ≠ [] ∧ refs.length ≤ maxAgentExecutions ∧
    (w.executionsOf taskId item.attemptId).length < maxAgentExecutions) .validationFailed
  ensure (w.hasActiveExecution taskId = false) .workAssignmentConflict
  w.validateSelection env actor taskId refs [] []
  let w ← w.nextRecordRevision taskId
  let revision ← nextRevision w.revision
  let changed ← w.item taskId
  let execution : AgentExecution := {
    id := context.operationId
    contextId := w.contextId
    workItemId := taskId
    attemptId := item.attemptId
    requestedBy := actor
    requesterResponsibility := context.actingAssignmentId
    executedBy := syntheticExecutor
    executorInvocationKind := "agent"
    providerPrincipalBindings := documentBindings
    effectiveContextRevision := revision
    taskRevision := changed.revision
    purpose
    evidenceRevisionRefs := refs
    status := .queued
    startedAt := now
    endedAt := none
    result := none
    failureCode := none }
  let w := { w with agentExecutions := w.agentExecutions ++ [execution] }
  let item ← w.item taskId
  return (w, .agentExecutionRequested (w.summary env actor item) execution)

/-- Changes the first execution `id`. -/
def updateExecution (id : Uuid) (f : AgentExecution → AgentExecution) : Workflow :=
  { w with agentExecutions := updateFirst (fun e => e.id = id) f w.agentExecutions }

def cancelActive (taskId executionId : Uuid) (now : String) : Except WorkError Workflow := do
  let w ← w.nextRecordRevision taskId
  let item ← w.item taskId
  let _ ← okOr (w.agentExecutions.find? fun e => e.id = executionId) .integrityViolation
  return w.updateExecution executionId fun e =>
    { e with status := .cancelled, endedAt := some now, taskRevision := item.revision }

/-- An execution that has ended stays as it is. -/
def cancelIfActive (e : AgentExecution) (taskId : Uuid) (now : String) :
    Except WorkError Workflow :=
  if e.status.isActive then w.cancelActive taskId e.id now else .ok w

def cancelAgentExecution (taskId expectedAttemptId executionId : Uuid) (now : String) :
    Mutated := do
  let item ← w.item taskId
  let e ← w.agentExecution env actor executionId
  ensure (item.attemptId = expectedAttemptId ∧ e.workItemId = taskId) .revisionConflict
  let w ← w.cancelIfActive e taskId now
  let item ← w.item taskId
  let execution ← w.agentExecution env actor executionId
  return (w, .agentExecutionCancelled (w.summary env actor item) execution)

def applyAgent (command : Command) (now : String) : Mutated :=
  match command with
  | .requestAgentExecution taskId context expectedAttemptId purpose refs =>
    w.requestAgentExecution env actor taskId context expectedAttemptId purpose refs now
  | .cancelAgentExecution taskId _ expectedAttemptId executionId =>
    w.cancelAgentExecution env actor taskId expectedAttemptId executionId now
  | _ => .error .integrityViolation

/-! ## Evidence, findings and decisions -/

def checkSupersededFinding (item : WorkItem) (taskId : Uuid) : Option Uuid → Except WorkError Unit
  | none => .ok ()
  | some id => do
    let f ← w.finding env actor id
    ensure (f.taskId = taskId ∧ f.attemptId = item.attemptId) .findingNotFound

def createFinding (taskId : Uuid) (claim : String) (refs : List RevisionRef)
    (supersedesFindingId originExecutionId : Option Uuid) (now : String) :
    Except WorkError Finding := do
  let item ← w.item taskId
  boundedText claim
  ensure (refs ≠ []) .validationFailed
  let _ ← w.resolveEvidence env actor refs
  w.evidenceInTask env actor item refs
  w.checkSupersededFinding env actor item taskId supersedesFindingId
  let known ← w.listFindings env actor taskId
  ensure (known.length < maxVisibleRecords) .validationFailed
  let acting ← okOr item.actingAssignmentId .integrityViolation
  return {
    originExecutionId
    id := env.draw 0
    revision := 1
    contextId := w.contextId
    taskId
    attemptId := item.attemptId
    uncertainty := []
    conflicts := []
    author := if originExecutionId.isSome then syntheticExecutor else actor.principalId
    actingAssignmentId := acting
    claim
    evidenceRevisionRefs := refs
    supersedesFindingId
    visibility := workItemPrivate
    createdAt := now }

def registerEvidence (item : WorkItem) (taskId acting : Uuid) (source : EvidenceSource)
    (relevantLocation now : String) : Mutated := do
  boundedText relevantLocation
  ensure (source.sourceRef.providerId = "document" ∧
    source.authoritativeLocator.kind = "contentItem" ∧
    ∃ i ∈ w.inputResources, i.kind = "document" ∧ i.documentId = source.sourceRef.resourceId)
    .evidenceNotFound
  let known ← w.listEvidence env actor taskId
  ensure (known.length < maxVisibleRecords) .validationFailed
  let evidence : EvidenceRecord := {
    id := env.draw 0
    revision := 1
    contextId := w.contextId
    taskId
    attemptId := item.attemptId
    createdBy := actor.principalId
    actingAssignmentId := acting
    origin := "human"
    source
    uncertainty := []
    conflictReferences := []
    relevantLocationVerified := false
    policyDisposition := "reference_only"
    relevantLocation
    fragmentOmissionReason := "not_retained"
    coverage := "unknown"
    retrievedAt := now
    recordedAt := now
    providerCheckedAt := now
    visibility := workItemPrivate }
  let w ← { w with evidence := w.evidence ++ [evidence] }.nextRecordRevision taskId
  let item ← w.item taskId
  return (w, .evidenceRegistered (w.summary env actor item) evidence)

def registerFinding (taskId : Uuid) (claim : String) (refs : List RevisionRef)
    (supersedesFindingId : Option Uuid) (now : String) : Mutated := do
  let finding ← w.createFinding env actor taskId claim refs supersedesFindingId none now
  let w ← { w with findings := w.findings ++ [finding] }.nextRecordRevision taskId
  let item ← w.item taskId
  return (w, .findingRegistered (w.summary env actor item) finding)

def boundedIfSome : Option String → Except WorkError Unit
  | none => .ok ()
  | some value => boundedText value

/-- A modified decision adopts a claim, and no other does. -/
def checkAdopted (decision : DecisionKind) (adoptedClaim reason : Option String) :
    Except WorkError Unit := do
  ensure (decision = .modified → adoptedClaim.isSome = true) .validationFailed
  boundedIfSome adoptedClaim
  ensure (decision ≠ .modified → adoptedClaim = none) .validationFailed
  boundedIfSome reason

def checkSupersededDecision (item : WorkItem) (taskId findingId : Uuid) (findingRevision : Int) :
    Option Uuid → Except WorkError Unit
  | none => .ok ()
  | some id => do
    let d ← w.decision env actor id
    ensure (d.taskId = taskId ∧ d.attemptId = item.attemptId ∧ d.findingId = findingId ∧
      d.findingRevision = findingRevision) .findingNotFound

def recordDecision (item : WorkItem) (taskId acting findingId : Uuid) (findingRevision : Int)
    (decision : DecisionKind) (adoptedClaim reason : Option String) (refs : List RevisionRef)
    (supersedesDecisionId : Option Uuid) (now : String) : Mutated := do
  let f ← w.finding env actor findingId
  ensure (f.revision = findingRevision ∧ w.recordInTask item f.taskId f.attemptId ⟨f.id, f.revision⟩
    (·.findingRevisionRefs) = true) .findingNotFound
  checkAdopted decision adoptedClaim reason
  let _ ← w.resolveEvidence env actor refs
  w.evidenceInTask env actor item refs
  w.checkSupersededDecision env actor item taskId findingId findingRevision supersedesDecisionId
  ensure ((w.decisions.filter fun d => d.attemptId = item.attemptId).length < maxVisibleRecords)
    .validationFailed
  let known ← w.listDecisions env actor findingId
  ensure (known.length < maxVisibleRecords) .validationFailed
  let d : HumanDecision := {
    id := env.draw 0
    revision := 1
    contextId := w.contextId
    taskId
    attemptId := item.attemptId
    findingId
    findingRevision
    decision
    adoptedClaim
    reason
    evidenceRevisionRefs := refs
    humanPrincipal := actor.principalId
    actingAssignmentId := acting
    createdAt := now
    supersedesDecisionId
    visibility := workItemPrivate }
  let w ← { w with decisions := w.decisions ++ [d] }.nextRecordRevision taskId
  let item ← w.item taskId
  return (w, .decisionRecorded (w.summary env actor item) d)

def applyEvidence (command : Command) (now : String) : Mutated := do
  let taskId := command.taskId
  let acting := command.context.actingAssignmentId
  let item ← w.item taskId
  ensure (item.state = .active) .handoffNotReady
  match command with
  | .registerEvidence _ _ expectedAttemptId source relevantLocation => do
    ensure (expectedAttemptId = item.attemptId) .revisionConflict
    w.registerEvidence env actor item taskId acting source relevantLocation now
  | .registerFinding _ _ expectedAttemptId claim refs supersedesFindingId => do
    ensure (expectedAttemptId = item.attemptId) .revisionConflict
    w.registerFinding env actor taskId claim refs supersedesFindingId now
  | .recordDecision _ _ expectedAttemptId findingId findingRevision decision adoptedClaim
      reason refs supersedesDecisionId => do
    ensure (expectedAttemptId = item.attemptId) .revisionConflict
    w.recordDecision env actor item taskId acting findingId findingRevision decision adoptedClaim
      reason refs supersedesDecisionId now
  | _ => .error .integrityViolation

/-! ## Return -/

/-- The attempt that a return opens. -/
def reopenedSource (instruction : ReturnInstruction) (attemptNumber : Nat) (revision : Int)
    (now : String) : WorkItem where
  returnInstructionId := some instruction.id
  dueAt := none
  id := w.source.id
  workflowInstanceId := w.id
  stepId := w.source.stepId
  workTypeId := w.source.workTypeId
  attemptNumber
  workAssignmentId := none
  actingAssignmentId := none
  createdAt := now
  completedAt := none
  attemptId := instruction.targetAttemptId
  revision
  state := .ready
  assignee := none
  handoffSnapshotId := some instruction.previousSubmissionId

def applyReturn
    (taskId acting expectedAttemptId previousSubmissionId targetTaskId transitionId : Uuid)
    (reason now : String) : Mutated := do
  let item ← w.item taskId
  ensure (item.attemptId = expectedAttemptId) .revisionConflict
  boundedText reason
  let permitted ← okOr (w.returnTransition env actor item) .handoffNotReady
  ensure (permitted.transitionId = transitionId ∧ permitted.targetTaskId = targetTaskId ∧
    permitted.previousSubmissionId = previousSubmissionId) .handoffNotReady
  let instruction : ReturnInstruction := {
    id := env.draw 1
    workflowId := w.id
    contextId := w.contextId
    sourceTaskId := taskId
    sourceAttemptId := item.attemptId
    targetTaskId
    targetAttemptId := env.draw 0
    previousSubmissionId
    transitionId
    reason
    returnedBy := actor.principalId
    actingAssignmentId := acting
    createdAt := now }
  let attemptNumber ← nextNumber w.source.attemptNumber
  let revision ← nextRevision w.source.revision
  let source := w.reopenedSource instruction attemptNumber revision now
  let office ← okOr w.next .integrityViolation
  let office ← bumpRevision { office with state := .completed, completedAt := some now }
  let office := { office with returnInstructionId := some instruction.id }
  let w := { w with
    completedAttempts := w.completedAttempts ++ [w.source]
    source
    next := some office
    returnInstructions := w.returnInstructions ++ [instruction] }.log "returned" now
  let item ← w.item taskId
  return (w, .returned (w.summary env actor item) instruction (w.summary env actor w.source))

/-! ## Drafts and files -/

/-- Drafts are edited only on the active source attempt. -/
def editableSource (taskId : Uuid) : Except WorkError Unit :=
  ensure (taskId = w.source.id ∧ w.source.state = .active) .handoffNotReady

def attemptArtifactCount : Nat :=
  (w.artifacts.filter fun value => value.attemptId = w.source.attemptId).length

def addArtifact (artifact : WorkingArtifact) : Workflow :=
  { w with artifacts := w.artifacts ++ [artifact] }

/-- Changes the first artifact that the test accepts. -/
def replaceArtifact (accepts : WorkingArtifact → Bool) (artifact : WorkingArtifact) : Workflow :=
  { w with artifacts := updateFirst accepts (fun _ => artifact) w.artifacts }

/-- The workflow with the text in the artifact named, or in a new one. -/
def draftArtifact (taskId : Uuid) (value : TextValue) :
    Option Uuid → Except WorkError (Workflow × WorkingArtifact)
  | some id => do
    let artifact ← okOr (w.artifacts.find? fun artifact => artifact.id = id) .workArtifactNotFound
    ensure (artifact.schemaId = textSchemaId) .validationFailed
    let revision ← nextRevision artifact.revision
    let artifact := { artifact with revision, value := some value }
    return (w.replaceArtifact (fun artifact => artifact.id = id) artifact, artifact)
  | none => do
    ensure (w.attemptArtifactCount < maxArtifacts) .validationFailed
    let artifact : WorkingArtifact := {
      id := env.draw 0
      taskId
      attemptId := w.source.attemptId
      revision := 0
      schemaId := textSchemaId
      value := some value
      visibility := workItemPrivate
      file := none
      derivedFrom := none }
    return (w.addArtifact artifact, artifact)

def saveDraft (taskId : Uuid) (artifactId : Option Uuid) (value : TextValue) : Mutated := do
  w.editableSource taskId
  boundedText value.text
  let saved ← w.draftArtifact env taskId value artifactId
  let w ← saved.1.bumpSource
  return (w, .draftSaved (w.summary env actor w.source) saved.2)

def createFileArtifact (taskId : Uuid) (fileName mediaType : String) : Mutated := do
  w.editableSource taskId
  ensure (validFileName fileName = true ∧ validMediaType mediaType = true) .validationFailed
  ensure (w.attemptArtifactCount < maxArtifacts) .validationFailed
  let artifact : WorkingArtifact := {
    id := env.draw 0
    taskId
    attemptId := w.source.attemptId
    revision := 0
    schemaId := fileSchemaId
    value := none
    visibility := workItemPrivate
    file := some ⟨fileName, mediaType, none⟩
    derivedFrom := none }
  let w ← (w.addArtifact artifact).bumpSource
  return (w, .artifactCreated (w.summary env actor w.source) artifact)

def isAttemptArtifact (artifactId : Uuid) (value : WorkingArtifact) : Bool :=
  decide (value.id = artifactId ∧ value.attemptId = w.source.attemptId)

def writeArtifactContent (taskId artifactId : Uuid) (context : CommandContext)
    (expectedArtifactRevision : Int) (generation : GenerationInput) (now : String) : Mutated := do
  w.editableSource taskId
  ensure (generation.id = context.operationId ∧ generation.sizeBytes ≠ 0 ∧
    generation.sizeBytes ≤ maxFileBytes ∧ validSha256 generation.sha256 = true) .validationFailed
  let accepts := w.isAttemptArtifact artifactId
  let artifact ← okOr (w.artifacts.find? accepts) .workArtifactNotFound
  ensure (artifact.revision = expectedArtifactRevision) .revisionConflict
  let file ← okOr artifact.file .validationFailed
  let stored : FileGeneration :=
    ⟨generation.id, generation.sizeBytes, generation.sha256, now, workArtifactProviderId⟩
  let revision ← nextRevision artifact.revision
  let artifact := { artifact with file := some { file with generation := some stored }, revision }
  let w ← (w.replaceArtifact accepts artifact).bumpSource
  return (w, .artifactContentWritten (w.summary env actor w.source) artifact)

def discardArtifact (taskId artifactId : Uuid) (expectedArtifactRevision : Int) : Mutated := do
  w.editableSource taskId
  let accepts := w.isAttemptArtifact artifactId
  let artifact ← okOr (w.artifacts.find? accepts) .workArtifactNotFound
  ensure (artifact.revision = expectedArtifactRevision) .revisionConflict
  let w ← { w with artifacts := w.artifacts.eraseP accepts }.bumpSource
  return (w, .artifactDiscarded (w.summary env actor w.source) artifactId)

/-- A private copy of what was submitted; the stored generation is shared. -/
def importArtifact (taskId attempt : Uuid) (snapshot : HandoffSnapshot)
    (pinned : PinnedArtifact × Nat) : WorkingArtifact where
  id := env.draw pinned.2
  taskId
  attemptId := attempt
  revision := 0
  schemaId := pinned.1.schemaId
  value := pinned.1.value
  visibility := workItemPrivate
  file := pinned.1.file
  derivedFrom := some ⟨snapshot.id, pinned.1.artifactId⟩

def importSubmission (taskId expectedAttemptId snapshotId : Uuid) : Mutated := do
  w.editableSource taskId
  ensure (w.source.attemptId = expectedAttemptId) .revisionConflict
  ensure (w.source.returnInstructionId.isSome = true) .handoffNotReady
  let snapshot ← w.snapshot env actor snapshotId
  ensure (w.source.handoffSnapshotId = some snapshot.id ∧ snapshot.sourceTaskId = w.source.id)
    .workArtifactNotFound
  let attempt := w.source.attemptId
  ensure ((¬ ∃ value ∈ w.artifacts, value.attemptId = attempt ∧
      (value.derivedFrom.any fun origin => origin.snapshotId = snapshot.id) = true) ∧
    w.attemptArtifactCount + snapshot.artifacts.length ≤ maxArtifacts) .validationFailed
  let imported := snapshot.artifacts.zipIdx.map (importArtifact env taskId attempt snapshot)
  let w ← { w with artifacts := w.artifacts ++ imported }.bumpSource
  return (w, .submissionImported (w.summary env actor w.source) imported)

def applyFiles (command : Command) (now : String) : Mutated :=
  match command with
  | .createFileArtifact taskId _ fileName mediaType =>
    w.createFileArtifact env actor taskId fileName mediaType
  | .writeArtifactContent taskId artifactId context expectedArtifactRevision generation =>
    w.writeArtifactContent env actor taskId artifactId context expectedArtifactRevision
      generation now
  | .discardArtifact taskId artifactId _ expectedArtifactRevision =>
    w.discardArtifact env actor taskId artifactId expectedArtifactRevision
  | .importSubmission taskId _ expectedAttemptId snapshotId =>
    w.importSubmission env actor taskId expectedAttemptId snapshotId
  | _ => .error .integrityViolation

/-! ## Claim and assignment -/

def isOpenPeriod (item : WorkItem) (record : WorkAssignmentRecord) : Bool :=
  decide (some record.id = item.workAssignmentId ∧ record.endedAt = none)

def endPeriod (now : String) (record : WorkAssignmentRecord) : WorkAssignmentRecord :=
  { record with endedAt := some now, endedBy := some actor }

/-- The new assignee of an attempt, under the record of its period. -/
def assignTo (record : WorkAssignmentRecord) (state : TaskState) (item : WorkItem) :
    Except WorkError WorkItem :=
  bumpRevision { item with
    state
    assignee := some record.principal
    workAssignmentId := some record.id
    actingAssignmentId := some record.actingAssignmentId }

def sourceOrNext (taskId : Uuid) : Except WorkError WorkItem :=
  if taskId = w.source.id then .ok w.source else okOr w.next .workItemNotFound

def claim (taskId : Uuid) (context : CommandContext) (now : String) : Mutated := do
  let item ← w.sourceOrNext taskId
  ensure (item.state = .ready ∧ item.assignee = none) .workAssignmentConflict
  let record : WorkAssignmentRecord := {
    id := env.draw 0
    taskId := item.id
    attemptId := item.attemptId
    principal := actor
    actingAssignmentId := context.actingAssignmentId
    assignedBy := none
    managerAssignmentId := none
    reason := none
    startedAt := now
    endedAt := none
    endedBy := none }
  let w ← w.updateItem taskId .workItemNotFound (assignTo record .active)
  let w := { w with assignments := w.assignments ++ [record] }
  let item ← w.item taskId
  return (w.log "claimed" now, .claimed (w.summary env actor item))

/-- The assignee's responsibility for the step is still in effect. -/
def assigneeEffective (item : WorkItem) : Bool :=
  match item.assignee, item.actingAssignmentId with
  | some principal, some id => (w.stepResponsibility env principal id item .workRead).isSome
  | _, _ => false

def assign (taskId : Uuid) (context : CommandContext) (expectedAttemptId : Uuid)
    (assignee : VerifiedActor) (assigneeResponsibilityId : Uuid) (reason now : String) :
    Mutated := do
  boundedReason reason
  let item ← w.item taskId
  ensure (item.attemptId = expectedAttemptId) .revisionConflict
  ensure (¬ (w.assigneeEffective env item = true ∧ maxAssignmentsPerAttempt ≤
    (w.assignments.filter fun record => record.attemptId = item.attemptId).length))
      .validationFailed
  ensure (item.state ≠ .completed) .handoffNotReady
  ensure
    ((w.stepResponsibility env assignee assigneeResponsibilityId item .workClaim).isSome = true)
    .validationFailed
  ensure (¬ (item.assignee = some assignee ∧
    item.actingAssignmentId = some assigneeResponsibilityId)) .validationFailed
  let record : WorkAssignmentRecord := {
    id := env.draw 0
    taskId := item.id
    attemptId := item.attemptId
    principal := assignee
    actingAssignmentId := assigneeResponsibilityId
    assignedBy := some actor
    managerAssignmentId := some context.actingAssignmentId
    reason := some reason
    startedAt := now
    endedAt := none
    endedBy := none }
  -- The earlier period ends here; one without a record has nothing to end.
  let ended := updateFirst (isOpenPeriod item) (endPeriod actor now) w.assignments
  let w ← { w with assignments := ended }.updateItem taskId .workItemNotFound fun item =>
    assignTo record (if item.state = TaskState.ready then .active else item.state) item
  let w := { w with assignments := w.assignments ++ [record] }.log "assigned" now
  let item ← w.item taskId
  return (w, .assigned (w.summary env actor item) record)

/-! ## Submission -/

/-- A text draft has a text; a file has a generation that the server verified. -/
def checkPinned (artifact : WorkingArtifact) : Except WorkError Unit :=
  if artifact.schemaId = textSchemaId ∧ artifact.value.isSome = true ∧
    artifact.file = none then .ok ()
  else if artifact.schemaId = fileSchemaId ∧ artifact.value = none then do
    let generation ← okOr (artifact.file.bind (·.generation)) .handoffNotReady
    ensure (w.generationVerified generation.id = true) .workArtifactUnavailable
  else .error .handoffNotReady

def pinArtifact (selected : ArtifactSelection) : Except WorkError PinnedArtifact := do
  let artifact ← w.artifact env actor selected.artifactId
  ensure (artifact.revision = selected.revision) .revisionConflict
  ensure (artifact.taskId = w.source.id ∧ artifact.attemptId = w.source.attemptId) .handoffNotReady
  w.checkPinned artifact
  return ⟨artifact.id, artifact.revision, artifact.schemaId, artifact.value, artifact.file⟩

/-- Pins the selected artifacts one after the other; none may be selected twice. -/
def pinArtifacts : List Uuid → List ArtifactSelection → Except WorkError (List PinnedArtifact)
  | _, [] => .ok []
  | seen, selected :: rest => do
    ensure (selected.artifactId ∉ seen) .validationFailed
    let pinned ← w.pinArtifact env actor selected
    let later ← pinArtifacts (selected.artifactId :: seen) rest
    return pinned :: later

/-- The number, revision and identifier of the attempt that receives a submission, and the attempts
archived for it. -/
structure NextAttempt where
  attemptNumber : Nat
  revision : Int
  attemptId : Uuid
  completedAttempts : List WorkItem

def nextAttempt (plan : ContextFixture) : Except WorkError NextAttempt :=
  match w.next with
  | some previous => do
    let attemptNumber ← nextNumber previous.attemptNumber
    let revision ← nextRevision previous.revision
    return ⟨attemptNumber, revision, env.draw 1, w.completedAttempts ++ [previous]⟩
  | none => .ok ⟨1, 0, plan.nextAttemptId, w.completedAttempts⟩

/-- The attempt that receives a submission. -/
def receivingItem (plan : ContextFixture) (snapshot : HandoffSnapshot) (attempt : NextAttempt)
    (now : String) : WorkItem where
  returnInstructionId := w.source.returnInstructionId
  dueAt := none
  id := plan.nextTaskId
  workflowInstanceId := w.id
  stepId := plan.nextStepId
  workTypeId := plan.nextWorkTypeId
  attemptNumber := attempt.attemptNumber
  workAssignmentId := none
  actingAssignmentId := none
  createdAt := now
  completedAt := none
  attemptId := attempt.attemptId
  revision := attempt.revision
  state := .ready
  assignee := none
  handoffSnapshotId := some snapshot.id

/-- A count that fits 32 bits, plus one. -/
def nextSubmissionNumber (n : Nat) : Except WorkError Nat := do
  ensure (n < 2 ^ 32) .integrityViolation
  nextNumber n

/-- The snapshot of a submission, before the records selected with it. -/
def newSnapshot (plan : ContextFixture) (acting : Uuid) (submissionNumber : Nat)
    (pinned : List PinnedArtifact) (now : String) : HandoffSnapshot where
  evidenceRevisionRefs := []
  findingRevisionRefs := []
  decisionRevisionRefs := []
  previousSubmissionId := w.source.returnInstructionId.bind fun _ => w.source.handoffSnapshotId
  returnInstructionId := w.source.returnInstructionId
  id := env.draw 0
  workflowId := w.id
  contextId := w.contextId
  submissionNumber
  submittedBy := actor.principalId
  actingAssignmentId := acting
  sourceTaskId := w.source.id
  sourceAttemptId := w.source.attemptId
  targetTaskId := plan.nextTaskId
  createdAt := now
  artifacts := pinned

def submit (taskId acting : Uuid) (artifacts : List ArtifactSelection)
    (expectedAttemptId : Option Uuid) (evidenceRefs findingRefs decisionRefs : List RevisionRef)
    (now : String) : Mutated := do
  ensure ((expectedAttemptId.all fun id => id = w.source.attemptId) = true) .revisionConflict
  w.validateSelection env actor taskId evidenceRefs findingRefs decisionRefs
  ensure (taskId = w.source.id ∧ w.source.state = .active ∧
    (∀ item ∈ w.next, item.state = .completed) ∧ (w.next.isSome = true → w.returnable = true))
    .handoffNotReady
  ensure (artifacts ≠ [] ∧ artifacts.length ≤ maxArtifacts) .handoffNotReady
  let pinned ← w.pinArtifacts env actor [] artifacts
  let plan ← w.plan
  let submissionNumber ← nextSubmissionNumber w.snapshots.length
  let snapshot := { w.newSnapshot env actor plan acting submissionNumber pinned now with
    evidenceRevisionRefs := evidenceRefs
    findingRevisionRefs := findingRefs
    decisionRevisionRefs := decisionRefs }
  let source ← bumpRevision { w.source with state := .completed, completedAt := some now }
  let source := { source with handoffSnapshotId := some snapshot.id }
  let attempt ← w.nextAttempt env plan
  let next := w.receivingItem plan snapshot attempt now
  -- The receiving task is summarised before it is stored.
  let w := { w with source, completedAttempts := attempt.completedAttempts }
  let nextTask := w.summary env actor next
  let w := { w with next := some next, snapshots := w.snapshots ++ [snapshot] }.log "submitted" now
  return (w, .submitted (w.summary env actor w.source) snapshot nextTask)

/-! ## One command -/

def applyValidated (command : Command) (now : String) : Mutated :=
  match command with
  | .hold taskId _ expectedAttemptId definitionActionId =>
    w.pause env actor taskId expectedAttemptId definitionActionId false now
  | .resume taskId _ expectedAttemptId definitionActionId =>
    w.pause env actor taskId expectedAttemptId definitionActionId true now
  | .complete taskId _ expectedAttemptId definitionActionId =>
    w.complete env actor taskId expectedAttemptId definitionActionId now
  | .requestAgentExecution .. | .cancelAgentExecution .. => w.applyAgent env actor command now
  | .registerEvidence .. | .registerFinding .. | .recordDecision .. =>
    w.applyEvidence env actor command now
  | .«return» taskId context expectedAttemptId previousSubmissionId targetTaskId transitionId
    reason =>
    w.applyReturn env actor taskId context.actingAssignmentId expectedAttemptId previousSubmissionId
      targetTaskId transitionId reason now
  | .createFileArtifact .. | .writeArtifactContent ..
  | .discardArtifact .. | .importSubmission .. =>
    w.applyFiles env actor command now
  | .saveDraft taskId artifactId _ value => w.saveDraft env actor taskId artifactId value
  | .claim taskId context => w.claim env actor taskId context now
  | .assign taskId context expectedAttemptId assignee assigneeResponsibilityId reason =>
    w.assign env actor taskId context expectedAttemptId assignee assigneeResponsibilityId reason now
  | .submit taskId context artifacts expectedAttemptId evidenceRefs findingRefs decisionRefs =>
    w.submit env actor taskId context.actingAssignmentId artifacts expectedAttemptId evidenceRefs
      findingRefs decisionRefs now

/-- A period of responsibility ends with its attempt. -/
def closeFinishedAssignments (now : String) : Workflow :=
  let openAttempts := (w.currentItems.filter fun item => item.state ≠ .completed).map (·.attemptId)
  { w with assignments := w.assignments.map fun record =>
      if record.endedAt = none ∧ record.attemptId ∉ openAttempts then
        { record with endedAt := some now }
      else record }

/-- The context an active execution was given has moved. -/
def isStale (e : AgentExecution) : Bool :=
  e.status.isActive && (e.effectiveContextRevision ≠ w.revision ||
    (w.item e.workItemId).toOption.all fun item =>
      item.attemptId ≠ e.attemptId || item.revision ≠ e.taskRevision || item.state ≠ .active)

def failStale (now : String) (e : AgentExecution) : AgentExecution :=
  { e with status := .failed, failureCode := some .contextStale, endedAt := some now }

def failContext (now : String) (w : Workflow) (id : Uuid) : Except WorkError Workflow := do
  let _ ← okOr (w.agentExecutions.find? fun e => e.id = id) .integrityViolation
  return w.updateExecution id (failStale now)

def invalidateAgentContexts (now : String) : Except WorkError Workflow :=
  ((w.agentExecutions.filter w.isStale).map (·.id)).foldlM (failContext now) w

def isResumeOrAssign : Command → Bool
  | .resume .. | .assign .. => true
  | _ => false

/-- One command at the instant `now`, on a copy evaluated at that instant. -/
def apply (command : Command) (now : String) : Mutated := do
  let instant ← okOr (env.time.parse now) .integrityViolation
  let next := { w with authority := { w.authority with evaluatedAt := some instant } }
  next.validateIntegrity env.time
  next.authorizeCommand env actor command
  let item ← next.item command.taskId
  ensure (item.revision = command.context.expectedRevision) .revisionConflict
  ensure (item.state = .held → isResumeOrAssign command = true) .handoffNotReady
  let done ← next.applyValidated env actor command now
  let next := done.1.closeFinishedAssignments now
  let revision ← nextRevision next.revision
  let next ← { next with revision }.invalidateAgentContexts now
  next.validateIntegrity env.time
  return ({ next with authority := w.authority }, done.2)

end Workflow

end KnowledgePlatform.Work
