import KnowledgePlatform.Work.Commands

/-! Running an agent execution: its start, its structured output, its failure. -/

namespace KnowledgePlatform.Work

def maxAgentUncertainty : Nat := 4

/-! ## Output -/

structure AgentFindingCandidate where
  claim : String
  evidenceRevisionRefs : List RevisionRef

structure GeneratedArtifactCandidate where
  (title text : String)
  sourceRevisionRefs : List RevisionRef

/-- An index is one of the output's own generated artifacts. -/
inductive ProposedActionCandidate where
  | reviewFinding
  | useGeneratedArtifact (index : Nat)

structure SuggestedActionCandidate where
  action : ProposedActionCandidate
  rationale : String

structure AgentOutput where
  summary : String
  uncertainty : List String
  sourceOutcomes : List AgentSourceOutcome
  finding : Option AgentFindingCandidate
  generatedArtifacts : List GeneratedArtifactCandidate
  suggestedActions : List SuggestedActionCandidate

namespace AgentOutput

variable (output : AgentOutput)

def usable : List RevisionRef :=
  (output.sourceOutcomes.filter (·.outcome.usable)).map (·.evidenceRevisionRef)

def citesUsable (refs : List RevisionRef) : Bool :=
  refs ≠ [] && (validateRefs refs).toOption.isSome && refs.all output.usable.contains

def checkFinding : Except WorkError Unit :=
  match output.finding with
  | none => .ok ()
  | some finding => do
    boundedText finding.claim
    ensure (output.citesUsable finding.evidenceRevisionRefs = true) .validationFailed

def checkGenerated (candidate : GeneratedArtifactCandidate) : Except WorkError Unit := do
  validCandidateTitle candidate.title
  boundedText candidate.text
  ensure (output.citesUsable candidate.sourceRevisionRefs = true) .validationFailed

/-- What a suggestion proposes: the finding, or one of the generated artifacts. -/
def proposal (suggestion : SuggestedActionCandidate) : Except WorkError (Option Nat) := do
  ensure (isBlank suggestion.rationale = false ∧
    byteLen suggestion.rationale ≤ maxRationaleBytes) .validationFailed
  match suggestion.action with
  | .reviewFinding => do
    ensure (output.finding.isSome = true) .validationFailed
    return none
  | .useGeneratedArtifact index => do
    ensure (index < output.generatedArtifacts.length) .validationFailed
    return some index

def validate (context : AgentDispatchContext) : Except WorkError Unit := do
  boundedText output.summary
  ensure (output.uncertainty ≠ [] ∧ output.uncertainty.length ≤ maxAgentUncertainty)
    .validationFailed
  output.uncertainty.forM boundedText
  ensure (output.sourceOutcomes.map (·.evidenceRevisionRef) =
    context.execution.evidenceRevisionRefs)
    .validationFailed
  ensure (context.execution.executedBy = syntheticExecutor →
    ∀ o ∈ output.sourceOutcomes, o.outcome ≠ .analyzed) .validationFailed
  ensure (output.usable ≠ []) .validationFailed
  output.checkFinding
  ensure (output.generatedArtifacts.length ≤ maxGeneratedArtifacts) .validationFailed
  output.generatedArtifacts.forM output.checkGenerated
  ensure (output.suggestedActions.length ≤ maxSuggestedActions) .validationFailed
  let proposals ← output.suggestedActions.mapM output.proposal
  ensure proposals.Nodup .validationFailed

end AgentOutput

/-! ## Candidates -/

def generate (env : Env) (e : AgentExecution) (now : String)
    (candidate : GeneratedArtifactCandidate × Nat) : GeneratedArtifact where
  id := env.draw (1 + candidate.2)
  executionId := e.id
  contextId := e.contextId
  workItemId := e.workItemId
  attemptId := e.attemptId
  schemaId := textSchemaId
  title := candidate.1.title
  value := ⟨candidate.1.text⟩
  sourceRevisionRefs := candidate.1.sourceRevisionRefs
  author := e.executedBy
  simulated := e.executedBy = syntheticExecutor
  visibility := agentPrivateVisibility
  createdAt := now

/-- The typed action, and the sources it is supported by. -/
def propose (output : AgentOutput) (generated : List GeneratedArtifact)
    (finding : Option RevisionRef) :
    ProposedActionCandidate → Except WorkError (ProposedAction × List RevisionRef)
  | .reviewFinding => do
    let r ← okOr finding .validationFailed
    return (.reviewFinding r, (output.finding.map (·.evidenceRevisionRefs)).getD [])
  | .useGeneratedArtifact index => do
    let g ← okOr generated[index]? .validationFailed
    return (.useGeneratedArtifact g.id, g.sourceRevisionRefs)

def suggest (env : Env) (e : AgentExecution) (output : AgentOutput)
    (generated : List GeneratedArtifact) (finding : Option RevisionRef) (now : String)
    (candidate : SuggestedActionCandidate × Nat) : Except WorkError SuggestedAction := do
  let proposed ← propose output generated finding candidate.1.action
  return {
    id := env.draw (1 + generated.length + candidate.2)
    executionId := e.id
    contextId := e.contextId
    workItemId := e.workItemId
    attemptId := e.attemptId
    action := proposed.1
    rationale := candidate.1.rationale
    supportingRevisionRefs := if proposed.2 = [] then output.usable else proposed.2
    author := e.executedBy
    visibility := agentPrivateVisibility
    createdAt := now }

namespace Workflow

variable (w : Workflow) (env : Env) (actor : VerifiedActor)

/-- The workflow with the candidates of an output, and their identifiers. -/
structure Recorded where
  workflow : Workflow
  (generatedArtifactIds suggestedActionIds : List Uuid)

def recordCandidates (context : AgentDispatchContext) (output : AgentOutput)
    (finding : Option RevisionRef) (now : String) : Except WorkError Recorded := do
  let e := context.execution
  let generated := output.generatedArtifacts.zipIdx.map (generate env e now)
  let suggested ← output.suggestedActions.zipIdx.mapM (suggest env e output generated finding now)
  return {
    workflow := { w with
      generatedArtifacts := w.generatedArtifacts ++ generated
      suggestedActions := w.suggestedActions ++ suggested }
    generatedArtifactIds := generated.map (·.id)
    suggestedActionIds := suggested.map (·.id) }

/-! ## Dispatch -/

def agentDisclosureContext (id : Uuid) : Except WorkError AgentDispatchContext := do
  let execution ← okOr (w.agentExecutions.find? fun e => e.id = id) .integrityViolation
  let evidence ← w.resolveEvidence env execution.requestedBy execution.evidenceRevisionRefs
  let context : AgentDispatchContext := ⟨execution, evidence, allowedReadTools⟩
  context.validateScope
  return context

def buildAgentContext (id : Uuid) : Except WorkError AgentDispatchContext := do
  let e ← w.agentExecution env actor id
  let item ← w.item e.workItemId
  ensure (e.status = .running ∧ item.state = .active ∧ e.effectiveContextRevision = w.revision ∧
    e.taskRevision = item.revision) .workContextStale
  w.validateSelection env actor e.workItemId e.evidenceRevisionRefs [] []
  w.agentDisclosureContext env id

/-! ## Operations -/

def startAgentExecution (id : Uuid) (now : String) :
    Except WorkError (Workflow × Option AgentDispatchContext) := do
  let e ← w.agentExecution env actor id
  if e.status ≠ .queued then return (w, none)
  else
    let item ← w.item e.workItemId
    ensure (item.state = .active ∧ e.taskRevision = item.revision ∧
      e.effectiveContextRevision = w.revision) .workContextStale
    let revision ← nextRevision w.revision
    let next := { w with revision }.updateExecution id fun e =>
      { e with status := .running, startedAt := now, effectiveContextRevision := revision }
    let context ← next.buildAgentContext env actor id
    return (next, some context)

/-- The finding of an output, if it has one, and its reference. -/
def recordFinding (task id : Uuid) (output : AgentOutput) (now : String) :
    Except WorkError (Workflow × Option RevisionRef) :=
  match output.finding with
  | none => .ok (w, none)
  | some candidate => do
    let finding ← w.createFinding env actor task candidate.claim candidate.evidenceRevisionRefs none
      (some id) now
    let finding := { finding with uncertainty := output.uncertainty }
    return ({ w with findings := w.findings ++ [finding] }, some ⟨finding.id, finding.revision⟩)

def finishAgentExecution (context : AgentDispatchContext) (output : AgentOutput) (now : String) :
    Except WorkError (Workflow × AgentExecution) := do
  context.validateScope
  let actor := context.execution.requestedBy
  let id := context.execution.id
  let built ← w.buildAgentContext env actor id
  ensure (built = context) .workContextStale
  output.validate context
  let task := context.execution.workItemId
  let found ← w.recordFinding env actor task id output now
  let recorded ← found.1.recordCandidates env context output found.2 now
  let result : AgentResult := {
    summary := output.summary
    findingRevisionRefs := found.2.toList
    evidenceRevisionRefs := context.execution.evidenceRevisionRefs
    uncertainty := output.uncertainty
    simulated := true
    bodyAnalyzed := false
    liveLlm := false
    mcpWireExecuted := false
    sourceOutcomes := output.sourceOutcomes
    generatedArtifactIds := recorded.generatedArtifactIds
    suggestedActionIds := recorded.suggestedActionIds }
  let next ← recorded.workflow.nextRecordRevision task
  let revision ← nextRevision next.revision
  let item ← next.item task
  let finish (e : AgentExecution) : AgentExecution := { e with
    status := .succeeded
    result := some result
    endedAt := some now
    taskRevision := item.revision }
  let e ← okOr (next.agentExecutions.find? fun e => e.id = id) .integrityViolation
  let next := { next with revision }.updateExecution id finish
  next.validateIntegrity env.time
  return (next, finish e)

def failureStatus : AgentFailureCode → AgentExecutionStatus
  | .interrupted | .commitOutcomeUnknown => .outcomeUnknown
  | _ => .failed

def failAgentExecution (id : Uuid) (code : AgentFailureCode) (now : String) :
    Except WorkError (Workflow × AgentExecution) := do
  let accepts := fun e : AgentExecution => decide (e.id = id ∧ e.requestedBy = actor)
  let e ← okOr (w.agentExecutions.find? accepts) .workItemNotFound
  if e.status.isActive then
    let fail (e : AgentExecution) : AgentExecution :=
      { e with status := failureStatus code, failureCode := some code, endedAt := some now }
    let revision ← nextRevision w.revision
    return ({ w with revision, agentExecutions := updateFirst accepts fail w.agentExecutions },
      fail e)
  else return (w, e)

def interruptAgentExecutions (now : String) : Except WorkError (Workflow × Nat) := do
  let ids := (w.agentExecutions.filter fun e => e.requestedBy = actor && e.status.isActive).map
    (·.id)
  let next ← ids.foldlM (fun w id => do
    let failed ← w.failAgentExecution actor id .interrupted now
    return failed.1) w
  return (next, ids.length)

end Workflow

end KnowledgePlatform.Work
