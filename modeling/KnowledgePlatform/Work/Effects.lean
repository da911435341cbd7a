import KnowledgePlatform.Lib.Matching
import KnowledgePlatform.Work.Agents

/-! What one operation can do to a workflow. Every invariant is derived from this. -/

namespace KnowledgePlatform.Work

def Command.isComplete : Command → Bool
  | .complete .. => true
  | _ => false

def Command.isRequest : Command → Bool
  | .requestAgentExecution .. => true
  | _ => false

def WorkItem.revised (item : WorkItem) : WorkItem := { item with revision := item.revision + 1 }

namespace Workflow

variable {w u v : Workflow} {env : Env} {actor : VerifiedActor} {item new : WorkItem} {id : Uuid}
  {command : Command} {now : String}

/-! ## The current items -/

theorem item_iff : w.item id = .ok item ↔
    (id = w.source.id ∧ item = w.source) ∨
      (id ≠ w.source.id ∧ w.next = some item ∧ item.id = id) := by
  unfold Workflow.item
  split
  next same =>
    simp [same, eq_comm]
  next different =>
    simp [okOr_iff, Option.filter_eq_some_iff, different]

theorem item_id (h : w.item id = .ok item) : item.id = id := by
  obtain ⟨rfl, rfl⟩ | ⟨-, -, same⟩ := item_iff.mp h
  · rfl
  · exact same

theorem item_mem (h : w.item id = .ok item) : item ∈ w.currentItems := by
  obtain ⟨-, rfl⟩ | ⟨-, found, -⟩ := item_iff.mp h
  · simp [currentItems]
  · simp [currentItems, found]

/-- `new` stands in the place of the current item `old`. -/
inductive Replaced (w : Workflow) (old new : WorkItem) : Workflow → Prop
  | source (same : old = w.source) : Replaced w old new { w with source := new }
  | next (found : w.next = some old) (apart : old.id ≠ w.source.id) :
    Replaced w old new { w with next := some new }

theorem updateItem_ok {missing : WorkError} {f : WorkItem → Except WorkError WorkItem}
    (h : w.updateItem id missing f = .ok v) (found : w.item id = .ok item) :
    ∃ new, f item = .ok new ∧ Replaced w item new v := by
  unfold updateItem at h
  obtain ⟨rfl, rfl⟩ | ⟨different, next, same⟩ := item_iff.mp found
  · rw [if_pos rfl, except_bind_iff] at h
    obtain ⟨new, changed, h⟩ := h
    cases h
    exact ⟨new, changed, .source rfl⟩
  · rw [if_neg different, next] at h
    simp only [except_iffs, Option.some.injEq, exists_eq_left'] at h
    obtain ⟨new, changed, rfl⟩ := h
    exact ⟨new, changed, .next next (same ▸ different)⟩

theorem bumpRevision_iff : bumpRevision item = .ok new ↔
    item.revision < 2 ^ 63 - 1 ∧ new = item.revised := by
  simp only [bumpRevision, except_iffs, nextRevision_iff, WorkItem.revised]
  constructor
  · rintro ⟨_, ⟨small, rfl⟩, rfl⟩
    exact ⟨small, rfl⟩
  · rintro ⟨small, rfl⟩
    exact ⟨_, ⟨small, rfl⟩, rfl⟩

theorem nextRecordRevision_ok (h : w.nextRecordRevision id = .ok v) (found : w.item id = .ok item) :
    Replaced w item item.revised v := by
  obtain ⟨new, changed, placed⟩ := updateItem_ok h found
  obtain ⟨-, rfl⟩ := bumpRevision_iff.mp changed
  exact placed

theorem bumpSource_ok (h : w.bumpSource = .ok v) : Replaced w w.source w.source.revised v := by
  simp only [bumpSource, except_iffs, bumpRevision_iff] at h
  obtain ⟨_, ⟨-, rfl⟩, rfl⟩ := h
  exact .source rfl

theorem Replaced.item_eq (h : Replaced w item new v) (same : new.id = item.id)
    (found : w.item id = .ok item) : v.item id = .ok new := by
  obtain ⟨rfl, rfl⟩ | ⟨different, next, sameId⟩ := item_iff.mp found
  · cases h with
    | source => exact item_iff.mpr (.inl ⟨same.symm, rfl⟩)
    | next _ apart => exact absurd rfl apart
  · cases h with
    | source here => exact absurd (here ▸ sameId.symm) different
    | next => exact item_iff.mpr (.inr ⟨different, rfl, same.trans sameId⟩)

section

variable (h : Replaced w item new v)
include h

theorem Replaced.revision : v.revision = w.revision := by cases h <;> rfl

theorem Replaced.assignments : v.assignments = w.assignments := by cases h <;> rfl

theorem Replaced.executions : v.agentExecutions = w.agentExecutions := by cases h <;> rfl

end

/-! ## Effects of a command -/

/-- What a new execution is given. -/
structure Requested (w : Workflow) (context : CommandContext) (item : WorkItem)
    (e : AgentExecution) : Prop where
  id : e.id = context.operationId
  requester : e.requesterResponsibility = context.actingAssignmentId
  sameContext : e.contextId = w.contextId
  task : e.workItemId = item.id
  attempt : e.attemptId = item.attemptId
  revision : e.effectiveContextRevision = w.revision + 1
  taskRevision : e.taskRevision = item.revision + 1
  queued : e.status = .queued
  unended : e.endedAt = none
  noResult : e.result = none
  executor : e.executedBy = syntheticExecutor
  invocation : e.executorInvocationKind = "agent"
  bindings : e.providerPrincipalBindings = documentBindings
  purpose : boundedText e.purpose = .ok ()
  some : e.evidenceRevisionRefs ≠ []
  few : e.evidenceRevisionRefs.length ≤ maxAgentExecutions
  refs : validateRefs e.evidenceRevisionRefs = .ok ()
  known : ∀ r ∈ e.evidenceRevisionRefs, ∃ record,
    (w.evidence.find? fun record => record.id = r.id) = .some record ∧
      record.revision = r.revision ∧ record.contextId = w.contextId
  room : (w.executionsOf item.id item.attemptId).length < maxAgentExecutions
  idle : w.hasActiveExecution item.id = false

/-- The change of a cancelled execution. -/
def cancelled (now : String) (taskRevision : Int) (e : AgentExecution) : AgentExecution :=
  { e with status := .cancelled, endedAt := some now, taskRevision }

/-- The change of an item that gets a new assignee. -/
def assignedItem (record : WorkAssignmentRecord) (item : WorkItem) : WorkItem :=
  { item with
    state := if item.state = .ready then .active else item.state
    assignee := some record.principal
    workAssignmentId := some record.id
    actingAssignmentId := some record.actingAssignmentId
    revision := item.revision + 1 }

/-- A record of a period that starts now. -/
structure Opened (env : Env) (item : WorkItem) (record : WorkAssignmentRecord) : Prop where
  id : record.id = env.draw 0
  task : record.taskId = item.id
  attempt : record.attemptId = item.attemptId
  unended : record.endedAt = none

/-- The attempt that is given back, closed. -/
def returnedItem (instruction : ReturnInstruction) (now : String) (item : WorkItem) : WorkItem :=
  { item with
    state := .completed
    completedAt := some now
    revision := item.revision + 1
    returnInstructionId := some instruction.id }

def submittedItem (snapshot : HandoffSnapshot) (now : String) (item : WorkItem) : WorkItem :=
  { item with
    state := .completed
    completedAt := some now
    revision := item.revision + 1
    handoffSnapshotId := some snapshot.id }

def completedItem (now : String) (item : WorkItem) : WorkItem :=
  { item with state := .completed, completedAt := some now, revision := item.revision + 1 }

/-- The work goes back, and the source task is attempted again. -/
def givenBack (w : Workflow) (instruction : ReturnInstruction) (office : WorkItem) (now : String) :
    Workflow :=
  { w with
    completedAttempts := w.completedAttempts ++ [w.source]
    source := w.reopenedSource instruction (w.source.attemptNumber + 1) (w.source.revision + 1) now
    next := some (returnedItem instruction now office)
    returnInstructions := w.returnInstructions ++ [instruction] }

/-- The work is handed over to the next task. -/
def handedOver (w : Workflow) (plan : ContextFixture) (snapshot : HandoffSnapshot)
    (attempt : NextAttempt) (now : String) : Workflow :=
  { w with
    source := submittedItem snapshot now w.source
    completedAttempts := attempt.completedAttempts
    next := some (w.receivingItem plan snapshot attempt now)
    snapshots := w.snapshots ++ [snapshot] }

/-- A record added to an attempt, or a change of its drafts. -/
inductive Records (w : Workflow) : Workflow → Prop
  | evidence (e : EvidenceRecord) : Records w { w with evidence := w.evidence ++ [e] }
  | finding (f : Finding) (human : f.originExecutionId = none) :
    Records w { w with findings := w.findings ++ [f] }
  | decision (d : HumanDecision) : Records w { w with decisions := w.decisions ++ [d] }
  | artifacts (l : List WorkingArtifact) : Records w { w with artifacts := l }

/-- The effects of the commands, before periods are closed and contexts invalidated. -/
inductive Effect (env : Env) (actor : VerifiedActor) (command : Command) (now : String)
    (w : Workflow) : Workflow → Prop
  | kept : Effect env actor command now w w
  | paused {item : WorkItem} {v : Workflow} (state : TaskState) (kind : String)
    (live : item.state = .active ∨ item.state = .held) (still : state = .active ∨ state = .held)
    (placed : Replaced (w.log kind now) item { item.revised with state } v) :
    Effect env actor command now w v
  | recorded {item : WorkItem} {u v : Workflow} (records : Records w u)
    (active : item.state = .active) (placed : Replaced u item item.revised v) :
    Effect env actor command now w v
  | requested {item : WorkItem} {u : Workflow} (e : AgentExecution)
    (issued : command.isRequest = true) (active : item.state = .active)
    (request : Requested w command.context item e) (placed : Replaced w item item.revised u) :
    Effect env actor command now w { u with agentExecutions := u.agentExecutions ++ [e] }
  | cancelled {item : WorkItem} {u : Workflow} (e : AgentExecution)
    (found : (w.agentExecutions.find? fun x => x.id = e.id) = some e)
    (active : e.status.isActive = true)
    (task : w.item e.workItemId = .ok item) (attempt : e.attemptId = item.attemptId)
    (placed : Replaced w item item.revised u) :
    Effect env actor command now w (u.updateExecution e.id (cancelled now (item.revision + 1)))
  | assigned {item : WorkItem} {u : Workflow} (record : WorkAssignmentRecord)
    (ended : List WorkAssignmentRecord) (kind : String) (unfinished : item.state ≠ .completed)
    (opened : Opened env item record)
    (ends : (ended = w.assignments ∧ item.assignee = none) ∨
      ended = updateFirst (isOpenPeriod item) (endPeriod actor now) w.assignments)
    (placed : Replaced w item (assignedItem record item) u) :
    Effect env actor command now w ({ u with assignments := ended ++ [record] }.log kind now)
  | completed {item : WorkItem} (issued : command.isComplete = true) (found : w.next = some item)
    (active : item.state = .active) :
    Effect env actor command now w
      ({ w with next := some (completedItem now item) }.log "completed" now)
  | returned {office : WorkItem} (instruction : ReturnInstruction) (found : w.next = some office)
    (active : office.state = .active) (done : w.source.state = .completed)
    (target : instruction.targetAttemptId = env.draw 0) :
    Effect env actor command now w ((w.givenBack instruction office now).log "returned" now)
  | submitted (plan : ContextFixture) (snapshot : HandoffSnapshot) (attempt : NextAttempt)
    (planned : w.plan = .ok plan) (active : w.source.state = .active)
    (rest : ∀ item ∈ w.next, item.state = .completed)
    (number : snapshot.submissionNumber = w.snapshots.length + 1)
    (received : w.nextAttempt env plan = .ok attempt) :
    Effect env actor command now w ((w.handedOver plan snapshot attempt now).log "submitted" now)

/-! ## The effect of each command -/

variable {r : MutationResult} {taskId attemptId actionId : Uuid} {context : CommandContext}

theorem pause_effect {resume : Bool}
    (h : w.pause env actor taskId attemptId actionId resume now = .ok (v, r)) :
    Effect env actor command now w v := by
  simp only [pause, except_iffs, Prod.mk.injEq] at h
  obtain ⟨item, found, -, allowed, u, updated, _, -, rfl, -⟩ := h
  obtain ⟨new, changed, placed⟩ := updateItem_ok updated found
  obtain ⟨-, rfl⟩ := bumpRevision_iff.mp changed
  simp only [pauseAction, Option.ite_none_right_eq_some] at allowed
  obtain ⟨⟨-, -, -, -, state⟩, -⟩ := allowed
  have live : item.state = .active ∨ item.state = .held := by
    cases resume
    · exact .inl state
    · exact .inr state
  have still : (if resume then TaskState.active else .held) = .active ∨
      (if resume then TaskState.active else .held) = .held := by
    cases resume
    · exact .inr rfl
    · exact .inl rfl
  cases placed with
  | source same => exact .paused _ _ live still (.source same)
  | next found apart => exact .paused _ _ live still (.next found apart)

/-- Only the next task can be completed. -/
theorem completionAction_next (apart : ∀ plan, w.plan = .ok plan → w.source.id ≠ plan.nextTaskId)
    (found : w.item taskId = .ok item)
    (allowed : w.completionAction env actor item = some actionId) :
    w.next = some item ∧ item.state = .active := by
  simp only [completionAction, Option.ite_none_right_eq_some] at allowed
  obtain ⟨⟨-, following, -, active⟩, -⟩ := allowed
  refine ⟨?_, active⟩
  obtain ⟨-, rfl⟩ | ⟨-, next, -⟩ := item_iff.mp found
  · unfold isNext at following
    split at following
    · cases following
    next plan planned =>
      simp only [Bool.and_eq_true, decide_eq_true_eq] at following
      exact absurd following.1 (apart plan planned)
  · exact next

variable {refs : List RevisionRef}

theorem requestAgentExecution_effect {purpose : String} (issued : command.isRequest = true)
    (same : command.context = context)
    (h : w.requestAgentExecution env actor taskId context attemptId purpose refs now = .ok (v, r)) :
    Effect env actor command now w v := by
  simp only [requestAgentExecution, except_iffs, Prod.mk.injEq] at h
  obtain ⟨item, found, purposeOk, active, -, ⟨some, few, room⟩, idle, selected, u, bumped, revision,
    next, changed, here, _, -, rfl, -⟩ := h
  have placed := nextRecordRevision_ok bumped found
  obtain rfl : changed = item.revised :=
    Except.ok.inj (here.symm.trans (placed.item_eq rfl found))
  have sameContext : u.contextId = w.contextId := by cases placed <;> rfl
  obtain ⟨-, rfl⟩ := nextRevision_iff.mp next
  simp only [validateSelection, except_iffs] at selected
  obtain ⟨refsOk, -, -, -, _, -, records, resolved, -⟩ := selected
  simp only [resolveEvidence, except_bind_iff] at resolved
  obtain ⟨_, -, resolved⟩ := resolved
  have sameId := item_id found
  refine .requested _ issued active ⟨congrArg CommandContext.operationId same.symm,
    congrArg CommandContext.actingAssignmentId same.symm, sameContext, sameId.symm, rfl,
    congrArg (· + 1) placed.revision, rfl, rfl, rfl, rfl, rfl, rfl, rfl, purposeOk, some, few,
    refsOk, ?_, sameId ▸ room, sameId ▸ idle⟩ placed
  intro ref href
  obtain ⟨record, -, read⟩ := mapM_each resolved href
  simp only [evidenceRecord, except_iffs] at read
  obtain ⟨_, ⟨_, here, ⟨inContext, -⟩, rfl⟩, sameRevision, rfl⟩ := read
  exact ⟨_, here, sameRevision, inContext⟩

theorem cancelAgentExecution_effect
    (h : w.cancelAgentExecution env actor taskId attemptId id now = .ok (v, r)) :
    Effect env actor command now w v := by
  simp only [cancelAgentExecution, except_iffs, Prod.mk.injEq] at h
  obtain ⟨item, found, e, read, ⟨-, rfl⟩, u, done, _, -, _, -, rfl, -⟩ := h
  simp only [agentExecution, except_iffs] at read
  obtain ⟨_, here, item', task, ⟨-, -, attempt, -, -⟩, rfl⟩ := read
  have sameId := List.find?_some here
  simp only [decide_eq_true_eq] at sameId
  unfold cancelIfActive at done
  split at done
  next active =>
    simp only [cancelActive, except_iffs] at done
    obtain ⟨u, bumped, changed, again, _, -, rfl⟩ := done
    have placed := nextRecordRevision_ok bumped task
    obtain rfl : changed = item'.revised :=
      Except.ok.inj (again.symm.trans (placed.item_eq rfl task))
    exact .cancelled _ (sameId ▸ here) active task attempt placed
  · cases done
    exact .kept

/-- A return is from the next task, after the source task is completed. -/
theorem returnTransition_next {permitted : ReturnTransition} (found : w.item taskId = .ok item)
    (allowed : w.returnTransition env actor item = some permitted) :
    w.next = some item ∧ item.state = .active ∧ w.source.state = .completed := by
  simp only [returnTransition, Option.ite_none_right_eq_some] at allowed
  obtain ⟨⟨-, -, -, active, done⟩, -⟩ := allowed
  refine ⟨?_, active, done⟩
  obtain ⟨-, rfl⟩ | ⟨-, next, -⟩ := item_iff.mp found
  · rw [done] at active
    cases active
  · exact next

/-- Drafts change only on the active source attempt. -/
theorem artifacts_effect {l : List WorkingArtifact} (editable : w.editableSource taskId = .ok ())
    (bumped : { w with artifacts := l }.bumpSource = .ok v) : Effect env actor command now w v := by
  simp only [editableSource, ensure_iff] at editable
  exact .recorded (.artifacts l) editable.2 (bumpSource_ok bumped)

theorem draftArtifact_ok {value : TextValue} {target : Option Uuid} {artifact : WorkingArtifact}
    (h : w.draftArtifact env taskId value target = .ok (u, artifact)) :
    ∃ l, u = { w with artifacts := l } := by
  cases target <;> simp only [draftArtifact, except_iffs, Prod.mk.injEq] at h
  · obtain ⟨-, rfl, -⟩ := h
    exact ⟨_, rfl⟩
  · obtain ⟨_, -, -, _, -, rfl, -⟩ := h
    exact ⟨_, rfl⟩

theorem applyFiles_effect
    (h : w.applyFiles env actor command now = .ok (v, r)) : Effect env actor command now w v := by
  unfold applyFiles at h
  split at h
  case h_1 | h_3 =>
    simp only [createFileArtifact, discardArtifact, except_bind_iff, except_pure_iff,
      Prod.mk.injEq] at h
    obtain ⟨_, editable, _, -, _, -, _, bumped, rfl, -⟩ := h
    exact artifacts_effect editable bumped
  case h_2 | h_4 =>
    simp only [writeArtifactContent, importSubmission, except_bind_iff, except_pure_iff,
      Prod.mk.injEq] at h
    obtain ⟨_, editable, _, -, _, -, _, -, _, -, _, -, _, bumped, rfl, -⟩ := h
    exact artifacts_effect editable bumped
  case h_5 => cases h

/-- Every accepted command has one of the effects. -/
theorem applyValidated_effect (found : w.item command.taskId = .ok item)
    (apart : ∀ plan, w.plan = .ok plan → w.source.id ≠ plan.nextTaskId)
    (h : w.applyValidated env actor command now = .ok (v, r)) :
    Effect env actor command now w v := by
  cases command with
  | hold | resume => exact pause_effect h
  | complete =>
    simp only [applyValidated, complete, except_iffs, bumpRevision_iff, Prod.mk.injEq] at h
    obtain ⟨item, found, -, allowed, next, here, _, ⟨-, rfl⟩, _, -, rfl, -⟩ := h
    obtain ⟨isNext, active⟩ := completionAction_next apart found allowed
    obtain rfl : item = next := Option.some.inj (isNext.symm.trans here)
    show Effect env actor _ now w
      ({ w with next := some (completedItem now item) }.log "completed" now)
    exact .completed rfl here active
  | requestAgentExecution => exact requestAgentExecution_effect rfl rfl h
  | cancelAgentExecution => exact cancelAgentExecution_effect h
  | registerEvidence =>
    simp only [applyValidated, applyEvidence, registerEvidence, except_iffs, Prod.mk.injEq] at h
    obtain ⟨_, here, active, -, -, -, _, -, -, _, bumped, _, -, rfl, -⟩ := h
    exact .recorded (.evidence _) active (nextRecordRevision_ok bumped here)
  | registerFinding =>
    simp only [applyValidated, applyEvidence, registerFinding, except_iffs, Prod.mk.injEq] at h
    obtain ⟨_, here, active, -, f, created, _, bumped, _, -, rfl, -⟩ := h
    refine .recorded (.finding f ?_) active (nextRecordRevision_ok bumped here)
    simp only [createFinding, except_iffs] at created
    obtain ⟨_, -, -, -, _, -, -, -, _, -, -, _, -, rfl⟩ := created
    rfl
  | recordDecision =>
    simp only [applyValidated, applyEvidence, recordDecision, except_iffs, Prod.mk.injEq] at h
    obtain ⟨_, here, active, -, _, -, -, -, _, -, -, -, -, _, -, -, _, bumped, _, -, rfl, -⟩ := h
    exact .recorded (.decision _) active (nextRecordRevision_ok bumped here)
  | «return» =>
    simp only [applyValidated, applyReturn, except_iffs, nextNumber_iff, nextRevision_iff,
      bumpRevision_iff, Prod.mk.injEq] at h
    obtain ⟨item, found, -, -, permitted, allowed, -, _, ⟨-, rfl⟩, _, ⟨-, rfl⟩, office,
      here, _, ⟨-, rfl⟩, _, -, rfl, -⟩ := h
    obtain ⟨isNext, active, done⟩ := returnTransition_next found allowed
    obtain rfl : item = office := Option.some.inj (isNext.symm.trans here)
    exact .returned _ here active done rfl
  | assign =>
    simp only [applyValidated, assign, except_iffs, Prod.mk.injEq] at h
    obtain ⟨-, item, found, -, -, unfinished, -, -, u, updated, _, -, rfl, -⟩ := h
    obtain ⟨new, changed, placed⟩ := updateItem_ok updated found
    obtain ⟨-, rfl⟩ := bumpRevision_iff.mp changed
    cases placed with
    | source same =>
      exact .assigned (u := { w with source := _ }) _ _ "assigned" unfinished ⟨rfl, rfl, rfl, rfl⟩
        (.inr rfl) (.source same)
    | next here apart =>
      exact .assigned (u := { w with next := some _ }) _ _ "assigned" unfinished
        ⟨rfl, rfl, rfl, rfl⟩
        (.inr rfl) (.next here apart)
  | saveDraft =>
    simp only [applyValidated, saveDraft, except_iffs, Prod.mk.injEq] at h
    obtain ⟨editable, -, ⟨u, artifact⟩, saved, _, bumped, rfl, -⟩ := h
    obtain ⟨l, rfl⟩ := draftArtifact_ok saved
    exact artifacts_effect editable bumped
  | claim taskId =>
    change w.item taskId = .ok item at found
    simp only [applyValidated, claim, except_iffs, Prod.mk.injEq] at h
    obtain ⟨target, read, ⟨ready, unassigned⟩, u, updated, _, -, rfl, -⟩ := h
    obtain rfl : target = item := by
      unfold sourceOrNext at read
      obtain ⟨rfl, rfl⟩ | ⟨different, next, -⟩ := item_iff.mp found
      · rw [if_pos rfl] at read
        exact (Except.ok.inj read).symm
      · rw [if_neg different, next] at read
        exact (Except.ok.inj read).symm
    obtain ⟨new, changed, placed⟩ := updateItem_ok updated found
    obtain ⟨-, rfl⟩ := bumpRevision_iff.mp changed
    rw [placed.assignments]
    refine .assigned _ _ "claimed" (by simp [ready]) ⟨rfl, rfl, rfl, rfl⟩
      (.inl ⟨rfl, unassigned⟩) ?_
    simpa [assignedItem, WorkItem.revised, ready] using placed
  | createFileArtifact | writeArtifactContent | discardArtifact | importSubmission =>
    simp only [applyValidated] at h
    exact applyFiles_effect h
  | submit _ _ _ _ evidence findings decisions =>
    simp only [applyValidated, submit, nextSubmissionNumber, except_iffs, nextNumber_iff,
      bumpRevision_iff, Prod.mk.injEq] at h
    obtain ⟨-, -, ⟨-, active, rest, -⟩, -, _, -, plan, planned, _, ⟨-, -, rfl⟩, _,
      ⟨-, rfl⟩, attempt, received, rfl, -⟩ := h
    exact .submitted plan { w.newSnapshot env actor plan _ _ _ now with
      evidenceRevisionRefs := evidence
      findingRevisionRefs := findings
      decisionRevisionRefs := decisions } attempt planned active rest rfl received

end Workflow

end KnowledgePlatform.Work
