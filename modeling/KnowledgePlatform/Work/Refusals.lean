import KnowledgePlatform.Lib.Avoids
import KnowledgePlatform.Work.Upkeep

/-! No command of a reached workflow is refused as a violation of its integrity. -/

namespace KnowledgePlatform.Work

open OrganizationPolicy (sampleNow sampleTime)
open List

/-- The computation reports no violation. -/
abbrev Intact {α : Type} (x : Except WorkError α) : Prop := Avoids .integrityViolation x

@[simp] theorem boundedText_intact (value : String) : Intact (boundedText value) := by
  simp [boundedText, avoids_ensure]

@[simp] theorem boundedReason_intact (value : String) : Intact (boundedReason value) := by
  simp [boundedReason, avoids_ensure]

@[simp] theorem validateRefs_intact (refs : List RevisionRef) : Intact (validateRefs refs) := by
  simp [validateRefs, avoids_ensure]

theorem nextRevision_intact {n : Int} (below : n < 2 ^ 63 - 1) : Intact (nextRevision n) :=
  avoids_of_ok (nextRevision_iff.mpr ⟨below, rfl⟩)

theorem nextNumber_intact {n : Nat} (below : n < 2 ^ 32 - 1) : Intact (nextNumber n) :=
  avoids_of_ok (nextNumber_iff.mpr ⟨below, rfl⟩)

namespace Workflow

variable {w u v : Workflow} {env : Env} {actor : VerifiedActor} {command : Command} {now : String}
  {time : TimeText} {plan : ContextFixture} {item : WorkItem} {id taskId attemptId : Uuid}
  {refs : List RevisionRef} {trace : List Command}

/-! ## Reading -/

@[simp] theorem item_intact : Intact (w.item id) := by
  unfold Workflow.item
  split <;> simp

@[simp] theorem artifact_intact : Intact (w.artifact env actor id) := by
  simp [Workflow.artifact]

@[simp] theorem snapshot_intact : Intact (w.snapshot env actor id) := by
  simp [Workflow.snapshot]

@[simp] theorem evidenceRecord_intact : Intact (w.evidenceRecord env actor id) := by
  simp [evidenceRecord]

@[simp] theorem resolveEvidence_intact : Intact (w.resolveEvidence env actor refs) := by
  simp [resolveEvidence]

@[simp] theorem finding_intact : Intact (w.finding env actor id) := by
  simp [finding]

@[simp] theorem decision_intact : Intact (w.decision env actor id) := by
  simp [decision]

@[simp] theorem detail_intact : Intact (w.detail env actor id) := by
  simp [detail]

@[simp] theorem listEvidence_intact : Intact (w.listEvidence env actor taskId) := by
  simp [listEvidence]

@[simp] theorem listFindings_intact : Intact (w.listFindings env actor taskId) := by
  simp [listFindings]

@[simp] theorem listDecisions_intact : Intact (w.listDecisions env actor id) := by
  simp [listDecisions]

@[simp] theorem evidenceInTask_intact : Intact (w.evidenceInTask env actor item refs) := by
  simp [evidenceInTask]

variable {findings decisions : List RevisionRef}

@[simp] theorem validateSelection_intact :
    Intact (w.validateSelection env actor taskId refs findings decisions) := by
  simp [validateSelection]

@[simp] theorem agentExecution_intact : Intact (w.agentExecution env actor id) := by
  simp [agentExecution]

/-! ## Counters -/

/-- Every counter can still be increased. -/
structure BelowLimits (w : Workflow) : Prop where
  revision : w.revision < 2 ^ 63 - 1
  items : ∀ item ∈ w.currentItems, item.revision < 2 ^ 63 - 1
  attempts : ∀ item ∈ w.currentItems, item.attemptNumber < 2 ^ 32 - 1
  artifacts : ∀ artifact ∈ w.artifacts, artifact.revision < 2 ^ 63 - 1

theorem bumpRevision_intact (below : item.revision < 2 ^ 63 - 1) : Intact (bumpRevision item) :=
  avoids_of_ok (bumpRevision_iff.mpr ⟨below, rfl⟩)

/-- The task is there, so no other one is changed in its place. -/
theorem updateItem_intact {missing : WorkError} {f : WorkItem → Except WorkError WorkItem}
    (found : w.item id = .ok item) (changed : Intact (f item)) :
    Intact (w.updateItem id missing f) := by
  unfold updateItem
  obtain ⟨rfl, rfl⟩ | ⟨different, next, -⟩ := item_iff.mp found
  · rw [if_pos rfl]
    exact avoids_bind.mpr ⟨changed, fun _ _ => avoids_pure _⟩
  · rw [if_neg different, next]
    simp only [avoids_iffs, Option.isSome_some, okOr_iff, Option.some.injEq, forall_eq']
    exact changed

theorem nextRecordRevision_intact (found : w.item id = .ok item)
    (below : item.revision < 2 ^ 63 - 1) :
    Intact (w.nextRecordRevision id) :=
  updateItem_intact found (bumpRevision_intact below)

theorem bumpSource_intact (below : w.source.revision < 2 ^ 63 - 1) :
    Intact w.bumpSource := by
  rw [bumpSource]
  exact avoids_bind.mpr ⟨bumpRevision_intact below, fun _ _ => avoids_pure _⟩

theorem BelowLimits.of_item (h : BelowLimits w) (found : w.item id = .ok item) :
    item.revision < 2 ^ 63 - 1 := h.items item (item_mem found)

/-! ## Commands -/

variable {context : CommandContext}

theorem cancelAgentExecution_intact (below : BelowLimits w) :
    Intact (w.cancelAgentExecution env actor taskId attemptId id now) := by
  simp only [cancelAgentExecution, avoids_iffs, item_intact, agentExecution_intact, reduceCtorEq]
  intro item found e read _ _
  unfold cancelIfActive
  split
  · obtain ⟨-, here, -⟩ := agentExecution_ok read
    simp only [cancelActive, avoids_iffs, item_intact]
    refine ⟨nextRecordRevision_intact found (below.of_item found), ?_⟩
    intro u bumped _ _
    rw [(nextRecordRevision_ok bumped found).executions, here]
    rfl
  · exact avoids_ok w

variable {supersedes : Option Uuid}

theorem checkSupersededFinding_intact :
    Intact (w.checkSupersededFinding env actor item taskId supersedes) := by
  cases supersedes with
  | none => exact avoids_ok ()
  | some => simp [checkSupersededFinding]

variable {claim : String} {acting : Uuid} {decision : DecisionKind} {adopted reason : Option String}

theorem checkAdopted_intact :
    Intact (checkAdopted decision adopted reason) := by
  have bounded (x : Option String) : Intact (boundedIfSome x) := by
    cases x with
    | none => exact avoids_ok ()
    | some value => exact boundedText_intact value
  simp [checkAdopted, bounded]

variable {revision : Int} {findingId : Uuid}

theorem checkSupersededDecision_intact :
    Intact (w.checkSupersededDecision env actor item taskId findingId revision supersedes) := by
  cases supersedes with
  | none => exact avoids_ok ()
  | some => simp [checkSupersededDecision]

@[simp] theorem editableSource_intact : Intact (w.editableSource taskId) := by
  simp [editableSource]

theorem BelowLimits.source (h : BelowLimits w) : w.source.revision < 2 ^ 63 - 1 :=
  h.items w.source mem_cons_self

theorem BelowLimits.of_artifact (h : BelowLimits w) {accepts : WorkingArtifact → Bool}
    {artifact : WorkingArtifact} (found : w.artifacts.find? accepts = some artifact) :
    artifact.revision < 2 ^ 63 - 1 :=
  h.artifacts artifact (mem_of_find?_eq_some found)

variable {value : TextValue} {target : Option Uuid}

theorem draftArtifact_intact (below : BelowLimits w) :
    Intact (w.draftArtifact env taskId value target) := by
  cases target with
  | none => simp [draftArtifact]
  | some =>
    simp only [draftArtifact, avoids_iffs, reduceCtorEq, okOr_iff]
    intro artifact found _ _
    exact nextRevision_intact (below.of_artifact found)

theorem pinArtifacts_intact {seen : List Uuid} {selected : List ArtifactSelection} :
    Intact (w.pinArtifacts env actor seen selected) := by
  have pinned (artifact : WorkingArtifact) : Intact (w.checkPinned artifact) := by
    unfold checkPinned
    split
    · exact avoids_ok ()
    · split
      · simp only [avoids_iffs, reduceCtorEq]
      · simp only [avoids_error, ne_eq, reduceCtorEq, not_false_eq_true]
  induction selected generalizing seen with
  | nil => exact avoids_ok []
  | cons _ _ ih =>
    simp [pinArtifacts, pinArtifact, pinned, ih]

/-- The number of submissions is that of the attempts that received them. -/
theorem submit_intact {artifacts : List ArtifactSelection} {expected : Option Uuid}
    (standing : Standing time plan w) (below : BelowLimits w) :
    Intact (w.submit env actor taskId acting artifacts expected refs findings decisions now) := by
  have few : w.snapshots.length < 2 ^ 32 - 1 := by
    rw [standing.submissions]
    cases found : w.next with
    | none => decide
    | some item => exact below.attempts item (by simp [currentItems, found])
  have following : Intact (w.nextAttempt env plan) := by
    cases found : w.next with
    | none =>
      simp only [nextAttempt, found]
      exact avoids_ok _
    | some item =>
      have here : item ∈ w.currentItems := by simp [currentItems, found]
      simp only [nextAttempt, found, avoids_iffs]
      exact ⟨nextNumber_intact (below.attempts item here), fun _ _ =>
        nextRevision_intact (below.items item here)⟩
  have source := below.source
  simp only [submit, nextSubmissionNumber, avoids_iffs, validateSelection_intact,
    pinArtifacts_intact, reduceCtorEq, standing.planned, avoids_ok, Except.ok.injEq, forall_eq']
  intros
  exact ⟨⟨by omega, fun _ _ => nextNumber_intact few⟩, fun _ _ => ⟨bumpRevision_intact source,
    fun _ _ => following⟩⟩

@[simp] theorem authorizeAssigned_intact {action : PolicyAction} :
    Intact (w.authorizeAssigned env actor item acting action) := by
  simp [authorizeAssigned]

@[simp] theorem authorizeArtifact_intact : Intact (w.authorizeArtifact env actor item id) := by
  simp [authorizeArtifact]

theorem hidden_ne : w.hidden env actor item ≠ .integrityViolation := by
  unfold hidden
  split <;> simp

theorem authorizeCommand_intact : Intact (w.authorizeCommand env actor command) := by
  simp only [authorizeCommand, avoids_iffs, item_intact, reduceCtorEq]
  intro _ _ responsibility _ item _
  split
  · simp [hidden_ne]
  · simp only [avoids_iffs, hidden_ne, reduceCtorEq]
  · simp only [avoids_bind, authorizeAssigned_intact, true_and]
    intro _ _
    split
    · exact avoids_ok ()
    · exact authorizeArtifact_intact
  · simp
  · simp only [avoids_iffs, authorizeAssigned_intact, authorizeArtifact_intact]
  · exact authorizeAssigned_intact

theorem applyValidated_intact (standing : Standing time plan w) (below : BelowLimits w)
    (authorized : w.authorizeCommand env actor command = .ok ())
    (found : w.item command.taskId = .ok item) :
    Intact (w.applyValidated env actor command now) := by
  have apart (plan : ContextFixture) (planned : w.plan = .ok plan) :
      w.source.id ≠ plan.nextTaskId :=
    validateIntegrity_apart standing.validates planned
  cases command with
  | hold | resume =>
    simp only [applyValidated, pause, avoids_iffs, item_intact, reduceCtorEq]
    intro item found _ _ _ _
    have small := below.of_item found
    exact updateItem_intact found (bumpRevision_intact small)
  | complete =>
    simp only [applyValidated, complete, avoids_iffs, item_intact, reduceCtorEq, ensure_iff,
      okOr_iff]
    intro item found _ allowed
    obtain ⟨isNext, -⟩ := completionAction_next apart found allowed
    refine ⟨by rw [isNext]; rfl, ?_⟩
    intro next here
    obtain rfl : item = next := Option.some.inj (isNext.symm.trans here)
    have small := below.of_item found
    exact bumpRevision_intact small
  | requestAgentExecution =>
    simp only [applyValidated, applyAgent, requestAgentExecution, avoids_iffs, item_intact,
      boundedText_intact, validateSelection_intact, reduceCtorEq]
    intro item found _ _ _ _ _ _ _ _ _ _ _ _
    refine ⟨nextRecordRevision_intact found (below.of_item found), ?_⟩
    intro u bumped
    exact nextRevision_intact ((nextRecordRevision_ok bumped found).revision ▸ below.revision)
  | cancelAgentExecution => exact cancelAgentExecution_intact below
  | registerEvidence | recordDecision =>
    simp only [applyValidated, applyEvidence, registerEvidence, recordDecision, avoids_iffs,
      item_intact, boundedText_intact, listEvidence_intact, finding_intact, checkAdopted_intact,
      resolveEvidence_intact, evidenceInTask_intact, checkSupersededDecision_intact,
      listDecisions_intact, reduceCtorEq]
    intro item here
    intros
    exact nextRecordRevision_intact here (below.of_item here)
  | registerFinding =>
    simp only [authorizeCommand, authorizeAssigned, except_iffs] at authorized
    obtain ⟨-, _, -, item', here, -, acts, -⟩ := authorized
    obtain rfl : item = item' := Except.ok.inj (found.symm.trans here)
    simp only [applyValidated, applyEvidence, registerFinding, avoids_iffs, item_intact,
      reduceCtorEq]
    intros
    constructor
    · simp only [createFinding, avoids_iffs, item_intact, boundedText_intact,
        resolveEvidence_intact, evidenceInTask_intact, checkSupersededFinding_intact,
        listFindings_intact, reduceCtorEq]
      intro other here
      intros
      -- An author acts under the responsibility recorded for the attempt.
      rw [← Except.ok.inj (found.symm.trans here), acts]
      rfl
    · intro f _
      exact nextRecordRevision_intact found (below.of_item found)
  | «return» =>
    simp only [applyValidated, applyReturn, avoids_iffs, item_intact, boundedText_intact,
      reduceCtorEq, okOr_iff]
    intro item found _ _ _ _ permitted allowed _ _
    obtain ⟨isNext, -⟩ := returnTransition_next found allowed
    have source : w.source ∈ w.currentItems := mem_cons_self
    refine ⟨nextNumber_intact (below.attempts _ source), fun _ _ =>
      ⟨nextRevision_intact (below.items _ source), fun _ _ => ⟨by rw [isNext]; rfl, ?_⟩⟩⟩
    intro office here
    obtain rfl : item = office := Option.some.inj (isNext.symm.trans here)
    have small := below.of_item found
    exact bumpRevision_intact small
  | assign taskId =>
    simp only [applyValidated, assign, avoids_iffs, boundedReason_intact, item_intact, reduceCtorEq]
    intro _ _ item found
    intros
    have small := below.of_item found
    have here : { w with
        assignments := updateFirst (isOpenPeriod item) (endPeriod actor now) w.assignments }.item
          taskId = .ok item := found
    exact updateItem_intact here (bumpRevision_intact small)
  | saveDraft =>
    simp only [applyValidated, saveDraft, avoids_iffs, editableSource_intact, boundedText_intact,
      draftArtifact_intact below]
    intro _ _ _ _ saved drafted
    obtain ⟨l, changed⟩ := draftArtifact_ok drafted
    exact bumpSource_intact (changed ▸ below.source)
  | claim taskId =>
    have read : Intact (w.sourceOrNext taskId) := by
      unfold sourceOrNext
      split
      · exact avoids_ok _
      · simp only [avoids_okOr, reduceCtorEq, false_implies]
    have small := below.of_item found
    simp only [applyValidated, claim, avoids_iffs, read, item_intact, reduceCtorEq]
    intros
    exact updateItem_intact found (bumpRevision_intact small)
  | writeArtifactContent =>
    simp only [applyValidated, applyFiles, writeArtifactContent, avoids_iffs, editableSource_intact,
      reduceCtorEq, okOr_iff]
    intro _ _ _ _ artifact found _ _ _ _
    refine ⟨nextRevision_intact (below.of_artifact found), ?_⟩
    intros
    exact bumpSource_intact below.source
  | createFileArtifact | discardArtifact | importSubmission =>
    simp only [applyValidated, applyFiles, createFileArtifact, discardArtifact, importSubmission,
      avoids_iffs, editableSource_intact, snapshot_intact, reduceCtorEq]
    intros
    exact bumpSource_intact below.source
  | submit => exact submit_intact standing below

/-! ## One command -/

/-- The executions that fail are there. -/
theorem foldlM_failContext_total {ids : List Uuid}
    (known : ∀ id ∈ ids, id ∈ w.agentExecutions.map (·.id)) :
    ∃ v, ids.foldlM (failContext now) w = .ok v := by
  induction ids generalizing w with
  | nil => exact ⟨w, rfl⟩
  | cons _ _ ih =>
    obtain ⟨here, rest⟩ := forall_mem_cons.mp known
    obtain ⟨e, he, rfl⟩ := mem_map.mp here
    obtain ⟨found, hfound⟩ : ∃ found, (w.agentExecutions.find? fun x => x.id = e.id) = some found :=
      Option.isSome_iff_exists.mp (find?_isSome.mpr ⟨e, he, decide_eq_true rfl⟩)
    have same : (w.updateExecution e.id (failStale now)).agentExecutions.map (·.id) =
        w.agentExecutions.map (·.id) := map_updateFirst fun _ _ => rfl
    obtain ⟨v, folded⟩ := ih (w := w.updateExecution e.id (failStale now)) (by rw [same]; exact
      rest)
    refine ⟨v, ?_⟩
    rw [foldlM_cons, except_bind_iff]
    refine ⟨_, ?_, folded⟩
    rw [failContext, hfound]
    rfl

theorem invalidateAgentContexts_total (distinct : (w.agentExecutions.map (·.id)).Nodup) :
    w.invalidateAgentContexts now =
      .ok { w with agentExecutions := w.agentExecutions.map (w.settle now) } := by
  obtain ⟨v, invalidated⟩ : ∃ v, w.invalidateAgentContexts now = .ok v := by
    refine foldlM_failContext_total ?_
    intro id hid
    obtain ⟨e, he, rfl⟩ := mem_map.mp hid
    exact mem_map_of_mem (mem_of_mem_filter he)
  obtain ⟨-, ids⟩ := foldlM_failContext invalidated
  rw [invalidated, invalidateAgentContexts_ok invalidated (by rw [ids]; exact distinct)]

/-- Every execution was requested by a command of the run. -/
def Issued (trace : List Command) (w : Workflow) : Prop :=
  ∀ e ∈ w.agentExecutions, ∃ command ∈ trace, command.context.operationId = e.id

theorem apply_intact (standing : Standing env.time plan w) (issued : Issued trace w)
    (below : BelowLimits w) (fresh : FreshDraws w env.draw)
    (unused : ∀ earlier ∈ trace, earlier.context.operationId ≠ command.context.operationId)
    (parseable : (env.time.parse now).isSome = true)
    (acting : command.isRequest = true → command.context.actingAssignmentId ≠ nilUuid) :
    Intact (w.apply env actor command now) := by
  simp only [apply, avoids_iffs, item_intact, authorizeCommand_intact, parseable, reduceCtorEq]
  intro instant _
  have begun := standing.attached { w.authority with evaluatedAt := some instant }
  refine ⟨avoids_of_ok begun.validates, ?_⟩
  intro _ _ _ authorized item found _ _ _ _
  refine ⟨applyValidated_intact begun { below with } authorized found, ?_⟩
  rintro ⟨u, result⟩ applied
  have effect := applyValidated_effect found (fun _ => validateIntegrity_apart begun.validates)
    applied
  have same := effect.sameInstance
  have version : versionNum command.context.operationId = 7 := by
    simp only [authorizeCommand, except_iffs] at authorized
    obtain ⟨⟨version, -⟩, -⟩ := authorized
    exact version
  have issuable (item : WorkItem) (e : AgentExecution) (asks : command.isRequest = true)
      (request : Requested { w with authority := { w.authority with evaluatedAt := some instant } }
        command.context item e) (_ : u.agentExecutions = w.agentExecutions ++ [e]) :
      Issuable { w with authority := { w.authority with evaluatedAt := some instant } } e := by
    refine ⟨request.id ▸ version, request.requester ▸ acting asks, ?_⟩
    intro other hother again
    obtain ⟨earlier, hearlier, sameId⟩ := issued other hother
    exact unused earlier hearlier (sameId.trans (again.trans request.id))
  have after := effect.standing begun { fresh with } issuable u.authority
  have distinct := (effect.checked begun.toGrounded begun.checked issuable).ids
  refine ⟨nextRevision_intact (same.revision ▸ below.revision), ?_⟩
  intro revision bumped
  obtain ⟨-, rfl⟩ := nextRevision_iff.mp bumped
  have settled : { u.closeFinishedAssignments now with revision := u.revision + 1
      }.invalidateAgentContexts now = .ok (u.concluded now) := invalidateAgentContexts_total
        distinct
  refine ⟨avoids_of_ok settled, ?_⟩
  intro z here
  obtain rfl : u.concluded now = z := Except.ok.inj (settled.symm.trans here)
  exact avoids_of_ok after.validates

/-! ## Runs -/

theorem Effect.origin {e : AgentExecution} (h : Effect env actor command now w u)
    (he : e ∈ u.agentExecutions) :
    (∃ old ∈ w.agentExecutions, old.id = e.id) ∨ command.context.operationId = e.id := by
  cases h with
  | kept | completed | returned | submitted => exact .inl ⟨e, he, rfl⟩
  | paused _ _ _ _ placed | assigned _ _ _ _ _ _ placed =>
    cases placed <;> exact .inl ⟨e, he, rfl⟩
  | recorded records _ placed => cases records <;> cases placed <;> exact .inl ⟨e, he, rfl⟩
  | requested _ _ _ request placed =>
    obtain old | new := mem_append.mp he
    · exact .inl ⟨e, placed.executions ▸ old, rfl⟩
    · rw [mem_singleton.mp new]
      exact .inr request.id.symm
  | cancelled _ _ _ _ _ placed =>
    obtain old | ⟨old, found, rfl⟩ := mem_updateFirst he
    · exact .inl ⟨e, placed.executions ▸ old, rfl⟩
    · exact .inl ⟨old, placed.executions ▸ mem_of_find?_eq_some found, rfl⟩

theorem Applied.issued (h : Applied env actor command now w u v) (before : Issued trace w) :
    Issued (command :: trace) v := by
  intro e he
  rw [h.executions] at he
  obtain ⟨x, hx, rfl⟩ := mem_map.mp he
  rw [settle_id]
  obtain ⟨old, hold, same⟩ | new := h.effect.origin hx
  · obtain ⟨earlier, hearlier, sameId⟩ := before old hold
    exact ⟨earlier, .tail _ hearlier, sameId.trans same⟩
  · exact ⟨command, .head _, new⟩

/-- A successful command, with any authority attached, clock read and fresh identifiers drawn. -/
def CommandStep (time : TimeText) (w : Workflow) (command : Command) (v : Workflow) : Prop :=
  ∃ authority clock draw actor now result, FreshDraws w draw ∧
    { w with authority }.apply ⟨time, clock, draw⟩ actor command now = .ok (v, result)

theorem CommandStep.standing (before : Standing time plan w ∧ Issued trace w)
    (h : CommandStep time w command v) :
    Standing time plan v ∧ Issued (command :: trace) v := by
  obtain ⟨authority, clock, draw, actor, now, result, fresh, applied⟩ := h
  obtain ⟨w', u, ⟨authority', rfl⟩, done⟩ := apply_ok applied
  exact ⟨done.standing (before.1.attached authority') { fresh with }, done.issued before.2⟩

/-- The attempt a fixture starts with has an identifier of its own. -/
structure SeparateAttempt (w : Workflow) : Prop where
  nonzero : w.source.attemptId ≠ nilUuid
  apart : ∀ plan, w.plan = .ok plan → w.source.attemptId ≠ plan.nextAttemptId

/-- The workflows that successful commands lead to from a fixture. -/
def Commanded (time : TimeText) (trace : List Command) (w : Workflow) : Prop :=
  ∃ fixture documentId seededAt start, fromFixture time fixture documentId seededAt = .ok start ∧
    SeparateAttempt start ∧ Run (CommandStep time) start trace w

/-- A fixture starts without records. -/
structure Unused (w : Workflow) : Prop where
  assignments : w.assignments = []
  findings : w.findings = []
  generated : w.generatedArtifacts = []
  suggested : w.suggestedActions = []
  revision : w.revision = 0

theorem standing_of_fresh (fresh : Fresh w) (unused : Unused w) (separate : SeparateAttempt w)
    (planned : w.plan = .ok plan) (checked : w.checkPlan time plan = .ok ())
    (items : w.checkItems = .ok ()) : Standing time plan w := by
  simp only [checkPlan, ensure_iff] at checked
  obtain ⟨context, source, definition, -, due⟩ := checked
  simp only [checkItems, ensure_iff] at items
  have here : w.source ∈ w.allItems := mem_allItems.mpr (.inl rfl)
  obtain ⟨owner, number, revision, assigned⟩ := items.1 w.source here
  have single : ItemSound time w.id w.source := ⟨due w.source here, owner, number, revision,
    assigned,
    separate.nonzero, fun done => absurd done fresh.unfinished⟩
  exact {
    planned
    context
    definition
    bound := bound_of_none (by rw [activeCount, fresh.executions]; rfl)
    phased := fresh.phased
    items := by
      unfold ItemsSound
      rw [fresh.next, fresh.archived]
      exact {
        each := by simpa using single
        distinct := nodup_singleton _
        source
        next := by simp
        first := fun _ => separate.apart plan planned
        archived := by simp }
    periods := by
      rw [unused.assignments]
      exact ⟨nodup_nil, by simp⟩
    checked := {
      ids := by simp [fresh.executions]
      each := by simp [fresh.executions]
      listed := by simp [unused.findings]
      candidates := by
        rw [validateCandidateIntegrity, unused.generated, unused.suggested, fresh.executions]
        rfl }
    submissions := by
      rw [fresh.snapshots, fresh.next]
      rfl
    revision := by rw [unused.revision] }

variable {fixture : ContextFixture} {documentId : Option Uuid} {seededAt : Instant}

theorem fromFixture_unused (h : fromFixture time fixture documentId seededAt = .ok w) :
    Unused w := by
  unfold fromFixture at h
  split at h
  · cases h
    exact ⟨rfl, rfl, rfl, rfl, rfl⟩
  · simp only [except_iffs] at h
    obtain ⟨_, -, source, -, -, rfl⟩ := h
    exact ⟨rfl, rfl, rfl, rfl, rfl⟩

theorem synthetic_plan (documentId : Option Uuid) : (synthetic documentId).plan = .ok fixtureA :=
    rfl

theorem fromFixture_standing (h : fromFixture time fixture documentId seededAt = .ok w)
    (separate : SeparateAttempt w) :
    ∃ plan, Standing time plan w := by
  have fresh := fromFixture_fresh h
  have unused := fromFixture_unused h
  unfold fromFixture at h
  split at h
  · cases h
    refine ⟨fixtureA, standing_of_fresh fresh unused separate (synthetic_plan documentId) ?_ ?_⟩
    · rw [checkPlan, ensure_iff]
      refine ⟨rfl, rfl, by simp [synthetic, fixtureA], by simp [synthetic], ?_⟩
      simp [allItems, currentItems, synthetic]
    · rw [checkItems, ensure_iff]
      simp [allItems, currentItems, synthetic]
  · simp only [except_iffs] at h
    obtain ⟨_, -, source, -, valid, rfl⟩ := h
    simp only [validateIntegrity, except_bind_iff] at valid
    obtain ⟨plan, planned, _, checked, _, items, -⟩ := valid
    exact ⟨plan, standing_of_fresh fresh unused separate planned checked items⟩

theorem Commanded.standing (h : Commanded time trace w) :
    ∃ plan, Standing time plan w ∧ Issued trace w := by
  obtain ⟨_, _, _, start, seeded, separate, run⟩ := h
  obtain ⟨plan, begun⟩ := fromFixture_standing seeded separate
  refine ⟨plan, run.invariant (P := fun trace w => Standing time plan w ∧ Issued trace w)
    ⟨begun, ?_⟩ fun _ _ _ _ holds taken => taken.standing holds⟩
  simp [Issued, (fromFixture_fresh seeded).executions]

/-- Every workflow reached passes its checks, and no command on it reports a violation while its
counters are below their limits, unless it requests an execution under the nil responsibility. -/
theorem commands_keep_integrity (reached : Commanded time trace w) :
    w.validateIntegrity time = .ok () ∧
      ∀ authority clock draw actor command now, FreshDraws w draw →
        (∀ earlier ∈ trace, earlier.context.operationId ≠ command.context.operationId) →
        (time.parse now).isSome = true → BelowLimits w →
        (command.isRequest = true → command.context.actingAssignmentId ≠ nilUuid) →
        { w with authority }.apply ⟨time, clock, draw⟩ actor command now ≠
          .error .integrityViolation := by
  obtain ⟨plan, standing, issued⟩ := reached.standing
  refine ⟨standing.validates, ?_⟩
  intro authority clock draw actor command now fresh unused parseable below acting
  show Intact ({ w with authority }.apply ⟨time, clock, draw⟩ actor command now)
  exact apply_intact (standing.attached authority) issued { below with } { fresh with } unused
    parseable acting

/-! Commands on a workflow of the first fixture, under a policy with a nil responsibility. -/

def sampleDraw (n k : Nat) : Uuid := fromU128 (0x0190000000007000800000000000e100 + 2 * n + k % 2)

/-- The identifiers that the command `n` can draw are not in use. -/
def drawable (w : Workflow) (n : Nat) : Bool :=
  [sampleDraw n 0, sampleDraw n 1].all fun id => decide (id ≠ nilUuid ∧
    (∀ item ∈ w.allItems, item.attemptId ≠ id) ∧ ∀ record ∈ w.assignments, record.id ≠ id)

theorem freshDraws_of_drawable {n : Nat} (h : w.drawable n = true) :
    FreshDraws w (sampleDraw n) := by
  have each (k : Nat) : sampleDraw n k ≠ nilUuid ∧ (∀ item ∈ w.allItems, item.attemptId ≠
    sampleDraw n k) ∧
      ∀ record ∈ w.assignments, record.id ≠ sampleDraw n k := by
    have mem : sampleDraw n k ∈ [sampleDraw n 0, sampleDraw n 1] := by
      obtain even | odd := Nat.mod_two_eq_zero_or_one k
      · simp [sampleDraw, even]
      · simp [sampleDraw, odd]
    exact of_decide_eq_true (all_eq_true.mp h _ mem)
  exact ⟨fun k => (each k).1, fun k => (each k).2.1, fun k => (each k).2.2⟩

def sampleAuthority : PolicyAuthority where
  policy := some { OrganizationPolicy.synthetic with
    roleAssignments := OrganizationPolicy.synthetic.roleAssignments ++
      [fixtureAssignment nilUuid .sales01 roleSalesId unitSalesId] }
  evaluatedAt := none
  acknowledged := none
  generations := .none

def issueAt (w : Workflow) (n : Nat) (actor : VerifiedActor) (command : Command) : Mutated :=
  { w with authority := sampleAuthority }.apply ⟨sampleTime, 0, sampleDraw n⟩
    actor command sampleNow

/-- An operation that draws fresh identifiers. -/
def performFresh (n : Nat) (w : Workflow) (operation : Operation) : Except WorkError Workflow := do
  ensure (w.drawable n = true) .validationFailed
  perform ⟨sampleTime, 0, sampleDraw n⟩ { w with authority := sampleAuthority } operation

/-- The approver assigns; every other command is the assignee's. -/
def sampleIssuer : Command → VerifiedActor
  | .assign .. => .approver01
  | _ => .sales01

/-- Commands that follow one another, each with fresh identifiers. -/
def issueAll : Workflow → List Command → Except WorkError Workflow :=
  Run.replay fun n w command => w.performFresh n (.apply (sampleIssuer command) command sampleNow)

theorem run_issueAll (h : w.issueAll trace = .ok v) : Run (CommandStep sampleTime) w trace v := by
  refine Run.of_replay (fun n u command t issued => ?_) h
  simp only [performFresh, except_iffs] at issued
  obtain ⟨drawable, done⟩ := issued
  obtain ⟨⟨_, result⟩, applied, rfl⟩ := except_map_iff.mp done
  exact ⟨_, _, _, _, _, result, freshDraws_of_drawable drawable, applied⟩

def sampleEvidence (acting : Uuid) (revision : Int) : Command :=
  .registerEvidence salesTaskId (sampleContext 1 revision acting) salesAttemptId sampleSource "第1頁"

def sampleAsk (acting : Uuid) (revision : Int) (evidence : Uuid) : Command :=
  .requestAgentExecution salesTaskId (sampleContext 2 revision acting) salesAttemptId "要約"
    [⟨evidence, 1⟩]

/-- The source task is given to its own assignee under the nil responsibility. -/
def sampleReassign : Command :=
  .assign salesTaskId (sampleContext 0 0 approverManagementAssignmentId) salesAttemptId .sales01
    nilUuid "担当変更"

def belowLimits (w : Workflow) : Bool :=
  decide (w.revision < 2 ^ 63 - 1 ∧ (∀ item ∈ w.currentItems, item.revision < 2 ^ 63 - 1) ∧
    (∀ item ∈ w.currentItems, item.attemptNumber < 2 ^ 32 - 1) ∧
    ∀ artifact ∈ w.artifacts, artifact.revision < 2 ^ 63 - 1)

theorem belowLimits_iff : w.belowLimits = true ↔ BelowLimits w := by
  rw [belowLimits, decide_eq_true_iff]
  exact ⟨fun h => ⟨h.1, h.2.1, h.2.2.1, h.2.2.2⟩, fun h => ⟨h.1, h.2, h.3, h.4⟩⟩

theorem synthetic_separate (documentId : Option Uuid) : SeparateAttempt (synthetic documentId) := by
  have apart : salesAttemptId ≠ nilUuid ∧ salesAttemptId ≠ fixtureA.nextAttemptId := by
    decide
  refine ⟨apart.1, ?_⟩
  intro plan planned
  rw [synthetic_plan] at planned
  cases planned
  exact apart.2

def refusedWith (e : WorkError) {α : Type} : Except WorkError α → Bool
  | .ok _ => false
  | .error failure => failure = e

theorem refusedWith_iff {e : WorkError} {α : Type} {x : Except WorkError α} :
    refusedWith e x = true ↔ x = .error e := by
  cases x with
  | ok | error => simp [refusedWith]

/-- A request under the nil responsibility passes every check but the last. -/
theorem nil_responsibility_violates : ∃ w trace command,
    Commanded sampleTime trace w ∧ FreshDraws w (sampleDraw 2) ∧
      (∀ earlier ∈ trace, earlier.context.operationId ≠ command.context.operationId) ∧
      (sampleTime.parse sampleNow).isSome = true ∧
      BelowLimits w ∧ w.issueAt 2 .sales01 command = .error .integrityViolation := by
  have done : ((synthetic (some sampleDocument)).issueAll
      [sampleEvidence nilUuid 1, sampleReassign]).toOption.any (fun w =>
        w.drawable 2 && w.belowLimits && refusedWith .integrityViolation
          (w.issueAt 2 .sales01 (sampleAsk nilUuid 2 (sampleDraw 1 0)))) = true := by
    decide
  obtain ⟨w, issued, holds⟩ := any_exists done
  simp only [Bool.and_eq_true] at holds
  obtain ⟨⟨drawable, below⟩, refused⟩ := holds
  refine ⟨w, _, sampleAsk nilUuid 2 (sampleDraw 1 0), ⟨fixtureA, some sampleDocument, 0, _, rfl,
    synthetic_separate _, run_issueAll (toOption_some issued)⟩, freshDraws_of_drawable drawable, ?_,
    by decide, belowLimits_iff.mp below, refusedWith_iff.mp refused⟩
  decide

theorem commands_keep_integrity_sample : ∃ w trace command,
    Commanded sampleTime trace w ∧ command.isRequest = true ∧
      (w.issueAt 1 .sales01 command).isOk = true ∧
      w.issueAt 1 .sales01 command ≠ .error .integrityViolation := by
  have done : ((synthetic (some sampleDocument)).issueAll
      [sampleEvidence salesAssignmentId 0]).toOption.any (fun w =>
        w.drawable 1 && w.belowLimits &&
          (w.issueAt 1 .sales01 (sampleAsk salesAssignmentId 1 (sampleDraw 0 0))).isOk) = true := by
    decide
  obtain ⟨w, issued, holds⟩ := any_exists done
  simp only [Bool.and_eq_true] at holds
  obtain ⟨⟨drawable, below⟩, accepted⟩ := holds
  have reached : Commanded sampleTime [sampleEvidence salesAssignmentId 0] w :=
    ⟨fixtureA, some sampleDocument, 0, _, rfl, synthetic_separate _,
      run_issueAll (toOption_some issued)⟩
  refine ⟨w, _, sampleAsk salesAssignmentId 1 (sampleDraw 0 0), reached, rfl, accepted, ?_⟩
  refine (commands_keep_integrity reached).2 _ _ _ _ _ _ (freshDraws_of_drawable drawable) ?_
    (by decide) (belowLimits_iff.mp below) fun _ => by decide
  decide

end Workflow

end KnowledgePlatform.Work
