import KnowledgePlatform.Work.Revocation
import KnowledgePlatform.Work.Standing

/-! Which of the actions that a task list advertises succeed. -/

namespace KnowledgePlatform.Work.Workflow

open List

variable {w u v : Workflow} {env : Env} {actor : VerifiedActor} {command : Command} {now : String}
  {plan : ContextFixture} {item : WorkItem} {instant : Instant} {r : MutationResult}
  {id taskId acting : Uuid}

/-! ## What completes a command -/

/-- A command that was carried out passes the checks that follow it. -/
theorem apply_total (standing : Standing env.time plan w) (below : w.revision < 2 ^ 63 - 1)
    (fresh : FreshDraws w env.draw) (parsed : env.time.parse now = some instant)
    (attached : w.authority.evaluatedAt = some instant)
    (authorized : w.authorizeCommand env actor command = .ok ())
    (found : w.item command.taskId = .ok item)
    (expected : item.revision = command.context.expectedRevision)
    (going : item.state = .held → isResumeOrAssign command = true)
    (unasked : command.isRequest = false)
    (done : w.applyValidated env actor command now = .ok (u, r)) :
    ∃ v r, w.apply env actor command now = .ok (v, r) := by
  have here : { w with authority := { w.authority with evaluatedAt := some instant } } = w := by
    rw [← attached]
  have effect := applyValidated_effect found (fun _ => validateIntegrity_apart standing.validates)
    done
  have revision : u.revision = w.revision := effect.sameInstance.revision
  have issuable (item : WorkItem) (e : AgentExecution) (asks : command.isRequest = true)
      (_ : Requested w command.context item e)
      (_ : u.agentExecutions = w.agentExecutions ++ [e]) : Issuable w e := by
    rw [unasked] at asks
    cases asks
  have distinct := (effect.checked standing.toGrounded standing.checked issuable).ids
  have settled : { u.closeFinishedAssignments now with revision := u.revision + 1
      }.invalidateAgentContexts now = .ok (u.concluded now) :=
        invalidateAgentContexts_total distinct
  have after := effect.standing standing fresh issuable u.authority
  refine ⟨{ u.concluded now with authority := w.authority }, r, ?_⟩
  simp only [apply, except_iffs, nextRevision_iff, Prod.mk.injEq, parsed, Option.some.injEq,
    exists_eq_left', here]
  exact ⟨standing.validates, authorized, item, found, expected, going, (u, r), done, u.revision + 1,
    ⟨revision ▸ below, rfl⟩, u.concluded now, settled, after.validates, rfl, rfl⟩

theorem apply_parts (parsed : env.time.parse now = some instant)
    (attached : w.authority.evaluatedAt = some instant)
    (h : w.apply env actor command now = .ok (v, r)) :
    w.authorizeCommand env actor command = .ok () ∧ ∃ item, w.item command.taskId = .ok item ∧
      item.revision = command.context.expectedRevision ∧
      (item.state = .held → isResumeOrAssign command = true) ∧
      ∃ u r, w.applyValidated env actor command now = .ok (u, r) := by
  have here : { w with authority := { w.authority with evaluatedAt := some instant } } = w := by
    rw [← attached]
  simp only [apply, except_iffs, parsed, Option.some.injEq, exists_eq_left', here] at h
  obtain ⟨-, authorized, item, found, expected, going, ⟨u, r⟩, done, -⟩ := h
  exact ⟨authorized, item, found, expected, going, u, r, done⟩

/-! ## What is open at a task -/

/-- The definition lets the current attempt pause in this state. -/
def Pauses (w : Workflow) (item : WorkItem) (state : TaskState) : Prop :=
  w.pausable = true ∧
    ((item.id = w.source.id ∧ item.stepId = salesStepId) ∨ w.isNext item = true) ∧
    item.workAssignmentId.isSome = true ∧ item.state = state

/-- The submission that the next task holds is the one the source task made. -/
def HoldsSubmission (w : Workflow) (item : WorkItem) : Prop :=
  ∃ snapshot ∈ w.snapshots, some snapshot.id = item.handoffSnapshotId ∧
    some snapshot.id = w.source.handoffSnapshotId ∧ snapshot.sourceTaskId = w.source.id ∧
    snapshot.sourceAttemptId = w.source.attemptId ∧ snapshot.targetTaskId = item.id

/-- What the definition and the states of the tasks leave open at a task, claims apart, to a
responsibility that allows it. -/
def LeavesOpen (w : Workflow) (item : WorkItem) : PolicyAction → Prop
  | .workHold => w.Pauses item .active
  | .workResume => w.Pauses item .held
  | .workComplete => w.completable = true ∧ w.isNext item = true ∧ item.state = .active
  | .workReturn => w.returnable = true ∧ w.isNext item = true ∧ item.state = .active ∧
      w.source.state = .completed ∧ w.HoldsSubmission item
  | _ => False

/-- If the task is the actor's, the responsibility recorded for the attempt allows to read the task
wherever it allows an action that is open at it. -/
def ReadableWhereOpen (w : Workflow) (item : WorkItem) (time : TimeText)
    (policy : OrganizationPolicy) (actor : VerifiedActor) (instant : Instant) : Prop :=
  item.assignee = some actor → ∀ acting value, item.actingAssignmentId = some acting →
    policy.responsibility time actor acting instant = some value →
    stepRole item = some value.roleId →
    ∀ action, w.LeavesOpen item action → value.allows action = true → value.allows .workRead = true

theorem canAct_iff {action : PolicyAction} : w.canAct env actor item action = true ↔
    item.assignee = some actor ∧ ∃ acting value, item.actingAssignmentId = some acting ∧
      w.policy.responsibility env.time actor acting (w.evaluatedAt env) = some value ∧
      stepRole item = some value.roleId ∧ value.allows action = true := by
  simp only [canAct, Bool.and_eq_true, decide_eq_true_eq, Option.any_eq_true]
  constructor
  · rintro ⟨own, acting, recorded, held⟩
    obtain ⟨value, given⟩ := Option.isSome_iff_exists.mp held
    simp only [stepResponsibility, Option.bind_eq_bind, Option.bind_eq_some_iff,
      Option.filter_eq_some_iff, Bool.and_eq_true, decide_eq_true_eq] at given
    obtain ⟨role, step, known, rfl, allowed⟩ := given
    exact ⟨own, acting, value, recorded, known, step, allowed⟩
  · rintro ⟨own, acting, value, recorded, known, step, allowed⟩
    exact ⟨own, acting, recorded, by simp [stepResponsibility, step, known, allowed]⟩

theorem pauseAction_iff (resume : Bool) : (w.pauseAction env actor item resume).isSome = true ↔
    w.Pauses item (if resume then .held else .active) ∧
      w.canAct env actor item (if resume then .workResume else .workHold) = true := by
  simp only [pauseAction, Pauses, Option.isSome_ite]
  tauto

theorem completionAction_iff : (w.completionAction env actor item).isSome = true ↔
    w.LeavesOpen item .workComplete ∧ w.canAct env actor item .workComplete = true := by
  simp only [completionAction, LeavesOpen, Option.isSome_ite]
  tauto

theorem returnTransition_iff : (w.returnTransition env actor item).isSome = true ↔
    w.LeavesOpen item .workReturn ∧ w.canAct env actor item .workReturn = true := by
  rw [LeavesOpen, returnTransition]
  split
  next allowed => simp [allowed, HoldsSubmission, Option.isSome_bind]
  next refused =>
    simp only [Option.isSome_none, Bool.false_eq_true, false_iff]
    tauto

/-- The flags, claims apart, report what is open at the task and allowed to the actor. -/
theorem flags_iff {scope : Option Uuid} {s : TaskSummary}
    (shown : s = w.summaryIn env actor item scope) :
    (s.canHold = true ∨ s.canResume = true ∨ s.canComplete = true ∨ s.canReturn = true) ↔
      ∃ action, w.LeavesOpen item action ∧ w.canAct env actor item action = true := by
  subst shown
  simp only [summaryIn, pauseAction_iff, completionAction_iff, returnTransition_iff]
  constructor
  · rintro (set | set | set | set)
    exacts [⟨.workHold, set⟩, ⟨.workResume, set⟩, ⟨.workComplete, set⟩, ⟨.workReturn, set⟩]
  · rintro ⟨action, isOpen, able⟩
    cases action with
    | workHold => exact .inl ⟨isOpen, able⟩
    | workResume => exact .inr (.inl ⟨isOpen, able⟩)
    | workComplete => exact .inr (.inr (.inl ⟨isOpen, able⟩))
    | workReturn => exact .inr (.inr (.inr ⟨isOpen, able⟩))
    | _ => exact isOpen.elim

theorem readableWhereOpen_iff :
    ((∃ action, w.LeavesOpen item action ∧ w.canAct env actor item action = true) →
      w.canRead env actor item = true) ↔
    w.ReadableWhereOpen item env.time w.policy actor (w.evaluatedAt env) := by
  constructor
  · intro reads own acting value recorded known step action isOpen allowed
    have able := canAct_iff.mpr ⟨own, acting, value, recorded, known, step, allowed⟩
    obtain ⟨-, _, _, recorded', known', -, read⟩ := canAct_iff.mp (reads ⟨action, isOpen, able⟩)
    obtain rfl := Option.some.inj (recorded.symm.trans recorded')
    obtain rfl := Option.some.inj (known.symm.trans known')
    exact read
  · rintro reads ⟨action, isOpen, able⟩
    obtain ⟨own, acting, value, recorded, known, step, allowed⟩ := canAct_iff.mp able
    exact canAct_iff.mpr ⟨own, acting, value, recorded, known, step,
      reads own acting value recorded known step action isOpen allowed⟩

/-! ## Commands on an assigned attempt -/

/-- The command acts on an attempt under the responsibility recorded for it. -/
def isAssigned : Command → Bool
  | .hold .. | .resume .. | .complete .. | .«return» .. => true
  | _ => false

theorem authorizeCommand_iff (assigned : isAssigned command = true)
    (found : w.item command.taskId = .ok item) :
    w.authorizeCommand env actor command = .ok () ↔
      (versionNum command.context.operationId = 7 ∧ 0 ≤ command.context.expectedRevision) ∧
      w.canRead env actor item = true ∧
      item.actingAssignmentId = some command.context.actingAssignmentId ∧
      (w.stepResponsibility env actor command.context.actingAssignmentId item
        command.requiredAction).isSome = true := by
  have shape : w.authorizeCommand env actor command = (do
      ensure (versionNum command.context.operationId = 7 ∧ 0 ≤ command.context.expectedRevision)
        .validationFailed
      let _ ← okOr (w.policy.responsibility env.time actor command.context.actingAssignmentId
        (w.evaluatedAt env)) .forbidden
      let item ← w.item command.taskId
      w.authorizeAssigned env actor item command.context.actingAssignmentId
        command.requiredAction) := by
    cases command <;> first | rfl | cases assigned
  rw [shape]
  simp only [authorizeAssigned, except_iffs, found, Except.ok.injEq, exists_eq_left']
  constructor
  · rintro ⟨valid, _, -, read, acts⟩
    exact ⟨valid, read, acts⟩
  · rintro ⟨valid, read, acting, held⟩
    obtain ⟨value, given⟩ := Option.isSome_iff_exists.mp held
    simp only [stepResponsibility, Option.bind_eq_bind, Option.bind_eq_some_iff,
      Option.filter_eq_some_iff] at given
    obtain ⟨_, -, known, -⟩ := given
    exact ⟨valid, value, known, read, acting, held⟩

theorem updateItem_total {missing : WorkError} {f : WorkItem → Except WorkError WorkItem}
    {new : WorkItem} (found : w.item id = .ok item) (changed : f item = .ok new) :
    ∃ v, w.updateItem id missing f = .ok v := by
  unfold updateItem
  obtain ⟨rfl, rfl⟩ | ⟨different, next, -⟩ := item_iff.mp found
  · rw [if_pos rfl, changed]
    exact ⟨_, rfl⟩
  · rw [if_neg different, next]
    simp only [except_iffs]
    exact ⟨_, item, rfl, new, changed, rfl⟩

/-! ## Claims -/

variable {context : CommandContext}

section

variable (found : w.item taskId = .ok item)
include found

theorem claim_iff (below : item.revision < 2 ^ 63 - 1) :
    (∃ u r, w.claim env actor taskId context now = .ok (u, r)) ↔
      item.state = .ready ∧ item.assignee = none := by
  have here : w.sourceOrNext taskId = .ok item := by
    unfold sourceOrNext
    obtain ⟨rfl, rfl⟩ | ⟨different, next, -⟩ := item_iff.mp found
    · exact if_pos rfl
    · rw [if_neg different, next]
      rfl
  simp only [claim, except_iffs, here, Except.ok.injEq, exists_eq_left', Prod.mk.injEq]
  constructor
  · rintro ⟨u, r, free, -⟩
    exact free
  · intro free
    have id := item_id found
    let record : WorkAssignmentRecord := ⟨env.draw 0, item.id, item.attemptId, actor,
      context.actingAssignmentId, none, none, none, now, none, none⟩
    have changed : assignTo record .active item = .ok { item with
        state := .active
        assignee := some record.principal
        workAssignmentId := some record.id
        actingAssignmentId := some record.actingAssignmentId
        revision := item.revision + 1 } := bumpRevision_iff.mpr ⟨below, rfl⟩
    obtain ⟨u, done⟩ : ∃ u, w.updateItem taskId .workItemNotFound (assignTo record .active) =
        .ok u :=
      updateItem_total found changed
    obtain ⟨new, again, placed⟩ := updateItem_ok done found
    obtain rfl := Except.ok.inj (changed.symm.trans again)
    exact ⟨_, _, free, u, done, _, placed.item_eq rfl found, rfl, rfl⟩

theorem authorizeClaim_iff :
    w.authorizeCommand env actor (.claim taskId context) = .ok () ↔
      (versionNum context.operationId = 7 ∧ 0 ≤ context.expectedRevision) ∧
      ∃ value, w.policy.responsibility env.time actor context.actingAssignmentId
        (w.evaluatedAt env) = some value ∧ stepRole item = some value.roleId ∧
        value.allows .workClaim = true := by
  simp only [authorizeCommand, except_iffs, exists_const]
  simp only [Command.taskId, found, Except.ok.injEq, exists_eq_left']
  rfl

end

variable {scope : Option Uuid}

/-! ## Listed tasks -/

theorem Phased.item_current (h : Phased w) (mem : item ∈ w.currentItems) :
    w.item item.id = .ok item := by
  obtain rfl | mem := mem_cons.mp mem
  · exact item_iff.mpr (.inl ⟨rfl, rfl⟩)
  · have found : w.next = some item := by simpa using mem
    exact item_iff.mpr (.inr ⟨h.apart item found, found, rfl⟩)

/-- The command succeeds at the instant `now`. -/
def Succeeds (w : Workflow) (env : Env) (actor : VerifiedActor) (now : String) (command : Command) :
    Prop :=
  ∃ v r, w.apply env actor command now = .ok (v, r)

/-- If the flag is set the command offered succeeds, under the responsibility recorded for the
attempt, and if it is not no command of the kind does. -/
def Honours {α : Type} (succeeds : Command → Prop) (s : TaskSummary) (flag : Bool)
    (offer : Option α) (make : Uuid → α → Command) : Prop :=
  (flag = true → ∃ acting x, s.assignment.map (·.actingAssignmentId) = some acting ∧
    offer = some x ∧ succeeds (make acting x)) ∧
  (flag = false → ∀ acting x, ¬ succeeds (make acting x))

structure ActionsHonoured (succeeds : Command → Prop) (s : TaskSummary) (scope : Option Uuid)
    (operation : Uuid) (reason : String) : Prop where
  claim : (s.canClaim = true → ∃ acting, s.claimAssignmentId = some acting ∧
      succeeds (.claim s.id ⟨operation, s.revision, acting⟩)) ∧
    (s.canClaim = false → ∀ acting, (scope.all fun id => acting = id) = true →
      ¬ succeeds (.claim s.id ⟨operation, s.revision, acting⟩))
  hold : Honours succeeds s s.canHold s.holdActionId fun acting =>
    .hold s.id ⟨operation, s.revision, acting⟩ s.attemptId
  resume : Honours succeeds s s.canResume s.resumeActionId fun acting =>
    .resume s.id ⟨operation, s.revision, acting⟩ s.attemptId
  complete : Honours succeeds s s.canComplete s.completionActionId fun acting =>
    .complete s.id ⟨operation, s.revision, acting⟩ s.attemptId
  «return» : Honours succeeds s s.canReturn s.returnTransition fun acting offer =>
    .«return» s.id ⟨operation, s.revision, acting⟩ s.attemptId offer.previousSubmissionId
      offer.targetTaskId offer.transitionId reason

/-- What an offer of a kind of command depends on. -/
structure OfferedAs {α : Type} (w : Workflow) (env : Env) (actor : VerifiedActor) (now : String)
    (item : WorkItem) (operation : Uuid) (action : PolicyAction) (offer : Option α)
    (make : Uuid → α → Command) : Prop where
  assigned : ∀ acting x, isAssigned (make acting x) = true
  context : ∀ acting x, (make acting x).context = ⟨operation, item.revision, acting⟩
  task : ∀ acting x, (make acting x).taskId = item.id
  required : ∀ acting x, (make acting x).requiredAction = action
  acts : offer.isSome = true → w.canAct env actor item action = true
  carried : ∀ acting x,
    (∃ u r, w.applyValidated env actor (make acting x) now = .ok (u, r)) ↔ offer = some x
  going : item.state = .held → ∀ acting x, isResumeOrAssign (make acting x) = true ∨ offer = none

section

variable {operation : Uuid} (phased : Phased w) (below : BelowLimits w)
  (current : item ∈ w.currentItems)
include phased below current

theorem pause_offered (resume : Bool) : OfferedAs w env actor now item operation
    (bif resume then .workResume else .workHold) (w.pauseAction env actor item resume)
    fun acting => (bif resume then Command.resume else Command.hold) item.id
      ⟨operation, item.revision, acting⟩ item.attemptId := by
  have found := phased.item_current current
  have small := below.of_item found
  have carried (x : Uuid) : (∃ u r, w.pause env actor item.id item.attemptId x resume now =
      .ok (u, r)) ↔ w.pauseAction env actor item resume = some x := by
    simp only [pause, except_iffs, found, Except.ok.injEq, exists_eq_left', Prod.mk.injEq]
    constructor
    · rintro ⟨u, r, -, offered, -⟩
      exact offered
    · intro offered
      have bumped : bumpRevision { item with state := if resume then .active else .held } =
          .ok { item.revised with state := if resume then .active else .held } :=
        bumpRevision_iff.mpr ⟨small, rfl⟩
      obtain ⟨u, changed⟩ : ∃ u, w.updateItem item.id .integrityViolation (fun item =>
          bumpRevision { item with state := if resume then .active else .held }) = .ok u :=
        updateItem_total found bumped
      obtain ⟨new, here, placed⟩ := updateItem_ok changed found
      obtain rfl := Except.ok.inj (bumped.symm.trans here)
      exact ⟨_, _, trivial, offered, u, changed, _, placed.item_eq rfl found, rfl, rfl⟩
  cases resume <;>
    refine ⟨fun _ _ => rfl, fun _ _ => rfl, fun _ _ => rfl, fun _ _ => rfl,
      fun set => ((pauseAction_iff _).mp set).2, fun _ => carried, fun paused _ _ => ?_⟩
  · exact .inr (by simp [pauseAction, paused])
  · exact .inl rfl

theorem complete_offered (apart : ∀ plan, w.plan = .ok plan → w.source.id ≠ plan.nextTaskId) :
    OfferedAs w env actor now item operation .workComplete (w.completionAction env actor item)
      fun acting => .complete item.id ⟨operation, item.revision, acting⟩ item.attemptId := by
  have found := phased.item_current current
  refine ⟨fun _ _ => rfl, fun _ _ => rfl, fun _ _ => rfl, fun _ _ => rfl,
    fun set => (completionAction_iff.mp set).2, ?_,
    fun paused _ _ => .inr (by simp [completionAction, paused])⟩
  · intro acting x
    simp only [applyValidated, complete, except_iffs, bumpRevision_iff, found, Except.ok.injEq,
      exists_eq_left', Prod.mk.injEq]
    constructor
    · rintro ⟨u, r, -, offered, -⟩
      exact offered
    · intro offered
      obtain ⟨isNext, -⟩ := completionAction_next apart found offered
      have again : ({ w with next := some (completedItem now item) }.log "completed" now).item
          item.id = .ok (completedItem now item) :=
        item_iff.mpr (.inr ⟨phased.apart item isNext, rfl, rfl⟩)
      exact ⟨_, _, trivial, offered, item, isNext, _, ⟨below.of_item found, rfl⟩, _, again,
        rfl, rfl⟩

theorem return_offered {reason : String} (valid : boundedText reason = .ok ()) :
    OfferedAs w env actor now item operation .workReturn (w.returnTransition env actor item)
      fun acting offer => .«return» item.id ⟨operation, item.revision, acting⟩ item.attemptId
        offer.previousSubmissionId offer.targetTaskId offer.transitionId reason := by
  have found := phased.item_current current
  refine ⟨fun _ _ => rfl, fun _ _ => rfl, fun _ _ => rfl, fun _ _ => rfl,
    fun set => (returnTransition_iff.mp set).2, ?_,
    fun paused _ _ => .inr (by simp [returnTransition, paused])⟩
  · rintro acting ⟨transition, target, submission⟩
    simp only [applyValidated, applyReturn, except_iffs, bumpRevision_iff, nextNumber_iff,
      nextRevision_iff, found, Except.ok.injEq, exists_eq_left', Prod.mk.injEq]
    constructor
    · rintro ⟨u, r, -, -, ⟨_, _, _⟩, offered, ⟨rfl, rfl, rfl⟩, -⟩
      exact offered
    · intro offered
      obtain ⟨isNext, -⟩ := returnTransition_next found offered
      have source : w.source ∈ w.currentItems := mem_cons_self
      exact ⟨_, _, trivial, valid, _, offered, ⟨rfl, rfl, rfl⟩, _,
        ⟨below.attempts _ source, rfl⟩, _, ⟨below.items _ source, rfl⟩, item, isNext, _,
        ⟨below.of_item found, rfl⟩, _,
          item_iff.mpr (.inr ⟨phased.apart item isNext, rfl, rfl⟩), rfl,
        rfl⟩

end

section

variable (standing : Standing env.time plan w) (below : BelowLimits w)
  (fresh : FreshDraws w env.draw) (parsed : env.time.parse now = some instant)
  (attached : w.authority.evaluatedAt = some instant) (current : item ∈ w.currentItems)
include standing below fresh parsed attached current

theorem assigned_succeeds_iff (assigned : isAssigned command = true)
    (task : command.taskId = item.id) (expected : item.revision = command.context.expectedRevision)
    (version : versionNum command.context.operationId = 7)
    (going : item.state = .held → isResumeOrAssign command = true ∨
      ¬ ∃ u r, w.applyValidated env actor command now = .ok (u, r)) :
    Succeeds w env actor now command ↔ w.canRead env actor item = true ∧
      item.actingAssignmentId = some command.context.actingAssignmentId ∧
      (w.stepResponsibility env actor command.context.actingAssignmentId item
        command.requiredAction).isSome = true ∧
      ∃ u r, w.applyValidated env actor command now = .ok (u, r) := by
  have phased : Phased w := standing.phased
  have found : w.item command.taskId = .ok item := task ▸ phased.item_current current
  have valid : 0 ≤ command.context.expectedRevision := by
    rw [← expected]
    exact (standing.items.each item (mem_append_left _ current)).revision
  constructor
  · rintro ⟨v, r, applied⟩
    obtain ⟨authorized, _, -, -, -, done⟩ := apply_parts parsed attached applied
    obtain ⟨-, read, acts, held⟩ := (authorizeCommand_iff assigned found).mp authorized
    exact ⟨read, acts, held, done⟩
  · rintro ⟨read, acts, held, u, r, done⟩
    have authorized : w.authorizeCommand env actor command = .ok () :=
      (authorizeCommand_iff assigned found).mpr ⟨⟨version, valid⟩, read, acts, held⟩
    refine apply_total standing below.revision fresh parsed attached authorized found expected ?_ ?_
      done
    · intro paused
      exact (going paused).resolve_right fun none => none ⟨u, r, done⟩
    · cases command with
      | requestAgentExecution => cases assigned
      | _ => rfl

variable {scope : Option Uuid} {operation : Uuid}

/-- A flag that reports an offer is honoured if and only if what is offered is readable. -/
theorem honours_offered {α : Type} {action : PolicyAction} {offer : Option α}
    {make : Uuid → α → Command} (version : versionNum operation = 7)
    (offered : OfferedAs w env actor now item operation action offer make) :
    Honours (Succeeds w env actor now) (w.summaryIn env actor item scope) offer.isSome offer make ↔
      (offer.isSome = true → w.canRead env actor item = true) := by
  have succeeds_iff (acting : Uuid) (x : α) : Succeeds w env actor now (make acting x) ↔
      w.canRead env actor item = true ∧ item.actingAssignmentId = some acting ∧
        (w.stepResponsibility env actor acting item action).isSome = true ∧ offer = some x := by
    have context := offered.context acting x
    have going (paused : item.state = .held) : isResumeOrAssign (make acting x) = true ∨
        ¬ ∃ u r, w.applyValidated env actor (make acting x) now = .ok (u, r) := by
      rw [offered.carried]
      refine (offered.going paused acting x).imp_right fun none here => ?_
      rw [none] at here
      cases here
    rw [assigned_succeeds_iff standing below fresh parsed attached current
      (offered.assigned acting x)
      (offered.task acting x) (by rw [context]) (by rw [context]; exact version) going,
      context, offered.required, offered.carried]
  constructor
  · rintro ⟨honoured, -⟩ set
    obtain ⟨acting, x, -, -, succeeds⟩ := honoured set
    exact ((succeeds_iff acting x).mp succeeds).1
  · intro readable
    constructor
    · intro set
      have able := offered.acts set
      simp only [canAct, Bool.and_eq_true, decide_eq_true_eq, Option.any_eq_true] at able
      obtain ⟨own, acting, recorded, held⟩ := able
      obtain ⟨x, here⟩ := Option.isSome_iff_exists.mp set
      exact ⟨acting, x, by simp [summaryIn, assignmentView, own, recorded], here,
        (succeeds_iff acting x).mpr ⟨readable set, recorded, held, here⟩⟩
    · intro unset acting x succeeds
      obtain ⟨-, -, -, here⟩ := (succeeds_iff acting x).mp succeeds
      rw [here] at unset
      cases unset

theorem claim_honoured {s : TaskSummary} (distinct : w.policy.allIds.Nodup)
    (version : versionNum operation = 7) (shown : s = w.summaryIn env actor item scope) :
    (s.canClaim = true → ∃ acting, s.claimAssignmentId = some acting ∧
      Succeeds w env actor now (.claim s.id ⟨operation, s.revision, acting⟩)) ∧
    (s.canClaim = false → ∀ acting, (scope.all fun id => acting = id) = true →
      ¬ Succeeds w env actor now (.claim s.id ⟨operation, s.revision, acting⟩)) := by
  subst shown
  have phased : Phased w := standing.phased
  have found := phased.item_current current
  have valid := (standing.items.each item (mem_append_left _ current)).revision
  have carried (context : CommandContext) :
      (∃ u r, w.applyValidated env actor (.claim item.id context) now = .ok (u, r)) ↔
        item.state = .ready ∧ item.assignee = none := claim_iff found (below.of_item found)
  constructor
  · intro set
    simp only [summaryIn] at set ⊢
    obtain ⟨value, given⟩ := Option.isSome_iff_exists.mp set
    rw [given]
    refine ⟨value.id, rfl, ?_⟩
    rw [Option.ite_none_right_eq_some] at given
    obtain ⟨free, eligible⟩ := given
    simp only [eligibleIn, Option.bind_eq_bind, Option.bind_eq_some_iff] at eligible
    obtain ⟨role, step, first⟩ := eligible
    have fits := find?_some first
    simp only [Bool.and_eq_true, decide_eq_true_eq] at fits
    -- The claim is offered under the first responsibility that the command accepts.
    have authorized : w.authorizeCommand env actor
        (.claim item.id ⟨operation, item.revision, value.id⟩) = .ok () :=
      (authorizeClaim_iff found).mpr ⟨⟨version, valid⟩, value,
        OrganizationPolicy.responsibility_of_mem distinct (mem_of_find?_eq_some first),
        fits.1.2 ▸ step, fits.2⟩
    obtain ⟨u, r, done⟩ := (carried ⟨operation, item.revision, value.id⟩).mpr free
    refine apply_total standing below.revision fresh parsed attached authorized found rfl ?_
      rfl done
    intro paused
    rw [free.1] at paused
    cases paused
  · rintro unset acting within ⟨v, r, applied⟩
    obtain ⟨authorized, _, -, -, -, done⟩ := apply_parts parsed attached applied
    obtain ⟨-, value, given, step, allowed⟩ := (authorizeClaim_iff found).mp authorized
    have free := (carried _).mp done
    obtain ⟨mem, rfl⟩ := OrganizationPolicy.mem_of_responsibility given
    have set : (w.eligibleIn env actor item .workClaim scope).isSome = true := by
      simp only [eligibleIn, step, Option.bind_eq_bind, Option.bind_some, find?_isSome,
        Bool.and_eq_true, decide_eq_true_eq]
      exact ⟨value, mem, ⟨within, rfl⟩, allowed⟩
    simp only [summaryIn, if_pos free] at unset
    rw [unset] at set
    cases set

theorem actionsHonoured_iff {reason : String} {s : TaskSummary} (distinct : w.policy.allIds.Nodup)
    (version : versionNum operation = 7) (valid : boundedText reason = .ok ())
    (shown : s = w.summaryIn env actor item scope) :
    ActionsHonoured (Succeeds w env actor now) s scope operation reason ↔
      w.ReadableWhereOpen item env.time w.policy actor (w.evaluatedAt env) := by
  rw [← readableWhereOpen_iff, ← flags_iff shown]
  have claims := claim_honoured standing below fresh parsed attached current distinct version shown
  subst shown
  have phased : Phased w := standing.phased
  have apart : ∀ plan, w.plan = .ok plan → w.source.id ≠ plan.nextTaskId :=
    fun _ => validateIntegrity_apart standing.validates
  have honours {α : Type} {action : PolicyAction} {offer : Option α} {make : Uuid → α → Command}
      (offered : OfferedAs w env actor now item operation action offer make) :
      Honours (Succeeds w env actor now) (w.summaryIn env actor item scope) offer.isSome offer
          make ↔
        (offer.isSome = true → w.canRead env actor item = true) :=
    honours_offered standing below fresh parsed attached current version offered
  have hold := honours (pause_offered phased below current false)
  have resume := honours (pause_offered phased below current true)
  have complete := honours (complete_offered phased below current apart)
  have returns := honours (return_offered phased below current valid)
  constructor
  · rintro honoured (set | set | set | set)
    · exact hold.mp honoured.hold set
    · exact resume.mp honoured.resume set
    · exact complete.mp honoured.complete set
    · exact returns.mp honoured.«return» set
  · intro readable
    exact ⟨claims, hold.mpr fun set => readable (.inl set),
      resume.mpr fun set => readable (.inr (.inl set)),
      complete.mpr fun set => readable (.inr (.inr (.inl set))),
      returns.mpr fun set => readable (.inr (.inr (.inr set)))⟩

end

/-- What a task list advertises is what succeeds, exactly if the responsibility recorded for the
attempt allows to read the task wherever it allows to hold, resume, complete or return it. -/
theorem advertised_actions_honoured {time : TimeText} {trace : List Operation}
    (reached : Operated time trace w) {policy : OrganizationPolicy}
    (governed : OrganizationPolicy.Reached time policy) (parsed : time.parse now = some instant)
    {authority : PolicyAuthority}
    (attached : authority.policy = some policy ∧ authority.evaluatedAt = some instant)
    (clock : Instant) {draw : Nat → Uuid} (fresh : FreshDraws w draw) (below : BelowLimits w)
    (actor : VerifiedActor) (view : TaskView) (scope : Option Uuid) {tasks : List TaskSummary}
    (listed : { w with authority }.listTasksIn ⟨time, clock, draw⟩ actor view scope = .ok tasks)
    {s : TaskSummary} (mem : s ∈ tasks) {operation : Uuid} (version : versionNum operation = 7)
    {reason : String} (valid : boundedText reason = .ok ()) :
    ActionsHonoured (Succeeds { w with authority } ⟨time, clock, draw⟩ actor now) s scope operation
        reason ↔
      ∀ item, w.item s.id = .ok item → w.ReadableWhereOpen item time policy actor instant := by
  obtain ⟨plan, standing⟩ := reached.standing
  simp only [listTasksIn, except_iffs] at listed
  obtain ⟨-, rfl⟩ := listed
  obtain ⟨item, kept, rfl⟩ := mem_map.mp mem
  have current := mem_of_mem_filter kept
  have found : w.item item.id = .ok item := Phased.item_current standing.phased current
  have governing : { w with authority }.policy = policy := by
    show authority.policy.getD .empty = policy
    rw [attached.1]
    rfl
  have evaluated : { w with authority }.evaluatedAt ⟨time, clock, draw⟩ = instant := by
    show authority.evaluatedAt.getD clock = instant
    rw [attached.2]
    rfl
  have distinct : { w with authority }.policy.allIds.Nodup := governing ▸ governed.allIds_nodup
  have standing' : Standing (Env.time ⟨time, clock, draw⟩) plan { w with authority } :=
    standing.attached authority
  have below' : BelowLimits { w with authority } := { below with }
  have fresh' : FreshDraws { w with authority } (Env.draw ⟨time, clock, draw⟩) := { fresh with }
  refine (actionsHonoured_iff standing' below' fresh' parsed attached.2 current distinct
    version valid rfl).trans ?_
  rw [governing, evaluated]
  refine ⟨fun reads other here => ?_, fun reads => reads item found⟩
  rw [← Except.ok.inj (found.symm.trans here)]
  exact reads

/-! A delegation that allows to hold a task and not to read it. -/

open OrganizationPolicy (sampleTime sampleNow sampleEnd)

def sampleDelegation : Uuid := fromU128 0x0190000000007000800000000000d002

def sampleNarrow : PolicyCommand :=
  .createDelegation ⟨fromU128 0x0190000000007000800000000000d001, 0, salesAssignmentId⟩
    salesAssignmentId .office01 [.workClaim, .workHold, .contextProgressRead] none sampleEnd "休暇"

def governedBy (w : Workflow) (policy : OrganizationPolicy) : Workflow :=
  { w with authority := ⟨some policy, some (minutes 1440), none, .none⟩ }

/-- The source task is given to the recipient of the delegation. -/
def sampleHandOver : Command :=
  .assign salesTaskId (sampleContext 0 0 approverManagementAssignmentId) salesAttemptId .office01
    sampleDelegation "担当変更"

/-- The list offers to hold the task, and the command finds no task. -/
def offersInVain (w : Workflow) : Bool :=
  (w.listTasksIn ⟨sampleTime, 0, sampleDraw 1⟩ .office01 .context none).toOption.any fun tasks =>
    tasks.any fun s => s.canHold && decide (s.holdActionId = some holdActionId ∧
        s.assignment.map (·.actingAssignmentId) = some sampleDelegation) &&
      refusedWith .workItemNotFound (w.apply ⟨sampleTime, 0, sampleDraw 1⟩ .office01
        (.hold s.id (sampleContext 1 s.revision sampleDelegation) s.attemptId holdActionId)
        sampleNow)

theorem advertised_hold_not_found : ∃ policy w trace tasks,
    OrganizationPolicy.Reached sampleTime policy ∧ Operated sampleTime trace w ∧
      FreshDraws w (sampleDraw 1) ∧ BelowLimits w ∧
      (w.governedBy policy).listTasksIn ⟨sampleTime, 0, sampleDraw 1⟩ .office01 .context none =
        .ok tasks ∧
      ∃ s ∈ tasks, s.canHold = true ∧ s.holdActionId = some holdActionId ∧
        s.assignment.map (·.actingAssignmentId) = some sampleDelegation ∧
        (w.governedBy policy).apply ⟨sampleTime, 0, sampleDraw 1⟩ .office01
          (.hold s.id (sampleContext 1 s.revision sampleDelegation) s.attemptId holdActionId)
          sampleNow = .error .workItemNotFound := by
  have done : (OrganizationPolicy.apply sampleTime .synthetic sampleDelegation .sales01 sampleNarrow
      sampleNow).toOption.any (fun governed =>
        (((synthetic none).governedBy governed.1).apply ⟨sampleTime, 0, sampleDraw 0⟩ .approver01
          sampleHandOver sampleNow).toOption.any fun given =>
            given.1.drawable 1 && given.1.belowLimits &&
              offersInVain (given.1.governedBy governed.1)) = true := by
    decide
  obtain ⟨⟨policy, _⟩, governed, rest⟩ := any_exists done
  obtain ⟨⟨w, _⟩, given, rest⟩ := any_exists rest
  simp only [Bool.and_eq_true] at rest
  obtain ⟨⟨drawable, below⟩, vain⟩ := rest
  obtain ⟨tasks, listed, shown⟩ := any_exists vain
  obtain ⟨s, mem, refused⟩ := any_eq_true.mp shown
  simp only [Bool.and_eq_true, decide_eq_true_eq] at refused
  obtain ⟨⟨set, offered, recorded⟩, refused⟩ := refused
  have fresh : FreshDraws (synthetic none) (sampleDraw 0) :=
    freshDraws_of_drawable (by decide)
  have step : FreshStep sampleTime (synthetic none)
      (.apply .approver01 sampleHandOver sampleNow) w :=
    ⟨_, 0, sampleDraw 0, fresh, except_map_iff.mpr ⟨_, toOption_some given, rfl⟩⟩
  exact ⟨policy, w, [.apply .approver01 sampleHandOver sampleNow], tasks,
    ⟨_, Run.start.next ⟨_, _, _, _, toOption_some governed⟩⟩,
    ⟨fixtureA, none, 0, _, rfl, synthetic_separate none, Run.start.next step⟩,
    freshDraws_of_drawable drawable, belowLimits_iff.mp below, toOption_some listed, s, mem, set,
    offered, recorded, refusedWith_iff.mp refused⟩

/-- The assignee of the first fixture may hold the task, and reads it. -/
theorem advertised_actions_honoured_sales : ∃ tasks,
    ((synthetic none).governedBy .synthetic).listTasksIn ⟨sampleTime, 0, sampleDraw 0⟩ .sales01
        .context none = .ok tasks ∧
      ∃ s ∈ tasks, s.canHold = true ∧ ActionsHonoured
        (Succeeds ((synthetic none).governedBy .synthetic) ⟨sampleTime, 0, sampleDraw 0⟩ .sales01
          sampleNow) s
        none (sampleContext 0 0 nilUuid).operationId "理由" := by
  have done : (((synthetic none).governedBy .synthetic).listTasksIn ⟨sampleTime, 0, sampleDraw 0⟩
      .sales01 .context none).toOption.any (fun tasks => tasks.any fun s => s.canHold &&
        (((synthetic none).item s.id).toOption.any fun item =>
          ((synthetic none).governedBy .synthetic).canRead ⟨sampleTime, 0, sampleDraw 0⟩ .sales01
            item)) = true := by
    decide
  obtain ⟨tasks, listed, shown⟩ := any_exists done
  obtain ⟨s, mem, holds⟩ := any_eq_true.mp shown
  rw [Bool.and_eq_true] at holds
  obtain ⟨set, readable⟩ := holds
  obtain ⟨item, found, read⟩ := any_exists readable
  refine ⟨tasks, toOption_some listed, s, mem, set, ?_⟩
  refine (advertised_actions_honoured ⟨fixtureA, none, 0, _, rfl, synthetic_separate none, .start⟩
    ⟨[], .start⟩ (by decide) ⟨rfl, rfl⟩ 0 (freshDraws_of_drawable (by decide))
    (belowLimits_iff.mp (by decide)) .sales01 .context none (toOption_some listed) mem
    (by decide) (by decide)).mpr fun other here => ?_
  obtain rfl := Except.ok.inj (here.symm.trans (toOption_some found))
  exact readableWhereOpen_iff.mp fun _ => read

end KnowledgePlatform.Work.Workflow
