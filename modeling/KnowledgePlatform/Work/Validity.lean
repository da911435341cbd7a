import KnowledgePlatform.Work.Phases

/-! An invariant of workflows under commands that implies their integrity checks. -/

namespace KnowledgePlatform.Work.Workflow

open List

variable {w : Workflow} {time : TimeText} {item : WorkItem} {e : AgentExecution}

/-! ## Items -/

/-- What every attempt satisfies, current or archived. -/
structure ItemSound (time : TimeText) (id : Uuid) (item : WorkItem) : Prop where
  due : ∀ due ∈ item.dueAt, (time.parse due).isSome = true
  owner : item.workflowInstanceId = id
  number : item.attemptNumber ≠ 0
  revision : 0 ≤ item.revision
  assigned : item.assignee.isSome = item.actingAssignmentId.isSome
  attempt : item.attemptId ≠ nilUuid
  closed : item.state = .completed → item.completedAt.isSome = true

/-- The tasks are those of the plan, and their attempts are distinct. -/
structure Lineup (time : TimeText) (plan : ContextFixture) (id : Uuid) (s : WorkItem)
    (n : Option WorkItem) (a : List WorkItem) : Prop where
  each : ∀ item ∈ s :: n.toList ++ a, ItemSound time id item
  distinct : ((s :: n.toList ++ a).map (·.attemptId)).Nodup
  source : s.id = plan.sourceTaskId
  next : ∀ item ∈ n, item.id = plan.nextTaskId ∧ item.stepId = plan.nextStepId
  first : n = none → s.attemptId ≠ plan.nextAttemptId
  archived : ∀ old ∈ a, old.state = .completed ∧
    ∀ item ∈ s :: n.toList, item.id = old.id → old.revision < item.revision

def ItemsSound (time : TimeText) (plan : ContextFixture) (w : Workflow) : Prop :=
  Lineup time plan w.id w.source w.next w.completedAttempts

/-! ## Periods of responsibility -/

/-- The open period is the one its attempt points to. -/
structure Matches (record : WorkAssignmentRecord) (item : WorkItem) : Prop where
  task : item.id = record.taskId
  period : item.workAssignmentId = some record.id
  principal : item.assignee = some record.principal
  acting : item.actingAssignmentId = some record.actingAssignmentId

structure PeriodsSound (current : List WorkItem) (records : List WorkAssignmentRecord) : Prop where
  ids : (records.map (·.id)).Nodup
  held : ∀ record ∈ records, record.endedAt = none → ∃ item ∈ current,
    item.attemptId = record.attemptId ∧ item.state ≠ .completed ∧ Matches record item

/-! ## Executions -/

/-- Every execution, result and candidate passes its check. -/
structure Checked (w : Workflow) : Prop where
  ids : (w.agentExecutions.map (·.id)).Nodup
  each : ∀ e ∈ w.agentExecutions, w.checkExecution e = .ok ()
  listed : ∀ f ∈ w.findings, w.listedFinding f = true
  candidates : w.validateCandidateIntegrity = .ok ()

/-- How many submissions the next task has received. -/
def receivedCount (n : Option WorkItem) : Nat := (n.map (·.attemptNumber)).getD 0

/-- The invariant of everything but the executions. -/
structure Grounded (time : TimeText) (plan : ContextFixture) (w : Workflow) : Prop where
  planned : w.plan = .ok plan
  context : w.contextId = plan.contextId
  definition : w.definitionVersionId ∈ plan.acceptedDefinitions
  phased : Phased w
  items : ItemsSound time plan w
  periods : PeriodsSound w.currentItems w.assignments
  submissions : w.snapshots.length = receivedCount w.next
  revision : 0 ≤ w.revision

/-- The invariant of every operation. -/
structure Standing (time : TimeText) (plan : ContextFixture) (w : Workflow) : Prop extends
    Grounded time plan w where
  bound : Bound w
  checked : Checked w

/-! ## The checks hold -/

theorem Phased.pairs (h : Phased w) :
    (w.allItems.map fun item => (item.id, item.attemptNumber)).Nodup := by
  refine nodup_pairs fun task => ?_
  have numbers := h.attempts task
  have perm : (w.allItems.filter fun item => item.id = task).Perm (w.attemptsOf task) := by
    rw [allItems, filter_append, attemptsOf]
    exact perm_append_comm
  rw [(perm.map _).nodup_iff, numbers]
  exact nodup_range'

theorem Numbered.lt {a : List WorkItem} {old : WorkItem} (h : Numbered a item) (hold : old ∈ a)
    (same : old.id = item.id) : old.attemptNumber < item.attemptNumber := by
  have mem : old.attemptNumber ∈ (earlier a item.id).map (·.attemptNumber) :=
    mem_map_of_mem (mem_filter.mpr ⟨hold, by simpa using same⟩)
  rw [h.archived, mem_range'_1] at mem
  rw [h.follows]
  omega

variable {plan : ContextFixture}

theorem Grounded.checkPlan (h : Grounded time plan w) :
    w.checkPlan time plan = .ok () := by
  rw [Workflow.checkPlan, ensure_iff]
  exact ⟨h.context, h.items.source, h.definition, h.items.next,
    fun item hitem => (h.items.each item hitem).due⟩

theorem Grounded.checkItems (h : Grounded time plan w) :
    w.checkItems = .ok () := by
  rw [Workflow.checkItems, ensure_iff]
  refine ⟨?_, h.items.distinct, h.phased.pairs⟩
  intro item hitem
  have sound := h.items.each item hitem
  exact ⟨sound.owner, sound.number, sound.revision, sound.assigned⟩

/-- The current item of an archived attempt. -/
theorem Phased.current (h : Phased w) {old : WorkItem} (hold : old ∈ w.completedAttempts) :
    ∃ item ∈ w.currentItems, w.item old.id = .ok item ∧ item.id = old.id ∧
      old.attemptNumber < item.attemptNumber := by
  obtain same | ⟨item, found, same⟩ := h.owned old hold
  · exact ⟨w.source, by simp [currentItems], item_iff.mpr (.inl ⟨same, rfl⟩), same.symm,
      h.source.lt hold same⟩
  · refine ⟨item, by simp [currentItems, Option.mem_def.mp found], ?_, same.symm,
      (h.next item found).lt hold same⟩
    exact item_iff.mpr (.inr ⟨same ▸ h.apart item found, found, same.symm⟩)

theorem Grounded.checkArchived (h : Grounded time plan w) :
    w.completedAttempts.forM w.checkArchived = .ok () := by
  refine forM_iff.mpr ?_
  intro old hold
  obtain ⟨item, hitem, found, same, number⟩ := h.phased.current hold
  obtain ⟨done, older⟩ := h.items.archived old hold
  have sound := h.items.each old (mem_allItems.mpr (.inr (.inr hold)))
  simp only [Workflow.checkArchived, found, except_iffs]
  exact ⟨item, rfl, done, sound.closed done, number, older item hitem same⟩

theorem Grounded.find_current (h : Grounded time plan w) (hitem : item ∈ w.currentItems) :
    (w.currentItems.find? fun x => x.attemptId = item.attemptId) = some item := by
  have distinct : (w.currentItems.map (·.attemptId)).Nodup :=
    h.items.distinct.sublist ((sublist_append_left _ _).map _)
  exact (find?_key_iff distinct).mpr ⟨hitem, rfl⟩

theorem mem_openAssignments {record : WorkAssignmentRecord} :
    record ∈ w.openAssignments ↔ record ∈ w.assignments ∧ record.endedAt = none := by
  simp [openAssignments]

theorem Grounded.checkOpen (h : Grounded time plan w) :
    w.openAssignments.forM w.checkOpen = .ok () := by
  refine forM_iff.mpr ?_
  intro record hrecord
  obtain ⟨hrecord, unended⟩ := mem_openAssignments.mp hrecord
  obtain ⟨item, hitem, here, -, matched⟩ := h.periods.held record hrecord unended
  have found := h.find_current hitem
  rw [here] at found
  simp only [Workflow.checkOpen, found, except_iffs]
  exact ⟨item, rfl, matched.task, matched.period, matched.principal, matched.acting⟩

/-- Two open periods of one attempt would both be the one it points to. -/
theorem Grounded.single (h : Grounded time plan w) :
    (w.openAssignments.map (·.attemptId)).Nodup := by
  have distinct : w.openAssignments.Nodup := (Nodup.of_map _ h.periods.ids).filter _
  refine Nodup.map_on ?_ distinct
  intro a ha b hb same
  obtain ⟨ha, aOpen⟩ := mem_openAssignments.mp ha
  obtain ⟨hb, bOpen⟩ := mem_openAssignments.mp hb
  obtain ⟨item, hitem, here, -, matched⟩ := h.periods.held a ha aOpen
  obtain ⟨other, hother, there, -, matched'⟩ := h.periods.held b hb bOpen
  have found := h.find_current hitem
  rw [here, same, ← there, h.find_current hother] at found
  cases found
  exact inj_on_of_nodup_map h.periods.ids ha hb
    (Option.some.inj (matched.period.symm.trans matched'.period))

theorem contextFixtures_known :
    ∀ plan ∈ contextFixtures, (contextFixtureForContext plan.contextId).isSome = true := by
  decide

/-- At most one execution is active, so no task has two. -/
theorem Bound.workItems (h : Bound w) :
    ((w.agentExecutions.filter (·.status.isActive)).map (·.workItemId)).Nodup := by
  have few := h.single
  rw [activeCount, countP_eq_length_filter, Nat.le_one_iff_eq_zero_or_eq_one] at few
  obtain none | one := few
  · rw [eq_nil_of_length_eq_zero none]
    exact nodup_nil
  · obtain ⟨e, shape⟩ := length_eq_one_iff.mp one
    rw [shape]
    exact nodup_singleton _

/-- The invariant implies every check. -/
theorem Standing.validates (h : Standing time plan w) : w.validateIntegrity time = .ok () := by
  simp only [validateIntegrity, validateAgentIntegrity, except_iffs]
  exact ⟨plan, h.planned, h.checkPlan, h.checkItems, h.checkArchived, h.single, h.checkOpen,
    ⟨⟨h.checked.ids, h.bound.workItems⟩, forM_iff.mpr h.checked.each, h.checked.listed⟩,
    h.checked.candidates⟩

theorem checked_of_validates (h : w.validateIntegrity time = .ok ()) : Checked w := by
  simp only [validateIntegrity, validateAgentIntegrity, except_iffs] at h
  obtain ⟨_, -, -, -, -, -, -, ⟨⟨ids, -⟩, each, listed⟩, candidates⟩ := h
  exact ⟨ids, forM_iff.mp each, listed, candidates⟩

theorem Standing.attached (h : Standing time plan w) (authority : PolicyAuthority) :
    Standing time plan { w with authority } :=
  { h with
    bound := (Agent.attached authority).bound h.bound
    checked := { h.checked with } }

end KnowledgePlatform.Work.Workflow
