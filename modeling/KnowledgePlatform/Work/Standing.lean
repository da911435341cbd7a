import KnowledgePlatform.Work.Refusals

/-! The invariant of workflows under every operation, those of agents included. -/

namespace KnowledgePlatform.Work.Workflow

open List
open OrganizationPolicy (sampleNow sampleTime)

variable {w u v : Workflow} {env : Env} {actor : VerifiedActor} {now : String} {time : TimeText}
  {plan : ContextFixture} {item new : WorkItem} {e e' : AgentExecution}

/-! ## Agent operations -/

theorem Replaced.periods {records : List WorkAssignmentRecord} (h : Replaced w item new v)
    (keeps : KeepsHolder item new) (going : item.state ≠ .completed → new.state ≠ .completed)
    (before : PeriodsSound w.currentItems records) : PeriodsSound v.currentItems records := by
  refine ⟨before.ids, ?_⟩
  intro record hrecord unended
  obtain ⟨x, hx, here, live, matched⟩ := before.held record hrecord unended
  have stays : x = item ∨ x ∈ v.currentItems := by
    cases h with
    | source same =>
      obtain rfl | hx := mem_cons.mp hx
      · exact .inl same.symm
      · exact .inr (.tail _ hx)
    | next found =>
      obtain rfl | hx := mem_cons.mp hx
      · exact .inr mem_cons_self
      · rw [found] at hx
        exact .inl (mem_singleton.mp hx)
  obtain rfl | hx := stays
  · exact ⟨new, h.new_mem, keeps.attempt.trans here, going live,
      ⟨keeps.task.trans matched.task, keeps.period.trans matched.period,
        keeps.principal.trans matched.principal, keeps.acting.trans matched.acting⟩⟩
  · exact ⟨x, hx, here, live, matched⟩

theorem Agent.grounded (before : Grounded time plan w) (h : Agent w v) : Grounded time plan v := by
  have later : 0 ≤ w.revision + 1 := by
    have := before.revision
    omega
  cases h with
  | attached => exact { before with }
  | started | failed =>
    exact { before with revision := later }
  | @finished _ item u _ _ _ _ _ given _ placed =>
    have sound : ItemSound time w.id item := before.items.each item (mem_append_left _ placed.mem)
    have same : SameInstance w u ∧ u.assignments = w.assignments ∧ u.snapshots = w.snapshots := by
      cases placed <;> exact ⟨⟨rfl, rfl, rfl, rfl⟩, rfl, rfl⟩
    obtain ⟨⟨id, context, definition, revision⟩, assignments, snapshots⟩ := same
    exact {
      planned := by
        show okOr (contextFixture u.id) _ = _
        rw [id]
        exact before.planned
      context := context.trans before.context
      definition := by
        show u.definitionVersionId ∈ _
        rw [definition]
        exact before.definition
      phased := placed.phased (edited_revised given.active) before.phased
      items := placed.items sound.revised before.items
      periods := by
        show PeriodsSound u.currentItems u.assignments
        rw [assignments]
        exact placed.periods (keepsHolder_revised item) (fun live => live) before.periods
      submissions := by
        show u.snapshots.length = receivedCount u.next
        rw [snapshots, placed.received rfl]
        exact before.submissions
      revision := by
        show 0 ≤ u.revision + 1
        rw [revision]
        exact later }

theorem Advanced.standing (h : Advanced w v) (before : Standing time plan w) (change : Agent w v) :
    Standing time plan v :=
  ⟨change.grounded before.toGrounded, change.bound before.bound, h.checked before.checked⟩

theorem startAgentExecution_standing {id : Uuid} {c : Option AgentDispatchContext}
    (before : Standing time plan w) (h : w.startAgentExecution env actor id now = .ok (v, c)) :
    Standing time plan v := by
  obtain rfl | ⟨e, item, given, queued, rfl⟩ := startAgentExecution_ok h
  · exact before
  · have active : e.status.isActive = true := by
      rw [queued]
      rfl
    obtain ⟨unended, -, task, -⟩ :=
      checkExecution_each (before.checked.each e (mem_of_find?_eq_some given.found))
    have valid := before.revision
    have moved : Moved e (started now (w.revision + 1) e) :=
      .changed .running now (w.revision + 1) e.taskRevision e.endedAt e.failureCode
        (by simp [queued]) (by simp) (unended ▸ active ▸ rfl) ⟨task, by omega⟩
    have advanced : Advanced w ({ w with revision := w.revision + 1 }.updateExecution e.id
        (started now (w.revision + 1))) :=
      .of_moved (forall₂_updateFirst (fun _ => .kept) given.found moved) rfl rfl rfl rfl
    exact advanced.standing before (.started now given queued)

theorem failAgentExecution_standing {id : Uuid} {code : AgentFailureCode}
    (before : Standing time plan w) (h : w.failAgentExecution actor id code now = .ok (v, e)) :
    Standing time plan v := by
  obtain rfl | ⟨accepts, e', found, active, rfl⟩ := failAgentExecution_ok h
  · exact before
  · have each := checkExecution_each (before.checked.each e' (mem_of_find?_eq_some found))
    have moved : Moved e' (failedWith code now e') :=
      .changed (failureStatus code) e'.startedAt e'.effectiveContextRevision e'.taskRevision
        (some now) (some code) (unfinished_of_active active)
        (by cases code <;> simp [failureStatus]) (by cases code <;> rfl) each.2.2
    have advanced : Advanced w { w with
        revision := w.revision + 1
        agentExecutions := updateFirst accepts (failedWith code now) w.agentExecutions } :=
      .of_moved (forall₂_updateFirst (fun _ => .kept) found moved) rfl rfl rfl rfl
    exact advanced.standing before (.failed accepts code now found active)

/-! ## Runs -/

/-- A successful operation, with any authority attached, clock read and fresh identifiers drawn. -/
def FreshStep (time : TimeText) (w : Workflow) (operation : Operation) (v : Workflow) : Prop :=
  ∃ authority clock draw, FreshDraws w draw ∧
    perform ⟨time, clock, draw⟩ { w with authority } operation = .ok v

theorem FreshStep.standing {operation : Operation} (before : Standing time plan w)
    (h : FreshStep time w operation v) : Standing time plan v := by
  obtain ⟨authority, clock, draw, fresh, done⟩ := h
  have begun := before.attached authority
  cases operation with
  | apply =>
    obtain ⟨⟨y, r⟩, applied, rfl⟩ := except_map_iff.mp done
    obtain ⟨w', u, ⟨authority', rfl⟩, done⟩ := apply_ok applied
    exact done.standing (before.attached authority') { fresh with }
  | start =>
    obtain ⟨⟨y, c⟩, started, rfl⟩ := except_map_iff.mp done
    exact startAgentExecution_standing begun started
  | finish =>
    obtain ⟨⟨y, e⟩, finished, rfl⟩ := except_map_iff.mp done
    have change := finishAgentExecution_agent finished
    simp only [finishAgentExecution, except_iffs, Prod.mk.injEq] at finished
    obtain ⟨-, _, -, -, -, _, -, _, -, _, -, _, -, _, -, _, -, checked, rfl, -⟩ := finished
    exact ⟨change.grounded begun.toGrounded, change.bound begun.bound, checked_of_validates checked⟩
  | fail =>
    obtain ⟨⟨y, e⟩, failed, rfl⟩ := except_map_iff.mp done
    exact failAgentExecution_standing begun failed
  | interrupt =>
    obtain ⟨⟨y, n⟩, interrupted, rfl⟩ := except_map_iff.mp done
    exact interruptAgentExecutions_invariant
      (fun _ _ _ _ holds failed => failAgentExecution_standing holds failed) begun interrupted

/-- The workflows that successful operations with fresh identifiers lead to from a fixture. -/
def Operated (time : TimeText) (trace : List Operation) (w : Workflow) : Prop :=
  ∃ fixture documentId seededAt start, fromFixture time fixture documentId seededAt = .ok start ∧
    SeparateAttempt start ∧ Run (FreshStep time) start trace w

theorem Operated.standing {trace : List Operation} (h : Operated time trace w) :
    ∃ plan, Standing time plan w := by
  obtain ⟨_, _, _, start, seeded, separate, run⟩ := h
  obtain ⟨plan, begun⟩ := fromFixture_standing seeded separate
  exact ⟨plan, run.invariant (P := fun _ w => Standing time plan w) begun
    fun _ _ _ _ holds taken => taken.standing holds⟩

/-- Every workflow that operations lead to passes its checks, has as many submissions as attempts to
receive them, and no attempt has two open periods. -/
theorem operations_keep_integrity {trace : List Operation} (h : Operated time trace w) :
    w.validateIntegrity time = .ok () ∧ w.snapshots.length = receivedCount w.next ∧
      ∀ a ∈ w.assignments, ∀ b ∈ w.assignments, a.endedAt = none → b.endedAt = none →
        a.attemptId = b.attemptId → a = b := by
  obtain ⟨plan, standing⟩ := h.standing
  refine ⟨standing.validates, standing.submissions, ?_⟩
  intro a ha b hb openA openB same
  obtain ⟨x, hx, attempt, -, first⟩ := standing.periods.held a ha openA
  obtain ⟨y, hy, attemptToo, -, second⟩ := standing.periods.held b hb openB
  obtain rfl := standing.items.eq_of_attempt hx hy (attempt.trans (same.trans attemptToo.symm))
  exact inj_on_of_nodup_map standing.periods.ids ha hb
    (Option.some.inj (first.period.symm.trans second.period))

/-- The first command's evidence is given to an execution, which then starts. -/
def sampleOperations : List Operation :=
  [.start .sales01 (sampleContext 2 1 salesAssignmentId).operationId sampleNow,
    .apply .sales01 (sampleAsk salesAssignmentId 1 (sampleDraw 0 0)) sampleNow,
    .apply .sales01 (sampleEvidence salesAssignmentId 0) sampleNow]

theorem operations_keep_integrity_sample : ∃ w, Operated sampleTime sampleOperations w ∧
    w.agentExecutions.map (·.status) = [.running] ∧ w.validateIntegrity sampleTime = .ok () := by
  have done : (Run.replay performFresh (synthetic (some sampleDocument))
      sampleOperations).toOption.any (fun w =>
        w.agentExecutions.map (·.status) = [.running]) = true := by decide
  obtain ⟨w, performed, running⟩ := any_exists done
  have run : Run (FreshStep sampleTime) (synthetic (some sampleDocument)) sampleOperations w := by
    refine Run.of_replay (fun n u operation v fresh => ?_) (toOption_some performed)
    simp only [performFresh, except_iffs] at fresh
    exact ⟨_, _, _, freshDraws_of_drawable fresh.1, fresh.2⟩
  have reached : Operated sampleTime sampleOperations w :=
    ⟨fixtureA, some sampleDocument, 0, _, rfl, synthetic_separate _, run⟩
  exact ⟨w, reached, of_decide_eq_true running, (operations_keep_integrity reached).1⟩

end KnowledgePlatform.Work.Workflow
