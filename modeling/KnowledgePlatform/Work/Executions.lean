import KnowledgePlatform.Work.Delegations
import KnowledgePlatform.Work.Steps

/-! Agent executions stay bound to the live attempt, over every run of a workflow. -/

namespace KnowledgePlatform.Work.Workflow

open OrganizationPolicy (sampleNow sampleTime)
open List

variable {w u v : Workflow} {env : Env} {actor : VerifiedActor} {command : Command} {now : String}
  {time : TimeText} {e : AgentExecution}

def activeCount (w : Workflow) : Nat := w.agentExecutions.countP (·.status.isActive)

/-- The execution is of the live attempt, in the state it was given. -/
structure BoundTo (w : Workflow) (e : AgentExecution) (item : WorkItem) : Prop where
  task : w.item e.workItemId = .ok item
  attempt : item.attemptId = e.attemptId
  active : item.state = .active
  taskRevision : item.revision = e.taskRevision
  current : e.effectiveContextRevision = w.revision

/-- At most one execution is active, and it is of a live attempt. -/
structure Bound (w : Workflow) : Prop where
  single : w.activeCount ≤ 1
  bound : ∀ e ∈ w.agentExecutions, e.status.isActive = true → ∃ item, BoundTo w e item

/-- What has ended stays in its place, unchanged. -/
def Settled (w v : Workflow) : Prop :=
  ∀ (i : Nat) (e : AgentExecution), w.agentExecutions[i]? = some e → e.status.isActive = false →
    v.agentExecutions[i]? = some e

theorem Settled.refl (w : Workflow) : Settled w w := fun _ _ here _ => here

theorem Settled.trans (first : Settled w u) (second : Settled u v) : Settled w v :=
  fun i e here ended => second i e (first i e here ended) ended

/-- A change of an active execution leaves what has ended. -/
theorem settled_updateFirst {p : AgentExecution → Bool} {f : AgentExecution → AgentExecution}
    (changed : v.agentExecutions = updateFirst p f u.agentExecutions)
    (same : u.agentExecutions = w.agentExecutions)
    (found : w.agentExecutions.find? p = some e) (active : e.status.isActive = true) :
    Settled w v := by
  intro i x here ended
  rw [changed, same]
  refine getElem?_updateFirst found here ?_
  rintro rfl
  rw [active] at ended
  cases ended

theorem bound_of_none (none : w.activeCount = 0) : Bound w where
  single := by omega
  bound := by
    intro e he active
    exact absurd active (countP_eq_zero.mp none e he)

/-! ## Commands -/

/-- A command adds at most one active execution. -/
theorem Effect.executions (h : Effect env actor command now w u) :
    u.revision = w.revision ∧ Settled w u ∧
      ((∀ e ∈ u.agentExecutions, e.status.isActive = true → e ∈ w.agentExecutions) ∨
        command.isRequest = true ∧ ∃ e, u.agentExecutions = w.agentExecutions ++ [e]) := by
  have unchanged {x : Workflow} (revision : x.revision = w.revision)
      (same : x.agentExecutions = w.agentExecutions) : x.revision = w.revision ∧ Settled w x ∧
      ((∀ e ∈ x.agentExecutions, e.status.isActive = true → e ∈ w.agentExecutions) ∨
        command.isRequest = true ∧ ∃ e, x.agentExecutions = w.agentExecutions ++ [e]) := by
    refine ⟨revision, ?_, .inl fun e he _ => same ▸ he⟩
    intro i e here _
    rw [same]
    exact here
  cases h with
  | kept | completed | returned | submitted => exact unchanged rfl rfl
  | paused _ _ _ _ placed
  | assigned _ _ _ _ _ _ placed =>
    cases placed <;> exact unchanged rfl rfl
  | recorded records _ placed => cases records <;> cases placed <;> exact unchanged rfl rfl
  | @requested _ x e issued _ _ placed =>
    refine ⟨placed.revision, ?_, .inr ⟨issued, e, congrArg (· ++ [e]) placed.executions⟩⟩
    intro i other here _
    show (x.agentExecutions ++ [e])[i]? = some other
    rw [placed.executions, getElem?_append_left (List.getElem?_eq_some_iff.mp here).1]
    exact here
  | @cancelled _ x _ found active _ _ placed =>
    refine ⟨placed.revision, settled_updateFirst rfl placed.executions found active, .inl ?_⟩
    intro other hother live
    change other ∈ updateFirst _ _ x.agentExecutions at hother
    rw [placed.executions] at hother
    obtain hother | ⟨_, -, rfl⟩ := mem_updateFirst hother
    · exact hother
    · cases live

theorem settle_active (h : (w.settle now e).status.isActive = true) :
    w.settle now e = e ∧ w.isStale e = false := by
  unfold settle at h ⊢
  split at h
  · cases h
  next fresh =>
    exact ⟨if_neg fresh, by simpa using fresh⟩

theorem settle_ended (ended : e.status.isActive = false) : w.settle now e = e := by
  unfold settle isStale
  simp [ended]

/-- What is active and not stale is bound. -/
theorem boundTo_of_fresh (active : e.status.isActive = true) (fresh : w.isStale e = false) :
    ∃ item, BoundTo w e item := by
  simp only [isStale, active, Bool.true_and, Bool.or_eq_false_iff, decide_eq_false_iff_not,
    not_not] at fresh
  obtain ⟨current, moved⟩ := fresh
  cases found : w.item e.workItemId with
  | error => simp [found, Except.toOption] at moved
  | ok item =>
    simp only [found, Except.toOption, Option.all_some, Bool.or_eq_false_iff,
      decide_eq_false_iff_not, not_not] at moved
    exact ⟨item, found, moved.1.1, moved.2, moved.1.2, current⟩

/-- An execution of the earlier workflow was given the earlier revision. -/
theorem Effect.stale (before : Bound w) (h : Effect env actor command now w u)
    (he : e ∈ w.agentExecutions) :
    ({ u with revision := u.revision + 1 }.settle now e).status.isActive = false := by
  by_contra live
  obtain ⟨same, fresh⟩ := settle_active (by simpa using live)
  rw [same] at live
  obtain ⟨_, earlier⟩ := before.bound e he (by simpa using live)
  obtain ⟨_, later⟩ := boundTo_of_fresh (by simpa using live) fresh
  have := earlier.current.symm.trans later.current
  simp only [h.executions.1] at this
  omega

theorem Effect.bound (before : Bound w) (h : Effect env actor command now w u)
    (authority : PolicyAuthority) : Bound { u.concluded now with authority } := by
  obtain ⟨-, -, added⟩ := h.executions
  have none (l : List AgentExecution)
      (sub : ∀ e ∈ l, e.status.isActive = true → e ∈ w.agentExecutions) :
      (l.map ({ u with revision := u.revision + 1 }.settle now)).countP
        (·.status.isActive) = 0 := by
    rw [countP_map, countP_eq_zero]
    intro e he live
    have here : e.status.isActive = true := (settle_active live).1 ▸ live
    exact absurd live (by simp [h.stale before (sub e he here)])
  constructor
  · show (u.agentExecutions.map _).countP _ ≤ 1
    obtain sub | ⟨-, e, grown⟩ := added
    · rw [none _ sub]
      exact Nat.zero_le 1
    · rw [congrArg (map (settle { u with revision := u.revision + 1 } now)) grown,
        map_append, countP_append, none _ fun _ he _ => he]
      exact (Nat.zero_add _).trans_le countP_le_length
  · intro e he live
    obtain ⟨x, -, rfl⟩ := mem_map.mp he
    obtain ⟨same, fresh⟩ := settle_active live
    obtain ⟨item, task, attempt, active, taskRevision, current⟩ :=
      boundTo_of_fresh (same ▸ live) fresh
    rw [same]
    exact ⟨item, task, attempt, active, taskRevision, current⟩

theorem Applied.bound (before : Bound w) (h : Applied env actor command now w u v) : Bound v := by
  rw [h.changes]
  exact h.effect.bound before v.authority

theorem Applied.executions (h : Applied env actor command now w u v) :
    v.agentExecutions =
      u.agentExecutions.map ({ u with revision := u.revision + 1 }.settle now) := by
  rw [h.changes]
  rfl

theorem Applied.settled (h : Applied env actor command now w u v) : Settled w v := by
  obtain ⟨-, settled, -⟩ := h.effect.executions
  refine settled.trans ?_
  intro i e here ended
  rw [h.executions, getElem?_map, here, Option.map_some, settle_ended ended]

/-! ## Agent operations -/

theorem Agent.bound (before : Bound w) (h : Agent w v) : Bound v := by
  -- Of the one active execution, an operation either changes the context or ends it.
  have only {e : AgentExecution} {p : AgentExecution → Bool} {l : List AgentExecution}
      {f : AgentExecution → AgentExecution} (same : l = w.agentExecutions)
      (found : w.agentExecutions.find? p = some e) (active : e.status.isActive = true)
      (ends : (f e).status.isActive = false) :
      (updateFirst p f l).countP (·.status.isActive) = 0 := by
    have count := countP_updateFirst (f := f) (q := (·.status.isActive)) found
    have few := before.single
    unfold activeCount at few
    simp only [active, ends, if_true, Bool.false_eq_true, if_false] at count
    rw [same]
    omega
  cases h with
  | attached =>
    refine ⟨before.single, ?_⟩
    intro e he live
    obtain ⟨item, bound⟩ := before.bound e he live
    exact ⟨item, bound.task, bound.attempt, bound.active, bound.taskRevision, bound.current⟩
  | started now given queued =>
    rename_i e item
    have active : e.status.isActive = true := by rw [queued]; rfl
    have count := countP_updateFirst (f := Workflow.started now (w.revision + 1))
      (q := (·.status.isActive)) given.found
    have few : (updateFirst (fun x => decide (x.id = e.id)) (Workflow.started now (w.revision + 1))
        w.agentExecutions).countP (·.status.isActive) ≤ 1 := by
      have := before.single
      unfold activeCount at this
      simp only [active, if_true] at count
      split at count <;> omega
    refine ⟨few, ?_⟩
    intro x hx live
    obtain rfl := eq_of_countP_le_one few hx (mem_updateFirst_self given.found) live rfl
    exact ⟨item, given.task, given.attempt.symm, given.active, given.taskRevision.symm, rfl⟩
  | finished _ _ _ _ _ given running placed =>
    exact bound_of_none (only placed.executions given.found (by rw [running]; rfl) rfl)
  | failed _ code _ found active =>
    refine bound_of_none (only rfl found active ?_)
    cases code <;> rfl

theorem Agent.settled (h : Agent w v) : Settled w v := by
  cases h with
  | attached => exact fun _ _ here _ => here
  | started _ given queued => exact settled_updateFirst rfl rfl given.found (by rw [queued]; rfl)
  | finished _ _ _ _ _ given running placed =>
    exact settled_updateFirst rfl placed.executions given.found (by rw [running]; rfl)
  | failed _ _ _ found active => exact settled_updateFirst rfl rfl found active

/-! ## Runs -/

theorem Step.bound {operation : Operation} (before : Bound w) (h : Step time w operation v) :
    Bound v :=
  h.invariant (fun _ _ holds change => change.bound holds)
    (fun _ _ _ _ _ _ _ _ _ holds done => done.bound holds) before

theorem Step.settled {operation : Operation} (h : Step time w operation v) : Settled w v :=
  h.invariant (P := Settled w) (fun _ _ holds change => holds.trans change.settled)
    (fun _ _ _ _ _ _ _ _ _ holds done => holds.trans done.settled) (Settled.refl w)

theorem Reached.bound {trace : List Operation} (h : Reached time trace w) : Bound w := by
  obtain ⟨_, _, _, start, seeded, run⟩ := h
  refine run.invariant (P := fun _ w => Bound w) (bound_of_none ?_)
    fun _ _ _ _ holds taken => taken.bound holds
  rw [activeCount, (fromFixture_fresh seeded).executions]
  rfl

/-- In every workflow reached at most one execution is active, it is bound to the live attempt, and
whatever has ended stays as it is in every later workflow. -/
theorem executions_stay_bound {trace : List Operation} (reached : Reached time trace w) :
    w.activeCount ≤ 1 ∧
      (∀ e ∈ w.agentExecutions, e.status.isActive = true → ∃ item, BoundTo w e item) ∧
      ∀ later v, Run (Step time) w later v → Settled w v := by
  refine ⟨reached.bound.single, reached.bound.bound, ?_⟩
  intro later v run
  exact run.invariant (P := fun _ v => Settled w v) (Settled.refl w)
    fun _ _ _ _ holds taken => holds.trans taken.settled

/-! A workflow of the first fixture with one piece of evidence and a requested execution. -/

def sampleEnv (n : Nat) : Env where
  time := sampleTime
  clock := 0
  draw k := fromU128 (0x0190000000007000800000000000e000 + 16 * n + k)

def sampleContext (n : Nat) (expectedRevision : Int) (acting : Uuid) : CommandContext :=
  ⟨fromU128 (0x0190000000007000800000000000f000 + n), expectedRevision, acting⟩

def sampleDocument : Uuid := fromU128 1

def sampleSource : EvidenceSource :=
  ⟨⟨"document", sampleDocument, fromU128 2, fromU128 3⟩, ⟨"contentItem", fromU128 4, fromU128 5⟩⟩

def sampleRegister : Operation :=
  .apply .sales01 (.registerEvidence salesTaskId
    (sampleContext 0 0 salesAssignmentId) salesAttemptId
    sampleSource "第1頁") sampleNow

def sampleRequest : Operation :=
  .apply .sales01 (.requestAgentExecution salesTaskId (sampleContext 1 1 salesAssignmentId)
    salesAttemptId "要約" [⟨(sampleEnv 0).draw 0, 1⟩]) sampleNow

/-- Operations that follow one another, each with its own identifiers. -/
def performAll : Workflow → List Operation → Except WorkError Workflow :=
  Run.replay fun n => perform (sampleEnv n)

theorem run_performAll {trace : List Operation} (h : performAll w trace = .ok v) :
    Run (Step sampleTime) w trace v :=
  Run.of_replay (fun _ u _ _ performed => ⟨u.authority, 0, _, performed⟩) h

theorem executions_stay_bound_sample : ∃ w, Reached sampleTime
    [sampleRequest, sampleRegister] w ∧ w.activeCount = 1 ∧
    ∃ e ∈ w.agentExecutions, ∃ item, BoundTo w e item := by
  have done : (performAll (synthetic (some sampleDocument))
      [sampleRequest, sampleRegister]).toOption.any (fun w =>
        w.activeCount = 1 ∧ w.agentExecutions.any (·.status.isActive) = true) = true := by
    decide
  obtain ⟨w, performed, one⟩ := any_exists done
  simp only [decide_eq_true_eq, any_eq_true] at one
  obtain ⟨one, e, he, active⟩ := one
  have reached : Reached sampleTime [sampleRequest, sampleRegister] w :=
    ⟨fixtureA, some sampleDocument, 0, _, rfl, run_performAll (toOption_some performed)⟩
  obtain ⟨-, bound, -⟩ := executions_stay_bound reached
  exact ⟨w, reached, one, e, he, bound e he active⟩

/-! ## Cancelling what has ended -/

theorem Effect.settled_iff (before : Bound w) (h : Effect env actor command now w w)
    {l : List AgentExecution} (sub : l ⊆ w.agentExecutions) :
    l.map ({ w with revision := w.revision + 1 }.settle now) = l ↔
      ∀ e ∈ l, e.status.isActive = false := by
  nth_rewrite 2 [← map_id l]
  rw [map_inj_left]
  refine forall₂_congr fun e he => ⟨fun same => ?_, settle_ended⟩
  rw [← id_eq e, ← same]
  exact h.stale before (sub he)

/-- Cancelling an execution that has ended leaves the others as they are just where none of them is
active: an active one loses its context to the new revision. -/
theorem cancel_ended_inert_iff {trace : List Operation} (reached : Reached time trace w)
    (named : e ∈ w.agentExecutions) (ended : e.status.isActive = false) {taskId attempt : Uuid}
    {context : CommandContext} (taken : Step time w
      (.apply actor (.cancelAgentExecution taskId context attempt e.id) now) v) :
    v.agentExecutions.filter (·.id ≠ e.id) = w.agentExecutions.filter (·.id ≠ e.id) ↔
      ∀ other ∈ w.agentExecutions, other.id ≠ e.id → other.status.isActive = false := by
  obtain ⟨authority, clock, draw, taken⟩ := taken
  obtain ⟨⟨_, r⟩, applied, rfl⟩ := except_map_iff.mp taken
  obtain ⟨w', u, ⟨authority', rfl, -⟩, -, ⟨_, validated⟩, done⟩ := apply_done applied
  have before := Agent.bound reached.bound (.attached authority')
  have unchanged : u = { w with authority := authority' } := by
    simp only [applyValidated, applyAgent, cancelAgentExecution, except_iffs,
      Prod.mk.injEq] at validated
    obtain ⟨_, -, e', read, -, _, cancelled, _, -, _, -, rfl, -⟩ := validated
    obtain ⟨sameId, found, -⟩ := agentExecution_ok read
    obtain rfl := inj_on_of_nodup_map (validateIntegrity_executions done.before)
      (mem_of_find?_eq_some found) named sameId
    rw [cancelIfActive, ended] at cancelled
    cases cancelled
    rfl
  subst unchanged
  simp only [done.executions, filter_map, Function.comp_def, settle_id]
  rw [done.effect.settled_iff before filter_sublist.subset]
  simp only [mem_filter, decide_eq_true_eq, and_imp]

def sampleCancel (n : Nat) (revision : Int) : Operation :=
  .apply .sales01 (.cancelAgentExecution salesTaskId (sampleContext n revision salesAssignmentId)
    salesAttemptId (sampleContext 1 1 salesAssignmentId).operationId) sampleNow

def sampleRequestAgain : Operation :=
  .apply .sales01 (.requestAgentExecution salesTaskId (sampleContext 3 3 salesAssignmentId)
    salesAttemptId "要約" [⟨(sampleEnv 0).draw 0, 1⟩]) sampleNow

theorem sample_step (trace : List Operation) (operation : Operation)
    (p : Workflow → Workflow → Prop) [∀ w v, Decidable (p w v)]
    (h : (performAll (synthetic (some sampleDocument)) trace).toOption.any (fun w =>
      (perform (sampleEnv trace.length) w operation).toOption.any fun v => p w v) = true) :
    ∃ w v, Reached sampleTime trace w ∧
      Step sampleTime w operation v ∧ p w v := by
  obtain ⟨w, before, h⟩ := any_exists h
  obtain ⟨v, last, h⟩ := any_exists h
  exact ⟨w, v, ⟨fixtureA, some sampleDocument, 0, _, rfl, run_performAll (toOption_some before)⟩,
    ⟨w.authority, 0, _, toOption_some last⟩, of_decide_eq_true h⟩

/-- Cancelled once more, the first execution takes the context from the second. -/
theorem cancel_ended_fails_other : ∃ w v,
    Reached sampleTime
      [sampleRequestAgain, sampleCancel 2 2, sampleRequest, sampleRegister] w ∧
    Step sampleTime w (sampleCancel 4 4) v ∧
    w.agentExecutions.map (·.status) = [.cancelled, .queued] ∧
    v.agentExecutions.map (·.status) = [.cancelled, .failed] :=
  sample_step _ _ (fun w v => w.agentExecutions.map (·.status) = [.cancelled, .queued] ∧
    v.agentExecutions.map (·.status) = [.cancelled, .failed]) (by decide)

/-- Once the second execution is interrupted, nothing is left to lose its context. -/
theorem cancel_ended_inert_once : ∃ w v,
    Step sampleTime w (sampleCancel 4 4) v ∧
    w.agentExecutions.map (·.status) = [.cancelled, .outcomeUnknown] ∧ ∃ e ∈ w.agentExecutions,
      v.agentExecutions.filter (·.id ≠ e.id) = w.agentExecutions.filter (·.id ≠ e.id) := by
  obtain ⟨w, v, reached, taken, both, e, he, same, ended⟩ :=
    sample_step [.interrupt .sales01 sampleNow, sampleRequestAgain, sampleCancel 2 2, sampleRequest,
      sampleRegister] (sampleCancel 4 4) (fun w _ =>
        w.agentExecutions.map (·.status) = [.cancelled, .outcomeUnknown] ∧
        ∃ e ∈ w.agentExecutions, (sampleContext 1 1 salesAssignmentId).operationId = e.id ∧
          ∀ e ∈ w.agentExecutions, e.status.isActive = false) (by decide)
  have named := taken
  rw [sampleCancel, same] at named
  exact ⟨w, v, taken, both, e, he, (cancel_ended_inert_iff reached he (ended e he) named).mpr
    fun other hother _ => ended other hother⟩

end KnowledgePlatform.Work.Workflow
