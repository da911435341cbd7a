import KnowledgePlatform.Lib.Run
import KnowledgePlatform.Work.Effects

/-! The operations of a workflow as steps, each with what it changes. -/

namespace KnowledgePlatform.Work.Workflow

open List

variable {w u v : Workflow} {env : Env} {actor : VerifiedActor} {item : WorkItem} {id : Uuid}
  {command : Command} {now : String} {time : TimeText}

/-! ## Commands -/

/-- An execution whose context moved fails; the others stay. -/
def settle (w : Workflow) (now : String) (e : AgentExecution) : AgentExecution :=
  if w.isStale e then failStale now e else e

theorem settle_id (e : AgentExecution) : (w.settle now e).id = e.id := by
  unfold settle
  split
  · rfl
  · rfl

theorem foldlM_failContext {ids : List Uuid} (h : ids.foldlM (failContext now) w = .ok v) :
    v = { w with
      agentExecutions := (ids.foldl (fun l id => updateFirst (fun e => e.id = id) (failStale now) l)
        w.agentExecutions) } ∧
      v.agentExecutions.map (·.id) = w.agentExecutions.map (·.id) := by
  induction ids generalizing w with
  | nil =>
    cases h
    exact ⟨rfl, rfl⟩
  | cons id ids ih =>
    rw [foldlM_cons, except_bind_iff] at h
    obtain ⟨y, first, h⟩ := h
    simp only [failContext, except_iffs] at first
    obtain ⟨_, -, rfl⟩ := first
    obtain ⟨same, sameIds⟩ := ih h
    exact ⟨same, sameIds.trans (map_updateFirst fun _ _ => rfl)⟩

/-- The failed ones are those of the workflow as it was before any failed. -/
theorem invalidateAgentContexts_ok (h : w.invalidateAgentContexts now = .ok v)
    (distinct : (v.agentExecutions.map (·.id)).Nodup) :
    v = { w with agentExecutions := w.agentExecutions.map (w.settle now) } := by
  obtain ⟨same, ids⟩ := foldlM_failContext h
  rw [ids] at distinct
  have once : ((w.agentExecutions.filter w.isStale).map (·.id)).Nodup :=
    distinct.sublist (filter_sublist.map _)
  rw [foldl_updateFirst (f := failStale now) (fun _ => rfl) distinct once] at same
  rw [same]
  congr 1
  refine map_congr_left ?_
  intro e he
  unfold settle
  by_cases stale : w.isStale e = true
  · rw [if_pos stale, if_pos (mem_map_of_mem (mem_filter.mpr ⟨he, stale⟩))]
  · rw [if_neg stale, if_neg]
    intro mem
    obtain ⟨other, hother, sameId⟩ := mem_map.mp mem
    obtain ⟨hother, otherStale⟩ := mem_filter.mp hother
    exact stale (inj_on_of_nodup_map distinct he hother sameId.symm ▸ otherStale)

/-- The workflow that an effect leads to. -/
def concluded (u : Workflow) (now : String) : Workflow :=
  { u.closeFinishedAssignments now with
    revision := u.revision + 1
    agentExecutions := u.agentExecutions.map ({ u with revision := u.revision + 1 }.settle now) }

/-- What an accepted command did: its effect, then the end of closed periods and of executions whose
context moved. -/
structure Applied (env : Env) (actor : VerifiedActor) (command : Command) (now : String)
    (w u v : Workflow) : Prop where
  before : w.validateIntegrity env.time = .ok ()
  effect : Effect env actor command now w u
  changes : v = { u.concluded now with authority := v.authority }
  after : v.validateIntegrity env.time = .ok ()

theorem validateIntegrity_executions (h : w.validateIntegrity time = .ok ()) :
    (w.agentExecutions.map (·.id)).Nodup := by
  simp only [validateIntegrity, validateAgentIntegrity, except_iffs] at h
  obtain ⟨_, -, -, -, -, -, -, ⟨⟨distinct, -⟩, -⟩, -⟩ := h
  exact distinct

theorem validateIntegrity_plan (h : w.validateIntegrity time = .ok ()) :
    ∃ plan, w.plan = .ok plan ∧ w.checkPlan time plan = .ok () := by
  simp only [validateIntegrity, except_bind_iff] at h
  obtain ⟨plan, planned, _, checked, -⟩ := h
  exact ⟨plan, planned, checked⟩

theorem contextFixtures_apart : ∀ plan ∈ contextFixtures, plan.sourceTaskId ≠ plan.nextTaskId := by
  decide

variable {plan : ContextFixture}

theorem plan_mem (h : w.plan = .ok plan) : plan ∈ contextFixtures :=
  mem_of_find?_eq_some (okOr_iff.mp h)

theorem validateIntegrity_apart (h : w.validateIntegrity time = .ok ())
    (planned : w.plan = .ok plan) : w.source.id ≠ plan.nextTaskId := by
  obtain ⟨plan', planned', checked⟩ := validateIntegrity_plan h
  obtain rfl : plan = plan' := Except.ok.inj (planned.symm.trans planned')
  simp only [checkPlan, ensure_iff] at checked
  rw [checked.2.1]
  exact contextFixtures_apart plan (plan_mem planned)

/-- An accepted command was authorized and carried out on a copy under the same policy. -/
theorem apply_done {r : MutationResult} (h : w.apply env actor command now = .ok (v, r)) :
    ∃ w' u, (∃ authority, w' = { w with authority } ∧ authority.policy = w.authority.policy) ∧
      w'.authorizeCommand env actor command = .ok () ∧
      (∃ result, w'.applyValidated env actor command now = .ok (u, result)) ∧
      Applied env actor command now w' u v := by
  simp only [apply, except_iffs, nextRevision_iff, Prod.mk.injEq] at h
  obtain ⟨instant, -, before, authorized, item, found, -, -, ⟨u, result⟩, applied, _, ⟨-, rfl⟩,
    z, invalidated, after, rfl, -⟩ := h
  have effect := applyValidated_effect found (fun _ => validateIntegrity_apart before) applied
  refine ⟨_, u, ⟨{ w.authority with evaluatedAt := some instant }, rfl, rfl⟩, authorized,
    ⟨result, applied⟩, before, effect, ?_, after⟩
  have same := invalidateAgentContexts_ok invalidated (validateIntegrity_executions after)
  rw [same]
  rfl

theorem apply_ok {r : MutationResult} (h : w.apply env actor command now = .ok (v, r)) :
    ∃ w' u, (∃ authority, w' = { w with authority }) ∧ Applied env actor command now w' u v := by
  obtain ⟨w', u, ⟨authority, here, -⟩, -, -, done⟩ := apply_done h
  exact ⟨w', u, ⟨authority, here⟩, done⟩

/-! ## Agent operations -/

def started (now : String) (revision : Int) (e : AgentExecution) : AgentExecution :=
  { e with status := .running, startedAt := now, effectiveContextRevision := revision }

def finished (now : String) (result : AgentResult) (taskRevision : Int) (e : AgentExecution) :
    AgentExecution :=
  { e with status := .succeeded, result := some result, endedAt := some now, taskRevision }

def failedWith (code : AgentFailureCode) (now : String) (e : AgentExecution) : AgentExecution :=
  { e with status := failureStatus code, failureCode := some code, endedAt := some now }

/-- An execution that an operation found, on the attempt it was requested for. -/
structure Dispatched (w : Workflow) (e : AgentExecution) (item : WorkItem) : Prop where
  found : (w.agentExecutions.find? fun x => x.id = e.id) = some e
  task : w.item e.workItemId = .ok item
  attempt : e.attemptId = item.attemptId
  active : item.state = .active
  current : e.effectiveContextRevision = w.revision
  taskRevision : e.taskRevision = item.revision

/-- The changes outside the commands. -/
inductive Agent (w : Workflow) : Workflow → Prop
  | attached (authority : PolicyAuthority) : Agent w { w with authority }
  | started {e : AgentExecution} {item : WorkItem} (now : String) (given : Dispatched w e item)
    (queued : e.status = .queued) :
    Agent w ({ w with revision := w.revision + 1 }.updateExecution e.id
      (started now (w.revision + 1)))
  | finished {e : AgentExecution} {item : WorkItem} {u : Workflow} (now : String)
    (result : AgentResult) (findings : List Finding) (generated : List GeneratedArtifact)
    (suggested : List SuggestedAction) (given : Dispatched w e item) (running : e.status = .running)
    (placed : Replaced { w with
      findings := w.findings ++ findings
      generatedArtifacts := w.generatedArtifacts ++ generated
      suggestedActions := w.suggestedActions ++ suggested } item item.revised u) :
    Agent w ({ u with revision := u.revision + 1 }.updateExecution e.id
      (finished now result (item.revision + 1)))
  | failed {e : AgentExecution} (accepts : AgentExecution → Bool) (code : AgentFailureCode)
    (now : String) (found : w.agentExecutions.find? accepts = some e)
    (active : e.status.isActive = true) :
    Agent w { w with
      revision := w.revision + 1
      agentExecutions := updateFirst accepts (failedWith code now) w.agentExecutions }

variable {e : AgentExecution}

theorem agentExecution_ok (h : w.agentExecution env actor id = .ok e) :
    e.id = id ∧ (w.agentExecutions.find? fun x => x.id = e.id) = some e ∧
      ∃ item, w.item e.workItemId = .ok item ∧ e.attemptId = item.attemptId := by
  simp only [agentExecution, except_iffs] at h
  obtain ⟨_, found, item, task, ⟨-, -, attempt, -⟩, rfl⟩ := h
  obtain rfl : _ = id := by simpa using find?_some found
  exact ⟨rfl, found, item, task, attempt⟩

theorem buildAgentContext_ok {c : AgentDispatchContext}
    (h : w.buildAgentContext env actor id = .ok c) :
    c.execution.id = id ∧ c.execution.status = .running ∧ ∃ item,
      Dispatched w c.execution item := by
  simp only [buildAgentContext, except_iffs] at h
  obtain ⟨e, read, item, task, ⟨running, active, current, revision⟩, -, disclosed⟩ := h
  obtain ⟨rfl, found, item', task', attempt⟩ := agentExecution_ok read
  obtain rfl : item = item' := Except.ok.inj (task.symm.trans task')
  simp only [agentDisclosureContext, except_iffs] at disclosed
  obtain ⟨e', found', _, -, -, rfl⟩ := disclosed
  obtain rfl : e = e' := Option.some.inj (found.symm.trans found')
  exact ⟨rfl, running, item, found, task, attempt, active, current, revision⟩

theorem startAgentExecution_ok {c : Option AgentDispatchContext}
    (h : w.startAgentExecution env actor id now = .ok (v, c)) : v = w ∨ ∃ e item,
      Dispatched w e item ∧ e.status = .queued ∧
        v = { w with revision := w.revision + 1 }.updateExecution e.id
          (started now (w.revision + 1)) := by
  simp only [startAgentExecution, except_bind_iff] at h
  obtain ⟨e, read, h⟩ := h
  split at h
  · cases h
    exact .inl rfl
  next queued =>
    simp only [except_iffs, nextRevision_iff, Prod.mk.injEq] at h
    obtain ⟨item, task, ⟨active, revision, current⟩, _, ⟨-, rfl⟩, _, -, rfl, -⟩ := h
    obtain ⟨rfl, found, item', task', attempt⟩ := agentExecution_ok read
    obtain rfl : item = item' := Except.ok.inj (task.symm.trans task')
    exact .inr ⟨e, item, ⟨found, task, attempt, active, current, revision⟩, by simpa using queued,
      rfl⟩

theorem startAgentExecution_agent {c : Option AgentDispatchContext}
    (h : w.startAgentExecution env actor id now = .ok (v, c)) : v = w ∨ Agent w v := by
  obtain same | ⟨e, item, given, queued, rfl⟩ := startAgentExecution_ok h
  · exact .inl same
  · exact .inr (.started now given queued)

theorem recordFinding_ok {task : Uuid} {output : AgentOutput} {r : Option RevisionRef}
    (h : w.recordFinding env actor task id output now = .ok (u, r)) :
    ∃ findings, u = { w with findings := w.findings ++ findings } := by
  unfold recordFinding at h
  split at h
  · cases h
    exact ⟨[], by simp⟩
  · simp only [except_iffs, Prod.mk.injEq] at h
    obtain ⟨f, -, rfl, -⟩ := h
    exact ⟨[_], rfl⟩

theorem finishAgentExecution_agent {c : AgentDispatchContext} {output : AgentOutput}
    (h : w.finishAgentExecution env c output now = .ok (v, e)) : Agent w v := by
  simp only [finishAgentExecution, recordCandidates, except_iffs, nextRevision_iff,
    Prod.mk.injEq] at h
  obtain ⟨-, _, built, rfl, -, ⟨u, r⟩, recorded, _, ⟨suggested, -, rfl⟩, z, bumped, _, ⟨-, rfl⟩,
    changed, here, _, -, -, rfl, -⟩ := h
  obtain ⟨-, running, item, given⟩ := buildAgentContext_ok built
  obtain ⟨findings, rfl⟩ := recordFinding_ok recorded
  have placed := nextRecordRevision_ok bumped given.task
  obtain rfl : changed = item.revised :=
    Except.ok.inj (here.symm.trans (placed.item_eq rfl given.task))
  exact .finished now _ findings _ suggested given running placed

theorem failAgentExecution_ok {code : AgentFailureCode}
    (h : w.failAgentExecution actor id code now = .ok (v, e)) : v = w ∨ ∃ accepts e',
      w.agentExecutions.find? accepts = some e' ∧ e'.status.isActive = true ∧ v = { w with
        revision := w.revision + 1
        agentExecutions := updateFirst accepts (failedWith code now) w.agentExecutions } := by
  simp only [failAgentExecution, except_iffs] at h
  obtain ⟨e', found, h⟩ := h
  split at h
  next active =>
    simp only [except_iffs, nextRevision_iff, Prod.mk.injEq] at h
    obtain ⟨_, ⟨-, rfl⟩, rfl, -⟩ := h
    exact .inr ⟨_, e', found, active, rfl⟩
  · cases h
    exact .inl rfl

theorem failAgentExecution_agent {code : AgentFailureCode}
    (h : w.failAgentExecution actor id code now = .ok (v, e)) : v = w ∨ Agent w v := by
  obtain same | ⟨accepts, e', found, active, rfl⟩ := failAgentExecution_ok h
  · exact .inl same
  · exact .inr (.failed accepts code now found active)

/-- Executions that are interrupted fail one after the other. -/
theorem interruptAgentExecutions_invariant {P : Workflow → Prop} {n : Nat}
    (each : ∀ x y id e, P x → x.failAgentExecution actor id .interrupted now = .ok (y, e) → P y)
    (start : P w) (h : w.interruptAgentExecutions actor now = .ok (v, n)) : P v := by
  simp only [interruptAgentExecutions, except_iffs, Prod.mk.injEq] at h
  obtain ⟨_, folded, rfl, -⟩ := h
  refine foldlM_invariant ?_ start folded
  intro x id _ holds failed
  simp only [except_iffs] at failed
  obtain ⟨⟨y, e⟩, failed, rfl⟩ := failed
  exact each x y id e holds failed

/-! ## Steps -/

inductive Operation where
  | apply (actor : VerifiedActor) (command : Command) (now : String)
  | start (actor : VerifiedActor) (id : Uuid) (now : String)
  | finish (context : AgentDispatchContext) (output : AgentOutput) (now : String)
  | fail (actor : VerifiedActor) (id : Uuid) (code : AgentFailureCode) (now : String)
  | interrupt (actor : VerifiedActor) (now : String)

def perform (env : Env) (w : Workflow) : Operation → Except WorkError Workflow
  | .apply actor command now => Prod.fst <$> w.apply env actor command now
  | .start actor id now => Prod.fst <$> w.startAgentExecution env actor id now
  | .finish context output now => Prod.fst <$> w.finishAgentExecution env context output now
  | .fail actor id code now => Prod.fst <$> w.failAgentExecution actor id code now
  | .interrupt actor now => Prod.fst <$> w.interruptAgentExecutions actor now

/-- A successful operation, with any authority attached, clock read and identifiers drawn. -/
def Step (time : TimeText) (w : Workflow) (operation : Operation) (v : Workflow) : Prop :=
  ∃ authority clock draw, perform ⟨time, clock, draw⟩ { w with authority } operation = .ok v

/-- What every change keeps, every step keeps. -/
theorem Step.invariant {P : Workflow → Prop} {operation : Operation}
    (agent : ∀ x y, P x → Agent x y → P y)
    (command : ∀ env actor command now x u y, operation = .apply actor command now →
      env.time = time →
      P x → Applied env actor command now x u y → P y)
    (start : P w) (h : Step time w operation v) : P v := by
  obtain ⟨authority, clock, draw, h⟩ := h
  have begun : P { w with authority } := agent _ _ start (.attached authority)
  have kept {x y : Workflow} (before : P x) (h : y = x ∨ Agent x y) : P y :=
    h.elim (fun same => same ▸ before) (agent x y before)
  cases operation with
  | apply actor issued now =>
    obtain ⟨⟨y, r⟩, applied, rfl⟩ := except_map_iff.mp h
    obtain ⟨w', u, ⟨_, rfl⟩, done⟩ := apply_ok applied
    exact command _ actor issued now _ u y rfl rfl (agent _ _ begun (.attached _)) done
  | start =>
    obtain ⟨⟨y, c⟩, started, rfl⟩ := except_map_iff.mp h
    exact kept begun (startAgentExecution_agent started)
  | finish =>
    obtain ⟨⟨y, e⟩, finished, rfl⟩ := except_map_iff.mp h
    exact agent _ _ begun (finishAgentExecution_agent finished)
  | fail =>
    obtain ⟨⟨y, e⟩, failed, rfl⟩ := except_map_iff.mp h
    exact kept begun (failAgentExecution_agent failed)
  | interrupt =>
    obtain ⟨⟨y, n⟩, interrupted, rfl⟩ := except_map_iff.mp h
    exact interruptAgentExecutions_invariant
      (fun _ _ _ _ holds failed => kept holds (failAgentExecution_agent failed)) begun interrupted

/-- A fixture starts with one attempt and no records. -/
structure Fresh (w : Workflow) : Prop where
  next : w.next = none
  archived : w.completedAttempts = []
  snapshots : w.snapshots = []
  executions : w.agentExecutions = []
  number : w.source.attemptNumber = 1
  unfinished : w.source.state ≠ .completed

theorem fromFixture_fresh {fixture : ContextFixture} {documentId : Option Uuid} {seededAt : Instant}
    (h : fromFixture time fixture documentId seededAt = .ok w) : Fresh w := by
  unfold fromFixture at h
  split at h
  · cases h
    exact ⟨rfl, rfl, rfl, rfl, rfl, by simp [synthetic]⟩
  · simp only [except_iffs] at h
    obtain ⟨_, -, source, started, -, rfl⟩ := h
    unfold startItem at started
    split at started
    · cases started
      exact ⟨rfl, rfl, rfl, rfl, rfl, by simp [synthetic]⟩
    · simp only [except_iffs] at started
      obtain ⟨_, -, rfl⟩ := started
      exact ⟨rfl, rfl, rfl, rfl, rfl, by simp⟩

/-- The workflows that successful operations lead to from a fixture. -/
def Reached (time : TimeText) (trace : List Operation) (w : Workflow) : Prop :=
  ∃ fixture documentId seededAt start, fromFixture time fixture documentId seededAt = .ok start ∧
    Run (Step time) start trace w

end KnowledgePlatform.Work.Workflow
