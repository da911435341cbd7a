import KnowledgePlatform.Work.Executions

/-! The phases of a workflow and its history, over every run. -/

namespace KnowledgePlatform.Work.Workflow

open OrganizationPolicy (sampleNow sampleTime)
open List

variable {w u v : Workflow} {env : Env} {actor : VerifiedActor} {command : Command} {now : String}
  {time : TimeText} {s item new : WorkItem} {n : Option WorkItem} {a : List WorkItem}
  {e : AgentExecution}

/-! ## Attempts -/

def earlier (a : List WorkItem) (task : Uuid) : List WorkItem := a.filter fun item => item.id = task

/-- The archived attempts of the item's task are numbered from one, and the item comes next. -/
structure Numbered (a : List WorkItem) (item : WorkItem) : Prop where
  archived : (earlier a item.id).map (·.attemptNumber) = List.range' 1 (earlier a item.id).length
  follows : item.attemptNumber = (earlier a item.id).length + 1

theorem Numbered.edited (h : Numbered a item) (id : new.id = item.id)
    (number : new.attemptNumber = item.attemptNumber) : Numbered a new :=
  ⟨id ▸ h.archived, number.trans (id ▸ h.follows)⟩

/-- The attempt that follows an archived one. -/
theorem Numbered.next (h : Numbered a item) (id : new.id = item.id)
    (number : new.attemptNumber = item.attemptNumber + 1) : Numbered (a ++ [item]) new := by
  have grown : earlier (a ++ [item]) item.id = earlier a item.id ++ [item] := by
    simp [earlier]
  constructor
  · rw [id, grown, map_append, h.archived, length_append, length_singleton,
      range'_1_concat, map_singleton, h.follows, Nat.add_comm 1]
  · rw [number, h.follows, id, grown, length_append, length_singleton]

/-- Attempts of another task do not count. -/
theorem Numbered.other (h : Numbered a item) (different : s.id ≠ item.id) :
    Numbered (a ++ [s]) item := by
  have same : earlier (a ++ [s]) item.id = earlier a item.id := by
    simp [earlier, different]
  exact ⟨same ▸ h.archived, same ▸ h.follows⟩

/-! ## Phases -/

/-- The source task, the next one and the archived attempts fit together. -/
structure Phase (s : WorkItem) (n : Option WorkItem) (a : List WorkItem) : Prop where
  apart : ∀ item ∈ n, item.id ≠ s.id
  first : n = none → s.state ≠ .completed ∧ a = []
  one : ∀ item ∈ n, s.state = .completed ∨ item.state = .completed
  source : Numbered a s
  next : ∀ item ∈ n, Numbered a item
  owned : ∀ old ∈ a, old.id = s.id ∨ ∃ item ∈ n, old.id = item.id

def Phased (w : Workflow) : Prop := Phase w.source w.next w.completedAttempts

theorem Phased.completes (h : Phased w) (found : w.next = some item) (now : String) :
    Replaced w item (completedItem now item) { w with next := some (completedItem now item) } :=
  .next found (h.apart item found)

/-- Both tasks have been reached. -/
theorem Phase.pair (apart : item.id ≠ s.id) (one : s.state = .completed ∨ item.state = .completed)
    (source : Numbered a s) (next : Numbered a item)
    (owned : ∀ old ∈ a, old.id = s.id ∨ old.id = item.id) : Phase s (some item) a where
  apart := by rintro _ ⟨⟩; exact apart
  first := nofun
  one := by rintro _ ⟨⟩; exact one
  source
  next := by rintro _ ⟨⟩; exact next
  owned old hold := (owned old hold).imp_right fun same => ⟨item, rfl, same⟩

theorem Phase.owner (h : Phase s n a) (found : n = some item) {old : WorkItem} (hold : old ∈ a) :
    old.id = s.id ∨ old.id = item.id := by
  refine (h.owned old hold).imp_right ?_
  rintro ⟨x, hx, same⟩
  obtain rfl : x = item := Option.some.inj (hx.symm.trans found)
  exact same

/-- An item that is not completed is edited and stays so. -/
structure Edited (item new : WorkItem) : Prop where
  id : new.id = item.id
  number : new.attemptNumber = item.attemptNumber
  unfinished : item.state ≠ .completed
  still : new.state ≠ .completed

theorem Replaced.phased (h : Replaced w item new v) (edited : Edited item new) (before : Phased w) :
    Phased v := by
  cases h with
  | source same =>
    subst same
    exact {
      apart := fun x hx => edited.id ▸ before.apart x hx
      first := fun none => ⟨edited.still, (before.first none).2⟩
      one := fun x hx => .inr ((before.one x hx).resolve_left edited.unfinished)
      source := before.source.edited edited.id edited.number
      next := before.next
      owned := fun old hold => edited.id ▸ before.owned old hold }
  | next found apart =>
    refine Phase.pair (edited.id ▸ apart) ?_ before.source
      ((before.next item found).edited edited.id edited.number) fun old hold => ?_
    · exact .inl ((before.one item found).resolve_right edited.unfinished)
    · exact edited.id ▸ before.owner found hold

theorem edited_revised (active : item.state = .active) : Edited item item.revised :=
  ⟨rfl, rfl, by simp [active], by simp [WorkItem.revised, active]⟩

theorem assignedItem_unfinished {record : WorkAssignmentRecord}
    (unfinished : item.state ≠ .completed) :
    (assignedItem record item).state ≠ .completed := by
  unfold assignedItem
  dsimp only
  split
  · simp
  · exact unfinished

/-- The attempt that receives a submission is the first of its task, or follows the one there. -/
theorem nextAttempt_ok {plan : ContextFixture} {attempt : NextAttempt}
    (h : w.nextAttempt env plan = .ok attempt) :
    (w.next = none ∧ attempt = ⟨1, 0, plan.nextAttemptId, w.completedAttempts⟩) ∨
      ∃ previous, w.next = some previous ∧ attempt = ⟨previous.attemptNumber + 1,
        previous.revision + 1, env.draw 1, w.completedAttempts ++ [previous]⟩ := by
  unfold nextAttempt at h
  split at h
  next previous found =>
    simp only [except_iffs, nextNumber_iff, nextRevision_iff] at h
    obtain ⟨_, ⟨-, rfl⟩, _, ⟨-, rfl⟩, rfl⟩ := h
    exact .inr ⟨previous, found, rfl⟩
  next found =>
    exact .inl ⟨found, (Except.ok.inj h).symm⟩

/-- An active execution is of an active task. -/
theorem Bound.task_active (bound : Bound w)
    (found : (w.agentExecutions.find? fun x => x.id = e.id) = some e)
    (active : e.status.isActive = true) (task : w.item e.workItemId = .ok item) :
    item.state = .active := by
  obtain ⟨item', bound⟩ := bound.bound e (mem_of_find?_eq_some found) active
  obtain rfl := Except.ok.inj (task.symm.trans bound.task)
  exact bound.active

theorem Effect.phased (bound : Bound w) (planned : w.validateIntegrity time = .ok ())
    (before : Phased w) (h : Effect env actor command now w u) : Phased u := by
  cases h with
  | kept => exact before
  | paused _ _ live still placed =>
    refine placed.phased ⟨rfl, rfl, ?_, ?_⟩ before
    · obtain live | live := live <;> simp [live]
    · obtain still | still := still <;> simp [still]
  | recorded records active placed =>
    refine placed.phased (edited_revised active) ?_
    cases records <;> exact before
  | requested _ _ active _ placed => exact placed.phased (edited_revised active) before
  | cancelled _ found active task _ placed =>
    exact placed.phased (edited_revised (bound.task_active found active task)) before
  | assigned _ _ _ unfinished _ _ placed =>
    exact placed.phased ⟨rfl, rfl, unfinished, assignedItem_unfinished unfinished⟩ before
  | @completed item _ found =>
    exact Phase.pair (before.apart item found) (.inr rfl) before.source
      ((before.next item found).edited rfl rfl) fun old => before.owner found
  | @returned office _ found =>
    have apart := before.apart office found
    refine Phase.pair apart (.inr rfl) (before.source.next rfl rfl)
      (((before.next office found).other apart.symm).edited rfl rfl) ?_
    refine forall_mem_append.mpr ⟨fun old => before.owner found, ?_⟩
    exact forall_mem_singleton.mpr (.inl rfl)
  | submitted plan snapshot _ here _ _ _ received =>
    have apart : plan.nextTaskId ≠ w.source.id := (validateIntegrity_apart planned here).symm
    have source : Numbered w.completedAttempts (submittedItem snapshot now w.source) :=
      before.source.edited rfl rfl
    obtain ⟨found, rfl⟩ | ⟨previous, found, rfl⟩ := nextAttempt_ok received
    · obtain ⟨-, empty⟩ := before.first found
      refine Phase.pair apart (.inl rfl) source ?_ ?_
      · rw [empty]
        exact ⟨rfl, rfl⟩
      · rw [empty]
        exact forall_mem_nil _
    · obtain ⟨plan', planned', checked⟩ := validateIntegrity_plan planned
      obtain rfl : plan = plan' := Except.ok.inj (here.symm.trans planned')
      simp only [checkPlan, ensure_iff] at checked
      have task : previous.id = plan.nextTaskId := (checked.2.2.2.1 previous found).1
      refine Phase.pair apart (.inl rfl) (source.other (before.apart previous found))
        ((before.next previous found).next task.symm rfl) ?_
      refine forall_mem_append.mpr ⟨fun old hold => ?_, ?_⟩
      · exact (before.owner found hold).imp_right fun same => same.trans task
      · exact forall_mem_singleton.mpr (.inr task)

/-! ## What is kept -/

/-- Completed attempts stay as they are, and the records grow at their ends. -/
structure Preserved (w v : Workflow) : Prop where
  completed : ∀ item ∈ w.allItems, item.state = .completed → item ∈ v.allItems
  snapshots : w.snapshots <+: v.snapshots
  returnInstructions : w.returnInstructions <+: v.returnInstructions
  evidence : w.evidence <+: v.evidence
  findings : w.findings <+: v.findings
  decisions : w.decisions <+: v.decisions
  history : w.history <+: v.history

theorem Preserved.refl (w : Workflow) : Preserved w w :=
  ⟨fun _ h _ => h, prefix_rfl, prefix_rfl, prefix_rfl, prefix_rfl,
    prefix_rfl, prefix_rfl⟩

theorem Preserved.trans (first : Preserved w u) (second : Preserved u v) : Preserved w v where
  completed item h done := second.completed item (first.completed item h done) done
  snapshots := first.snapshots.trans second.snapshots
  returnInstructions := first.returnInstructions.trans second.returnInstructions
  evidence := first.evidence.trans second.evidence
  findings := first.findings.trans second.findings
  decisions := first.decisions.trans second.decisions
  history := first.history.trans second.history

theorem mem_allItems : item ∈ w.allItems ↔
    item = w.source ∨ w.next = some item ∨ item ∈ w.completedAttempts := by
  simp [allItems, currentItems]

theorem Replaced.completed (h : Replaced w item new v) (unfinished : item.state ≠ .completed)
    {old : WorkItem} (hold : old ∈ w.allItems) (done : old.state = .completed) :
    old ∈ v.allItems := by
  rw [mem_allItems] at hold ⊢
  cases h with
  | source same =>
    obtain rfl | hold := hold
    · exact absurd done (same ▸ unfinished)
    · exact .inr hold
  | next found =>
    obtain rfl | hold | hold := hold
    · exact .inl rfl
    · obtain rfl : old = item := Option.some.inj (hold.symm.trans found)
      exact absurd done unfinished
    · exact .inr (.inr hold)

/-- Replacing an unfinished item changes no record. -/
theorem Replaced.preserved (h : Replaced w item new v) (unfinished : item.state ≠ .completed) :
    Preserved w v := by
  have kept (old : WorkItem) (hold : old ∈ w.allItems) (done : old.state = .completed) :
      old ∈ v.allItems := h.completed unfinished hold done
  cases h <;> exact ⟨kept, prefix_rfl, prefix_rfl, prefix_rfl, prefix_rfl,
    prefix_rfl, prefix_rfl⟩

theorem log_preserved (kind : String) : Preserved w (w.log kind now) :=
  { Preserved.refl w with history := prefix_append _ _ }

theorem Records.preserved (h : Records w u) : Preserved w u := by
  cases h with
  | evidence => exact { Preserved.refl w with evidence := prefix_append _ _ }
  | finding => exact { Preserved.refl w with findings := prefix_append _ _ }
  | decision => exact { Preserved.refl w with decisions := prefix_append _ _ }
  | artifacts => exact { Preserved.refl w with }

theorem Effect.preserved (bound : Bound w) (before : Phased w)
    (h : Effect env actor command now w u) :
    Preserved w u := by
  have unfinished {x : WorkItem} (active : x.state = .active) : x.state ≠ .completed := by
    simp [active]
  cases h with
  | kept => exact Preserved.refl w
  | paused _ kind live _ placed =>
    refine (log_preserved kind).trans (placed.preserved ?_)
    obtain live | live := live <;> simp [live]
  | recorded records active placed =>
    exact records.preserved.trans (placed.preserved (unfinished active))
  | requested _ _ active _ placed =>
    exact { placed.preserved (unfinished active) with }
  | cancelled _ found active task _ placed =>
    exact { placed.preserved (unfinished (bound.task_active found active task)) with }
  | @assigned _ x record ended kind open' _ _ placed =>
    have base : Preserved w { x with assignments := ended ++ [record] } :=
      { placed.preserved open' with }
    exact base.trans (log_preserved kind)
  | completed _ found active =>
    exact ((before.completes found now).preserved (unfinished active)).trans (log_preserved _)
  | @returned office instruction found active done =>
    refine Preserved.trans (u := w.givenBack instruction office now) ?_ (log_preserved _)
    refine { Preserved.refl w with completed := ?_, returnInstructions := prefix_append _ _ }
    intro item hitem done
    rw [mem_allItems] at hitem ⊢
    obtain rfl | hitem | hitem := hitem
    · exact .inr (.inr (mem_append_right _ mem_cons_self))
    · obtain rfl : item = office := Option.some.inj (hitem.symm.trans found)
      exact absurd done (unfinished active)
    · exact .inr (.inr (mem_append_left _ hitem))
  | submitted plan snapshot attempt _ active _ _ received =>
    refine Preserved.trans (u := w.handedOver plan snapshot attempt now) ?_ (log_preserved _)
    refine { Preserved.refl w with completed := ?_, snapshots := prefix_append _ _ }
    intro item hitem done
    have archived : ∀ x ∈ w.next.toList ++ w.completedAttempts, x ∈ attempt.completedAttempts := by
      obtain ⟨found, rfl⟩ | ⟨_, found, rfl⟩ := nextAttempt_ok received <;> simp [found, or_comm]
    rw [mem_allItems] at hitem ⊢
    obtain rfl | hitem | hitem := hitem
    · exact absurd done (unfinished active)
    · exact .inr (.inr (archived item (by simp [hitem])))
    · exact .inr (.inr (archived item (by simp [hitem])))

/-! ## The end -/

/-- Both tasks are completed. -/
def Ended (w : Workflow) : Prop :=
  w.source.state = .completed ∧ ∃ item ∈ w.next, item.state = .completed

theorem Replaced.not_ended (h : Replaced w item new v) (still : new.state ≠ .completed) :
    ¬ Ended v := by
  rintro ⟨source, x, hx, done⟩
  cases h with
  | source => exact still source
  | next =>
    cases hx
    exact still done

theorem Effect.ended (bound : Bound w) (h : Effect env actor command now w u) (ended : Ended u) :
    command.isComplete = true ∨ Ended w := by
  cases h with
  | kept => exact .inr ended
  | paused _ _ _ still placed =>
    refine absurd ended (placed.not_ended ?_)
    obtain still | still := still <;> simp [still]
  | recorded _ active placed | requested _ _ active _ placed =>
    exact absurd ended (placed.not_ended (edited_revised active).still)
  | cancelled _ found active task _ placed =>
    have edited := edited_revised (bound.task_active found active task)
    exact absurd ended (placed.not_ended edited.still)
  | assigned _ _ _ unfinished _ _ placed =>
    exact absurd ended (placed.not_ended (assignedItem_unfinished unfinished))
  | completed issued => exact .inl issued
  | returned =>
    obtain ⟨source, -⟩ := ended
    cases source
  | submitted =>
    obtain ⟨-, x, hx, done⟩ := ended
    cases hx
    cases done

/-! ## Operations -/

theorem Applied.phased (bound : Bound w) (before : Phased w)
    (h : Applied env actor command now w u v) : Phased v := by
  have after := h.effect.phased bound h.before before
  rw [h.changes]
  exact after

theorem Applied.preserved (bound : Bound w) (before : Phased w)
    (h : Applied env actor command now w u v) : Preserved w v := by
  refine (h.effect.preserved bound before).trans ?_
  rw [h.changes]
  exact { Preserved.refl u with }

theorem Applied.ended (bound : Bound w) (h : Applied env actor command now w u v)
    (ended : Ended v) :
    command.isComplete = true ∨ Ended w := by
  refine h.effect.ended bound ?_
  rw [h.changes] at ended
  exact ended

theorem Agent.phased (before : Phased w) (h : Agent w v) : Phased v := by
  cases h with
  | attached | started | failed => exact before
  | finished _ _ _ _ _ given _ placed =>
    exact placed.phased (edited_revised given.active) before

theorem Agent.preserved (h : Agent w v) : Preserved w v := by
  cases h with
  | attached | started | failed =>
    exact { Preserved.refl w with }
  | finished _ _ findings generated suggested given _ placed =>
    have base : Preserved w { w with
        findings := w.findings ++ findings
        generatedArtifacts := w.generatedArtifacts ++ generated
        suggestedActions := w.suggestedActions ++ suggested } :=
      { Preserved.refl w with findings := prefix_append _ _ }
    exact { base.trans (placed.preserved (edited_revised given.active).unfinished) with }

theorem Agent.ended (h : Agent w v) (ended : Ended v) : Ended w := by
  cases h with
  | attached | started | failed => exact ended
  | finished _ _ _ _ _ given _ placed =>
    exact absurd ended (placed.not_ended (edited_revised given.active).still)

/-! ## Submissions -/

/-- Submissions are numbered from one, in order. -/
def SubmissionsNumbered (w : Workflow) : Prop :=
  w.snapshots.map (·.submissionNumber) = List.range' 1 w.snapshots.length

theorem Effect.numbers (before : SubmissionsNumbered w)
    (h : Effect env actor command now w u) : SubmissionsNumbered u := by
  cases h with
  | kept | completed | returned => exact before
  | paused _ _ _ _ placed | requested _ _ _ _ placed | cancelled _ _ _ _ _ placed
  | assigned _ _ _ _ _ _ placed => cases placed <;> exact before
  | recorded records _ placed => cases records <;> cases placed <;> exact before
  | submitted _ snapshot _ _ _ _ number =>
    show (w.snapshots ++ [snapshot]).map _ = range' 1 (w.snapshots ++ [snapshot]).length
    rw [map_append, before, length_append, length_singleton, range'_1_concat,
      map_singleton, number, Nat.add_comm 1]

theorem Agent.numbers (before : SubmissionsNumbered w) (h : Agent w v) : SubmissionsNumbered v := by
  cases h with
  | attached | started | failed => exact before
  | finished _ _ _ _ _ _ _ placed =>
    cases placed <;> exact before

/-! ## Runs -/

def Operation.isComplete : Operation → Bool
  | .apply _ command _ => command.isComplete
  | _ => false

/-- The attempts of a task: the archived ones, then the current one. -/
def attemptsOf (w : Workflow) (task : Uuid) : List WorkItem :=
  earlier w.completedAttempts task ++ w.currentItems.filter fun item => item.id = task

/-- What holds of every workflow reached. -/
structure Phases (trace : List Operation) (w : Workflow) : Prop where
  first : w.next = none → w.source.state ≠ .completed
  one : ∀ item ∈ w.next, w.source.state = .completed ∨ item.state = .completed
  ended : Ended w → ∃ operation ∈ trace, operation.isComplete = true
  attempts : ∀ task, (w.attemptsOf task).map (·.attemptNumber) =
    List.range' 1 (w.attemptsOf task).length
  submissions : SubmissionsNumbered w

theorem Numbered.all (h : Numbered a item) :
    (earlier a item.id ++ [item]).map (·.attemptNumber) =
      List.range' 1 (earlier a item.id ++ [item]).length := by
  rw [map_append, h.archived, map_singleton, h.follows, length_append,
    length_singleton, range'_1_concat, Nat.add_comm 1]

theorem Phased.attempts (h : Phased w) (task : Uuid) :
    (w.attemptsOf task).map (·.attemptNumber) = List.range' 1 (w.attemptsOf task).length := by
  unfold attemptsOf currentItems
  by_cases source : w.source.id = task
  · subst source
    have current : (w.source :: w.next.toList).filter (fun item => item.id = w.source.id) =
        [w.source] := by
      cases found : w.next with
      | none => simp
      | some item => simp [h.apart item found]
    rw [current]
    exact Numbered.all h.source
  · cases found : w.next with
    | none =>
      obtain ⟨-, empty⟩ := h.first found
      simp [earlier, empty, source]
    | some item =>
      by_cases next : item.id = task
      · subst next
        have current : [w.source, item].filter (fun x => x.id = item.id) = [item] := by
          simp [source]
        rw [Option.toList_some, current]
        exact (h.next item found).all
      · have none : earlier w.completedAttempts task = [] := by
          refine filter_eq_nil_iff.mpr ?_
          intro old hold same
          simp only [decide_eq_true_eq] at same
          obtain here | here := h.owner found hold
          · exact source (here.symm.trans same)
          · exact next (here.symm.trans same)
        simp [none, source, next]

/-- The invariant that carries the phases along a run. -/
structure Orderly (trace : List Operation) (w : Workflow) : Prop where
  bound : Bound w
  phased : Phased w
  ended : Ended w → ∃ operation ∈ trace, operation.isComplete = true
  submissions : SubmissionsNumbered w

variable {trace : List Operation}

theorem Agent.orderly (before : Orderly trace w) (h : Agent w v) :
    Orderly trace v where
  bound := h.bound before.bound
  phased := h.phased before.phased
  ended := fun ended => before.ended (h.ended ended)
  submissions := h.numbers before.submissions

variable {operation : Operation}

theorem Applied.orderly (issued : operation = .apply actor command now)
    (issuedHere : operation ∈ trace) (before : Orderly trace w)
    (h : Applied env actor command now w u v) : Orderly trace v where
  bound := h.bound before.bound
  phased := h.phased before.bound before.phased
  ended := by
    intro ended
    obtain complete | ended := h.ended before.bound ended
    · exact ⟨operation, issuedHere, issued ▸ complete⟩
    · exact before.ended ended
  submissions := by
    have after := h.effect.numbers before.submissions
    rw [h.changes]
    exact after

theorem Step.orderly (before : Orderly trace w) (h : Step time w operation v) :
    Orderly (operation :: trace) v := by
  refine h.invariant (P := Orderly (operation :: trace))
    (fun _ _ holds change => change.orderly holds)
    (fun _ _ _ _ _ _ _ issued _ holds done => done.orderly issued mem_cons_self holds) ?_
  refine ⟨before.bound, before.phased, ?_, before.submissions⟩
  intro ended
  obtain ⟨issued, h, complete⟩ := before.ended ended
  exact ⟨issued, .tail _ h, complete⟩

theorem Fresh.phased (fresh : Fresh w) : Phased w where
  apart := by simp [fresh.next]
  first := fun _ => ⟨fresh.unfinished, fresh.archived⟩
  one := by simp [fresh.next]
  source := by
    rw [fresh.archived]
    exact ⟨rfl, fresh.number⟩
  next := by simp [fresh.next]
  owned := by simp [fresh.archived]

theorem Reached.orderly (h : Reached time trace w) : Orderly trace w := by
  obtain ⟨_, _, _, start, seeded, run⟩ := h
  refine run.invariant (P := Orderly) ?_ fun _ _ _ _ holds taken => taken.orderly holds
  have fresh := fromFixture_fresh seeded
  exact {
    bound := bound_of_none (by rw [activeCount, fresh.executions]; rfl)
    phased := fresh.phased
    ended := fun ended => absurd ended.1 fresh.unfinished
    submissions := by
      rw [SubmissionsNumbered, fresh.snapshots]
      rfl }

theorem Step.preserved (before : Orderly trace w) (h : Step time w operation v) :
    Preserved w v := by
  have carried : (Bound v ∧ Phased v) ∧ Preserved w v := by
    refine h.invariant (P := fun x => (Bound x ∧ Phased x) ∧ Preserved w x) ?_ ?_
      ⟨⟨before.bound, before.phased⟩, Preserved.refl w⟩
    · rintro x y ⟨⟨bound, phased⟩, kept⟩ change
      exact ⟨⟨change.bound bound, change.phased phased⟩, kept.trans change.preserved⟩
    · rintro _ _ _ _ x _ y _ _ ⟨⟨bound, phased⟩, kept⟩ done
      exact ⟨⟨done.bound bound, done.phased bound phased⟩, kept.trans (done.preserved bound phased)⟩
  exact carried.2

/-- The phases hold in every workflow reached, and along every later run completed attempts stay as
they are and the records only grow. -/
theorem phases_and_history (reached : Reached time trace w) :
    Phases trace w ∧ ∀ later v, Run (Step time) w later v → Preserved w v := by
  have orderly := reached.orderly
  refine ⟨⟨fun none => (orderly.phased.first none).1, orderly.phased.one, orderly.ended,
    orderly.phased.attempts, orderly.submissions⟩, ?_⟩
  intro later v run
  have carried : Orderly (later ++ trace) v ∧ Preserved w v := by
    refine run.invariant (P := fun later v => Orderly (later ++ trace) v ∧ Preserved w v)
      ⟨orderly, Preserved.refl w⟩ ?_
    rintro _ x _ y ⟨holds, kept⟩ taken
    exact ⟨taken.orderly holds, kept.trans (taken.preserved holds)⟩
  exact carried.2

/-! A workflow of the first fixture that is submitted and completed. -/

def sampleDraft : Operation :=
  .apply .sales01 (.saveDraft salesTaskId none (sampleContext 0 0 salesAssignmentId) ⟨"下書き"⟩)
    sampleNow

def sampleSubmit : Operation :=
  .apply .sales01 (.submit salesTaskId (sampleContext 1 1 salesAssignmentId)
    [⟨(sampleEnv 0).draw 0, 0⟩] none [] [] []) sampleNow

def sampleClaim : Operation :=
  .apply .office01 (.claim officeTaskId (sampleContext 2 0 officeAssignmentId))
    sampleNow

def sampleComplete : Operation :=
  .apply .office01 (.complete officeTaskId (sampleContext 3 1 officeAssignmentId) officeAttemptId
    completeActionId) sampleNow

theorem phases_and_history_sample : ∃ w, Reached sampleTime
    [sampleComplete, sampleClaim, sampleSubmit, sampleDraft] w ∧ Ended w ∧
    Phases [sampleComplete, sampleClaim, sampleSubmit, sampleDraft] w := by
  have done : (performAll (synthetic none)
      [sampleComplete, sampleClaim, sampleSubmit, sampleDraft]).toOption.any (fun w =>
        w.source.state = .completed ∧ (w.next.any fun item => item.state = .completed) = true) =
          true := by
    decide +kernel
  obtain ⟨w, performed, ended⟩ := any_exists done
  simp only [decide_eq_true_eq] at ended
  obtain ⟨source, next⟩ := ended
  obtain ⟨item, found, completed⟩ := any_exists next
  have reached : Reached sampleTime
      [sampleComplete, sampleClaim, sampleSubmit, sampleDraft] w :=
    ⟨fixtureA, none, 0, _, rfl, run_performAll (toOption_some performed)⟩
  exact ⟨w, reached, ⟨source, item, found, by simpa using completed⟩,
    (phases_and_history reached).1⟩

end KnowledgePlatform.Work.Workflow
