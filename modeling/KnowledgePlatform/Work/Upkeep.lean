import KnowledgePlatform.Work.Validity

/-! Every effect of a command keeps the invariant, if the identifiers drawn are fresh. -/

namespace KnowledgePlatform.Work.Workflow

open List

variable {w u v : Workflow} {env : Env} {actor : VerifiedActor} {command : Command} {now : String}
  {time : TimeText} {plan : ContextFixture} {item new : WorkItem} {e : AgentExecution}
  {id : Uuid}

/-- No identifier drawn is nil, or in use as that of an attempt or of a period. -/
structure FreshDraws (w : Workflow) (draw : Nat → Uuid) : Prop where
  nonzero : ∀ i, draw i ≠ nilUuid
  attempts : ∀ i, ∀ item ∈ w.allItems, item.attemptId ≠ draw i
  records : ∀ i, ∀ record ∈ w.assignments, record.id ≠ draw i

/-! ## Items -/

/-- `new` continues the attempt `item`. -/
structure Continues (time : TimeText) (id : Uuid) (item new : WorkItem) : Prop where
  task : new.id = item.id
  step : new.stepId = item.stepId
  attempt : new.attemptId = item.attemptId
  revision : item.revision ≤ new.revision
  sound : ItemSound time id new

theorem Replaced.mem (h : Replaced w item new v) : item ∈ w.currentItems := by
  cases h with
  | source same => simp [currentItems, same]
  | next found => simp [currentItems, found]

theorem Replaced.sound (h : Replaced w item new v) (before : ItemsSound time plan w) :
    ItemSound time w.id item :=
  before.each item (mem_append_left _ h.mem)

section

variable {s n : WorkItem} {a : List WorkItem}

theorem mem_pair {x : WorkItem} : x ∈ s :: (some n).toList ↔ x = s ∨ x = n := by simp

/-- A line-up with both tasks under way. -/
theorem Lineup.pair (each : ∀ x ∈ s :: n :: a, ItemSound time id x)
    (distinct : ((s :: n :: a).map (·.attemptId)).Nodup) (source : s.id = plan.sourceTaskId)
    (next : n.id = plan.nextTaskId ∧ n.stepId = plan.nextStepId)
    (archived : ∀ old ∈ a, old.state = .completed ∧ (s.id = old.id → old.revision < s.revision) ∧
      (n.id = old.id → old.revision < n.revision)) : Lineup time plan id s (some n) a where
  each
  distinct
  source
  next := by
    rintro _ ⟨⟩
    exact next
  first := nofun
  archived := by
    intro old hold
    obtain ⟨done, here, there⟩ := archived old hold
    refine ⟨done, fun x hx => ?_⟩
    obtain rfl | rfl := mem_pair.mp hx
    · exact here
    · exact there

theorem Lineup.older (h : Lineup time plan id s (some n) a) {old : WorkItem} (hold : old ∈ a) :
    old.state = .completed ∧ (s.id = old.id → old.revision < s.revision) ∧
      (n.id = old.id → old.revision < n.revision) :=
  (h.archived old hold).imp_right fun older =>
    ⟨older s mem_cons_self, older n (mem_pair.mpr (.inr rfl))⟩

end

theorem Replaced.items (h : Replaced w item new v) (continues : Continues time w.id item new)
    (before : ItemsSound time plan w) : ItemsSound time plan v := by
  cases h with
  | source same =>
    subst same
    exact {
      each := forall_mem_cons.mpr
        ⟨continues.sound, fun x hx => before.each x (.tail _ hx)⟩
      distinct := by
        have distinct := before.distinct
        rw [cons_append, map_cons] at distinct ⊢
        rw [continues.attempt]
        exact distinct
      source := continues.task.trans before.source
      next := before.next
      first := fun none => continues.attempt ▸ before.first none
      archived := by
        intro old hold
        obtain ⟨done, older⟩ := before.archived old hold
        refine ⟨done, ?_⟩
        intro x hx same
        obtain rfl | hx := mem_cons.mp hx
        · exact (older w.source mem_cons_self (continues.task.symm.trans same)).trans_le
            continues.revision
        · exact older x (.tail _ hx) same }
  | next found =>
    unfold ItemsSound at before
    rw [found] at before
    obtain ⟨source, -, others⟩ : _ ∧ _ ∧ _ := by simpa using before.each
    refine Lineup.pair ?_ ?_ before.source ?_ ?_
    · exact forall_mem_cons.mpr ⟨source, forall_mem_cons.mpr ⟨continues.sound, others⟩⟩
    · have distinct := before.distinct
      simp only [Option.toList_some, cons_append, nil_append, map_cons] at distinct ⊢
      rw [continues.attempt]
      exact distinct
    · rw [continues.task, continues.step]
      exact before.next item rfl
    · intro old hold
      obtain ⟨done, here, there⟩ := before.older hold
      refine ⟨done, here, fun same => ?_⟩
      exact (there (continues.task.symm.trans same)).trans_le continues.revision

section

variable (h : ItemSound time id item)
include h

theorem ItemSound.later : ItemSound time id item.revised :=
  { h with revision := h.revision.trans (Int.lt_succ _).le }

/-- An edit of an attempt that goes on. -/
theorem ItemSound.paused {state : TaskState} (still : state ≠ .completed) :
    Continues time id item { item.revised with state } :=
  ⟨rfl, rfl, rfl, (Int.lt_succ _).le, { h.later with closed := fun done => absurd done still }⟩

theorem ItemSound.revised : Continues time id item item.revised :=
  ⟨rfl, rfl, rfl, (Int.lt_succ _).le, h.later⟩

theorem ItemSound.given {record : WorkAssignmentRecord} (unfinished : item.state ≠ .completed) :
    Continues time id item (assignedItem record item) :=
  ⟨rfl, rfl, rfl, (Int.lt_succ _).le, { h.later with
    assigned := rfl
    closed := fun done => absurd done (assignedItem_unfinished unfinished) }⟩

/-- An attempt that ends. -/
theorem ItemSound.completed : Continues time id item (completedItem now item) :=
  ⟨rfl, rfl, rfl, (Int.lt_succ _).le, { h.later with closed := fun _ => rfl }⟩

end

theorem contextFixtures_attempts : ∀ plan ∈ contextFixtures, plan.nextAttemptId ≠ nilUuid := by
  decide

section

variable (before : ItemsSound time plan w)
include before

/-- A return archives the source attempt and opens another. -/
theorem ItemsSound.returned {office : WorkItem} {instruction : ReturnInstruction}
    (found : w.next = some office) (apart : office.id ≠ w.source.id)
    (done : w.source.state = .completed) (nonzero : instruction.targetAttemptId ≠ nilUuid)
    (fresh : ∀ item ∈ w.allItems, item.attemptId ≠ instruction.targetAttemptId) :
    Lineup time plan w.id
      (w.reopenedSource instruction (w.source.attemptNumber + 1) (w.source.revision + 1) now)
      (some (returnedItem instruction now office)) (w.completedAttempts ++ [w.source]) := by
  unfold allItems currentItems at fresh
  unfold ItemsSound at before
  rw [found] at before fresh
  obtain ⟨sourceSound, officeSound, others⟩ : _ ∧ _ ∧ _ := by simpa using before.each
  refine Lineup.pair ?_ ?_ before.source (before.next office rfl) ?_
  · simp only [forall_mem_cons, forall_mem_append]
    refine ⟨?_, ?_, others, sourceSound, forall_mem_nil _⟩
    · exact {
        due := nofun
        owner := rfl
        number := Nat.succ_ne_zero _
        revision := sourceSound.later.revision
        assigned := rfl
        attempt := nonzero
        closed := nofun }
    · exact { officeSound.later with closed := fun _ => rfl }
  · have perm : (office :: w.completedAttempts ++ [w.source]).Perm
        (w.source :: office :: w.completedAttempts) := perm_append_singleton _ _
    have distinct : ((office :: w.completedAttempts ++ [w.source]).map (·.attemptId)).Nodup :=
      (perm.map _).nodup_iff.mpr before.distinct
    refine nodup_cons.mpr ⟨?_, distinct⟩
    intro again
    change _ ∈ (office :: w.completedAttempts ++ [w.source]).map (·.attemptId) at again
    obtain ⟨x, hx, same⟩ := mem_map.mp again
    exact fresh x (perm.subset hx) same
  · intro old hold
    obtain hold | hold := mem_append.mp hold
    · obtain ⟨closed, here, there⟩ := before.older hold
      exact ⟨closed, fun same => (here same).trans (Int.lt_succ _),
        fun same => (there same).trans (Int.lt_succ _)⟩
    · obtain rfl := mem_singleton.mp hold
      exact ⟨done, fun _ => Int.lt_succ _, fun same => absurd same apart⟩

/-- The attempt that receives a submission follows the one before it, if there is one. -/
theorem ItemsSound.submitted {snapshot : HandoffSnapshot} {attempt : NextAttempt}
    (phased : Phased w) (planned : w.plan = .ok plan) (fresh : FreshDraws w env.draw)
    (rest : ∀ item ∈ w.next, item.state = .completed)
    (received : w.nextAttempt env plan = .ok attempt) :
    Lineup time plan w.id (submittedItem snapshot now w.source)
      (some (w.receivingItem plan snapshot attempt now)) attempt.completedAttempts := by
  have sourceSound := before.each w.source mem_cons_self
  have closed : ItemSound time w.id (submittedItem snapshot now w.source) :=
    { sourceSound.later with closed := fun _ => rfl }
  have apart : w.source.id ≠ plan.nextTaskId := by
    rw [before.source]
    exact contextFixtures_apart plan (plan_mem planned)
  have attempts := fresh.attempts 1
  unfold allItems currentItems at attempts
  unfold ItemsSound at before
  obtain ⟨found, rfl⟩ | ⟨previous, found, rfl⟩ := nextAttempt_ok received
  · obtain ⟨-, empty⟩ := phased.first found
    have other := before.first found
    rw [empty]
    refine Lineup.pair ?_ ?_ before.source ⟨rfl, rfl⟩ (forall_mem_nil _)
    · rw [forall_mem_cons, forall_mem_singleton]
      refine ⟨closed, ?_⟩
      exact {
        due := nofun
        owner := rfl
        number := Nat.one_ne_zero
        revision := Int.le_refl 0
        assigned := rfl
        attempt := contextFixtures_attempts plan (plan_mem planned)
        closed := nofun }
    · exact nodup_cons.mpr ⟨by simpa [submittedItem, receivingItem] using other, by simp⟩
  · rw [found] at before attempts
    obtain ⟨-, previousSound, others⟩ : _ ∧ _ ∧ _ := by simpa using before.each
    obtain ⟨task, -⟩ := before.next previous rfl
    refine Lineup.pair ?_ ?_ before.source ⟨rfl, rfl⟩ ?_
    · simp only [forall_mem_cons, forall_mem_append]
      refine ⟨closed, ?_, others, previousSound, forall_mem_nil _⟩
      exact {
        due := nofun
        owner := rfl
        number := Nat.succ_ne_zero _
        revision := previousSound.later.revision
        assigned := rfl
        attempt := fresh.nonzero 1
        closed := nofun }
    · have perm : (env.draw 1 :: w.source.attemptId ::
          (w.completedAttempts ++ [previous]).map (·.attemptId)).Perm
          (w.source.attemptId :: env.draw 1 ::
            (w.completedAttempts ++ [previous]).map (·.attemptId)) := Perm.swap _ _ _
      have archived : (w.source :: (w.completedAttempts ++ [previous])).Perm
          (w.source :: previous :: w.completedAttempts) :=
        (perm_append_singleton _ _).cons _
      refine perm.nodup_iff.mp (nodup_cons.mpr ⟨?_, ?_⟩)
      · intro again
        obtain ⟨x, hx, same⟩ := mem_map.mp (show env.draw 1 ∈
          (w.source :: (w.completedAttempts ++ [previous])).map (·.attemptId) from again)
        exact attempts x (archived.subset hx) same
      · exact (archived.map _).nodup_iff.mpr before.distinct
    · intro old hold
      obtain hold | hold := mem_append.mp hold
      · obtain ⟨done, here, there⟩ := before.older hold
        exact ⟨done, fun same => (here same).trans (Int.lt_succ _),
          fun same => (there (task.trans same)).trans (Int.lt_succ _)⟩
      · obtain rfl := mem_singleton.mp hold
        exact ⟨rest old found, fun same => absurd (same.trans task) apart, fun _ => Int.lt_succ _⟩

theorem Effect.items (phased : Phased w) (planned : w.plan = .ok plan)
    (fresh : FreshDraws w env.draw) (h : Effect env actor command now w u) :
    ItemsSound time plan u := by
  cases h with
  | kept => exact before
  | paused _ kind _ still placed =>
    have same : ItemsSound time plan (w.log kind now) := before
    refine placed.items ((placed.sound same).paused ?_) same
    obtain rfl | rfl := still <;> simp
  | @recorded _ x _ records _ placed =>
    have same : ItemsSound time plan x := by cases records <;> exact before
    exact placed.items (placed.sound same).revised same
  | requested _ _ _ _ placed | cancelled _ _ _ _ _ placed =>
    exact placed.items (placed.sound before).revised before
  | assigned _ _ _ unfinished _ _ placed =>
    exact placed.items ((placed.sound before).given unfinished) before
  | completed _ found =>
    have placed := phased.completes found now
    exact placed.items (placed.sound before).completed before
  | @returned office _ found _ done target =>
    refine before.returned found (phased.apart office found) done ?_ ?_
    · rw [target]
      exact fresh.nonzero 0
    · rw [target]
      exact fresh.attempts 0
  | submitted _ _ _ here _ rest _ received =>
    obtain rfl := Except.ok.inj (planned.symm.trans here)
    exact before.submitted phased planned fresh rest received

end

/-! ## Periods -/

/-- Before finished periods are closed, an open one of an attempt that goes on is its own. -/
def Held (current : List WorkItem) (records : List WorkAssignmentRecord) : Prop :=
  ∀ record ∈ records, record.endedAt = none → ∀ item ∈ current,
    item.attemptId = record.attemptId → item.state ≠ .completed → Matches record item

theorem ItemsSound.eq_of_attempt (h : ItemsSound time plan w) {a b : WorkItem}
    (ha : a ∈ w.currentItems) (hb : b ∈ w.currentItems) (same : a.attemptId = b.attemptId) :
    a = b :=
  inj_on_of_nodup_map h.distinct (mem_append_left _ ha) (mem_append_left _ hb) same

theorem PeriodsSound.held_current (h : PeriodsSound w.currentItems w.assignments)
    (items : ItemsSound time plan w) : Held w.currentItems w.assignments := by
  intro record hrecord unended item hitem same unfinished
  obtain ⟨other, hother, here, -, matched⟩ := h.held record hrecord unended
  obtain rfl := items.eq_of_attempt hother hitem (here.trans same.symm)
  exact matched

/-- The holder of an attempt stays. -/
structure KeepsHolder (item new : WorkItem) : Prop where
  task : new.id = item.id
  attempt : new.attemptId = item.attemptId
  period : new.workAssignmentId = item.workAssignmentId
  principal : new.assignee = item.assignee
  acting : new.actingAssignmentId = item.actingAssignmentId
  unfinished : new.state ≠ .completed → item.state ≠ .completed

theorem keepsHolder_revised (item : WorkItem) : KeepsHolder item item.revised :=
  ⟨rfl, rfl, rfl, rfl, rfl, fun going => going⟩

theorem Replaced.new_mem (h : Replaced w item new v) : new ∈ v.currentItems := by
  cases h with
  | source => exact mem_cons_self
  | next => simp [currentItems]

theorem Replaced.mem_current (h : Replaced w item new v) {x : WorkItem} (hx : x ∈ v.currentItems) :
    x = new ∨ x ∈ w.currentItems := by
  cases h with
  | source =>
    obtain rfl | hx := mem_cons.mp hx
    · exact .inl rfl
    · exact .inr (.tail _ hx)
  | next =>
    obtain rfl | rfl := mem_pair.mp hx
    · exact .inr mem_cons_self
    · exact .inl rfl

theorem Replaced.held (h : Replaced w item new v) (keeps : KeepsHolder item new)
    {records : List WorkAssignmentRecord} (before : Held w.currentItems records) :
    Held v.currentItems records := by
  intro record hrecord unended x hx same unfinished
  obtain rfl | hx := h.mem_current hx
  · have matched := before record hrecord unended item h.mem (keeps.attempt.symm.trans same)
      (keeps.unfinished unfinished)
    exact ⟨keeps.task.trans matched.task, keeps.period.trans matched.period,
      keeps.principal.trans matched.principal, keeps.acting.trans matched.acting⟩
  · exact before record hrecord unended x hx same unfinished

/-- What remains open after the item's own period has ended is of other attempts. -/
theorem ended_apart {ended : List WorkAssignmentRecord} (ids : (w.assignments.map (·.id)).Nodup)
    (before : Held w.currentItems w.assignments) (hitem : item ∈ w.currentItems)
    (unfinished : item.state ≠ .completed)
    (ends : (ended = w.assignments ∧ item.assignee = none) ∨
      ended = updateFirst (isOpenPeriod item) (endPeriod actor now) w.assignments)
    {record : WorkAssignmentRecord} (hrecord : record ∈ ended) (unended : record.endedAt = none) :
    record ∈ w.assignments ∧ item.attemptId ≠ record.attemptId := by
  obtain ⟨rfl, unassigned⟩ | rfl := ends
  · refine ⟨hrecord, ?_⟩
    intro same
    have matched := before record hrecord unended item hitem same unfinished
    cases unassigned.symm.trans matched.principal
  · obtain ⟨hrecord, other⟩ | ⟨old, -, rfl⟩ := mem_updateFirst_nodup hrecord
    · have other := other (.of_map _ ids)
      refine ⟨hrecord, ?_⟩
      intro same
      have matched := before record hrecord unended item hitem same unfinished
      have accepted : isOpenPeriod item record = true := by
        simp [isOpenPeriod, matched.period, unended]
      -- The period found has the same identifier.
      obtain ⟨first, found⟩ := Option.isSome_iff_exists.mp
        (find?_isSome.mpr ⟨record, hrecord, accepted⟩)
      have firstOpen := find?_some found
      simp only [isOpenPeriod, decide_eq_true_eq, matched.period, Option.some.injEq] at firstOpen
      obtain rfl := inj_on_of_nodup_map ids (mem_of_find?_eq_some found) hrecord
        firstOpen.1
      exact other found
    · cases unended

theorem Effect.ids (before : PeriodsSound w.currentItems w.assignments)
    (fresh : FreshDraws w env.draw) (h : Effect env actor command now w u) :
    (u.assignments.map (·.id)).Nodup := by
  have ids := before.ids
  cases h with
  | kept | completed | returned | submitted => exact ids
  | paused _ _ _ _ placed | requested _ _ _ _ placed
  | cancelled _ _ _ _ _ placed => cases placed <;> exact ids
  | recorded records _ placed => cases records <;> cases placed <;> exact ids
  | assigned record ended _ _ opened ends =>
    have same : ended.map (·.id) = w.assignments.map (·.id) := by
      obtain ⟨rfl, -⟩ | rfl := ends
      · rfl
      · exact map_updateFirst fun _ _ => rfl
    refine nodup_map_concat (same ▸ ids) fun old hold => ?_
    obtain ⟨x, hx, here⟩ := mem_map.mp (same ▸ mem_map_of_mem hold)
    rw [opened.id, ← here]
    exact fresh.records 0 x hx

theorem Effect.held (before : PeriodsSound w.currentItems w.assignments)
    (items : ItemsSound time plan w) (phased : Phased w) (planned : w.plan = .ok plan)
    (fresh : FreshDraws w env.draw) (h : Effect env actor command now w u) :
    Held u.currentItems u.assignments := by
  have held := before.held_current items
  -- No open period is of an attempt that the effect opens.
  have unopened {i : Nat} {record : WorkAssignmentRecord} (hrecord : record ∈ w.assignments)
      (unended : record.endedAt = none) : env.draw i ≠ record.attemptId := by
    obtain ⟨x, hx, here, -⟩ := before.held record hrecord unended
    intro same
    exact fresh.attempts i x (mem_append_left _ hx) (here.trans same.symm)
  cases h with
  | kept => exact held
  | paused _ _ live _ placed =>
    rw [placed.assignments]
    refine placed.held ⟨rfl, rfl, rfl, rfl, rfl, ?_⟩ held
    intro _
    obtain live | live := live <;> simp [live]
  | recorded records _ placed =>
    rw [placed.assignments]
    refine placed.held (keepsHolder_revised _) ?_
    cases records <;> exact held
  | @requested _ x _ _ _ _ placed
  | @cancelled _ x _ _ _ _ _ placed =>
    show Held x.currentItems x.assignments
    rw [placed.assignments]
    exact placed.held (keepsHolder_revised _) held
  | @assigned _ x record ended _ unfinished opened ends placed =>
    show Held x.currentItems (ended ++ [record])
    intro r hr unended y hy same going
    obtain hr | hr := mem_append.mp hr
    · obtain ⟨hr, other⟩ := ended_apart before.ids held placed.mem unfinished ends hr unended
      obtain rfl | hy := placed.mem_current hy
      · exact absurd same other
      · exact held r hr unended y hy same going
    · obtain rfl := mem_singleton.mp hr
      have after := placed.items ((placed.sound items).given unfinished) items
      obtain rfl := after.eq_of_attempt hy placed.new_mem (same.trans opened.attempt)
      exact ⟨opened.task.symm, rfl, rfl, rfl⟩
  | completed _ found =>
    have keeps {x : WorkItem} : KeepsHolder x (completedItem now x) :=
      ⟨rfl, rfl, rfl, rfl, rfl, absurd rfl⟩
    exact (phased.completes found now).held keeps held
  | @returned _ _ _ _ _ target =>
    intro record hrecord unended x hx same going
    obtain rfl | rfl := mem_pair.mp hx
    · exact absurd (target.symm.trans same) (unopened hrecord unended)
    · exact absurd rfl going
  | submitted _ _ attempt here _ _ _ received =>
    obtain rfl := Except.ok.inj (planned.symm.trans here)
    intro record hrecord unended x hx same going
    obtain rfl | rfl := mem_pair.mp hx
    · exact absurd rfl going
    · change attempt.attemptId = record.attemptId at same
      obtain ⟨found, rfl⟩ | ⟨_, -, rfl⟩ := nextAttempt_ok received
      · obtain ⟨y, hy, attempt, -⟩ := before.held record hrecord unended
        simp only [currentItems, found, Option.toList_none, mem_singleton] at hy
        rw [hy] at attempt
        exact absurd (attempt.trans same.symm) (items.first found)
      · exact absurd same (unopened hrecord unended)

/-- An open period left by the close is of an attempt that goes on. -/
theorem Held.closed (h : Held u.currentItems u.assignments)
    (ids : (u.assignments.map (·.id)).Nodup) :
    PeriodsSound u.currentItems (u.closeFinishedAssignments now).assignments := by
  refine ⟨?_, ?_⟩
  · refine (congrArg Nodup ?_).mpr ids
    rw [closeFinishedAssignments, map_map]
    refine map_congr_left ?_
    intro record hrecord
    simp only [Function.comp_apply]
    split <;> rfl
  · intro record hrecord unended
    obtain ⟨old, hold, rfl⟩ := mem_map.mp hrecord
    split at unended
    · cases unended
    next goes =>
      rw [if_neg goes]
      simp only [not_and, not_not] at goes
      obtain ⟨item, hitem, same⟩ := mem_map.mp (goes unended)
      obtain ⟨hitem, unfinished⟩ := mem_filter.mp hitem
      simp only [decide_eq_true_eq] at unfinished
      exact ⟨item, hitem, same, unfinished, h old hold unended item hitem same unfinished⟩

/-! ## Executions -/

/-- What the check of an execution says about it alone. -/
theorem checkExecution_each (h : w.checkExecution e = .ok ()) :
    e.status.isActive = e.endedAt.isNone ∧ (e.status ≠ .succeeded → e.result = none) ∧
      0 ≤ e.taskRevision ∧ 0 ≤ e.effectiveContextRevision := by
  simp only [checkExecution, except_iffs] at h
  obtain ⟨⟨-, ended, result⟩, _, -, inScope, -⟩ := h
  have scope := toOption_some inScope
  simp only [AgentDispatchContext.validateScope, except_iffs] at scope
  obtain ⟨-, -, -, -, task, revision, -⟩ := scope
  exact ⟨ended, fun unfinished => by simpa [unfinished] using result, task, revision⟩

theorem length_executionsOf (task attempt : Uuid) : (w.executionsOf task attempt).length =
    (w.agentExecutions.map fun e => (e.workItemId, e.attemptId)).countP (· = (task, attempt)) := by
  rw [executionsOf, countP_map, countP_eq_length_filter]
  congr 2
  funext e
  simp

/-- The checks of candidates read the executions that have succeeded, and what each lists. -/
theorem validateCandidateIntegrity_congr
    (succeeded : ∀ id, (v.agentExecutions.find? fun e => e.id = id && e.status = .succeeded) =
      w.agentExecutions.find? fun e => e.id = id && e.status = .succeeded)
    (generated : v.generatedArtifacts = w.generatedArtifacts)
    (suggested : v.suggestedActions = w.suggestedActions)
    (listed : (∀ e ∈ w.agentExecutions, w.checkListed e = .ok ()) →
      ∀ e ∈ v.agentExecutions, v.checkListed e = .ok ())
    (before : w.validateCandidateIntegrity = .ok ()) : v.validateCandidateIntegrity = .ok () := by
  have listing (id : Uuid) : v.listingResult id = w.listingResult id := by
    simp only [listingResult, succeeded]
  have generatedToo : v.checkGenerated = w.checkGenerated := by
    funext g
    simp only [checkGenerated, listing]
  have suggestedToo : v.checkSuggested = w.checkSuggested := by
    funext s
    simp only [checkSuggested, listing]
  simp only [validateCandidateIntegrity, generatedToo, suggestedToo, generated, suggested,
    except_bind_iff] at before ⊢
  obtain ⟨_, distinct, _, first, _, second, old⟩ := before
  exact ⟨_, distinct, _, first, _, second, forM_iff.mpr (listed (forM_iff.mp old))⟩

/-- The execution stays as it is, or one without a result goes on or ends without one. -/
inductive Moved (e : AgentExecution) : AgentExecution → Prop
  | kept : Moved e e
  | changed (status : AgentExecutionStatus) (startedAt : String) (revision taskRevision : Int)
    (endedAt : Option String) (failureCode : Option AgentFailureCode)
    (unfinished : e.status ≠ .succeeded) (still : status ≠ .succeeded)
    (ends : status.isActive = endedAt.isNone) (valid : 0 ≤ taskRevision ∧ 0 ≤ revision) :
    Moved e { e with
      status, startedAt, effectiveContextRevision := revision, taskRevision, endedAt, failureCode }

theorem unfinished_of_active (active : e.status.isActive = true) : e.status ≠ .succeeded := by
  intro done
  rw [done] at active
  cases active

/-- Executions without a result go on or end, and evidence and the findings of people are added. -/
structure Advanced (w v : Workflow) : Prop where
  evidence : w.evidence <+: v.evidence
  findings : w.findings <+: v.findings
  human : ∀ f ∈ v.findings, f ∈ w.findings ∨ f.originExecutionId = none
  generated : v.generatedArtifacts = w.generatedArtifacts
  suggested : v.suggestedActions = w.suggestedActions
  moved : Forall₂ Moved w.agentExecutions v.agentExecutions

namespace Advanced

theorem of_moved (moved : Forall₂ Moved w.agentExecutions v.agentExecutions)
    (evidence : v.evidence = w.evidence) (findings : v.findings = w.findings)
    (generated : v.generatedArtifacts = w.generatedArtifacts)
    (suggested : v.suggestedActions = w.suggestedActions) : Advanced w v :=
  ⟨evidence ▸ prefix_rfl, findings ▸ prefix_rfl, fun _ hf => .inl (findings ▸ hf), generated,
    suggested, moved⟩

section

variable {e' : AgentExecution} (h : Advanced w v)
include h

theorem executionsOf_length (task attempt : Uuid) :
    (v.executionsOf task attempt).length = (w.executionsOf task attempt).length := by
  rw [length_executionsOf, length_executionsOf, ← map_eq_of_forall₂ h.moved fun _ _ _ one => ?_]
  cases one <;> rfl

theorem checkResult {result : AgentResult} (before : w.checkResult e result = .ok ()) :
    v.checkResult e result = .ok () := by
  simp only [Workflow.checkResult, except_iffs] at before ⊢
  refine ⟨before.1, fun r hr => ?_⟩
  obtain ⟨f, hf, listed⟩ := any_eq_true.mp (before.2 r hr)
  exact any_eq_true.mpr ⟨f, h.findings.subset hf, listed⟩

theorem checkExecution (one : Moved e e') (before : w.checkExecution e = .ok ()) :
    v.checkExecution e' = .ok () := by
  obtain ⟨-, unresulted, -⟩ := checkExecution_each before
  simp only [Workflow.checkExecution, h.executionsOf_length, except_iffs] at before ⊢
  obtain ⟨⟨few, ended, result⟩, evidence, found, inScope, rest⟩ := before
  have found : (e.evidenceRevisionRefs.mapM fun r => okOr (v.evidence.find? fun record =>
      record.id = r.id && record.revision = r.revision) WorkError.integrityViolation) =
        .ok evidence := by
    refine mapM_iff_forall₂.mpr ((mapM_iff_forall₂.mp found).imp fun r record here => ?_)
    obtain ⟨more, same⟩ := h.evidence
    rw [okOr_iff] at here ⊢
    rw [← same, find?_append, here]
    rfl
  cases one with
  | kept =>
    refine ⟨⟨few, ended, result⟩, evidence, found, inScope, ?_⟩
    split at rest
    · exact rest
    · exact h.checkResult rest
  | changed status startedAt revision taskRevision endedAt failureCode unfinished still ends
    valid =>
    have none := unresulted unfinished
    refine ⟨⟨few, ends, by simp [still, none]⟩, evidence, found, ?_, by rw [none]; rfl⟩
    have scope := toOption_some inScope
    simp only [AgentDispatchContext.validateScope, except_iffs] at scope
    obtain ⟨purpose, refs, tools, attempt, -, -, rest⟩ := scope
    have scope' : AgentDispatchContext.validateScope ⟨{ e with
        status, startedAt, effectiveContextRevision := revision, taskRevision, endedAt,
        failureCode }, evidence, allowedReadTools⟩ = .ok () := by
      simp only [AgentDispatchContext.validateScope, except_iffs]
      exact ⟨purpose, refs, tools, attempt, valid.1, valid.2, rest⟩
    rw [scope']
    rfl

/-- What has succeeded is the same in both. -/
theorem find?_succeeded (id : Uuid) :
    (v.agentExecutions.find? fun e => e.id = id && e.status = .succeeded) =
      w.agentExecutions.find? fun e => e.id = id && e.status = .succeeded := by
  have related := h.moved
  generalize w.agentExecutions = l, v.agentExecutions = m at related ⊢
  induction related with
  | nil => rfl
  | cons one _ ih =>
    rw [find?_cons, find?_cons, ih]
    cases one with
    | kept => rfl
    | changed _ _ _ _ _ _ unfinished still => simp [unfinished, still]

theorem listedFinding {f : Finding} (before : w.listedFinding f = true) :
    v.listedFinding f = true := by
  unfold Workflow.listedFinding at before ⊢
  cases origin : f.originExecutionId with
  | none => rfl
  | some =>
    rw [origin, Option.all_some] at before
    obtain ⟨e, he, listed⟩ := any_eq_true.mp before
    obtain ⟨e', he', one⟩ := exists_right h.moved he
    refine any_eq_true.mpr ⟨e', he', ?_⟩
    cases one with
    | kept => exact listed
    | changed _ _ _ _ _ _ unfinished => simp [unfinished] at listed

theorem checkListed (one : Moved e e') (checked : w.checkExecution e = .ok ())
    (before : w.checkListed e = .ok ()) : v.checkListed e' = .ok () := by
  cases one with
  | kept =>
    simp only [Workflow.checkListed, h.generated, h.suggested] at before ⊢
    exact before
  | changed _ _ _ _ _ _ unfinished =>
    simp only [Workflow.checkListed, (checkExecution_each checked).2.1 unfinished]

theorem checked (before : Checked w) : Checked v where
  ids := by
    rw [← map_eq_of_forall₂ h.moved fun _ _ _ one => ?_]
    · exact before.ids
    · cases one <;> rfl
  each e' he' := by
    obtain ⟨e, he, one⟩ := exists_right h.moved.flip he'
    exact h.checkExecution one (before.each e he)
  listed f hf := by
    obtain old | human := h.human f hf
    · exact h.listedFinding (before.listed f old)
    · rw [Workflow.listedFinding, human]
      rfl
  candidates := by
    refine validateCandidateIntegrity_congr h.find?_succeeded h.generated h.suggested ?_
      before.candidates
    intro listed e' he'
    obtain ⟨e, he, one⟩ := exists_right h.moved.flip he'
    exact h.checkListed one (before.each e he) (listed e he)

end

end Advanced

/-- What a request must bring for its execution to pass the checks. -/
structure Issuable (w : Workflow) (e : AgentExecution) : Prop where
  version : versionNum e.id = 7
  requester : e.requesterResponsibility ≠ nilUuid
  unused : ∀ other ∈ w.agentExecutions, other.id ≠ e.id

namespace Requested

variable (h : Requested w command.context item e)
include h

/-- The evidence of a new execution is known, and what it is given is in scope. -/
theorem scope (issuable : Issuable w e) (grounded : Grounded time plan w)
    (sound : ItemSound time id item) : ∃ evidence,
      (e.evidenceRevisionRefs.mapM fun r => okOr (w.evidence.find? fun record =>
        record.id = r.id && record.revision = r.revision) WorkError.integrityViolation) =
          .ok evidence ∧
      AgentDispatchContext.validateScope ⟨e, evidence, allowedReadTools⟩ = .ok () := by
  obtain ⟨evidence, found, selected⟩ : ∃ evidence, (e.evidenceRevisionRefs.mapM fun r =>
      okOr (w.evidence.find? fun record => record.id = r.id && record.revision = r.revision)
        WorkError.integrityViolation) = .ok evidence ∧
      Forall₂ (fun (r : RevisionRef) (record : EvidenceRecord) => record.id = r.id ∧
        record.revision = r.revision ∧ record.contextId = e.contextId)
        e.evidenceRevisionRefs evidence := by
    refine mapM_total fun r hr => ?_
    obtain ⟨record, found, revision, context⟩ := h.known r hr
    have same : record.id = r.id := by simpa using find?_some found
    exact ⟨record, okOr_iff.mpr (find?_and found (by simp [revision])), same, revision,
      context.trans h.sameContext.symm⟩
  have context : (contextFixtureForContext e.contextId).isSome = true := by
    rw [h.sameContext, grounded.context]
    exact contextFixtures_known plan (plan_mem grounded.planned)
  have task : 0 ≤ e.taskRevision := by
    have := sound.revision
    rw [h.taskRevision]
    omega
  have revision : 0 ≤ e.effectiveContextRevision := by
    have := grounded.revision
    rw [h.revision]
    omega
  refine ⟨evidence, found, ?_⟩
  simp only [AgentDispatchContext.validateScope, except_iffs]
  exact ⟨h.purpose, h.refs, trivial, h.attempt ▸ sound.attempt, task, revision, issuable.version,
    context, issuable.requester, h.executor, h.invocation, h.bindings, h.some, h.few,
    selected.length_eq.symm, fun pair hpair => forall₂_zip selected.flip hpair⟩

/-- The attempt has room for the new execution. -/
theorem fits {x : AgentExecution}
    (before : (w.executionsOf x.workItemId x.attemptId).length ≤ maxAgentExecutions) :
    ({ w with agentExecutions := w.agentExecutions ++ [e] }.executionsOf x.workItemId
      x.attemptId).length ≤ maxAgentExecutions := by
  show ((w.agentExecutions ++ [e]).filter _).length ≤ maxAgentExecutions
  rw [filter_append, length_append]
  by_cases own : e.workItemId = x.workItemId ∧ e.attemptId = x.attemptId
  · have room := h.room
    rw [← h.task, ← h.attempt, own.1, own.2] at room
    have one := length_filter_le (fun e : AgentExecution =>
      decide (e.workItemId = x.workItemId) && decide (e.attemptId = x.attemptId)) [e]
    exact (Nat.add_le_add_left one _).trans room
  · rw [filter_cons_of_neg (by simpa using own)]
    exact before

theorem checked (issuable : Issuable w e) (grounded : Grounded time plan w)
    (sound : ItemSound time id item) (before : Checked w) :
    Checked { w with agentExecutions := w.agentExecutions ++ [e] } where
  ids := nodup_map_concat before.ids issuable.unused
  each := by
    refine forall_mem_append.mpr ⟨fun x hx => ?_, forall_mem_singleton.mpr ?_⟩
    · have old := before.each x hx
      simp only [checkExecution, except_iffs] at old ⊢
      exact ⟨⟨h.fits old.1.1, old.1.2⟩, old.2⟩
    · obtain ⟨evidence, found, scope⟩ := h.scope issuable grounded sound
      have room : (w.executionsOf e.workItemId e.attemptId).length ≤ maxAgentExecutions := by
        rw [h.task, h.attempt]
        exact Nat.le_of_lt h.room
      simp only [checkExecution, except_iffs]
      refine ⟨⟨h.fits room, ?_, ?_⟩, evidence, found, ?_, ?_⟩
      · rw [h.queued, h.unended]
        rfl
      · simp [h.queued, h.noResult]
      · rw [scope]
        rfl
      · rw [h.noResult]
        rfl
  listed f hf := by
    have old := before.listed f hf
    simp only [listedFinding, Option.all_eq_true, any_append, Bool.or_eq_true] at old ⊢
    exact fun id origin => .inl (old id origin)
  candidates := by
    refine validateCandidateIntegrity_congr (w := w) ?_ rfl rfl ?_ before.candidates
    · simp [find?_append, h.queued]
    · refine fun old => forall_mem_append.mpr ⟨old, forall_mem_singleton.mpr ?_⟩
      rw [checkListed, h.noResult]

end Requested

theorem Records.checked (h : Records w u) (before : Checked w) : Checked u := by
  have same : Forall₂ Moved w.agentExecutions w.agentExecutions := forall₂_same.mpr fun _ _ => .kept
  cases h with
  | evidence =>
    exact Advanced.checked (w := w) ⟨prefix_append _ _, prefix_rfl, fun _ hf => .inl hf, rfl, rfl,
      same⟩ before
  | finding f human =>
    refine Advanced.checked (w := w) ⟨prefix_rfl, prefix_append _ _, fun x hx => ?_, rfl, rfl,
      same⟩ before
    obtain old | new := mem_append.mp hx
    · exact .inl old
    · rw [mem_singleton.mp new]
      exact .inr human
  | decision | artifacts => exact { before with }

theorem Effect.checked (grounded : Grounded time plan w) (before : Checked w)
    (issuable : ∀ item e, command.isRequest = true → Requested w command.context item e →
      u.agentExecutions = w.agentExecutions ++ [e] → Issuable w e)
    (h : Effect env actor command now w u) : Checked u := by
  cases h with
  | kept => exact before
  | paused _ _ _ _ placed | assigned _ _ _ _ _ _ placed => cases placed <;> exact { before with }
  | recorded records _ placed =>
    have recorded := records.checked before
    cases placed <;> exact { recorded with }
  | @requested item _ e issued _ request placed =>
    have issued := issuable item e issued request (congrArg (· ++ [e]) placed.executions)
    have grown := request.checked issued grounded (placed.sound grounded.items) before
    cases placed <;> exact { grown with }
  | @cancelled item x e found active _ _ placed =>
    have valid := (placed.sound grounded.items).revision
    have each := checkExecution_each (before.each e (mem_of_find?_eq_some found))
    have moved : Moved e (Workflow.cancelled now (item.revision + 1) e) :=
      .changed .cancelled e.startedAt e.effectiveContextRevision _ (some now) e.failureCode
        (unfinished_of_active active) (by simp) rfl ⟨by omega, each.2.2.2⟩
    have after : Checked (w.updateExecution e.id (Workflow.cancelled now (item.revision + 1))) :=
      Advanced.checked (w := w)
        (.of_moved (forall₂_updateFirst (fun _ => .kept) found moved) rfl rfl rfl rfl) before
    cases placed <;> exact { after with }
  | completed | returned | submitted => exact { before with }

theorem Checked.concluded (before : Checked u) (authority : PolicyAuthority) :
    Checked { u.concluded now with authority } := by
  refine Advanced.checked (w := u) (.of_moved ?_ rfl rfl rfl rfl) before
  show Forall₂ Moved u.agentExecutions (u.agentExecutions.map _)
  rw [forall₂_map_right_iff]
  refine forall₂_same.mpr fun e he => ?_
  have each := checkExecution_each (before.each e he)
  unfold settle
  split
  next stale =>
    have active : e.status.isActive = true := by
      simp only [isStale, Bool.and_eq_true] at stale
      exact stale.1
    exact .changed .failed e.startedAt e.effectiveContextRevision e.taskRevision (some now)
      (some .contextStale) (unfinished_of_active active) (by simp) rfl each.2.2
  · exact .kept

/-! ## The invariant -/

/-- What no command changes. -/
structure SameInstance (w u : Workflow) : Prop where
  id : u.id = w.id
  context : u.contextId = w.contextId
  definition : u.definitionVersionId = w.definitionVersionId
  revision : u.revision = w.revision

theorem Effect.sameInstance (h : Effect env actor command now w u) : SameInstance w u := by
  cases h with
  | kept | completed | returned | submitted => exact ⟨rfl, rfl, rfl, rfl⟩
  | recorded records _ placed => cases records <;> cases placed <;> exact ⟨rfl, rfl, rfl, rfl⟩
  | paused _ _ _ _ placed | requested _ _ _ _ placed | cancelled _ _ _ _ _ placed
  | assigned _ _ _ _ _ _ placed => cases placed <;> exact ⟨rfl, rfl, rfl, rfl⟩

theorem Replaced.received (h : Replaced w item new v)
    (same : new.attemptNumber = item.attemptNumber) :
    receivedCount v.next = receivedCount w.next := by
  cases h with
  | source => rfl
  | next found => simp [receivedCount, found, same]

/-- Every attempt of the next task received one submission. -/
theorem Effect.submissions (before : w.snapshots.length = receivedCount w.next)
    (h : Effect env actor command now w u) : u.snapshots.length = receivedCount u.next := by
  cases h with
  | kept => exact before
  | paused _ _ _ _ placed =>
    rw [placed.received rfl]
    cases placed <;> exact before
  | recorded records _ placed =>
    rw [placed.received rfl]
    cases records <;> cases placed <;> exact before
  | requested _ _ _ _ placed | cancelled _ _ _ _ _ placed
  | assigned _ _ _ _ _ _ placed =>
    refine Eq.trans ?_ (placed.received rfl).symm
    cases placed <;> exact before
  | completed _ found | returned _ found =>
    rw [found] at before
    exact before
  | submitted _ snapshot attempt _ _ _ _ received =>
    show (w.snapshots ++ [snapshot]).length = attempt.attemptNumber
    rw [length_append, length_singleton, before]
    obtain ⟨found, rfl⟩ | ⟨_, found, rfl⟩ := nextAttempt_ok received <;> rw [found] <;> rfl

theorem Effect.grounded (before : Grounded time plan w) (bound : Bound w)
    (valid : w.validateIntegrity time = .ok ()) (fresh : FreshDraws w env.draw)
    (h : Effect env actor command now w u) (authority : PolicyAuthority) :
    Grounded time plan { u.concluded now with authority } := by
  have same := h.sameInstance
  have items := h.items before.items before.phased before.planned fresh
  have held := h.held before.periods before.items before.phased before.planned fresh
  have phased := h.phased bound valid before.phased
  have submissions := h.submissions before.submissions
  exact {
    planned := by
      show okOr (contextFixture u.id) _ = _
      rw [same.id]
      exact before.planned
    context := same.context.trans before.context
    definition := by
      show u.definitionVersionId ∈ _
      rw [same.definition]
      exact before.definition
    phased
    items
    periods := held.closed (h.ids before.periods fresh)
    submissions
    revision := by
      show 0 ≤ u.revision + 1
      rw [same.revision]
      have := before.revision
      omega }

/-- Every effect keeps the invariant. -/
theorem Effect.standing (before : Standing time plan w) (fresh : FreshDraws w env.draw)
    (issuable : ∀ item e, command.isRequest = true → Requested w command.context item e →
      u.agentExecutions = w.agentExecutions ++ [e] → Issuable w e)
    (h : Effect env actor command now w u) (authority : PolicyAuthority) :
    Standing time plan { u.concluded now with authority } :=
  ⟨h.grounded before.toGrounded before.bound before.validates fresh authority,
    h.bound before.bound authority,
    (h.checked before.toGrounded before.checked issuable).concluded authority⟩

/-- A command that was accepted keeps it too: its last check covers the executions. -/
theorem Applied.standing (h : Applied env actor command now w u v)
    (before : Standing env.time plan w) (fresh : FreshDraws w env.draw) :
    Standing env.time plan v := by
  have rest := h.effect.grounded before.toGrounded before.bound before.validates fresh v.authority
  refine ⟨?_, h.bound before.bound, checked_of_validates h.after⟩
  rw [h.changes]
  exact rest

end KnowledgePlatform.Work.Workflow
