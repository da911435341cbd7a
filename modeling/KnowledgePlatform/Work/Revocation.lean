import KnowledgePlatform.Work.Commands
import KnowledgePlatform.Work.Delegations

/-! What was revoked stays revoked, and nobody acts or reads under it. -/

namespace KnowledgePlatform.Work

open List

namespace OrganizationPolicy

variable {time : TimeText} {p q : OrganizationPolicy} {actor : VerifiedActor} {id ended : Uuid}

/-- A role assignment or a delegation has been revoked. -/
def Revoked (p : OrganizationPolicy) (id : Uuid) : Prop :=
  (∃ value ∈ p.roleAssignments, value.id = id ∧ value.revokedAt ≠ none) ∨
    ∃ value ∈ p.delegations, value.id = id ∧ value.revokedAt ≠ none

/-- What ends with `id`: itself and every delegation derived from it. -/
def EndsWith (p : OrganizationPolicy) (id ended : Uuid) : Prop :=
  ended = id ∨ ∃ value ∈ p.delegations, value.id = ended ∧ value.sourceAssignmentId = id

section

variable (step : Accepted time actor p q)
include step

theorem Accepted.revoked (h : Revoked p id) : Revoked q id := by
  rcases h with ⟨value, there, named, revoked⟩ | ⟨value, there, named, revoked⟩
  · obtain ⟨later, among, rfl | ⟨_, _, _, rfl⟩⟩ := step.change.assignments.stays there
    · exact .inl ⟨later, among, named, revoked⟩
    · exact .inl ⟨_, among, named, by simp⟩
  · obtain ⟨later, among, rfl | ⟨_, _, _, rfl⟩⟩ := step.change.grants.stays there
    · exact .inr ⟨later, among, named, revoked⟩
    · exact .inr ⟨_, among, named, by simp⟩

end

theorem revoked_run {actors : List VerifiedActor} (run : Run (Step time) p actors q)
    (h : Revoked p id) : Revoked q id :=
  run.invariant (P := fun _ s => Revoked s id) h fun _ _ _ _ kept step => step.accepted.revoked kept

theorem validateIntegrity_allIds (h : validateIntegrity time p = .ok ()) : p.allIds.Nodup := by
  simp only [validateIntegrity, except_iffs] at h
  obtain ⟨-, distinct, -⟩ := h
  exact distinct

/-- No identifier is used twice, not even by a new record. -/
theorem Reached.allIds_nodup (reached : Reached time p) : p.allIds.Nodup := by
  obtain ⟨actors, run⟩ := reached
  cases run with
  | start => decide +kernel
  | next _ step => exact validateIntegrity_allIds step.accepted.after

theorem assignmentResponsibility_id {value : RoleAssignment} {r : Responsibility}
    (given : p.assignmentResponsibility value = some r) : r.id = value.id := by
  simp only [assignmentResponsibility, Option.bind_eq_bind, Option.bind_eq_some_iff] at given
  obtain ⟨role, -, unit, -, given⟩ := given
  cases given
  rfl

theorem delegationResponsibility_id {value : Delegation} {r : Responsibility}
    (given : p.delegationResponsibility value = some r) : r.id = value.id := by
  simp only [delegationResponsibility, Option.bind_eq_bind, Option.bind_eq_some_iff] at given
  obtain ⟨source, -, base, -, given⟩ := given
  cases given
  rfl

/-- What an identifier stands for now is in effect. -/
theorem mem_of_responsibility {r : Responsibility} {now : Instant}
    (given : responsibility time p actor id now = some r) :
    r ∈ responsibilities time p actor now ∧ r.id = id := by
  simp only [responsibilities, mem_append, mem_filterMap, mem_filter,
    Bool.and_eq_true, decide_eq_true_eq]
  unfold responsibility at given
  split at given
  next value found =>
    rw [Option.ite_none_right_eq_some] at given
    refine ⟨.inl ⟨value, ⟨mem_of_find?_eq_some found, given.1⟩, given.2⟩, ?_⟩
    rw [assignmentResponsibility_id given.2]
    simpa using find?_some found
  · split at given
    next value found =>
      rw [Option.ite_none_right_eq_some] at given
      refine ⟨.inr ⟨value, ⟨mem_of_find?_eq_some found, given.1⟩, given.2⟩, ?_⟩
      rw [delegationResponsibility_id given.2]
      simpa using find?_some found
    · cases given

section

variable (distinct : p.allIds.Nodup)
include distinct

theorem assignment_of_mem {value : RoleAssignment} (there : value ∈ p.roleAssignments) :
    p.assignment value.id = some value := by
  obtain ⟨front, -, -⟩ := nodup_append.mp distinct
  obtain ⟨-, own, -⟩ := nodup_append.mp front
  exact (find?_key_iff own).mpr ⟨there, rfl⟩

theorem delegation_of_mem {value : Delegation} (there : value ∈ p.delegations) :
    p.assignment value.id = none ∧ p.delegation value.id = some value := by
  obtain ⟨-, own, apart⟩ := nodup_append.mp distinct
  refine ⟨?_, (find?_key_iff own).mpr ⟨there, rfl⟩⟩
  rw [assignment, find?_eq_none]
  intro other inside same
  refine apart other.id ?_ value.id (mem_map_of_mem there) (of_decide_eq_true same)
  exact mem_append_right _ (mem_map_of_mem inside)

/-- A responsibility in effect is the one its identifier stands for. -/
theorem responsibility_of_mem {r : Responsibility} {now : Instant}
    (there : r ∈ responsibilities time p actor now) :
    responsibility time p actor r.id now = some r := by
  simp only [responsibilities, mem_append, mem_filterMap, mem_filter,
    Bool.and_eq_true, decide_eq_true_eq] at there
  obtain ⟨value, ⟨here, own⟩, given⟩ | ⟨value, ⟨here, own⟩, given⟩ := there
  · have same : r.id = value.id := assignmentResponsibility_id given
    rw [responsibility, same, assignment_of_mem distinct here]
    exact (if_pos own).trans given
  · have same : r.id = value.id := delegationResponsibility_id given
    obtain ⟨other, found⟩ := delegation_of_mem distinct here
    rw [responsibility, same, other, found]
    exact (if_pos own).trans given

theorem responsibility_revoked (h : Revoked p id) (ends : EndsWith p id ended) (now : Instant) :
    responsibility time p actor ended now = none := by
  have unassigned : ∀ value, p.assignment id = some value →
      assignmentEffective time p value now = true → False := by
    intro value found effective
    obtain ⟨unrevoked, -⟩ := assignmentEffective_iff.mp effective
    rcases h with ⟨value, there, rfl, revoked⟩ | ⟨value, there, rfl, -⟩
    · rw [assignment_of_mem distinct there] at found
      cases found
      exact revoked unrevoked
    · rw [(delegation_of_mem distinct there).1] at found
      cases found
  have derived : ∀ value ∈ p.delegations, value.revokedAt ≠ none ∨ value.sourceAssignmentId = id →
      responsibility time p actor value.id now = none := by
    intro value there why
    obtain ⟨none, found⟩ := delegation_of_mem distinct there
    simp only [responsibility, none, found]
    apply if_neg
    rintro ⟨-, effective⟩
    obtain ⟨live, -, source, held, -, active⟩ := delegationEffective_iff.mp effective
    rcases why with revoked | rfl
    · exact revoked live
    · exact unassigned source held active
  rcases ends with rfl | ⟨value, there, rfl, source⟩
  · rcases h with ⟨value, there, rfl, revoked⟩ | ⟨value, there, rfl, revoked⟩
    · have found := assignment_of_mem distinct there
      simp only [responsibility, found]
      exact if_neg fun both => unassigned value found both.2
    · exact derived value there (.inl revoked)
  · exact derived value there (.inr source)

end

end OrganizationPolicy

namespace Workflow

variable {w : Workflow} {env : Env} {actor : VerifiedActor} {ended : Uuid}

/-- The record is part of a submission that the actor reads. -/
def SubmittedTo (w : Workflow) (env : Env) (actor : VerifiedActor)
    (member : HandoffSnapshot → List RevisionRef) (reference : RevisionRef) : Prop :=
  ∃ s ∈ w.snapshots, reference ∈ member s ∧ (w.snapshot env actor s.id).toOption.isSome = true

/-- An actor reads no private record of an attempt through the responsibility `ended`: a record of
such an attempt is read only as part of a submission. -/
structure Closed (w : Workflow) (env : Env) (actor : VerifiedActor) (ended : Uuid) : Prop where
  unread : ∀ item, item.actingAssignmentId = some ended → w.canRead env actor item = false
  detail : ∀ task item, w.item task = .ok item → item.actingAssignmentId = some ended →
    w.detail env actor task = .error .workItemNotFound
  artifact : ∀ id value item, w.artifact env actor id = .ok value → w.item value.taskId = .ok item →
    item.actingAssignmentId ≠ some ended
  execution : ∀ id value item, w.agentExecution env actor id = .ok value →
    w.item value.workItemId = .ok item → item.actingAssignmentId ≠ some ended
  evidence : ∀ id value item, w.evidenceRecord env actor id = .ok value →
    w.item value.taskId = .ok item → item.actingAssignmentId = some ended →
    w.SubmittedTo env actor (·.evidenceRevisionRefs) ⟨value.id, value.revision⟩
  finding : ∀ id value item, w.finding env actor id = .ok value →
    w.item value.taskId = .ok item → item.actingAssignmentId = some ended →
    w.SubmittedTo env actor (·.findingRevisionRefs) ⟨value.id, value.revision⟩
  decision : ∀ id value item, w.decision env actor id = .ok value →
    w.item value.taskId = .ok item → item.actingAssignmentId = some ended →
    w.SubmittedTo env actor (·.decisionRevisionRefs) ⟨value.id, value.revision⟩

theorem recordVisible_submitted {item : WorkItem} {taskId attemptId : Uuid}
    {reference : RevisionRef} {member : HandoffSnapshot → List RevisionRef}
    (found : w.item taskId = .ok item) (unread : w.canRead env actor item = false)
    (h : w.recordVisible env actor taskId attemptId reference member = true) :
    w.SubmittedTo env actor member reference := by
  simp only [recordVisible, found, Except.toOption, Option.any_some, unread, Bool.and_false,
    Bool.false_or, any_eq_true, Bool.and_eq_true, contains_iff_mem] at h
  exact h

/-- Where the policy grants nobody a responsibility, nothing is read through it. -/
theorem closed_of_none
    (none : ∀ actor now, w.policy.responsibility env.time actor ended now = none) :
    Closed w env actor ended := by
  have unread : ∀ item, item.actingAssignmentId = some ended →
      w.canRead env actor item = false := by
    intro item acting
    simp only [canRead, canAct, acting, Option.any_some, stepResponsibility, none]
    cases stepRole item <;> simp
  have readable : ∀ {item}, w.canRead env actor item = true →
      item.actingAssignmentId ≠ some ended :=
    fun read acting => absurd (unread _ acting) (by simp [read])
  constructor
  · exact unread
  · intro task item found acting
    simp only [Workflow.detail, found, except_ok_bind, ensure, unread item acting,
      Bool.false_eq_true, if_false]
    rfl
  · intro id value item h found
    simp only [Workflow.artifact, except_iffs] at h
    obtain ⟨_, -, other, looked, ⟨read, -⟩, rfl⟩ := h
    cases (toOption_some looked).symm.trans found
    exact readable read
  · intro id value item h found
    simp only [Workflow.agentExecution, except_iffs] at h
    obtain ⟨_, -, other, looked, ⟨-, -, -, -, read⟩, rfl⟩ := h
    cases looked.symm.trans found
    exact readable read
  · intro id value item h found acting
    simp only [Workflow.evidenceRecord, except_iffs] at h
    obtain ⟨_, -, ⟨-, visible⟩, rfl⟩ := h
    exact recordVisible_submitted found (unread item acting) visible
  · intro id value item h found acting
    simp only [Workflow.finding, except_iffs] at h
    obtain ⟨_, -, ⟨-, visible⟩, _, -, rfl⟩ := h
    exact recordVisible_submitted found (unread item acting) visible
  · intro id value item h found acting
    simp only [Workflow.decision, except_iffs] at h
    obtain ⟨_, -, ⟨-, visible⟩, _, -, _, -, rfl⟩ := h
    exact recordVisible_submitted found (unread item acting) visible

end Workflow

namespace OrganizationPolicy

/-- Revocation is final: in every later policy nobody holds what was revoked or a delegation derived
from it, and in no workflow under that policy does anyone act or read through them. -/
theorem revocation_final {time : TimeText} {p q : OrganizationPolicy} {id : Uuid}
    {actors : List VerifiedActor} (reached : Reached time p) (revoked : Revoked p id)
    (later : Run (Step time) p actors q) {ended : Uuid} (ends : EndsWith q id ended) :
    (∀ actor now, responsibility time q actor ended now = none) ∧
      ∀ (w : Workflow) (env : Env), w.authority.policy = some q → env.time = time → ∀ actor,
        (∀ command now done, command.context.actingAssignmentId = ended →
          w.apply env actor command now ≠ .ok done) ∧ w.Closed env actor ended := by
  obtain ⟨before, run⟩ := reached
  have distinct := Reached.allIds_nodup ⟨_, run.append later⟩
  have none : ∀ actor now, responsibility time q actor ended now = none := fun actor now =>
    responsibility_revoked distinct (revoked_run later revoked) ends now
  refine ⟨none, ?_⟩
  rintro w env attached rfl actor
  have policy : w.policy = q := by rw [Workflow.policy, attached, Option.getD_some]
  rw [← policy] at none
  refine ⟨?_, Workflow.closed_of_none none⟩
  intro command now done acting applied
  simp only [Workflow.apply, Workflow.authorizeCommand, except_iffs, acting] at applied
  obtain ⟨instant, -, -, ⟨-, responsibility, held, -⟩, -⟩ := applied
  exact absurd ((none actor _).symm.trans held) (by simp)

/-- Sales delegates its assignment to the office, the manager revokes that assignment, and the
office delegates its own. -/
def sampleCommand : VerifiedActor → PolicyCommand
  | .sales01 => sampleDelegate
  | .approver01 => .revokeRoleAssignment ⟨fromU128 0x0190000000007000800000000000d003, 1,
      approverManagementAssignmentId⟩ salesAssignmentId "異動"
  | _ => .createDelegation ⟨fromU128 0x0190000000007000800000000000d005, 2, officeAssignmentId⟩
      officeAssignmentId .sales01 [.workRead] none sampleEnd "休暇"

def sampleRecord (n : Nat) : Uuid := fromU128 (0x0190000000007000800000000000d010 + n)

def sampleIssue (n : Nat) (p : OrganizationPolicy) (actor : VerifiedActor) :
    Except WorkError OrganizationPolicy :=
  Prod.fst <$> apply sampleTime p (sampleRecord n) actor (sampleCommand actor) sampleNow

theorem sampleIssue_run {n : Nat} (h : (sampleIssue n p actor).toOption = some q) :
    Run (Step sampleTime) p [actor] q := by
  obtain ⟨⟨_, result⟩, applied, rfl⟩ := except_map_iff.mp (toOption_some h)
  exact Run.start.next ⟨_, _, _, result, applied⟩

/-- The office acted under the delegation before its source was revoked, and nobody does after. -/
theorem revocation_final_office : ∃ d p q, Run (Step sampleTime) synthetic [.sales01] d ∧
    Run (Step sampleTime) d [.approver01] p ∧ Run (Step sampleTime) p [.office01] q ∧
    (responsibility sampleTime d .office01 (sampleRecord 0) (minutes 1440)).isSome = true ∧
    Revoked p salesAssignmentId ∧ EndsWith q salesAssignmentId (sampleRecord 0) ∧
    ∀ actor now, responsibility sampleTime q actor (sampleRecord 0) now = none := by
  have accepted : (sampleIssue 0 synthetic .sales01).toOption.any (fun d =>
      (sampleIssue 1 d .approver01).toOption.any fun p =>
        (sampleIssue 2 p .office01).toOption.any fun q =>
          decide (
            (responsibility sampleTime d .office01 (sampleRecord 0) (minutes 1440)).isSome = true ∧
            (∃ value ∈ p.roleAssignments, value.id = salesAssignmentId ∧ value.revokedAt ≠ none) ∧
            ∃ value ∈ q.delegations, value.id = sampleRecord 0 ∧
              value.sourceAssignmentId = salesAssignmentId)) = true := by
    decide +kernel
  obtain ⟨d, delegated, accepted⟩ := any_exists accepted
  obtain ⟨p, revoked, accepted⟩ := any_exists accepted
  obtain ⟨q, later, holds⟩ := any_exists accepted
  obtain ⟨held, there, derived⟩ := of_decide_eq_true holds
  have reached : Reached sampleTime p :=
    ⟨_, (sampleIssue_run delegated).append (sampleIssue_run revoked)⟩
  exact ⟨d, p, q, sampleIssue_run delegated, sampleIssue_run revoked, sampleIssue_run later, held,
    .inl there, .inr derived,
    (revocation_final reached (.inl there) (sampleIssue_run later) (.inr derived)).1⟩

end OrganizationPolicy

end KnowledgePlatform.Work
