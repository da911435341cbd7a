import KnowledgePlatform.Lib.First
import KnowledgePlatform.Work.Records

/-! The organization policy: units, roles, formal role assignments and bounded delegation. -/

namespace KnowledgePlatform.Work

/-! ## Identifiers of the fixture -/

def organizationPolicyId : Uuid := fromU128 0x0190000000007000800000000000a001
def unitSalesId : Uuid := fromU128 0x0190000000007000800000000000a011
def unitOfficeId : Uuid := fromU128 0x0190000000007000800000000000a012
def unitReviewId : Uuid := fromU128 0x0190000000007000800000000000a013
def unitApprovalId : Uuid := fromU128 0x0190000000007000800000000000a014
def roleSalesId : Uuid := fromU128 0x0190000000007000800000000000a021
def roleProcessingId : Uuid := fromU128 0x0190000000007000800000000000a022
def roleReviewingId : Uuid := fromU128 0x0190000000007000800000000000a023
def roleApprovingId : Uuid := fromU128 0x0190000000007000800000000000a024
def roleManagementId : Uuid := fromU128 0x0190000000007000800000000000a025
def salesAssignmentId : Uuid := fromU128 0x01900000000070008000000000000007
def officeAssignmentId : Uuid := fromU128 0x01900000000070008000000000000008
def reviewAssignmentId : Uuid := fromU128 0x0190000000007000800000000000a031
def approverAssignmentId : Uuid := fromU128 0x0190000000007000800000000000a032
def approverManagementAssignmentId : Uuid := fromU128 0x0190000000007000800000000000a033
def multiRoleProcessingAssignmentId : Uuid := fromU128 0x0190000000007000800000000000a034
def multiRoleReviewAssignmentId : Uuid := fromU128 0x0190000000007000800000000000a035
def profileSalesContextId : Uuid := fromU128 0x0190000000007000800000000000c001
def profileOfficeQueueId : Uuid := fromU128 0x0190000000007000800000000000c002
def profileReviewQueueId : Uuid := fromU128 0x0190000000007000800000000000c003

def maxRoleAssignments : Nat := 96

def maxDelegationsPerDelegator : Nat := 16

def maxDelegations : Nat := maxDelegationsPerDelegator * VerifiedActor.all.length

def validFromSkew : Int := minutes 5

def fixtureValidFrom : String := "2026-10-01T00:00:00Z"

/-- The view a responsibility is shown in by default. -/
def profileFor (roleId unitId : Uuid) : Uuid :=
  if roleId = roleReviewingId then profileReviewQueueId
  else if unitId = unitSalesId then profileSalesContextId
  else if unitId = unitReviewId then profileReviewQueueId
  else profileOfficeQueueId

/-! ## The fixture -/

def fixtureAssignment (id : Uuid) (principal : VerifiedActor) (roleId unitId : Uuid) :
    RoleAssignment where
  id
  principal
  roleId
  unitId
  validFrom := fixtureValidFrom
  validUntil := none
  reason := "合成fixtureの正式割当"
  createdBy := none
  createdAt := fixtureValidFrom
  revokedAt := none
  revokedBy := none
  revokeReason := none

namespace OrganizationPolicy

/-- Grants nothing. -/
def empty : OrganizationPolicy where
  id := organizationPolicyId
  revision := 0
  units := []
  roles := []
  roleAssignments := []
  delegations := []

def workActions : List PolicyAction :=
  [.queueRead, .workRead, .workClaim, .workEdit, .workSubmit, .workHold, .workResume,
    .evidenceRegister, .findingRegister, .decisionRecord, .agentRequest]

def salesActions : List PolicyAction :=
  [.contextRead, .contextProgressRead, .contextHistoryRead] ++ workActions

def processingActions : List PolicyAction := workActions ++ [.workReturn, .workComplete]

def approvingActions : List PolicyAction :=
  [.queueRead, .workRead, .workClaim, .workReturn, .workComplete, .workHold, .workResume,
    .evidenceRegister, .findingRegister, .decisionRecord, .agentRequest]

def synthetic : OrganizationPolicy where
  id := organizationPolicyId
  revision := 0
  units := [
    ⟨unitSalesId, "営業店", .context, [roleSalesId]⟩,
    ⟨unitOfficeId, "事務", .queue, [roleProcessingId]⟩,
    ⟨unitReviewId, "融資審査", .queue, [roleReviewingId]⟩,
    ⟨unitApprovalId, "承認", .queue, [roleApprovingId, roleManagementId]⟩]
  roles := [
    ⟨roleSalesId, "sales", "営業", salesActions⟩,
    ⟨roleProcessingId, "processing", "事務処理", processingActions⟩,
    ⟨roleReviewingId, "reviewing", "審査", processingActions⟩,
    ⟨roleApprovingId, "approving", "承認", approvingActions⟩,
    ⟨roleManagementId, "management", "業務管理", [.queueRead, .workAssign, .organizationManage]⟩]
  roleAssignments := [
    fixtureAssignment salesAssignmentId .sales01 roleSalesId unitSalesId,
    fixtureAssignment officeAssignmentId .office01 roleProcessingId unitOfficeId,
    fixtureAssignment reviewAssignmentId .review01 roleReviewingId unitReviewId,
    fixtureAssignment approverAssignmentId .approver01 roleApprovingId unitApprovalId,
    fixtureAssignment approverManagementAssignmentId .approver01 roleManagementId unitApprovalId,
    fixtureAssignment multiRoleProcessingAssignmentId .multiRole01 roleProcessingId unitOfficeId,
    fixtureAssignment multiRoleReviewAssignmentId .multiRole01 roleReviewingId unitReviewId]
  delegations := []

variable (time : TimeText) (policy : OrganizationPolicy) (actor : VerifiedActor)

/-! ## What is in effect -/

def role (id : Uuid) : Option BusinessRole :=
  policy.roles.find? fun role => role.id = id

def unit (id : Uuid) : Option OrganizationalUnit :=
  policy.units.find? fun unit => unit.id = id

def assignment (id : Uuid) : Option RoleAssignment :=
  policy.roleAssignments.find? fun value => value.id = id

def delegation (id : Uuid) : Option Delegation :=
  policy.delegations.find? fun value => value.id = id

/-- An end that is missing is no end; one that cannot be read ends everything. -/
def endsAfter (until? : Option String) (now : Instant) : Bool :=
  match until? with
  | none => true
  | some text => (time.parse text).any fun ends => now < ends

def assignmentEffective (value : RoleAssignment) (now : Instant) : Bool :=
  match time.parse value.validFrom with
  | none => false
  | some starts =>
    value.revokedAt = none ∧ starts ≤ now ∧ endsAfter time value.validUntil now = true ∧
      (policy.role value.roleId).isSome = true ∧ (policy.unit value.unitId).isSome = true

def delegationEffective (value : Delegation) (now : Instant) : Bool :=
  match time.parse value.validFrom, time.parse value.validUntil with
  | some starts, some ends => value.revokedAt = none ∧ starts ≤ now ∧ now < ends ∧
      ((policy.assignment value.sourceAssignmentId).any fun source =>
        source.principal = value.delegator && assignmentEffective time policy source now) = true
  | _, _ => false

def assignmentResponsibility (value : RoleAssignment) : Option Responsibility := do
  let role ← policy.role value.roleId
  let unit ← policy.unit value.unitId
  return {
    id := value.id
    kind := .roleAssignment
    principal := value.principal
    roleId := role.id
    roleLabel := role.label
    unitId := unit.id
    unitLabel := unit.label
    actions := role.actions
    validFrom := value.validFrom
    validUntil := value.validUntil
    sourceAssignmentId := none
    delegator := none
    workViewProfileId := profileFor role.id unit.id }

/-- A delegation only narrows its source. -/
def delegationResponsibility (value : Delegation) : Option Responsibility := do
  let source ← policy.assignment value.sourceAssignmentId
  let derived ← policy.assignmentResponsibility source
  return { derived with
    actions := derived.actions.filter value.actions.contains
    id := value.id
    kind := .delegation
    principal := value.recipient
    validFrom := value.validFrom
    validUntil := some value.validUntil
    sourceAssignmentId := some source.id
    delegator := some value.delegator }

def responsibilities (now : Instant) : List Responsibility :=
  (policy.roleAssignments.filter fun value =>
    value.principal = actor && assignmentEffective time policy value now).filterMap
      policy.assignmentResponsibility ++
  (policy.delegations.filter fun value =>
    value.recipient = actor && delegationEffective time policy value now).filterMap
      policy.delegationResponsibility

/-- The responsibility asked for, if it is the actor's now. -/
def responsibility (id : Uuid) (now : Instant) : Option Responsibility :=
  match policy.assignment id with
  | some value =>
    if value.principal = actor ∧ assignmentEffective time policy value now = true then
      policy.assignmentResponsibility value
    else none
  | none =>
    match policy.delegation id with
    | some value =>
      if value.recipient = actor ∧ delegationEffective time policy value now = true then
        policy.delegationResponsibility value
      else none
    | none => none

/-- The labels of a responsibility, in effect or not. -/
def describe (id : Uuid) : Option Responsibility :=
  match policy.assignment id with
  | some value => policy.assignmentResponsibility value
  | none => (policy.delegation id).bind policy.delegationResponsibility

def isManagement (r : Responsibility) : Bool :=
  r.kind = .roleAssignment && r.allows .organizationManage

def management (acting : Uuid) (now : Instant) : Except WorkError Responsibility :=
  okOr ((responsibility time policy actor acting now).filter isManagement) .forbidden

/-! ## Integrity -/

def allIds : List Uuid :=
  policy.units.map (·.id) ++ policy.roles.map (·.id) ++ policy.roleAssignments.map (·.id) ++
    policy.delegations.map (·.id)

def checkAssignment (value : RoleAssignment) : Except WorkError Unit := do
  let starts ← okOr (time.parse value.validFrom) .integrityViolation
  let ends ← value.validUntil.mapM fun text => okOr (time.parse text) .integrityViolation
  ensure ((policy.role value.roleId).isSome = true ∧ (policy.unit value.unitId).isSome = true ∧
    (ends.all fun e => starts < e) = true ∧ value.revokedAt.isSome = value.revokedBy.isSome)
    .integrityViolation

def checkDelegation (value : Delegation) : Except WorkError Unit := do
  let starts ← okOr (time.parse value.validFrom) .integrityViolation
  let ends ← okOr (time.parse value.validUntil) .integrityViolation
  let source ← okOr (policy.assignment value.sourceAssignmentId) .integrityViolation
  let role ← okOr (policy.role source.roleId) .integrityViolation
  ensure (starts < ends ∧ source.principal = value.delegator ∧ value.recipient ≠ value.delegator ∧
    value.actions ≠ [] ∧
    (value.actions.all fun action => action.delegable && role.actions.contains action) = true ∧
    value.revokedAt.isSome = value.revokedBy.isSome) .integrityViolation

def validateIntegrity : Except WorkError Unit := do
  ensure (policy.id = organizationPolicyId ∧ 0 ≤ policy.revision ∧
    policy.roleAssignments.length ≤ maxRoleAssignments ∧
    policy.delegations.length ≤ maxDelegations) .integrityViolation
  ensure policy.allIds.Nodup .integrityViolation
  ensure (∀ unit ∈ policy.units, ∀ id ∈ unit.roleIds, (policy.role id).isSome = true)
    .integrityViolation
  policy.roleAssignments.forM (checkAssignment time policy)
  policy.delegations.forM (checkDelegation time policy)

/-! ## Commands -/

/-- A start may trail the clock a little, and is then now. -/
def requestedStart (value : Option String) (now : Instant) : Except WorkError Instant :=
  match value with
  | none => .ok now
  | some text => do
    let starts ← parseInstant time text
    ensure (¬ starts < now - validFromSkew) .validationFailed
    return max starts now

/-- Half-open intervals; what cannot be read overlaps everything. -/
def intervalsOverlap (starts : Option Instant) (ends : Option (Option Instant))
    (otherStarts : Instant) (otherEnds : Option Instant) : Bool :=
  match starts, ends with
  | some starts, some ends =>
    (ends.all fun e => otherStarts < e) && (otherEnds.all fun e => starts < e)
  | _, _ => true

/-- A stored end: none, or one that may be unreadable. -/
def storedEnd : Option String → Option (Option Instant)
  | none => some none
  | some text => (time.parse text).map some

/-- The assignment `id` is held by the actor in its own name now. -/
def holds (id : Uuid) (now : Instant) : Bool :=
  (responsibility time policy actor id now).any fun r => r.kind = .roleAssignment

def authorizeCommand (command : PolicyCommand) (now : Instant) : Except WorkError Unit := do
  let acting := command.context.actingAssignmentId
  match command with
  | .createRoleAssignment _ principal .. =>
    let _ ← management time policy actor acting now
    -- Management never grants its own caller a role.
    ensure (principal ≠ actor) .forbidden
  | .revokeRoleAssignment .. =>
    let _ ← management time policy actor acting now
  | .createDelegation _ sourceAssignmentId .. =>
    ensure (acting = sourceAssignmentId ∧ holds time policy actor acting now = true) .forbidden
  | .revokeDelegation _ delegationId _ =>
    let own := ((policy.delegation delegationId).any fun value =>
      value.delegator = actor && value.sourceAssignmentId = acting) &&
        holds time policy actor acting now
    if own then return () else
      let _ ← management time policy actor acting now

/-- A refusal, or the changed policy with the result. -/
abbrev Mutated : Type := Except WorkError (OrganizationPolicy × MutationResult)

def createRoleAssignment (newId : Uuid) (actor principal : VerifiedActor) (roleId unitId : Uuid)
    (validFrom validUntil : Option String) (reason : String) (instant : Instant) (now : String) :
    Mutated := do
  boundedReason reason
  let unit ← okOr (policy.unit unitId) .validationFailed
  ensure ((policy.role roleId).isSome = true ∧ roleId ∈ unit.roleIds) .validationFailed
  let starts ← requestedStart time validFrom instant
  let ends ← validUntil.mapM (parseInstant time)
  ensure ((ends.all fun e => starts < e && instant < e) = true ∧
    policy.roleAssignments.length < maxRoleAssignments) .validationFailed
  ensure (¬ ∃ value ∈ policy.roleAssignments, value.principal = principal ∧ value.roleId = roleId ∧
    value.unitId = unitId ∧ value.revokedAt = none ∧
    intervalsOverlap (time.parse value.validFrom)
      (storedEnd time value.validUntil) starts ends = true)
    .validationFailed
  let startText ← formatInstant time starts
  let endText ← ends.mapM (formatInstant time)
  let assignment : RoleAssignment := {
    id := newId
    principal
    roleId
    unitId
    validFrom := startText
    validUntil := endText
    reason
    createdBy := some actor
    createdAt := now
    revokedAt := none
    revokedBy := none
    revokeReason := none }
  return ({ policy with roleAssignments := policy.roleAssignments ++ [assignment] },
    .roleAssignmentCreated assignment policy.revision)

def revokeRoleAssignment (context : CommandContext) (assignmentId : Uuid) (reason now : String) :
    Mutated := do
  boundedReason reason
  -- Revoking the acting assignment would lock out its own caller.
  ensure (assignmentId ≠ context.actingAssignmentId) .validationFailed
  let value ← okOr (policy.assignment assignmentId) .organizationRecordNotFound
  ensure (value.revokedAt = none) .validationFailed
  let revoke (r : RoleAssignment) : RoleAssignment :=
    { r with revokedAt := some now, revokedBy := some actor, revokeReason := some reason }
  return ({ policy with
      roleAssignments := updateFirst (fun r => r.id = assignmentId) revoke policy.roleAssignments },
    .roleAssignmentRevoked (revoke value) policy.revision)

def createDelegation (newId : Uuid) (actor : VerifiedActor) (sourceAssignmentId : Uuid)
    (recipient : VerifiedActor) (actions : List PolicyAction) (validFrom : Option String)
    (validUntil reason : String) (instant : Instant) (now : String) : Mutated := do
  boundedReason reason
  let source ← okOr (policy.assignment sourceAssignmentId) .organizationRecordNotFound
  ensure (assignmentEffective time policy source instant = true ∧ source.principal ≠ recipient)
    .validationFailed
  let role ← okOr (policy.role source.roleId) .integrityViolation
  ensure (actions ≠ [] ∧ actions.Nodup ∧
    (actions.all fun action => action.delegable && role.actions.contains action) = true)
    .validationFailed
  let starts ← requestedStart time validFrom instant
  let ends ← parseInstant time validUntil
  let sourceEnds := source.validUntil.bind time.parse
  ensure (starts < ends ∧ instant < ends ∧ (sourceEnds.all fun e => ends ≤ e) = true ∧
    (policy.delegations.filter fun value => value.delegator = source.principal).length <
      maxDelegationsPerDelegator) .validationFailed
  ensure (¬ ∃ value ∈ policy.delegations, value.sourceAssignmentId = sourceAssignmentId ∧
    value.recipient = recipient ∧ value.revokedAt = none ∧
    intervalsOverlap (time.parse value.validFrom) ((time.parse value.validUntil).map some) starts
      (some ends) = true) .validationFailed
  let startText ← formatInstant time starts
  let endText ← formatInstant time ends
  let delegation : Delegation := {
    id := newId
    sourceAssignmentId
    delegator := source.principal
    recipient
    actions
    validFrom := startText
    validUntil := endText
    reason
    createdBy := actor
    createdAt := now
    revokedAt := none
    revokedBy := none
    revokeReason := none }
  return ({ policy with delegations := policy.delegations ++ [delegation] },
    .delegationCreated delegation policy.revision)

def revokeDelegation (delegationId : Uuid) (reason now : String) : Mutated := do
  boundedReason reason
  let value ← okOr (policy.delegation delegationId) .organizationRecordNotFound
  ensure (value.revokedAt = none) .validationFailed
  let revoke (r : Delegation) : Delegation :=
    { r with revokedAt := some now, revokedBy := some actor, revokeReason := some reason }
  return ({ policy with
      delegations := updateFirst (fun r => r.id = delegationId) revoke policy.delegations },
    .delegationRevoked (revoke value) policy.revision)

def applyValidated (newId : Uuid) (actor : VerifiedActor) (command : PolicyCommand)
    (instant : Instant) (now : String) : Mutated :=
  match command with
  | .createRoleAssignment _ principal roleId unitId validFrom validUntil reason =>
    createRoleAssignment time policy newId actor principal roleId unitId validFrom validUntil reason
      instant now
  | .revokeRoleAssignment context assignmentId reason =>
    revokeRoleAssignment policy actor context assignmentId reason now
  | .createDelegation _ sourceAssignmentId recipient actions validFrom validUntil reason =>
    createDelegation time policy newId actor sourceAssignmentId recipient actions validFrom
      validUntil
      reason instant now
  | .revokeDelegation _ delegationId reason => revokeDelegation policy actor delegationId reason now

/-- One command at the instant `now`; `newId` is the identifier drawn for a new record. -/
def apply (newId : Uuid) (actor : VerifiedActor) (command : PolicyCommand) (now : String) :
    Mutated := do
  validateIntegrity time policy
  ensure (versionNum command.context.operationId = 7 ∧ 0 ≤ command.context.expectedRevision)
    .validationFailed
  let instant ← okOr (time.parse now) .integrityViolation
  authorizeCommand time policy actor command instant
  ensure (policy.revision = command.context.expectedRevision) .revisionConflict
  let revision ← nextRevision policy.revision
  let done ← applyValidated time { policy with revision } newId actor command instant now
  validateIntegrity time done.1
  return done

end OrganizationPolicy

end KnowledgePlatform.Work
