import KnowledgePlatform.Lib.OrderedMap
import Mathlib.Data.Prod.Lex
import Mathlib.Data.String.Basic
import Mathlib.Order.WithBot

/-! Typed n-ary relations, their typed values and instants, and bounded traversal plans over
them. -/

namespace KnowledgePlatform.Graph

abbrev SourceId := Uuid
abbrev ResourceId := Uuid
abbrev RelationId := Uuid
abbrev ResourceVersionId := Uuid
abbrev ProjectionGenerationId := Uuid

/-! ## Numbers and instants -/

def InInt128 (n : Int) : Prop := -2 ^ 127 ≤ n ∧ n < 2 ^ 127

instance (n : Int) : Decidable (InInt128 n) := inferInstanceAs (Decidable (_ ∧ _))

abbrev Int128 := { n : Int // InInt128 n }

/-- `usize` addition that reports an overflow. -/
def checkedCount (a b : Nat) : Option Nat := if a + b < 2 ^ 64 then some (a + b) else none

/-- The first and the last nanosecond of the years -9999 to 9999, from the epoch. -/
def minNanos : Int := -377705116800 * 10 ^ 9

def maxNanos : Int := 253402300799 * 10 ^ 9 + 999999999

/-- The widest offset from UTC, one second short of 26 hours. -/
def maxOffset : Int := 93599

/-- An instant with the offset it is stated in; the local date lies in the calendar's range. -/
structure OffsetDateTime where
  (unixTimestampNanos offsetSeconds : Int)
  offset_le : -maxOffset ≤ offsetSeconds ∧ offsetSeconds ≤ maxOffset
  local_le : minNanos ≤ unixTimestampNanos + offsetSeconds * 10 ^ 9 ∧
    unixTimestampNanos + offsetSeconds * 10 ^ 9 ≤ maxNanos
deriving DecidableEq

namespace OffsetDateTime

def epoch : OffsetDateTime := ⟨0, 0, by decide, by decide⟩

/-- Instants compare by their nanoseconds, whatever the offset. -/
def before (a b : OffsetDateTime) : Bool := a.unixTimestampNanos < b.unixTimestampNanos

def same (a b : OffsetDateTime) : Bool := a.unixTimestampNanos = b.unixTimestampNanos

end OffsetDateTime

/-- `from <= target < to`, where a missing bound does not bound. -/
def within (start stop : Option OffsetDateTime) (target : OffsetDateTime) : Bool :=
  (start.all fun t => !target.before t) && stop.all fun t => target.before t

structure Date where
  julianDay : Int
  range : -2 ^ 31 ≤ julianDay ∧ julianDay < 2 ^ 31
deriving DecidableEq

structure Duration where
  wholeNanoseconds : Int128
deriving DecidableEq

/-! ## Typed values -/

structure DecimalValue where
  coefficient : Int128
  scale : UInt8
deriving DecidableEq

structure MoneyValue where
  amountMinor : Int128
  currency : String
deriving DecidableEq

structure QuantityValue where
  amount : DecimalValue
  unit : String
deriving DecidableEq

inductive TypedValue where
  | bool (value : Bool)
  | string (value : String)
  | integer (value : Int128)
  | decimal (value : DecimalValue)
  | date (value : Date)
  | dateTime (value : OffsetDateTime)
  | duration (value : Duration)
  | conceptRef (value : String)
  | resourceRef (value : ResourceId)
  | list (items : List TypedValue)
  | set (items : List TypedValue)
  | money (value : MoneyValue)
  | quantity (value : QuantityValue)

namespace TypedValue

mutual

/-- The derived equality; it takes instants by their nanoseconds. -/
def same : TypedValue → TypedValue → Bool
  | bool a, bool b => a = b
  | string a, string b => a = b
  | integer a, integer b => a = b
  | decimal a, decimal b => a = b
  | date a, date b => a = b
  | dateTime a, dateTime b => a.same b
  | duration a, duration b => a = b
  | conceptRef a, conceptRef b => a = b
  | resourceRef a, resourceRef b => a = b
  | list a, list b => sameItems a b
  | set a, set b => sameItems a b
  | money a, money b => a = b
  | quantity a, quantity b => a = b
  | _, _ => false

def sameItems : List TypedValue → List TypedValue → Bool
  | [], [] => true
  | a :: as, b :: bs => same a b && sameItems as bs
  | _, _ => false

end

def items : TypedValue → List TypedValue
  | .list items => items
  | .set items => items
  | _ => []

/-- Induction over a value by its members. -/
theorem induction {P : TypedValue → Prop} (step : ∀ v, (∀ w ∈ v.items, P w) → P v)
    (v : TypedValue) :
    P v := by
  induction v using TypedValue.rec (motive_2 := fun vs => ∀ w ∈ vs, P w) with
  | list vs ih => exact step _ ih
  | set vs ih => exact step _ ih
  | nil w hw => cases hw
  | cons v vs ih ihs w hw => exact List.forall_mem_cons.mpr ⟨ih, ihs⟩ w hw
  | _ => exact step _ (by simp [items])

end TypedValue

/-! ## Relations -/

inductive RelationNamespace where
  | discovery
  | semantic
  | evidence
deriving DecidableEq

structure RelationParticipant where
  role : String
  resourceRef : ResourceId
deriving DecidableEq

/-- Participants are ordered by role, then by resource. -/
def RelationParticipant.key (p : RelationParticipant) : String ×ₗ Uuid :=
  toLex (p.role, p.resourceRef)

structure RelationTemporalScope where
  (validFrom validTo : Option OffsetDateTime)

def RelationTemporalScope.contains (scope : RelationTemporalScope) (target : OffsetDateTime) :
    Bool :=
  within scope.validFrom scope.validTo target

inductive RetentionMode where
  | persistentResource
  | persistentDiscoveryMetadata
  | cacheWithExpiry
  | sessionOnly
  | noRetention
deriving DecidableEq

/-- The retention modes that admit persistent graph state. -/
def RetentionMode.isPersistent : RetentionMode → Bool
  | persistentResource | persistentDiscoveryMetadata => true
  | _ => false

/-- Qualifiers by key. -/
abbrev Qualifiers := OrderedMap String TypedValue

structure TypedRelationInstance where
  relationId : RelationId
  namespaceOf : RelationNamespace
  relationType : String
  participants : List RelationParticipant
  qualifiers : Qualifiers
  temporalScope : RelationTemporalScope
  (authority provenance : Option String)
  evidenceRefs : List String

/-- Equality of instants that may be missing. -/
def sameInstant : Option OffsetDateTime → Option OffsetDateTime → Bool
  | none, none => true
  | some a, some b => a.same b
  | _, _ => false

namespace TypedRelationInstance

def sameQualifiers : List (String × TypedValue) → List (String × TypedValue) → Bool
  | [], [] => true
  | (k, a) :: as, (l, b) :: bs => k = l && a.same b && sameQualifiers as bs
  | _, _ => false

/-- The derived equality. -/
def same (a b : TypedRelationInstance) : Bool :=
  a.relationId = b.relationId && a.namespaceOf = b.namespaceOf && a.relationType = b.relationType &&
    a.participants = b.participants && sameQualifiers a.qualifiers.entries b.qualifiers.entries &&
    sameInstant a.temporalScope.validFrom b.temporalScope.validFrom &&
    sameInstant a.temporalScope.validTo b.temporalScope.validTo && a.authority = b.authority &&
    a.provenance = b.provenance && a.evidenceRefs = b.evidenceRefs

def hasParticipant (r : TypedRelationInstance) (role : String) (resource : Option ResourceId) :
    Bool :=
  r.participants.any fun p => p.role = role && resource.all fun id => p.resourceRef = id

def validate (r : TypedRelationInstance) : Except String Unit := do
  ensure (¬ (r.relationType = "" ∨ r.participants.length < 2))
    "relation requires a type and at least two participants"
  ensure (¬ r.participants.any (fun p => p.role = "") = true) "participant role must be nonempty"
  ensure (∀ start ∈ r.temporalScope.validFrom, ∀ stop ∈ r.temporalScope.validTo,
    start.before stop = true) "relation temporal interval must be ordered"

/-- Participants in order, evidence in order and without repetitions. -/
def normalized (r : TypedRelationInstance) : TypedRelationInstance :=
  { r with
    participants := r.participants.insertionSort fun a b => a.key ≤ b.key
    evidenceRefs := (r.evidenceRefs.insertionSort (· ≤ ·)).destutter (· ≠ ·) }

end TypedRelationInstance

/-! ## Plans -/

structure RelationPathPattern where
  namespaceOf : RelationNamespace
  (relationType fromRole toRole : String)
  (fromResource toResource : Option ResourceId)
  requiredParticipants : List RelationParticipant

def RelationPathPattern.matchesRelation (pattern : RelationPathPattern)
    (r : TypedRelationInstance) : Bool :=
  r.namespaceOf = pattern.namespaceOf && r.relationType = pattern.relationType &&
    r.hasParticipant pattern.fromRole pattern.fromResource &&
    r.hasParticipant pattern.toRole pattern.toResource &&
    pattern.requiredParticipants.all fun p => r.hasParticipant p.role (some p.resourceRef)

structure TraversalBudget where
  (maxHops maxRelations maxBranchingPerNode maxSeedNodes maxPaths : Nat)

/-- Of the temporal context only the target is read. -/
structure GraphTraversalPlan where
  seedNodes : List ResourceId
  pathPatterns : List RelationPathPattern
  allowedRelationTypes : List String
  allowedNamespaces : List RelationNamespace
  authorityRequirement : Option String
  temporalTarget : Option OffsetDateTime
  accessContext : String
  expansionBudget : TraversalBudget
  stopConditions : List String

namespace GraphTraversalPlan

def validate (plan : GraphTraversalPlan) : Except String Unit := do
  ensure (¬ (plan.seedNodes = [] ∨ plan.pathPatterns = [] ∨ plan.allowedRelationTypes = [] ∨
    plan.allowedNamespaces = [])) "traversal requires seed and relation constraints"
  ensure (¬ (plan.accessContext = "" ∨ plan.temporalTarget = none))
    "traversal requires access and temporal context"
  ensure (¬ (plan.expansionBudget.maxHops = 0 ∨ plan.expansionBudget.maxRelations = 0 ∨
    plan.expansionBudget.maxBranchingPerNode = 0 ∨ plan.expansionBudget.maxSeedNodes = 0 ∨
    plan.expansionBudget.maxPaths = 0)) "traversal requires finite positive budgets"
  ensure (plan.seedNodes.length ≤ plan.expansionBudget.maxSeedNodes) "graph seed budget exceeded"
  ensure (plan.stopConditions = []) "graph stop conditions are not supported"

def allows (plan : GraphTraversalPlan) (r : TypedRelationInstance) : Bool :=
  plan.validate.isOk && r.validate.isOk &&
    (plan.allowedNamespaces.contains r.namespaceOf &&
      plan.allowedRelationTypes.contains r.relationType &&
      plan.pathPatterns.any (·.matchesRelation r) &&
      (plan.authorityRequirement.all fun required => r.authority = some required) &&
      plan.temporalTarget.any r.temporalScope.contains)

end GraphTraversalPlan

/-! ## Evidence of a path -/

structure GraphPathStepEvidence where
  relationId : RelationId
  namespaceOf : RelationNamespace
  (relationType fromRole : String)
  fromResource : ResourceId
  toRole : String
  toResource : ResourceId
  participants : List RelationParticipant
  evidenceRefs : List String
  provenance : Option String
deriving DecidableEq

structure GraphPathEvidence where
  resourcePath : List ResourceId
  steps : List GraphPathStepEvidence
deriving DecidableEq

def RelationNamespace.rank : RelationNamespace → Nat
  | discovery => 0
  | semantic => 1
  | evidence => 2

/-- The fields of a step in the order it is compared by. -/
def GraphPathStepEvidence.key (s : GraphPathStepEvidence) :
    Uuid ×ₗ Nat ×ₗ String ×ₗ String ×ₗ Uuid ×ₗ String ×ₗ Uuid ×ₗ List (String ×ₗ Uuid) ×ₗ
      List String ×ₗ WithBot String :=
  toLex (s.relationId, toLex (s.namespaceOf.rank, toLex (s.relationType, toLex (s.fromRole,
    toLex (s.fromResource, toLex (s.toRole, toLex (s.toResource,
      toLex (s.participants.map RelationParticipant.key,
        toLex (s.evidenceRefs, s.provenance)))))))))

def GraphPathEvidence.key (p : GraphPathEvidence) :=
  toLex (p.resourcePath, p.steps.map GraphPathStepEvidence.key)

/-- Paths in order, without repetitions. -/
def sortedPaths (paths : List GraphPathEvidence) : List GraphPathEvidence :=
  (paths.insertionSort fun a b => a.key ≤ b.key).destutter (· ≠ ·)

/-! ## Expansion -/

inductive SearchError where
  | invalidRequest (reason : String)
  | sourceUnavailable (reason : String)
  | operationFailed (reason : String)
  | fenceLost
  | completionUnknown
  /-- No error value: the thread panics. -/
  | panicked
deriving DecidableEq

inductive AccessDecision where
  | allowed
  | denied
  | unknown

def invalid (reason : String) : SearchError := .invalidRequest reason

structure TemporalDiscoveryProfile where
  freshnessAnchorAt : Option OffsetDateTime
  freshnessBasis : Option String
  (effectiveFrom effectiveTo : Option OffsetDateTime)

structure TemporalProjection where
  resourceRef : ResourceId
  (validFrom validTo : Option OffsetDateTime)
  profile : TemporalDiscoveryProfile

/-- The target lies in both windows. Valid plans have a target. -/
def TemporalProjection.validFor (temporal : TemporalProjection) (plan : GraphTraversalPlan) :
    Bool :=
  plan.temporalTarget.any fun target => within temporal.validFrom temporal.validTo target &&
    within temporal.profile.effectiveFrom temporal.profile.effectiveTo target

structure PartialPath where
  current : ResourceId
  resourcePath : List ResourceId
  steps : List GraphPathStepEvidence
deriving DecidableEq

namespace PartialPath

def seed (id : ResourceId) : PartialPath := ⟨id, [id], []⟩

def evidence (path : PartialPath) : GraphPathEvidence := ⟨path.resourcePath, path.steps⟩

/-- One more step of the path, to a participant of the relation. -/
def extend (path : PartialPath) (pattern : RelationPathPattern) (r : TypedRelationInstance)
    (target : ResourceId) : PartialPath where
  current := target
  resourcePath := path.resourcePath ++ [target]
  steps := path.steps ++ [{
    relationId := r.relationId
    namespaceOf := r.namespaceOf
    relationType := r.relationType
    fromRole := pattern.fromRole
    fromResource := path.current
    toRole := pattern.toRole
    toResource := target
    participants := r.participants
    evidenceRefs := r.evidenceRefs
    provenance := r.provenance }]

end PartialPath

/-- A seed or a frontier grows by one path. -/
def addSeed (plan : GraphTraversalPlan) (frontier : List PartialPath) (id : ResourceId) :
    Except SearchError (List PartialPath) := do
  ensure ((checkedCount frontier.length 1).any (· ≤ plan.expansionBudget.maxPaths) = true)
    (invalid "graph path budget exceeded")
  return frontier ++ [.seed id]

/-- The relation is one the plan allows, matches this pattern, and starts at the path's end. -/
def follows (plan : GraphTraversalPlan) (pattern : RelationPathPattern) (path : PartialPath)
    (r : TypedRelationInstance) : Bool :=
  plan.allows r && pattern.matchesRelation r && pattern.fromResource.all (· = path.current) &&
    r.hasParticipant pattern.fromRole (some path.current)

def targets (pattern : RelationPathPattern) (r : TypedRelationInstance) :
    List RelationParticipant :=
  r.participants.filter fun p => p.role = pattern.toRole &&
    pattern.toResource.all (· = p.resourceRef)

/-- What the relations of one path gave so far. -/
structure Expansion where
  branches : List PartialPath
  relations : Nat

/-- The paths of the next frontier, and the relations expanded so far. -/
structure Level where
  next : List PartialPath
  expanded : Nat

section

variable (plan : GraphTraversalPlan) (pattern : RelationPathPattern) (path : PartialPath)
  (level : Level)

def addBranch (r : TypedRelationInstance) (branches : List PartialPath) (p : RelationParticipant) :
    Except SearchError (List PartialPath) := do
  let count ← okOr (checkedCount branches.length 1) (invalid "graph path budget exceeded")
  ensure (count ≤ plan.expansionBudget.maxBranchingPerNode)
    (invalid "graph branching budget exceeded")
  ensure ((checkedCount level.next.length count).any (· ≤ plan.expansionBudget.maxPaths) = true)
    (invalid "graph path budget exceeded")
  return branches ++ [path.extend pattern r p.resourceRef]

/-- A relation that added a branch counts against the relation budget. -/
def countRelation (before : Expansion) (branches : List PartialPath) :
    Except SearchError Expansion :=
  if before.branches.length < branches.length then do
    let relations ← okOr (checkedCount before.relations 1)
      (invalid "graph relation budget exceeded")
    ensure ((checkedCount level.expanded relations).any
      (· ≤ plan.expansionBudget.maxRelations) = true) (invalid "graph relation budget exceeded")
    return ⟨branches, relations⟩
  else return ⟨branches, before.relations⟩

def expandRelation (x : Expansion) (r : TypedRelationInstance) : Except SearchError Expansion := do
  let branches ← (targets pattern r).foldlM (addBranch plan pattern path level r) x.branches
  countRelation plan level x branches

def addPaths (x : Expansion) : Except SearchError Level := do
  let expanded ← okOr (checkedCount level.expanded x.relations) (invalid "graph budget exceeded")
  return ⟨level.next ++ x.branches, expanded⟩

end

/-! ## Hits -/

structure ProjectionGenerationKey where
  sourceId : SourceId
  generationId : ProjectionGenerationId
deriving DecidableEq

inductive CandidateIdentityClass where
  | durableResource
  | remoteStableReference
  | ephemeralCandidate
deriving DecidableEq

/-- A candidate, without the fields that a graph reader leaves empty. -/
structure FederatedCandidate where
  candidateId : String
  identityClass : CandidateIdentityClass
  resourceRef : Option ResourceId
  sourceRef : SourceId
  retrievalMethod : String
  retrievalTraceRef : Option String
deriving DecidableEq

structure GraphRetrievalHit where
  candidate : FederatedCandidate
  paths : List GraphPathEvidence
deriving DecidableEq

structure GraphRetrievalResult where
  generation : ProjectionGenerationKey
  hits : List GraphRetrievalHit
deriving DecidableEq

def candidateOf (key : ProjectionGenerationKey) (id : ResourceId) : FederatedCandidate where
  candidateId := key.sourceId.text ++ ":" ++ id.text
  identityClass := .durableResource
  resourceRef := some id
  sourceRef := key.sourceId
  retrievalMethod := "hypergraph"
  retrievalTraceRef := some (key.sourceId.text ++ ":" ++ key.generationId.text)

/-- The paths grouped by the resource they end at, in resource order. -/
def group (key : ProjectionGenerationKey) (frontier : List PartialPath) : GraphRetrievalResult where
  generation := key
  hits := (Keyed.ofList id (frontier.map PartialPath.current)).map fun id => {
    candidate := candidateOf key id
    paths := sortedPaths
      ((frontier.filter fun path => path.current = id).map PartialPath.evidence) }

end KnowledgePlatform.Graph
