import KnowledgePlatform.Json.Value
import KnowledgePlatform.Lib.Except
import Mathlib.Data.List.Sort

/-! The outbox table of the document repository and the five delivery operations on it: bounded
claims, fenced renewal and settlement, and the reaper. Times are database microseconds. -/

namespace KnowledgePlatform.Outbox

abbrev Time := Int

/-- Nanoseconds, as `std::time::Duration` counts them. -/
abbrev Duration := Nat

def Duration.asMillis (d : Duration) : Nat := d / 1000000

def Duration.fromMillis (ms : Nat) : Duration := ms * 1000000

/-- `$n::bigint * interval '1 millisecond'`. -/
def millis (ms : Int) : Time := ms * 1000

inductive ErrorCode where
  | unsupportedEvent
  | invalidEnvelope
  | sourceUnavailable
  | indexingFailed
  | handlerTimeout
  | deliveryUnknown
  | deliveryUnknownAtLimit
deriving DecidableEq

inductive DeliveryError where
  | policyMismatch
  | legacyExhausted (count : Nat) (firstIds : List Uuid)
  | invalidConfig
  | storeUnknown

inductive FenceResult where
  | updated
  | lost

structure DeliveryPolicy where
  (revision maxAttempts leaseMinMs leaseMaxMs backoffMinMs backoffMaxMs : Int)
deriving DecidableEq

namespace DeliveryPolicy

def default : DeliveryPolicy := ⟨1, 8, 1000, 120000, 1000, 300000⟩

/-- The bounds `validate_expected` and the CHECKs of `outbox_delivery_policy` both impose. -/
def Valid (p : DeliveryPolicy) : Prop :=
  0 < p.revision ∧ (1 ≤ p.maxAttempts ∧ p.maxAttempts ≤ 32) ∧
    (1000 ≤ p.leaseMinMs ∧ p.leaseMinMs ≤ 120000) ∧
    (p.leaseMinMs ≤ p.leaseMaxMs ∧ p.leaseMaxMs ≤ 120000) ∧
    (1000 ≤ p.backoffMinMs ∧ p.backoffMinMs ≤ 300000) ∧
    (p.backoffMinMs ≤ p.backoffMaxMs ∧ p.backoffMaxMs ≤ 300000)

instance (p : DeliveryPolicy) : Decidable p.Valid := inferInstanceAs (Decidable (_ ∧ _))

def validateExpected (p : DeliveryPolicy) : Except DeliveryError Unit :=
  ensure p.Valid .invalidConfig

/-- A duration the policy allows: whole milliseconds inside `low..=high`. -/
def boundedMillis (low high : Int) (d : Duration) : Except DeliveryError Int := do
  let ms : Int := d.asMillis
  ensure (InInt64 ms) .invalidConfig
  ensure ((low ≤ ms ∧ ms ≤ high) ∧ d = Duration.fromMillis ms.toNat) .invalidConfig
  return ms

def validateClaim (p : DeliveryPolicy) (limit : Nat) (lease : Duration) :
    Except DeliveryError Int := do
  ensure (1 ≤ limit ∧ limit ≤ 32) .invalidConfig
  boundedMillis p.leaseMinMs p.leaseMaxMs lease

end DeliveryPolicy

structure DeliveryEnvelope where
  eventId : Uuid
  (eventType aggregateType : String)
  aggregateId : Uuid
  payload : Json
  occurredAt : Time
deriving DecidableEq

structure ClaimedEvent where
  envelope : DeliveryEnvelope
  (attempt attemptLimit : Int)
  (leaseToken leaseOwner : Uuid)
  leaseExpiresAt : Time

/-- A row of `outbox_events`, without its trace context. -/
structure Row where
  envelope : DeliveryEnvelope
  availableAt : Time
  attemptCount : Int
  attemptLimit : Option Int
  (leaseToken leaseOwner : Option Uuid)
  (leaseExpiresAt lastAttemptAt deliveredAt deadLetteredAt : Option Time)
  lastErrorCode : Option ErrorCode
deriving DecidableEq

namespace Row

abbrev eventId (r : Row) : Uuid := r.envelope.eventId

/-- What every `INSERT INTO outbox_events` of the repository writes. -/
def inserted (envelope : DeliveryEnvelope) : Row :=
  ⟨envelope, envelope.occurredAt, 0, none, none, none, none, none, none, none, none⟩

/-- `delivered_at IS NULL AND dead_lettered_at IS NULL`. -/
def Open (r : Row) : Prop := r.deliveredAt = none ∧ r.deadLetteredAt = none

instance (r : Row) : Decidable r.Open := inferInstanceAs (Decidable (_ ∧ _))

/-- `attempt_limit IS NULL AND attempt_count >= $1` on an open row. -/
def LegacyExhausted (dbMax : Int) (r : Row) : Prop :=
  r.Open ∧ r.attemptLimit = none ∧ dbMax ≤ r.attemptCount

instance (dbMax : Int) (r : Row) : Decidable (r.LegacyExhausted dbMax) :=
  inferInstanceAs (Decidable (_ ∧ _))

/-- The WHERE clause of `claim`. -/
def Claimable (dbMax : Int) (t : Time) (r : Row) : Prop :=
  r.Open ∧ r.availableAt ≤ t ∧ (∀ e ∈ r.leaseExpiresAt, e ≤ t) ∧
    r.attemptCount < r.attemptLimit.getD dbMax

instance (dbMax : Int) (t : Time) (r : Row) : Decidable (r.Claimable dbMax t) :=
  inferInstanceAs (Decidable (_ ∧ _))

/-- The WHERE clause of `reap_exhausted`; a comparison with a missing expiry is not true. -/
def Reapable (t : Time) (r : Row) : Prop :=
  r.Open ∧ (∃ limit ∈ r.attemptLimit, limit ≤ r.attemptCount) ∧
    (r.leaseToken = none ∨ ∃ e ∈ r.leaseExpiresAt, e ≤ t)

instance (t : Time) (r : Row) : Decidable (r.Reapable t) := inferInstanceAs (Decidable (_ ∧ _))

/-- The fence of `renew` and the settlements: the presented token, an open row, a live lease. -/
def Held (token : Uuid) (t : Time) (r : Row) : Prop :=
  r.leaseToken = some token ∧ r.Open ∧ ∃ e ∈ r.leaseExpiresAt, t < e

instance (token : Uuid) (t : Time) (r : Row) : Decidable (r.Held token t) :=
  inferInstanceAs (Decidable (_ ∧ _))

def claimed (dbMax : Int) (owner token : Uuid) (leaseMs : Int) (t : Time) (r : Row) : Row :=
  { r with
    attemptCount := r.attemptCount + 1
    attemptLimit := some (r.attemptLimit.getD dbMax)
    leaseToken := some token
    leaseOwner := some owner
    leaseExpiresAt := some (t + millis leaseMs)
    lastAttemptAt := some t }

def unleased (r : Row) : Row :=
  { r with leaseToken := none, leaseOwner := none, leaseExpiresAt := none }

def renewed (leaseMs : Int) (t : Time) (r : Row) : Row :=
  { r with leaseExpiresAt := some (t + millis leaseMs) }

def delivered (t : Time) (r : Row) : Row :=
  { r.unleased with deliveredAt := some t }

/-- `$4::boolean OR attempt_count >= attempt_limit`. -/
def Final (terminal : Bool) (r : Row) : Prop :=
  terminal = true ∨ ∃ limit ∈ r.attemptLimit, limit ≤ r.attemptCount

instance (terminal : Bool) (r : Row) : Decidable (r.Final terminal) :=
  inferInstanceAs (Decidable (_ ∨ _))

def failed (code : ErrorCode) (terminal : Bool) (backoffMs : Int) (t : Time) (r : Row) : Row :=
  { r.unleased with
    availableAt := if r.Final terminal then r.availableAt else t + millis backoffMs
    deadLetteredAt := if r.Final terminal then some t else none
    lastErrorCode := some code }

def reaped (t : Time) (r : Row) : Row :=
  { r.unleased with
    deadLetteredAt := some t
    lastErrorCode := some .deliveryUnknownAtLimit }

/-- Reads a RETURNING row; a NULL in a column the event requires is an unknown store result. -/
def mapClaimed (r : Row) : Except DeliveryError ClaimedEvent :=
  match r.attemptLimit, r.leaseToken, r.leaseOwner, r.leaseExpiresAt with
  | some limit, some token, some owner, some expires =>
    .ok ⟨r.envelope, r.attemptCount, limit, token, owner, expires⟩
  | _, _, _, _ => .error .storeUnknown

/-- `ORDER BY available_at, occurred_at, event_id`. -/
def claimOrder (a b : Row) : Bool :=
  a.availableAt < b.availableAt ∨ (a.availableAt = b.availableAt ∧
    (a.envelope.occurredAt < b.envelope.occurredAt ∨
      (a.envelope.occurredAt = b.envelope.occurredAt ∧ a.eventId.le b.eventId)))

/-- `last_attempt_at NULLS FIRST` before `event_id`. -/
def reapOrder (a b : Row) : Bool :=
  match a.lastAttemptAt, b.lastAttemptAt with
  | none, none => a.eventId.le b.eventId
  | none, some _ => true
  | some _, none => false
  | some x, some y => x < y ∨ (x = y ∧ a.eventId.le b.eventId)

end Row

/-! ## The operations -/

structure Database where
  policy : Option DeliveryPolicy
  rows : List Row

namespace Database
variable (db : Database) (expected : DeliveryPolicy)

/-- One UPDATE: every row that `picks` selects becomes `change` of it. -/
def update (picks : Row → Bool) (change : Row → Row) : Database :=
  { db with rows := db.rows.map fun r => if picks r then change r else r }

/-- `ORDER BY ... LIMIT ... FOR UPDATE SKIP LOCKED` over the rows that satisfy the WHERE clause;
`locked` are the rows other transactions hold at that moment. A row stands for its `event_id`,
the table's primary key. -/
def select (p : Row → Prop) [DecidablePred p] (order : Row → Row → Bool) (limit : Nat)
    (locked : List Uuid) : List Row :=
  ((db.rows.filter fun r => p r ∧ r.eventId ∉ locked).insertionSort
    (fun a b => order a b = true)).take limit

/-- The count and the first 32 ids are diagnostics; any legacy row refuses the call. -/
def guardPolicy : Except DeliveryError Int :=
  match db.policy with
  | none => .error .policyMismatch
  | some p =>
    if p ≠ expected then .error .policyMismatch
    else
      let legacy := db.rows.filter (Row.LegacyExhausted p.maxAttempts)
      if 0 < legacy.length then
        .error (.legacyExhausted legacy.length
          (((legacy.map Row.eventId).insertionSort fun a b => a.le b = true).take 32))
      else .ok p.maxAttempts

def claim (owner : Uuid) (limit : Nat) (lease : Duration) (locked : List Uuid) (token : Uuid → Uuid)
    (t : Time) : Except DeliveryError (List ClaimedEvent × Database) := do
  expected.validateExpected
  let leaseMs ← expected.validateClaim limit lease
  let dbMax ← db.guardPolicy expected
  let picked := db.select (Row.Claimable dbMax t) Row.claimOrder limit locked
  let change := fun r : Row => r.claimed dbMax owner (token r.eventId) leaseMs t
  let claimed ← ((db.rows.filter fun r => r ∈ picked).map change).mapM Row.mapClaimed
  return (claimed, db.update (fun r => r ∈ picked) change)

/-- The shared shape of `renew`, `settle_success` and `settle_failure`: one fenced UPDATE of the
row `eventId`, reported as `Updated` when a row matched. -/
def fenced (eventId : Uuid) (fence : Row → Prop) [DecidablePred fence] (change : Row → Row)
    : FenceResult × Database :=
  let picks := fun r : Row => decide (r.eventId = eventId ∧ fence r)
  (if db.rows.any picks then .updated else .lost, db.update picks change)

def renew (eventId token : Uuid) (lease : Duration) (t : Time) :
    Except DeliveryError (FenceResult × Database) := do
  expected.validateExpected
  let leaseMs ← expected.validateClaim 1 lease
  return db.fenced eventId (Row.Held token t) (Row.renewed leaseMs t)

def settleSuccess (eventId token : Uuid) (t : Time) : FenceResult × Database :=
  db.fenced eventId (Row.Held token t) (Row.delivered t)

def settleFailure (eventId token : Uuid) (code : ErrorCode) (terminal : Bool) (backoff : Duration)
    (t : Time) : Except DeliveryError (FenceResult × Database) := do
  expected.validateExpected
  let backoffMs ←
    DeliveryPolicy.boundedMillis expected.backoffMinMs expected.backoffMaxMs backoff
  return db.fenced eventId (fun r => r.Held token t ∧ r.attemptLimit ≠ none)
    (Row.failed code terminal backoffMs t)

def reapExhausted (limit : Nat) (locked : List Uuid) (t : Time) :
    Except DeliveryError (Nat × Database) := do
  expected.validateExpected
  ensure (1 ≤ limit ∧ limit ≤ 32) .invalidConfig
  let _ ← db.guardPolicy expected
  let exhausted := db.select (Row.Reapable t) Row.reapOrder limit locked
  return ((db.rows.filter fun r => r ∈ exhausted).length,
    db.update (fun r => r ∈ exhausted) (Row.reaped t))

end Database

end KnowledgePlatform.Outbox
