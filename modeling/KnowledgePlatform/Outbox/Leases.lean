import KnowledgePlatform.Lib.Matching
import KnowledgePlatform.Lib.Run
import KnowledgePlatform.Outbox.Delivery

/-! Any number of workers calling the delivery operations on one outbox table, each call one
transaction, under a database clock that never goes back and lease tokens never issued before. -/

namespace KnowledgePlatform.Outbox

open List

inductive Call where
  | claim (expected : DeliveryPolicy) (owner : Uuid) (limit : Nat) (lease : Duration)
      (locked : List Uuid) (token : Uuid → Uuid)
  | renew (expected : DeliveryPolicy) (eventId token : Uuid) (lease : Duration)
  | settleSuccess (eventId token : Uuid)
  | settleFailure (expected : DeliveryPolicy) (eventId token : Uuid) (code : ErrorCode)
      (terminal : Bool) (backoff : Duration)
  | reapExhausted (expected : DeliveryPolicy) (limit : Nat) (locked : List Uuid)

inductive Reply where
  | claimed (events : List ClaimedEvent)
  | fence (result : FenceResult)
  | reaped (count : Nat)

def Call.run (c : Call) (t : Time) (db : Database) : Except DeliveryError (Reply × Database) :=
  match c with
  | .claim expected owner limit lease locked token => do
    let (events, db) ← db.claim expected owner limit lease locked token t
    return (.claimed events, db)
  | .renew expected eventId token lease => do
    let (result, db) ← db.renew expected eventId token lease t
    return (.fence result, db)
  | .settleSuccess eventId token =>
    let (result, db) := db.settleSuccess eventId token t
    .ok (.fence result, db)
  | .settleFailure expected eventId token code terminal backoff => do
    let (result, db) ← db.settleFailure expected eventId token code terminal backoff t
    return (.fence result, db)
  | .reapExhausted expected limit locked => do
    let (count, db) ← db.reapExhausted expected limit locked t
    return (.reaped count, db)

/-- What one step of the system was. A call's `committed` is what its transaction did, its
`reply` what the worker was told: a lost connection leaves the two apart. -/
inductive Label where
  | call (c : Call) (t : Time) (committed : Option Reply) (reply : Except DeliveryError Reply)
  | insert (envelope : DeliveryEnvelope)
  | rollout (policy : DeliveryPolicy)

/-- The table with the latest database time and every lease token issued so far. -/
structure State where
  db : Database
  clock : Time
  issued : List Uuid

def Reply.tokens : Reply → List Uuid
  | .claimed events => events.map ClaimedEvent.leaseToken
  | _ => []

/-- `gen_random_uuid()` answers no token twice. -/
def Call.Fresh (c : Call) (issued : List Uuid) : Prop :=
  match c with
  | .claim _ _ _ _ _ token => ∀ id, token id ∉ issued
  | _ => True

inductive Step : State → Label → State → Prop where
  | answered {s c t reply db} : s.clock ≤ t → c.Fresh s.issued → c.run t s.db = .ok (reply, db) →
      Step s (.call c t (some reply) (.ok reply)) ⟨db, t, reply.tokens ++ s.issued⟩
  | unreported {s c t reply db} : s.clock ≤ t → c.Fresh s.issued →
      c.run t s.db = .ok (reply, db) →
      Step s (.call c t (some reply) (.error .storeUnknown)) ⟨db, t, reply.tokens ++ s.issued⟩
  | refused {s c t error} : s.clock ≤ t → c.run t s.db = .error error →
      Step s (.call c t none (.error error)) ⟨s.db, t, s.issued⟩
  | rolledBack {s c t} : s.clock ≤ t →
      Step s (.call c t none (.error .storeUnknown)) ⟨s.db, t, s.issued⟩
  | insert {s envelope} : (∀ r ∈ s.db.rows, r.eventId ≠ envelope.eventId) →
      Step s (.insert envelope)
        { s with db := { s.db with rows := s.db.rows ++ [Row.inserted envelope] } }
  | rollout {s policy} : policy.Valid →
      Step s (.rollout policy) { s with db := { s.db with policy := some policy } }

/-! ## What the history says about leases -/

structure Lease where
  token : Uuid
  expiresAt : Time

/-- The lease of `id` after a committed call, given the lease before it. -/
def Call.lease (c : Call) (id : Uuid) (t : Time) (reply : Reply) (before : Option Lease) :
    Option Lease :=
  match c, reply with
  | .claim .., .claimed events =>
    match events.find? fun e => e.envelope.eventId = id with
    | some e => some ⟨e.leaseToken, e.leaseExpiresAt⟩
    | none => before
  | .renew _ eventId _ lease, .fence .updated =>
    if eventId = id then before.map fun l => { l with expiresAt := t + millis lease.asMillis }
    else before
  | .settleSuccess eventId _, .fence .updated => if eventId = id then none else before
  | .settleFailure _ eventId .., .fence .updated => if eventId = id then none else before
  | _, _ => before

/-- The lease of the most recent claim of `id`, with its latest deadline, unless a settlement
ended it. Only the committed replies of the history are read, never the table. -/
def leaseOf (id : Uuid) : List Label → Option Lease
  | [] => none
  | .call c t (some reply) _ :: older => c.lease id t reply (leaseOf id older)
  | _ :: older => leaseOf id older

/-- `c` presents `token` for `id` to renew or settle its lease. -/
def Call.Presents (c : Call) (id token : Uuid) : Prop :=
  match c with
  | .renew _ eventId presented _ => eventId = id ∧ presented = token
  | .settleSuccess eventId presented => eventId = id ∧ presented = token
  | .settleFailure _ eventId presented .. => eventId = id ∧ presented = token
  | _ => False

def Call.settles (c : Call) (reply : Reply) (id token : Uuid) : Bool :=
  match c, reply with
  | .settleSuccess eventId presented, .fence .updated => eventId = id ∧ presented = token
  | .settleFailure _ eventId presented .., .fence .updated => eventId = id ∧ presented = token
  | _, _ => false

/-- A settlement of the claim that issued `token` for `id` took effect. -/
def Label.settles (id token : Uuid) : Label → Bool
  | .call c _ (some reply) _ => c.settles reply id token
  | _ => false

/-! ## What a committed call does to one row -/

inductive Effect (policy : Option DeliveryPolicy) (c : Call) (t : Time) (reply : Reply) (r : Row) :
    Row → Prop where
  | kept : (∀ before, c.lease r.eventId t reply before = before) →
      (∀ token, c.settles reply r.eventId token = false) → Effect policy c t reply r r
  | claimed {p owner token ms} : policy = some p → r.Claimable p.maxAttempts t →
      token ∈ reply.tokens → (∀ issued, c.Fresh issued → token ∉ issued) →
      (∀ before, c.lease r.eventId t reply before = some ⟨token, t + millis ms⟩) →
      (∀ other, c.settles reply r.eventId other = false) →
      Effect policy c t reply r (r.claimed p.maxAttempts owner token ms t)
  | renewed {token ms} : c.Presents r.eventId token → r.Held token t →
      (∀ before, c.lease r.eventId t reply before =
        before.map fun l => { l with expiresAt := t + millis ms }) →
      (∀ other, c.settles reply r.eventId other = false) →
      Effect policy c t reply r (r.renewed ms t)
  | delivered {token} : c.Presents r.eventId token → r.Held token t →
      (∀ other, c.settles reply r.eventId other = decide (token = other)) →
      Effect policy c t reply r (r.delivered t)
  | failed {token code terminal ms} : c.Presents r.eventId token → r.Held token t →
      (∀ other, c.settles reply r.eventId other = decide (token = other)) →
      Effect policy c t reply r (r.failed code terminal ms t)
  | reaped : r.Reapable t → (∀ before, c.lease r.eventId t reply before = before) →
      (∀ token, c.settles reply r.eventId token = false) →
      Effect policy c t reply r (r.reaped t)

theorem Effect.eventId {policy c t reply r r'} (h : Effect policy c t reply r r') :
    r'.eventId = r.eventId := by
  cases h <;> rfl

/-- Every row of the table, through a committed call. -/
def Effects (c : Call) (t : Time) (reply : Reply) (db after : Database) : Prop :=
  after.policy = db.policy ∧ ∃ f : Row → Row, after.rows = db.rows.map f ∧
    ∀ r ∈ db.rows, Effect db.policy c t reply r (f r)

/-- The primary key. -/
def Database.Keyed (db : Database) : Prop := (db.rows.map Row.eventId).Nodup

variable {db : Database}

theorem Database.Keyed.eq (h : db.Keyed) {a b : Row} (ha : a ∈ db.rows) (hb : b ∈ db.rows)
    (same : a.eventId = b.eventId) : a = b :=
  inj_on_of_nodup_map h ha hb same

variable {expected : DeliveryPolicy}

theorem Database.guardPolicy_ok {dbMax : Int} (h : db.guardPolicy expected = .ok dbMax) :
    ∃ p, db.policy = some p ∧ p.maxAttempts = dbMax := by
  unfold Database.guardPolicy at h
  split at h
  · cases h
  next p policy =>
    split at h
    · cases h
    · dsimp only at h
      split at h
      · cases h
      · cases h
        exact ⟨p, policy, rfl⟩

variable {limit : Nat} {locked : List Uuid}

theorem Database.mem_select {p : Row → Prop} [DecidablePred p] {order : Row → Row → Bool} {r : Row}
    (h : r ∈ db.select p order limit locked) : p r := by
  have h := (mem_insertionSort _).mp (mem_of_mem_take h)
  simp only [mem_filter, decide_eq_true_eq] at h
  exact h.2.1

/-- A RETURNING row of `claim` has every column its event requires. -/
theorem mapClaimed_claimed (rows : List Row) (dbMax : Int) (owner : Uuid) (token : Uuid → Uuid)
    (ms : Int) (t : Time) :
    (rows.map fun r => r.claimed dbMax owner (token r.eventId) ms t).mapM Row.mapClaimed =
      .ok (rows.map fun r => ⟨r.envelope, r.attemptCount + 1, r.attemptLimit.getD dbMax,
        token r.eventId, owner, t + millis ms⟩) := by
  induction rows with
  | nil => rfl
  | cons r rows ih =>
    rw [map_cons, mapM_cons, ih]
    rfl

theorem find_event {rows : List Row} (keyed : (rows.map Row.eventId).Nodup)
    (event : Row → ClaimedEvent) (envelope : ∀ r, (event r).envelope = r.envelope)
    (picks : Row → Bool) {r : Row} (hr : r ∈ rows) :
    ((rows.filter picks).map event).find? (fun e => e.envelope.eventId = r.eventId) =
      if picks r then some (event r) else none := by
  have same : ∀ a ∈ rows, a.eventId = r.eventId → a = r := fun a ha =>
    inj_on_of_nodup_map keyed ha hr
  simp only [find?_map, Function.comp_def, envelope]
  split
  next picked =>
    have found : (rows.filter picks).find? (fun a => a.eventId = r.eventId) = some r :=
      find?_of_mem (keyed.sublist (filter_sublist.map _)) (mem_filter.mpr ⟨hr, picked⟩)
    rw [found, Option.map_some]
  next skipped =>
    rw [Option.map_eq_none_iff, find?_eq_none]
    intro a ha id
    obtain ⟨ha, picked⟩ := mem_filter.mp ha
    rw [same a ha (of_decide_eq_true id)] at picked
    exact skipped picked

variable {after : Database} {lease : Duration} {t : Time}

theorem Database.claim_effects {owner : Uuid} {token : Uuid → Uuid} {events : List ClaimedEvent}
    (keyed : db.Keyed)
    (h : db.claim expected owner limit lease locked token t = .ok (events, after)) :
    Effects (.claim expected owner limit lease locked token) t (.claimed events) db after := by
  obtain ⟨_, -, h⟩ := except_bind_ok h
  obtain ⟨ms, -, h⟩ := except_bind_ok h
  obtain ⟨dbMax, guard, h⟩ := except_bind_ok h
  obtain ⟨p, policy, rfl⟩ := guardPolicy_ok guard
  dsimp only at h
  rw [mapClaimed_claimed] at h
  cases h
  refine ⟨rfl, _, rfl, fun r hr => ?_⟩
  have found := find_event keyed (fun r => ⟨r.envelope, r.attemptCount + 1,
    r.attemptLimit.getD p.maxAttempts, token r.eventId, owner, t + millis ms⟩) (fun _ => rfl)
    (fun r => decide (r ∈ db.select (Row.Claimable p.maxAttempts t) Row.claimOrder limit locked))
    hr
  by_cases picked : r ∈ db.select (Row.Claimable p.maxAttempts t) Row.claimOrder limit locked
  · simp only [picked, decide_true, if_true] at found ⊢
    refine .claimed policy (mem_select picked) ?_ (fun _ fresh => fresh _) ?_ (fun _ => rfl)
    · simp only [Reply.tokens, map_map, mem_map, mem_filter]
      exact ⟨r, ⟨hr, by simpa using picked⟩, rfl⟩
    · intro before
      simp only [Call.lease, found]
  · simp only [picked, decide_false, Bool.false_eq_true, if_false] at found ⊢
    refine .kept ?_ (fun _ => rfl)
    intro before
    simp only [Call.lease, found]

variable {eventId : Uuid} {result : FenceResult}

/-- The three fenced calls at once: a row that passes the fence changes and the report is
`Updated`; a row that does not stays, and the report on the named row is then `Lost`. -/
theorem Database.fenced_effects {fence : Row → Prop} [DecidablePred fence] {change : Row → Row}
    {c : Call} (keyed : db.Keyed) (h : db.fenced eventId fence change = (result, after))
    (hit : ∀ r, r.eventId = eventId → fence r → Effect db.policy c t (.fence .updated) r (change r))
    (miss : ∀ r, Effect db.policy c t (.fence .lost) r r)
    (others : ∀ r, eventId ≠ r.eventId → Effect db.policy c t (.fence .updated) r r) :
    Effects c t (.fence result) db after := by
  simp only [fenced, Prod.mk.injEq] at h
  obtain ⟨report, rfl⟩ := h
  refine ⟨rfl, _, rfl, fun r hr => ?_⟩
  by_cases passes : r.eventId = eventId ∧ fence r
  · have any : db.rows.any (fun r => decide (r.eventId = eventId ∧ fence r)) = true :=
      any_eq_true.mpr ⟨r, hr, by simpa using passes⟩
    simp only [any, if_true] at report
    simp only [passes, and_self, decide_true, if_true, ← report]
    exact hit r passes.1 passes.2
  · simp only [passes, decide_false, Bool.false_eq_true, if_false]
    cases result with
    | lost => exact miss r
    | updated =>
      refine others r fun named => ?_
      have none : db.rows.any (fun r => decide (r.eventId = eventId ∧ fence r)) = false := by
        apply any_eq_false.mpr
        intro a ha
        have : ¬ (a.eventId = eventId ∧ fence a) := by
          rintro ⟨id, held⟩
          obtain rfl := keyed.eq ha hr (id.trans named)
          exact passes ⟨id, held⟩
        simpa using this
      rw [none] at report
      cases report

/-- Everything a committed call can do, row by row. -/
theorem Call.run_effects {c : Call} {reply : Reply} (keyed : db.Keyed)
    (h : c.run t db = .ok (reply, after)) : Effects c t reply db after := by
  -- A row that a fenced call reports lost stays, whatever the call.
  have lost (r : Row) : Effect db.policy c t (.fence .lost) r r := by
    cases c <;> exact .kept (fun _ => rfl) fun _ => rfl
  cases c
  case settleSuccess =>
    cases h
    refine Database.fenced_effects keyed rfl ?_ lost ?_
    · rintro r rfl held
      exact .delivered ⟨rfl, rfl⟩ held (fun _ => by simp [Call.settles])
    · intro r other
      exact .kept (fun _ => by simp [Call.lease, other]) (fun _ => by simp [Call.settles, other])
  all_goals
    obtain ⟨⟨_, _⟩, run, h⟩ := except_bind_ok h
    cases h
  case claim => exact Database.claim_effects keyed run
  all_goals
    obtain ⟨_, -, h⟩ := except_bind_ok run
    obtain ⟨_, valid, h⟩ := except_bind_ok h
  case renew =>
    simp only [DeliveryPolicy.validateClaim, DeliveryPolicy.boundedMillis, except_iffs] at valid
    obtain ⟨-, -, -, rfl⟩ := valid
    refine Database.fenced_effects keyed (Except.ok.inj h) ?_ lost ?_
    · rintro r rfl held
      exact .renewed ⟨rfl, rfl⟩ held (fun _ => by simp [Call.lease]) (fun _ => rfl)
    · intro r other
      exact .kept (fun _ => by simp [Call.lease, other]) fun _ => rfl
  case settleFailure =>
    refine Database.fenced_effects keyed (Except.ok.inj h) ?_ lost ?_
    · rintro r rfl ⟨held, -⟩
      exact .failed ⟨rfl, rfl⟩ held (fun _ => by simp [Call.settles])
    · intro r other
      exact .kept (fun _ => by simp [Call.lease, other]) (fun _ => by simp [Call.settles, other])
  case reapExhausted =>
    obtain ⟨_, -, h⟩ := except_bind_ok h
    cases h
    refine ⟨rfl, _, rfl, fun r _ => ?_⟩
    dsimp only
    split
    next picked =>
      exact .reaped (Database.mem_select (of_decide_eq_true picked)) (fun _ => rfl) fun _ => rfl
    · exact .kept (fun _ => rfl) fun _ => rfl

end KnowledgePlatform.Outbox
